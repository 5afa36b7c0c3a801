import MazdaPort.EngageFirst.Threads

/-!
# MazdaPort.EngageFirst.Source

Whether the car always has a longitudinal source: our frames while the gate is open, the radar
while it is awake, and the radar again once its session is left to lapse.

Both aborts close the gate and leave `radar_hold` as it is, so an abort after the radar has
accepted the session leaves it silent for good. `sourced_iff` lists the steps that lose the source.
-/

namespace MazdaPort
namespace EngageFirst

def Held (s : Sys) : Prop := s.radarHold = true ∧ s.longTx ≠ .returned

/-- The radar is awake or has been released. -/
def AwakeOrReleased (s : Sys) : Prop := s.radar.silent = false ∨ ¬ Held s

/-- Whenever our frames are switched off, the radar is awake or has been released. -/
def SwitchedOffSafe (s : Sys) : Prop := s.longtxGate = false → AwakeOrReleased s

/-- The handover attempt is over, our frames are off, and our tester-present holds the silent
radar's session. -/
def Stranded (s : Sys) : Prop :=
  (s.takeover = .returned ∨ s.takeover = .waiting) ∧ s.longtxGate = false ∧
    s.radar.silent = true ∧ Held s

def Sourced (s : Sys) : Prop := ¬ Stranded s ∧ SwitchedOffSafe s

theorem sourced_iff_switchedOff {s : Sys} : Sourced s ↔ SwitchedOffSafe s := by
  constructor
  · exact And.right
  · intro h
    refine ⟨?_, h⟩
    rintro ⟨-, hgate, hsilent, hheld⟩
    rcases h hgate with hawake | hrel
    · rw [hsilent] at hawake
      cases hawake
    · exact hrel hheld

/-! ## The steps that lose the source -/

def Aborts (s : Sys) : Event → Prop
  | .initEnds true => s.takeover.inInit = true
  | .takeover =>
    match s.takeover with
    | .verifying n0 o0 till => till ≤ s.now ∧ foreign s.rx.census21b n0 s.crzInfoTx o0 > 20
    | _ => False
  | _ => False

def Accepts (s : Sys) (e : Event) : Prop := e = .deliver true ∧ s.radar.requests ≠ 0

/-- No abort while our tester-present holds a silent radar, no re-arming of a silent radar, and no
request accepted while the gate is closed and tester-present flows. -/
structure KeepsSource (s : Sys) (e : Event) : Prop where
  aborts : Aborts s e → AwakeOrReleased s
  rearms : Rearms s e → s.radar.silent = false ∨ s.longTx = .returned
  accepts : Accepts s e → s.longtxGate = true ∨ ¬ Held s

/-! ## The release -/

/-- During the release `radar_hold` is off, and at its end the gate is closed. -/
structure ReleaseInv (s : Sys) : Prop where
  hold : s.takeover.released = true → s.radarHold = false
  gate : s.takeover = .rearming → s.longtxGate = false

theorem ReleaseInv.of_not_released {s : Sys} (h : s.takeover.released = false) : ReleaseInv s := by
  constructor
  · intro hrel
    cases h.symm.trans hrel
  · intro hpc
    rw [hpc] at h
    cases h

theorem releaseInv_start (now : Nat) (rx : Receive) : ReleaseInv (start now rx) :=
  .of_not_released rfl

theorem TakeoverMove.releaseInv {cfg : Config} {s s' : Sys} (hm : TakeoverMove cfg s s')
    (h : ReleaseInv s) : ReleaseInv s' := by
  cases hm with
  | stay => exact h
  | back hpc => exact ⟨fun _ => h.hold (by rw [hpc]; rfl), fun _ => rfl⟩
  | clear hpc => exact ⟨fun _ => h.hold (by rw [hpc]; rfl), fun hnext => by cases hnext⟩
  | listen hpc => exact ⟨fun _ => h.hold (by rw [hpc]; rfl), fun hnext => by cases hnext⟩
  | again hpc => exact ⟨fun _ => h.hold (by rw [hpc]; rfl), fun hnext => by cases hnext⟩
  | drop hpc => exact ⟨fun _ => rfl, fun hnext => by cases hnext⟩
  | quit hstop => exact .of_not_released rfl
  | enter hpc hstop hrx hacc => exact .of_not_released rfl
  | callInit hpc htill => exact .of_not_released rfl
  | stillSending hpc htill hseen => exact .of_not_released rfl
  | complete hpc htill hseen => exact .of_not_released rfl
  | giveUp hpc => exact .of_not_released rfl
  | rearm hpc hstop => exact .of_not_released rfl

theorem releaseInv_step (cfg : Config) (s : Sys) (e : Event) (h : ReleaseInv s) :
    ReleaseInv (step cfg s e) := by
  cases hth : e.ofThread with
  | false =>
    have ho : Outside s (step cfg s e) := step_outside cfg s hth
    constructor
    · intro hrel
      exact ho.hold.trans (h.hold (ho.takeover ▸ hrel))
    · intro hpc
      exact ho.gate.trans (h.gate (ho.takeover.symm.trans hpc))
  | true =>
    cases e with
    | takeover => exact (takeoverStep_move cfg s).releaseInv h
    | initEnds raises =>
      simp only [step, initStep]
      split
      · split
        · exact .of_not_released rfl
        · exact .of_not_released rfl
      · exact h
    | longTx ok =>
      have he : LongTxEffect s (longTxStep cfg ok s) := longTxStep_effect cfg ok s
      constructor
      · intro hrel
        have hoff : s.radarHold = false := h.hold (by rw [← he.takeover]; exact hrel)
        rw [step, he.hold, hoff, Bool.false_and]
      · intro hpc
        exact he.gate.trans (h.gate (he.takeover.symm.trans hpc))
    | _ => cases hth

/-! ## One step -/

theorem TakeoverMove.switchedOff {cfg : Config} {s s' : Sys} (hm : TakeoverMove cfg s s')
    (hi : ReleaseInv s) (hab : ¬ Aborts s .takeover) (hre : ¬ Rearms s .takeover)
    (h : SwitchedOffSafe s) : SwitchedOffSafe s' := by
  cases hm with
  | stay => exact h
  | quit hstop => exact h
  | enter hpc hstop hrx hacc => exact fun hgate => by cases hgate
  | callInit hpc htill => exact h
  | stillSending hpc htill hseen =>
    refine absurd ?_ hab
    simp only [Aborts, hpc]
    exact ⟨htill, hseen⟩
  | complete hpc htill hseen => exact h
  | drop hpc => exact fun _ => .inr fun hheld => by cases hheld.1
  | clear hpc => exact h
  | listen hpc => exact h
  | giveUp hpc =>
    have hoff : s.radarHold = false := hi.hold (by rw [hpc]; rfl)
    exact fun _ => .inr fun hheld => by cases hoff.symm.trans hheld.1
  | back hpc =>
    have hoff : s.radarHold = false := hi.hold (by rw [hpc]; rfl)
    exact fun _ => .inr fun hheld => by cases hoff.symm.trans hheld.1
  | again hpc => exact h
  | rearm hpc hstop => exact absurd ⟨rfl, hpc, hstop⟩ hre

/-- Outside the threads, only an accepted request silences the radar. -/
theorem step_silent {cfg : Config} {s : Sys} {e : Event} (he : e.ofThread = false)
    (hac : ¬ Accepts s e) (hawake : s.radar.silent = false) :
    (step cfg s e).radar.silent = false := by
  cases e with
  | tick ms => exact hawake
  | stop => exact hawake
  | rx n21b n361 acc => exact hawake
  | initSends ok =>
    simp only [step]
    split
    · exact hawake
    · exact hawake
  | frame f ok =>
    obtain ⟨r, n, hr, heq⟩ := frameStep_eq f ok s
    simp only [step, heq]
    exact hr.trans hawake
  | deliver accepted =>
    simp only [step, deliverStep]
    split
    · exact hawake
    · next hreq =>
      cases accepted with
      | true => exact absurd ⟨rfl, hreq⟩ hac
      | false => exact hawake
  | wake =>
    simp only [step, wakeStep]
    split
    · rfl
    · exact hawake
  | takeover => cases he
  | initEnds raises => cases he
  | longTx ok => cases he

/-- A step that is none of the three keeps a safe state safe. -/
theorem switchedOff_step {cfg : Config} {s : Sys} {e : Event} (hi : ReleaseInv s)
    (hab : ¬ Aborts s e) (hre : ¬ Rearms s e) (hac : ¬ Accepts s e) (h : SwitchedOffSafe s) :
    SwitchedOffSafe (step cfg s e) := by
  cases hth : e.ofThread with
  | false =>
    have ho : Outside s (step cfg s e) := step_outside cfg s hth
    intro hgate
    rcases h (ho.gate.symm.trans hgate) with hawake | hrel
    · exact .inl (step_silent hth hac hawake)
    · refine .inr fun hheld => hrel ⟨ho.hold.symm.trans hheld.1, ?_⟩
      rw [← ho.longTx]
      exact hheld.2
  | true =>
    cases e with
    | takeover => exact (takeoverStep_move cfg s).switchedOff hi hab hre h
    | initEnds raises =>
      simp only [step, initStep]
      split
      · next n0 o0 hpc =>
        cases raises with
        | true => exact absurd (by rw [Aborts, hpc]; rfl) hab
        | false => exact h
      · exact h
    | longTx ok =>
      have he : LongTxEffect s (longTxStep cfg ok s) := longTxStep_effect cfg ok s
      intro hgate
      rcases h (he.gate.symm.trans hgate) with hawake | hrel
      · exact .inl (he.silent.trans hawake)
      · refine .inr fun hheld => hrel ⟨?_, fun hret => hheld.2 (he.returned hret)⟩
        exact he.hold_mono hheld.1
    | _ => cases hth

theorem step_of_aborts {cfg : Config} {s : Sys} {e : Event} (h : Aborts s e) :
    step cfg s e = abort s := by
  cases e with
  | initEnds raises =>
    cases raises with
    | true =>
      cases hpc : s.takeover <;> simp [Aborts, TakeoverPc.inInit, hpc] at h
      simp [step, initStep, hpc]
    | false => cases h
  | takeover =>
    cases hpc : s.takeover <;> simp only [Aborts, hpc] at h
    obtain ⟨htill, hseen⟩ := h
    simp [step, takeoverStep, hpc, not_lt.2 htill, hseen]
  | _ => cases h

theorem aborts_safe_iff {cfg : Config} {s : Sys} {e : Event} (hab : Aborts s e) :
    SwitchedOffSafe (step cfg s e) ↔ KeepsSource s e := by
  have hre : ¬ Rearms s e := by
    rintro ⟨rfl, hpc, -⟩
    simp [Aborts, hpc] at hab
  have hac : ¬ Accepts s e := by
    rintro ⟨rfl, -⟩
    cases hab
  rw [step_of_aborts hab]
  constructor
  · intro hsafe
    exact ⟨fun _ => hsafe rfl, fun hr => absurd hr hre, fun ha => absurd ha hac⟩
  · intro hkeep _
    exact hkeep.aborts hab

theorem rearms_safe_iff {cfg : Config} {s : Sys} {e : Event} (hi : ReleaseInv s)
    (hab : ¬ Aborts s e) (hre : Rearms s e) :
    SwitchedOffSafe (step cfg s e) ↔ KeepsSource s e := by
  obtain ⟨rfl, hpc, hstop⟩ := hre
  have hgate : s.longtxGate = false := hi.gate hpc
  have heq : step cfg s .takeover = { s with radarHold := true, takeover := .waiting } := by
    simp [step, takeoverStep, hpc, hstop]
  rw [heq]
  constructor
  · intro hsafe
    refine ⟨fun ha => absurd ha hab, fun _ => ?_, fun ha => by cases ha.1⟩
    rcases hsafe hgate with hawake | hrel
    · exact .inl hawake
    · exact .inr (by_contra fun hret => hrel ⟨rfl, hret⟩)
  · intro hkeep _
    rcases hkeep.rearms ⟨rfl, hpc, hstop⟩ with hawake | hret
    · exact .inl hawake
    · exact .inr fun hheld => hheld.2 hret

theorem accepts_safe_iff {cfg : Config} {s : Sys} {e : Event} (hab : ¬ Aborts s e)
    (hre : ¬ Rearms s e) (hac : Accepts s e) :
    SwitchedOffSafe (step cfg s e) ↔ KeepsSource s e := by
  obtain ⟨rfl, hreq⟩ := hac
  have heq : step cfg s (.deliver true) = { s with
      radar :=
        { silent := true
          lastTp := s.now
          requests := s.radar.requests - 1 } } := by
    simp [step, deliverStep, hreq]
  rw [heq]
  constructor
  · intro hsafe
    refine ⟨fun ha => absurd ha hab, fun hr => absurd hr hre, fun _ => ?_⟩
    cases hgate : s.longtxGate with
    | true => exact .inl rfl
    | false =>
      rcases hsafe hgate with hawake | hrel
      · cases hawake
      · exact .inr hrel
  · intro hkeep hgate
    rcases hkeep.accepts ⟨rfl, hreq⟩ with hopen | hrel
    · cases hopen.symm.trans hgate
    · exact .inr hrel

theorem switchedOff_step_iff {cfg : Config} {s : Sys} (e : Event) (hi : ReleaseInv s)
    (h : SwitchedOffSafe s) : SwitchedOffSafe (step cfg s e) ↔ KeepsSource s e := by
  by_cases hab : Aborts s e
  · exact aborts_safe_iff hab
  · by_cases hre : Rearms s e
    · exact rearms_safe_iff hi hab hre
    · by_cases hac : Accepts s e
      · exact accepts_safe_iff hab hre hac
      · refine ⟨fun _ => ?_, fun _ => switchedOff_step hi hab hre hac h⟩
        exact ⟨fun ha => absurd ha hab, fun hr => absurd hr hre, fun ha => absurd ha hac⟩

/-! ## Whole runs -/

theorem sourced_start (now : Nat) (rx : Receive) : Sourced (start now rx) :=
  sourced_iff_switchedOff.2 fun _ => .inl rfl

/-- In every run of engage-first, the car always has a longitudinal source exactly when every step
keeps it. -/
theorem sourced_iff (cfg : Config) (now : Nat) (rx : Receive) (es : List Event) :
    Run.Always (step cfg) Sourced (start now rx) es ↔
      Run.AllSteps (step cfg) KeepsSource (start now rx) es := by
  have hInv : ∀ s e, True → ReleaseInv s → ReleaseInv (step cfg s e) :=
    fun s e _ hi => releaseInv_step cfg s e hi
  have hok : ∀ s e, True → ReleaseInv s → Sourced s → (Sourced (step cfg s e) ↔ KeepsSource s e) := by
    intro s e _ hi hp
    rw [sourced_iff_switchedOff]
    exact switchedOff_step_iff e hi (sourced_iff_switchedOff.1 hp)
  exact Run.always_iff_steps hInv hok (releaseInv_start now rx) (sourced_start now rx)
    fun _ _ => trivial

/-! ## A stranded car -/

def defaults : Config :=
  { overlap := 300
    dead := 2000
    session := 5000 }

def liveBus : Receive :=
  { t := 1000
    accActive := true
    census21b := 0
    census361 := 0 }

def raisedTooLate : List Event :=
  [.takeover, .tick 300, .takeover, .initSends true, .deliver true, .initEnds true]

/-- The gate is closed, the takeover thread has returned, and tester-present holds the radar
silent. -/
theorem raise_strands_car :
    ¬ ∀ (cfg : Config) (now : Nat) (rx : Receive) (es : List Event),
      Run.Always (step cfg) Sourced (start now rx) es := by
  intro hall
  have hend : Sourced (Run.run (step defaults) (start 1000 liveBus) raisedTooLate) :=
    (hall defaults 1000 liveBus raisedTooLate).last
  refine hend.1 ⟨.inl ?_, ?_, ?_, ?_, ?_⟩
  · decide
  · decide
  · decide
  · decide
  · decide

end EngageFirst
end MazdaPort
