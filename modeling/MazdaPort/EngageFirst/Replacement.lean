import MazdaPort.EngageFirst.Threads

/-!
# MazdaPort.EngageFirst.Replacement

Whether the radar is suppressed only with a working replacement: our gate open, tester-present
flowing, `long_tx_thread` running, the receive path alive when the handover was entered.

`takeover_thread` opens the gate and asks for a live bus itself. It looks neither at `radar_hold`,
which the dead-man's switch can have latched off while it waited, nor at `long_halted`.
`replaced_iff`: the replacement works exactly when neither of the two has happened.
-/

namespace MazdaPort
namespace EngageFirst

/-! ## What is asked of a handover -/

def CallsInit (s : Sys) (e : Event) : Prop :=
  e = .takeover ∧ ∃ till, s.takeover = .overlapping till ∧ till ≤ s.now

def SetsDone (s : Sys) (e : Event) : Prop :=
  e = .takeover ∧ ∃ n0 o0 till, s.takeover = .verifying n0 o0 till ∧ till ≤ s.now ∧
    foreign s.rx.census21b n0 s.crzInfoTx o0 ≤ 20

def Event.isLongTx : Event → Bool
  | .longTx _ => true
  | _ => false

/-- The dead-man's switch latches `radar_hold` off. -/
def Latches (s : Sys) (e : Event) : Prop := e.isLongTx = true ∧ s.longTx.isLatching = true

/-- `long_tx_thread` returns: halted, or at the stop flag. -/
def Exits (s : Sys) (e : Event) : Prop := e.isLongTx = true ∧ longTxExits s = true

instance (s : Sys) (e : Event) : Decidable (Latches s e) := inferInstanceAs (Decidable (_ ∧ _))

instance (s : Sys) (e : Event) : Decidable (Exits s e) := inferInstanceAs (Decidable (_ ∧ _))

instance (s : Sys) (e : Event) : Decidable (Rearms s e) := inferInstanceAs (Decidable (_ ∧ _))

/-- What happened: `entry`, whether the receive path was alive when `takeover_thread` last left its
waiting loop; `latched`, whether the dead-man's switch has latched since the start or the last
re-arming; `exited`, whether `long_tx_thread` has returned. -/
structure History where
  entry : Bool
  latched : Bool
  exited : Bool

def note (cfg : Config) (s : Sys) (h : History) (e : Event) : History :=
  { entry := if e = .takeover ∧ s.takeover = .waiting then rxAlive cfg s else h.entry
    latched := if Latches s e then true else if Rearms s e then false else h.latched
    exited := h.exited || decide (Exits s e) }

def History.start : History :=
  { entry := false
    latched := false
    exited := false }

abbrev stepNoting (cfg : Config) : Sys × History → Event → Sys × History :=
  Run.withHistory (step cfg) (note cfg)

structure Replaced (p : Sys × History) : Prop where
  gate : p.1.longtxGate = true
  hold : p.1.radarHold = true
  running : p.1.longTx ≠ .returned
  notHalted : p.1.longHalted = false
  entry : p.2.entry = true

def SuppressesReplaced (p : Sys × History) (e : Event) : Prop :=
  CallsInit p.1 e ∨ SetsDone p.1 e → Replaced p

/-- Suppression, and its completion, only if the dead-man's switch has not latched since the last
re-arming and `long_tx_thread` has not returned. -/
def NothingLost (p : Sys × History) (e : Event) : Prop :=
  CallsInit p.1 e ∨ SetsDone p.1 e → p.2.latched = false ∧ p.2.exited = false

/-! ## The invariant -/

def TakeoverPc.inHandover : TakeoverPc → Bool
  | .overlapping _ | .initialising _ _ | .verifying _ _ _ => true
  | _ => false

/-- Outside a release, `radar_hold` is off exactly when the dead-man's switch has latched; during a
handover, the gate is open and the bus was alive. -/
structure FlagInv (p : Sys × History) : Prop where
  hold : p.1.takeover.released = false → p.1.takeover ≠ .returned → p.1.radarHold = !p.2.latched
  gate : p.1.takeover.inHandover = true → p.1.longtxGate = true
  entry : p.1.takeover.inHandover = true → p.2.entry = true
  exited : p.2.exited = true ↔ p.1.longTx = .returned
  halted : p.1.longHalted = true → p.1.longTx = .returned

theorem flagInv_start (now : Nat) (rx : Receive) : FlagInv (start now rx, History.start) := by
  constructor <;> simp [start, History.start, TakeoverPc.inHandover]

section Note

variable {cfg : Config} {s : Sys} {h : History} {e : Event}

theorem note_entry (hin : s.takeover.inHandover = true) : (note cfg s h e).entry = h.entry := by
  refine if_neg ?_
  rintro ⟨-, hpc⟩
  rw [hpc] at hin
  cases hin

theorem not_rearms (hrel : s.takeover.released = false) : ¬ Rearms s e := by
  rintro ⟨-, hpc, -⟩
  rw [hpc] at hrel
  cases hrel

theorem note_latched (hlatch : ¬ Latches s e) (hre : ¬ Rearms s e) :
    (note cfg s h e).latched = h.latched :=
  (if_neg hlatch).trans (if_neg hre)

theorem not_latches (hlong : e.isLongTx = false) : ¬ Latches s e :=
  fun hl => by cases hlong.symm.trans hl.1

theorem note_exited (hlong : e.isLongTx = false) : (note cfg s h e).exited = h.exited := by
  have hex : ¬ Exits s e := fun hx => by cases hlong.symm.trans hx.1
  simp [note, hex]

theorem inHandover_cases (hin : s.takeover.inHandover = true) :
    s.takeover.released = false ∧ s.takeover ≠ .returned := by
  cases hpc : s.takeover <;> simp_all [TakeoverPc.inHandover, TakeoverPc.released]

theorem FlagInv.hold_note (hi : FlagInv (s, h)) (hlatch : ¬ Latches s e)
    (hrel : s.takeover.released = false) (hret : s.takeover ≠ .returned) :
    s.radarHold = !(note cfg s h e).latched := by
  rw [note_latched hlatch (not_rearms hrel)]
  exact hi.hold hrel hret

/-- A step that leaves the flags, `long_tx_thread` and the phase of `takeover_thread` alone. -/
theorem FlagInv.same {s' : Sys} (hi : FlagInv (s, h)) (hlong : e.isLongTx = false)
    (hpc : s'.takeover = s.takeover) (hgate : s'.longtxGate = s.longtxGate)
    (hhold : s'.radarHold = s.radarHold) (htx : s'.longTx = s.longTx)
    (hhalt : s'.longHalted = s.longHalted) : FlagInv (s', note cfg s h e) := by
  constructor
  · intro hrel hret
    exact hhold.trans (hi.hold_note (not_latches hlong) (hpc ▸ hrel) (hpc ▸ hret))
  · intro hin
    exact hgate.trans (hi.gate (hpc ▸ hin))
  · intro hin
    have hin' : s.takeover.inHandover = true := hpc ▸ hin
    exact (note_entry hin').trans (hi.entry hin')
  · rw [note_exited hlong, htx]
    exact hi.exited
  · intro hh
    exact htx.trans (hi.halted (hhalt.symm.trans hh))

theorem FlagInv.out {s' : Sys} (hi : FlagInv (s, h)) (hlong : e.isLongTx = false)
    (hout : s'.takeover.inHandover = false)
    (hhold : s'.takeover.released = false → s'.takeover ≠ .returned →
      s'.radarHold = !(note cfg s h e).latched)
    (htx : s'.longTx = s.longTx) (hhalt : s'.longHalted = s.longHalted) :
    FlagInv (s', note cfg s h e) := by
  refine ⟨hhold, fun hin => ?_, fun hin => ?_, ?_, fun hh => ?_⟩
  · cases hout.symm.trans hin
  · cases hout.symm.trans hin
  · rw [note_exited hlong, htx]
    exact hi.exited
  · exact htx.trans (hi.halted (hhalt.symm.trans hh))

theorem FlagInv.onward {s' : Sys} (hi : FlagInv (s, h)) (hlong : e.isLongTx = false)
    (hin : s.takeover.inHandover = true) (hgate : s'.longtxGate = s.longtxGate)
    (hhold : s'.radarHold = s.radarHold) (htx : s'.longTx = s.longTx)
    (hhalt : s'.longHalted = s.longHalted) : FlagInv (s', note cfg s h e) := by
  obtain ⟨hrel, hret⟩ := inHandover_cases hin
  refine ⟨fun _ _ => ?_, fun _ => ?_, fun _ => ?_, ?_, fun hh => ?_⟩
  · exact hhold.trans (hi.hold_note (not_latches hlong) hrel hret)
  · exact hgate.trans (hi.gate hin)
  · exact (note_entry hin).trans (hi.entry hin)
  · rw [note_exited hlong, htx]
    exact hi.exited
  · exact htx.trans (hi.halted (hhalt.symm.trans hh))

end Note

theorem TakeoverMove.flagInv {cfg : Config} {s s' : Sys} {h : History}
    (hm : TakeoverMove cfg s s') (hi : FlagInv (s, h)) :
    FlagInv (s', note cfg s h .takeover) := by
  cases hm with
  | stay => exact hi.same rfl rfl rfl rfl rfl rfl
  | enter hpc hstop hrx hacc =>
    refine ⟨fun _ _ => ?_, fun _ => rfl, fun _ => ?_, ?_, hi.halted⟩
    · exact hi.hold_note (not_latches rfl) (by rw [hpc]; rfl) (by simp [hpc])
    · exact (if_pos ⟨rfl, hpc⟩).trans hrx
    · rw [note_exited rfl]
      exact hi.exited
  | callInit hpc htill => exact hi.onward rfl (by rw [hpc]; rfl) rfl rfl rfl rfl
  | complete hpc htill hseen =>
    refine hi.out rfl rfl (fun _ _ => ?_) rfl rfl
    exact hi.hold_note (not_latches rfl) (by rw [hpc]; rfl) (by simp [hpc])
  | rearm hpc hstop =>
    refine hi.out rfl rfl (fun _ _ => ?_) rfl rfl
    have hlatch : ¬ Latches s .takeover := not_latches rfl
    have hre : Rearms s .takeover := ⟨rfl, hpc, hstop⟩
    simp [note, hlatch, hre]
  | quit hstop => exact hi.out rfl rfl (fun _ hret => absurd rfl hret) rfl rfl
  | stillSending hpc htill hseen => exact hi.out rfl rfl (fun _ hret => absurd rfl hret) rfl rfl
  | giveUp hpc => exact hi.out rfl rfl (fun _ hret => absurd rfl hret) rfl rfl
  | drop hpc => exact hi.out rfl rfl (fun hrel => by cases hrel) rfl rfl
  | clear hpc => exact hi.out rfl rfl (fun hrel => by cases hrel) rfl rfl
  | listen hpc => exact hi.out rfl rfl (fun hrel => by cases hrel) rfl rfl
  | back hpc => exact hi.out rfl rfl (fun hrel => by cases hrel) rfl rfl
  | again hpc => exact hi.out rfl rfl (fun hrel => by cases hrel) rfl rfl

theorem longTxStep_flagInv {cfg : Config} {ok : Bool} {s : Sys} {h : History}
    (hi : FlagInv (s, h)) : FlagInv (longTxStep cfg ok s, note cfg s h (.longTx ok)) := by
  have he : LongTxEffect s (longTxStep cfg ok s) := longTxStep_effect cfg ok s
  constructor
  · intro hrel hret
    rw [he.takeover] at hrel hret
    cases hlatch : s.longTx.isLatching with
    | true =>
      have hlatched : (note cfg s h (.longTx ok)).latched = true := if_pos ⟨rfl, hlatch⟩
      rw [he.hold, hlatch, hlatched, Bool.not_true, Bool.and_false]
    | false =>
      have hnot : ¬ Latches s (.longTx ok) := fun hl => by cases hlatch.symm.trans hl.2
      rw [he.hold, hlatch, Bool.not_false, Bool.and_true]
      exact hi.hold_note hnot hrel hret
  · intro hin
    exact he.gate.trans (hi.gate (he.takeover ▸ hin))
  · intro hin
    have hin' : s.takeover.inHandover = true := he.takeover ▸ hin
    exact (note_entry hin').trans (hi.entry hin')
  · simp only [note, Bool.or_eq_true, decide_eq_true_eq]
    constructor
    · rintro (hexited | hex)
      · exact he.returned (hi.exited.1 hexited)
      · exact longTxStep_exits hex.2
    · intro hret
      rcases he.exits hret with hret' | hex
      · exact .inl (hi.exited.2 hret')
      · exact .inr ⟨rfl, hex⟩
  · intro hh
    rcases he.halted with hsame | hret
    · exact he.returned (hi.halted (hsame.symm.trans hh))
    · exact hret

theorem flagInv_step (cfg : Config) (p : Sys × History) (e : Event) (hi : FlagInv p) :
    FlagInv (stepNoting cfg p e) := by
  obtain ⟨s, h⟩ := p
  cases hth : e.ofThread with
  | false =>
    have ho : Outside s (step cfg s e) := step_outside cfg s hth
    have hlong : e.isLongTx = false := by
      cases e with
      | longTx ok => cases hth
      | _ => rfl
    exact hi.same hlong ho.takeover ho.gate ho.hold ho.longTx ho.halted
  | true =>
    cases e with
    | takeover => exact (takeoverStep_move cfg s).flagInv hi
    | initEnds raises =>
      simp only [stepNoting, Run.withHistory, step, initStep]
      split
      · next n0 o0 hpc =>
        split
        · exact hi.out rfl rfl (fun _ hret => absurd rfl hret) rfl rfl
        · exact hi.onward rfl (by rw [hpc]; rfl) rfl rfl rfl rfl
      · exact hi.same rfl rfl rfl rfl rfl rfl
    | longTx ok => exact longTxStep_flagInv hi
    | _ => cases hth

/-! ## Whole runs -/

theorem FlagInv.replaced_of_flags {p : Sys × History} (hi : FlagInv p)
    (hin : p.1.takeover.inHandover = true) :
    Replaced p ↔ p.2.latched = false ∧ p.2.exited = false := by
  obtain ⟨hrel, hret⟩ := inHandover_cases hin
  have hhold : p.1.radarHold = !p.2.latched := hi.hold hrel hret
  constructor
  · intro hr
    refine ⟨?_, ?_⟩
    · simpa [hr.hold] using hhold
    · exact Bool.eq_false_iff.2 fun hex => hr.running (hi.exited.1 hex)
  · rintro ⟨hlatched, hexited⟩
    have hrun : p.1.longTx ≠ .returned := fun hpc => by
      cases hexited.symm.trans (hi.exited.2 hpc)
    have hhalt : p.1.longHalted = false :=
      Bool.eq_false_iff.2 fun hh => hrun (hi.halted hh)
    exact ⟨hi.gate hin, by simp [hhold, hlatched], hrun, hhalt, hi.entry hin⟩

theorem inHandover_of_call {s : Sys} {e : Event} (h : CallsInit s e ∨ SetsDone s e) :
    s.takeover.inHandover = true := by
  rcases h with ⟨-, till, hpc, -⟩ | ⟨-, n0, o0, till, hpc, -⟩
  · rw [hpc]
    rfl
  · rw [hpc]
    rfl

/-- In every run of engage-first, the radar is suppressed only with a working replacement exactly
when, at each suppression and its completion, the dead-man's switch has not latched since the last
re-arming and `long_tx_thread` has not returned. -/
theorem replaced_iff (cfg : Config) (now : Nat) (rx : Receive) (es : List Event) :
    Run.AllSteps (stepNoting cfg) SuppressesReplaced (start now rx, History.start) es ↔
      Run.AllSteps (stepNoting cfg) NothingLost (start now rx, History.start) es := by
  have hok : ∀ p e, FlagInv p → (SuppressesReplaced p e ↔ NothingLost p e) := by
    intro p e hi
    refine forall_congr' fun hcall => ?_
    exact hi.replaced_of_flags (inHandover_of_call hcall)
  exact Run.allSteps_congr (flagInv_step cfg) hok (flagInv_start now rx) es

/-! ## A handover without the hold -/

def quietBus : Receive :=
  { t := 1000
    accActive := false
    census21b := 43
    census361 := 10 }

/-- The bus goes quiet while `takeover_thread` waits, the dead-man's switch latches, the bus comes
back with ACC on, and the handover starts. -/
def outageBefore : List Event :=
  [.tick 2500, .longTx true, .longTx true, .rx 1 1 (some true), .takeover, .tick 300]

theorem handover_without_hold :
    ¬ ∀ (cfg : Config) (now : Nat) (rx : Receive) (es : List Event),
      Run.AllSteps (stepNoting cfg) SuppressesReplaced (start now rx, History.start) es := by
  intro hall
  have hrun := hall ⟨300, 2000, 5000⟩ 1000 quietBus (outageBefore ++ [.takeover])
  rw [Run.allSteps_append] at hrun
  have hreplaced := hrun.2.1 (.inl ⟨rfl, 3800, by decide, by decide⟩)
  exact absurd hreplaced.hold (by decide)

end EngageFirst
end MazdaPort
