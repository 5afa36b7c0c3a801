import MazdaPort.Lib.Stretch

/-!
# MazdaPort.Selfdrived.StateMachine

`StateMachine` of `selfdrived/state.py`, which engages and disengages openpilot by the types of the
events of a cycle.

`engaged_iff`: openpilot is engaged exactly when a cycle has let it in, no cycle since has had an
event that disables it at once, and no 301 cycles in a row have had one that disables it softly.
While the driver still has to finish engaging, soft disabling is not looked at.
-/

namespace MazdaPort
namespace Selfdrived

inductive ET where
  | enable
  | preEnable
  | overrideLateral
  | overrideLongitudinal
  | noEntry
  | warning
  | userDisable
  | softDisable
  | immediateDisable
  | permanent
  deriving DecidableEq, Repr

/-- Each event of a cycle as the types that `EVENTS` has for it. -/
structure Events where
  events : List (List ET)
  deriving DecidableEq, Repr

def Events.contains (events : Events) (eventType : ET) : Bool :=
  events.events.any fun types => types.contains eventType

inductive OpenpilotState where
  | disabled
  | preEnabled
  | enabled
  | softDisabling
  | overriding
  deriving DecidableEq, Repr

/-- `int(SOFT_DISABLE_TIME / DT_CTRL)` -/
def softDisableTime : Nat := 300

def activeStates : List OpenpilotState := [.enabled, .softDisabling, .overriding]

def enabledStates : List OpenpilotState := .preEnabled :: activeStates

structure StateMachine where
  currentAlertTypes : List ET := [.permanent]
  state : OpenpilotState := .disabled
  softDisableTimer : Nat := 0
  deriving DecidableEq, Repr

namespace StateMachine

def append (types : List ET) (s : StateMachine) : StateMachine :=
  { s with currentAlertTypes := s.currentAlertTypes ++ types }

def overriding (events : Events) : Bool :=
  events.contains .overrideLateral || events.contains .overrideLongitudinal

def softDisable (s : StateMachine) : StateMachine :=
  append [.softDisable]
    { s with state := .softDisabling, softDisableTimer := softDisableTime }

def fromEnabled (events : Events) (s : StateMachine) : StateMachine :=
  if events.contains .softDisable then s.softDisable
  else if overriding events then
    append [.overrideLateral, .overrideLongitudinal] { s with state := .overriding }
  else s

def fromSoftDisabling (events : Events) (s : StateMachine) : StateMachine :=
  if !events.contains .softDisable then { s with state := .enabled }
  else if s.softDisableTimer > 0 then append [.softDisable] s
  else { s with state := .disabled }

def fromPreEnabled (events : Events) (s : StateMachine) : StateMachine :=
  if !events.contains .preEnable then { s with state := .enabled } else append [.preEnable] s

def fromOverriding (events : Events) (s : StateMachine) : StateMachine :=
  if events.contains .softDisable then s.softDisable
  else if !overriding events then { s with state := .enabled }
  else append [.overrideLateral, .overrideLongitudinal] s

def fromDisabled (events : Events) (s : StateMachine) : StateMachine :=
  if events.contains .enable then
    if events.contains .noEntry then append [.noEntry] s
    else if events.contains .preEnable then append [.enable] { s with state := .preEnabled }
    else if overriding events then append [.enable] { s with state := .overriding }
    else append [.enable] { s with state := .enabled }
  else s

/-- The branches of `update`. -/
def transition (events : Events) (s : StateMachine) : StateMachine :=
  match s.state with
  | .disabled => s.fromDisabled events
  | state =>
    if events.contains .immediateDisable then
      append [.immediateDisable] { s with state := .disabled }
    else if events.contains .userDisable then append [.userDisable] { s with state := .disabled }
    else
      match state with
      | .enabled => s.fromEnabled events
      | .softDisabling => s.fromSoftDisabling events
      | .preEnabled => s.fromPreEnabled events
      | .overriding => s.fromOverriding events
      | .disabled => s

def tickTimer (s : StateMachine) : StateMachine :=
  { s with softDisableTimer := s.softDisableTimer - 1, currentAlertTypes := [.permanent] }

/-- The new machine, `enabled` and `active`. -/
def update (s : StateMachine) (events : Events) : StateMachine × Bool × Bool :=
  let s := transition events s.tickTimer
  let enabled := enabledStates.contains s.state
  let active := activeStates.contains s.state
  (if active then append [.warning] s else s, enabled, active)

def next (s : StateMachine) (events : Events) : StateMachine := (s.update events).1

/-! ## One cycle -/

@[simp] theorem append_state (types : List ET) (s : StateMachine) :
    (append types s).state = s.state := rfl

@[simp] theorem append_timer (types : List ET) (s : StateMachine) :
    (append types s).softDisableTimer = s.softDisableTimer := rfl

@[simp] theorem tickTimer_state (s : StateMachine) : s.tickTimer.state = s.state := rfl

@[simp] theorem tickTimer_timer (s : StateMachine) :
    s.tickTimer.softDisableTimer = s.softDisableTimer - 1 := rfl

theorem next_state (s : StateMachine) (e : Events) :
    (s.next e).state = (transition e s.tickTimer).state := by
  simp only [next, update]
  split <;> rfl

theorem next_timer (s : StateMachine) (e : Events) :
    (s.next e).softDisableTimer = (transition e s.tickTimer).softDisableTimer := by
  simp only [next, update]
  split <;> rfl

theorem update_enabled (s : StateMachine) (e : Events) :
    (s.update e).2.1 = decide ((s.next e).state ≠ .disabled) := by
  rw [next_state]
  simp only [update]
  cases (transition e s.tickTimer).state <;> rfl

/-- What disables at once. -/
def hard (e : Events) : Bool := e.contains .immediateDisable || e.contains .userDisable

/-- What engages a machine that is disabled. -/
def enters (e : Events) : Bool := e.contains .enable && !e.contains .noEntry

def waits (e : Events) : Bool := e.contains .preEnable

def soft (e : Events) : Bool := e.contains .softDisable

theorem next_hard {s : StateMachine} {e : Events} (hs : s.state ≠ .disabled) (he : hard e = true) :
    (s.next e).state = .disabled := by
  rw [next_state]
  simp only [hard, Bool.or_eq_true] at he
  cases hstate : s.state with
  | disabled => exact absurd hstate hs
  | _ =>
    rcases he with he | he
    · simp [transition, hstate, he]
    · simp only [transition, tickTimer_state, hstate, he, if_true]
      split <;> rfl

/-- Past the wait the machine is enabled, overridden, or has been disabling softly for as many
cycles as its timer has counted down. -/
def Follows (s : StateMachine) : Option Nat → Prop
  | none => s.state = .preEnabled
  | some 0 => s.state = .enabled ∨ s.state = .overriding
  | some (n + 1) =>
    s.state = .softDisabling ∧ 0 < s.softDisableTimer ∧ s.softDisableTimer + n = softDisableTime

theorem Follows.engaged {s : StateMachine} {c : Option Nat} (h : s.Follows c) :
    s.state ≠ .disabled := by
  match c with
  | none =>
    rw [show s.state = .preEnabled from h]
    decide
  | some 0 =>
    rcases (h : s.state = .enabled ∨ s.state = .overriding) with h | h <;> rw [h] <;> decide
  | some (n + 1) =>
    rw [h.1]
    decide

theorem next_enters {s : StateMachine} {e : Events} (hs : s.state = .disabled)
    (he : enters e = true) : (s.next e).Follows (Stretch.start (waits e)) := by
  simp only [enters, Bool.and_eq_true, Bool.not_eq_true'] at he
  obtain ⟨henable, hentry⟩ := he
  cases hw : waits e with
  | true =>
    have hpre : e.contains .preEnable = true := hw
    have hnext : (s.next e).state = .preEnabled := by
      rw [next_state]
      simp [transition, hs, fromDisabled, henable, hentry, hpre]
    exact hnext
  | false =>
    have hpre : e.contains .preEnable = false := hw
    have hnext : (s.next e).state = .enabled ∨ (s.next e).state = .overriding := by
      rw [next_state]
      cases ho : overriding e with
      | true => simp [transition, hs, fromDisabled, henable, hentry, hpre, ho]
      | false => simp [transition, hs, fromDisabled, henable, hentry, hpre, ho]
    exact hnext

theorem next_refused {s : StateMachine} {e : Events} (hs : s.state = .disabled)
    (he : enters e = false) : (s.next e).state = .disabled := by
  rw [next_state]
  cases henable : e.contains .enable with
  | false => simp [transition, hs, fromDisabled, henable]
  | true =>
    have hentry : e.contains .noEntry = true := by simpa [enters, henable] using he
    simp [transition, hs, fromDisabled, henable, hentry]

/-- Without an event that disables at once, the branch of the state is taken. -/
theorem next_soft {s : StateMachine} {e : Events} (he : hard e = false) :
    (s.state = .enabled → (s.next e).state = (s.tickTimer.fromEnabled e).state ∧
      (s.next e).softDisableTimer = (s.tickTimer.fromEnabled e).softDisableTimer) ∧
    (s.state = .softDisabling → (s.next e).state = (s.tickTimer.fromSoftDisabling e).state ∧
      (s.next e).softDisableTimer = (s.tickTimer.fromSoftDisabling e).softDisableTimer) ∧
    (s.state = .preEnabled → (s.next e).state = (s.tickTimer.fromPreEnabled e).state) ∧
    (s.state = .overriding → (s.next e).state = (s.tickTimer.fromOverriding e).state ∧
      (s.next e).softDisableTimer = (s.tickTimer.fromOverriding e).softDisableTimer) := by
  simp only [hard, Bool.or_eq_false_iff] at he
  obtain ⟨himm, huser⟩ := he
  rw [next_state, next_timer]
  refine ⟨?_, ?_, ?_, ?_⟩ <;> intro hs <;> simp [transition, hs, himm, huser]

theorem next_waiting {s : StateMachine} {e : Events} (hs : s.state = .preEnabled)
    (he : hard e = false) :
    (s.next e).Follows (Stretch.step waits soft none e) := by
  have hnext := (next_soft he).2.2.1 hs
  cases hw : waits e with
  | true =>
    have hpre : e.contains .preEnable = true := hw
    have hstep : Stretch.step waits soft none e = none := by simp [Stretch.step, hw]
    rw [hstep]
    simpa [Follows, fromPreEnabled, hpre, hs] using hnext
  | false =>
    have hpre : e.contains .preEnable = false := hw
    have hstep : Stretch.step waits soft none e = some 0 := by simp [Stretch.step, hw]
    rw [hstep]
    exact .inl (by simpa [fromPreEnabled, hpre] using hnext)

theorem next_engaged {s : StateMachine} {e : Events}
    (hs : s.state = .enabled ∨ s.state = .overriding) (he : hard e = false) :
    (s.next e).Follows (Stretch.step waits soft (some 0) e) := by
  obtain ⟨henabled, -, -, hover⟩ := next_soft (s := s) he
  cases hsoft : soft e with
  | true =>
    have hcond : e.contains .softDisable = true := hsoft
    have hstep : Stretch.step waits soft (some 0) e = some (0 + 1) := by simp [Stretch.step, hsoft]
    have hnext : (s.next e).state = .softDisabling ∧
        (s.next e).softDisableTimer = softDisableTime := by
      rcases hs with hs | hs
      · simpa [fromEnabled, softDisable, hcond] using henabled hs
      · simpa [fromOverriding, softDisable, hcond] using hover hs
    rw [hstep]
    refine ⟨hnext.1, ?_, hnext.2⟩
    rw [hnext.2]
    decide
  | false =>
    have hcond : e.contains .softDisable = false := hsoft
    have hstep : Stretch.step waits soft (some 0) e = some 0 := by simp [Stretch.step, hsoft]
    rw [hstep]
    rcases hs with hs | hs
    · cases ho : overriding e with
      | true => exact .inr (by simpa [fromEnabled, hcond, ho] using (henabled hs).1)
      | false => exact .inl (by simpa [fromEnabled, hcond, ho, hs] using (henabled hs).1)
    · cases ho : overriding e with
      | true => exact .inr (by simpa [fromOverriding, hcond, ho, hs] using (hover hs).1)
      | false => exact .inl (by simpa [fromOverriding, hcond, ho] using (hover hs).1)

/-- The timer runs out in the cycle that is the 301st in a row. -/
theorem next_softDisabling {s : StateMachine} {e : Events} {n : Nat}
    (hs : s.Follows (some (n + 1))) (he : hard e = false) :
    if soft e && decide (n + 2 > softDisableTime) then (s.next e).state = .disabled
    else (s.next e).Follows (Stretch.step waits soft (some (n + 1)) e) := by
  obtain ⟨hstate, hpos, hsum⟩ := hs
  obtain ⟨hnext, htimer⟩ := (next_soft he).2.1 hstate
  cases hsoft : soft e with
  | false =>
    have hcond : e.contains .softDisable = false := hsoft
    have hstep : Stretch.step waits soft (some (n + 1)) e = some 0 := by simp [Stretch.step, hsoft]
    rw [hstep]
    exact .inl (by simpa [fromSoftDisabling, hcond] using hnext)
  | true =>
    have hcond : e.contains .softDisable = true := hsoft
    have hstep : Stretch.step waits soft (some (n + 1)) e = some (n + 1 + 1) := by
      simp [Stretch.step, hsoft]
    rw [hstep, Bool.true_and]
    by_cases hlast : n + 2 > softDisableTime
    · have hout : s.softDisableTimer = 1 := by omega
      rw [if_pos (decide_eq_true hlast)]
      simpa [fromSoftDisabling, hcond, hout] using hnext
    · have hleft : 0 < s.softDisableTimer - 1 := by omega
      rw [if_neg (by simpa using hlast)]
      have hnext' : (s.next e).state = .softDisabling := by
        simpa [fromSoftDisabling, hcond, hleft, hstate] using hnext
      have htimer' : (s.next e).softDisableTimer = s.softDisableTimer - 1 := by
        simpa [fromSoftDisabling, hcond, hleft] using htimer
      refine ⟨hnext', ?_, ?_⟩
      · omega
      · omega

/-- The cycles that keep a machine engaged, by the count of its cycles of soft disabling. -/
def Keeps (c : Option Nat) (e : Events) : Prop :=
  hard e = false ∧ Stretch.count (Stretch.step waits soft c e) ≤ softDisableTime

theorem keeps_iff {s : StateMachine} {c : Option Nat} {e : Events} (h : s.Follows c) :
    ((s.next e).state ≠ .disabled ↔ Keeps c e) ∧
      (Keeps c e → (s.next e).Follows (Stretch.step waits soft c e)) := by
  cases he : hard e with
  | true =>
    have hnot : ¬ Keeps c e := by
      rintro ⟨hno, -⟩
      rw [he] at hno
      cases hno
    have hnext := next_hard h.engaged he
    exact ⟨⟨fun hne => absurd hnext hne, fun hk => absurd hk hnot⟩, fun hk => absurd hk hnot⟩
  | false =>
    have hfollows (hf : (s.next e).Follows (Stretch.step waits soft c e))
        (hc : Stretch.count (Stretch.step waits soft c e) ≤ softDisableTime) :
        ((s.next e).state ≠ .disabled ↔ Keeps c e) ∧
          (Keeps c e → (s.next e).Follows (Stretch.step waits soft c e)) :=
      ⟨⟨fun _ => ⟨he, hc⟩, fun _ => hf.engaged⟩, fun _ => hf⟩
    match c with
    | none =>
      refine hfollows (next_waiting h he) ?_
      simp only [Stretch.step]
      split <;> exact Nat.zero_le _
    | some 0 =>
      refine hfollows (next_engaged h he) ?_
      simp only [Stretch.step]
      split
      · decide
      · exact Nat.zero_le _
    | some (n + 1) =>
      have hnext := next_softDisabling h he
      split at hnext
      · next hout =>
        simp only [Bool.and_eq_true, decide_eq_true_eq] at hout
        have hnot : ¬ Keeps (some (n + 1)) e := by
          rintro ⟨-, hc⟩
          simp only [Stretch.step, hout.1, if_true, Stretch.count, Option.getD_some] at hc
          omega
        exact ⟨⟨fun hne => absurd hnext hne, fun hk => absurd hk hnot⟩, fun hk => absurd hk hnot⟩
      · next hin =>
        refine hfollows hnext ?_
        cases hsoft : soft e with
        | false => simp [Stretch.step, hsoft, Stretch.count]
        | true =>
          simp only [hsoft, Bool.true_and, decide_eq_true_eq] at hin
          simp only [Stretch.step, hsoft, if_true, Stretch.count, Option.getD_some]
          omega

/-! ## A stay -/

/-- From a machine that has just been engaged, no cycle of the run disables it if and only if none
has an event that does so at once and there are no 301 cycles in a row that do so softly. -/
theorem stays_iff {s : StateMachine} {waiting : Bool} (h : s.Follows (Stretch.start waiting))
    (es : List Events) :
    Run.AllSteps next (fun s e => (s.next e).state ≠ .disabled) s es ↔
      (∀ e ∈ es, hard e = false) ∧ ¬ Stretch.Has waits soft waiting (softDisableTime + 1) es := by
  have hkeeps : Run.AllSteps next (fun s e => (s.next e).state ≠ .disabled) s es ↔
      Run.AllSteps (Stretch.step waits soft) Keeps (Stretch.start waiting) es := by
    have hok : ∀ (s : StateMachine) c e, s.Follows c →
        ((s.next e).state ≠ .disabled ↔ Keeps c e) := fun _ _ _ hf => (keeps_iff hf).1
    have hstep : ∀ (s : StateMachine) c e, s.Follows c → (s.next e).state ≠ .disabled →
        (next s e).Follows (Stretch.step waits soft c e) :=
      fun _ _ _ hf hne => (keeps_iff hf).2 ((keeps_iff hf).1.1 hne)
    exact Run.allSteps_iff hok hstep h es
  rw [hkeeps, ← Stretch.reaches_iff waiting (Nat.succ_pos _) es, Run.allSteps_iff_forall]
  constructor
  · intro hall
    constructor
    · intro e he
      obtain ⟨a, b, rfl⟩ := List.append_of_mem he
      have hp : a ++ [e] <+: a ++ e :: b := by simp
      exact (hall a e hp).1
    · rintro ⟨p, hp, hcount⟩
      rcases List.eq_nil_or_concat p with rfl | ⟨p, e, rfl⟩
      · cases waiting <;> cases hcount
      · rw [List.concat_eq_append] at hp hcount
        have hle := (hall p e hp).2
        rw [Run.run_snoc] at hcount
        omega
  · rintro ⟨hhard, hcount⟩ pre e hp
    refine ⟨hhard e (hp.subset (by simp)), ?_⟩
    by_contra hgt
    refine hcount ⟨pre ++ [e], hp, ?_⟩
    rw [Run.run_snoc]
    omega

def Engaged (s : StateMachine) : Prop := s.state ≠ .disabled

/-- Over any run, `pre` is how far it was disabled last, and `e` is the cycle that engaged it. -/
theorem engaged_iff {s : StateMachine} (hs : s.state = .disabled) (es : List Events) :
    Engaged (Run.run next s es) ↔
      ∃ pre e post, es = pre ++ e :: post ∧ (Run.run next s pre).state = .disabled ∧
        enters e = true ∧ (∀ x ∈ post, hard x = false) ∧
        ¬ Stretch.Has waits soft (waits e) (softDisableTime + 1) post := by
  have hstart : ∀ (s : StateMachine) e, (s.state = .disabled ∧ enters e = true) →
      Engaged (next s e) := fun s e h => (next_enters h.1 h.2).engaged
  have hkeep : ∀ (s : StateMachine) e, ¬ (s.state = .disabled ∧ enters e = true) →
      (s.next e).state ≠ .disabled → (Engaged (next s e) ↔ Engaged s) := by
    intro s e hno hne
    refine ⟨fun _ hdis => ?_, fun _ => hne⟩
    cases hent : enters e with
    | true => exact hno ⟨hdis, hent⟩
    | false => exact hne (next_refused hdis hent)
  have hclear : ∀ (s : StateMachine) e, ¬ (s.state = .disabled ∧ enters e = true) →
      ¬ (s.next e).state ≠ .disabled → ¬ Engaged (next s e) := fun _ _ _ hdis => hdis
  have hoff : ¬ Engaged s := fun h => h hs
  refine (Run.flag_iff hstart hkeep hclear hoff es).trans ?_
  constructor
  · rintro ⟨n, pre, e, post, rfl, -, ⟨hdis, hent⟩, hall⟩
    rw [Run.run_snoc] at hall
    exact ⟨pre, e, post, rfl, hdis, hent, (stays_iff (next_enters hdis hent) post).1 hall⟩
  · rintro ⟨pre, e, post, rfl, hdis, hent, hstay⟩
    refine ⟨post.length + 1, pre, e, post, rfl, Nat.lt_succ_self _, ⟨hdis, hent⟩, ?_⟩
    rw [Run.run_snoc]
    exact (stays_iff (next_enters hdis hent) post).2 hstay

theorem engaged_iff_overridden :
    Engaged
      (Run.run next {} [⟨[[.enable], [.overrideLateral]]⟩, ⟨[[.softDisable, .warning]]⟩]) := by
  refine (engaged_iff rfl _).2 ⟨[], _, [_], rfl, rfl, rfl, by simp [hard, Events.contains], ?_⟩
  rintro ⟨a, s, b, heq, hlen, -⟩
  have hlength := congrArg List.length heq
  simp only [List.length_append, List.length_singleton, hlen, softDisableTime] at hlength
  omega

end StateMachine
end Selfdrived
end MazdaPort
