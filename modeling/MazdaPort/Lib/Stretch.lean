import MazdaPort.Lib.Run

/-!
# MazdaPort.Lib.Stretch

How many events in a row have met a condition, counted from the first event that ends a wait.

`reaches_iff`: the count reaches `n` somewhere in a run exactly when `n` events behind the end of
the wait meet the condition one after the other.
-/

namespace MazdaPort
namespace Stretch

universe u

variable {ε : Type u} (wait cond : ε → Bool)

/-- `none` during the wait. The event that ends it is not counted. -/
def step : Option Nat → ε → Option Nat
  | none, e => if wait e then none else some 0
  | some n, e => if cond e then some (n + 1) else some 0

def count (c : Option Nat) : Nat := c.getD 0

def start (waiting : Bool) : Option Nat := if waiting then none else some 0

/-- `n` events in a row meet the condition, behind the end of the wait. -/
def Has (waiting : Bool) (n : Nat) (es : List ε) : Prop :=
  ∃ a s b, es = a ++ s ++ b ∧ s.length = n ∧ (∀ e ∈ s, cond e = true) ∧
    (waiting = false ∨ ∃ e ∈ a, wait e = false)

variable {wait cond}

theorem step_isSome {c : Option Nat} (h : c.isSome) (e : ε) : (step wait cond c e).isSome := by
  obtain ⟨n, rfl⟩ := Option.isSome_iff_exists.1 h
  cases he : cond e <;> simp [step, he]

theorem run_over {c : Option Nat} (h : c.isSome) (a : List ε) :
    (Run.run (step wait cond) c a).isSome := by
  have hstep : ∀ c e, c.isSome = true → (step wait cond c e).isSome = true :=
    fun _ e hc => step_isSome hc e
  exact Run.run_inv hstep h a

theorem run_waiting (a : List ε) :
    (Run.run (step wait cond) none a).isSome ↔ ∃ e ∈ a, wait e = false := by
  induction a with
  | nil => simp
  | cons e a ih =>
    rw [Run.run_cons]
    cases hw : wait e with
    | true =>
      have hstill : step wait cond none e = none := by simp [step, hw]
      rw [hstill, ih]
      simp [hw]
    | false =>
      have hends : step wait cond none e = some 0 := by simp [step, hw]
      rw [hends]
      constructor
      · intro _
        exact ⟨e, List.mem_cons_self, hw⟩
      · intro _
        exact run_over rfl a

/-- The wait is over after the events `a`. -/
theorem run_isSome {waiting : Bool} (a : List ε) :
    (Run.run (step wait cond) (start waiting) a).isSome ↔
      waiting = false ∨ ∃ e ∈ a, wait e = false := by
  cases waiting with
  | true =>
    have hstart : start true = none := rfl
    rw [hstart, run_waiting]
    simp
  | false =>
    have hover : (Run.run (step wait cond) (start false) a).isSome := run_over rfl a
    simp [hover]

/-- The steps that raise the count. -/
def Counts (cond : ε → Bool) (c : Option Nat) (e : ε) : Prop := c.isSome ∧ cond e = true

theorem allSteps_counts {c : Option Nat} {s : List ε} (hs : s ≠ []) :
    Run.AllSteps (step wait cond) (Counts cond) c s ↔ c.isSome ∧ ∀ e ∈ s, cond e = true := by
  induction s generalizing c with
  | nil => exact absurd rfl hs
  | cons e s ih =>
    rw [Run.AllSteps, List.forall_mem_cons]
    rcases s.eq_nil_or_concat with rfl | hne
    · simp [Counts, Run.AllSteps]
    · have hs' : s ≠ [] := by
        obtain ⟨s', x, rfl⟩ := hne
        simp
      rw [ih hs']
      constructor
      · rintro ⟨⟨hc, he⟩, -, hall⟩
        exact ⟨hc, he, hall⟩
      · rintro ⟨hc, he, hall⟩
        exact ⟨⟨hc, he⟩, step_isSome hc e, hall⟩

theorem count_iff (waiting : Bool) (es : List ε) {n : Nat} :
    n ≤ count (Run.run (step wait cond) (start waiting) es) ↔
      Run.Lasted (step wait cond) (Counts cond) n (start waiting) es := by
  have hup : ∀ c e, Counts cond c e → count (step wait cond c e) = count c + 1 := by
    rintro c e ⟨hc, he⟩
    obtain ⟨n, rfl⟩ := Option.isSome_iff_exists.1 hc
    simp [step, count, he]
  have hclear : ∀ c e, ¬ Counts cond c e → count (step wait cond c e) = 0 := by
    intro c e h
    cases c with
    | none => cases hw : wait e <;> simp [step, count, hw]
    | some n =>
      have he : cond e = false := by
        cases he : cond e with
        | false => rfl
        | true => exact absurd ⟨rfl, he⟩ h
      simp [step, count, he]
  have hzero : count (start waiting) = 0 := by cases waiting <;> rfl
  exact Run.counter_iff hup hclear hzero es

theorem reaches_iff (waiting : Bool) {n : Nat} (hn : 0 < n) (es : List ε) :
    (∃ p, p <+: es ∧ n ≤ count (Run.run (step wait cond) (start waiting) p)) ↔
      Has wait cond waiting n es := by
  constructor
  · rintro ⟨p, ⟨b, rfl⟩, hcount⟩
    obtain ⟨a, s, rfl, hlen, hall⟩ := (count_iff waiting p).1 hcount
    have hne : s ≠ [] := List.ne_nil_of_length_pos (hlen ▸ hn)
    obtain ⟨hsome, hcond⟩ := (allSteps_counts hne).1 hall
    exact ⟨a, s, b, rfl, hlen, hcond, (run_isSome a).1 hsome⟩
  · rintro ⟨a, s, b, rfl, hlen, hcond, hover⟩
    have hne : s ≠ [] := List.ne_nil_of_length_pos (hlen ▸ hn)
    refine ⟨a ++ s, List.prefix_append _ b, (count_iff waiting _).2 ⟨a, s, rfl, hlen, ?_⟩⟩
    exact (allSteps_counts hne).2 ⟨(run_isSome a).2 hover, hcond⟩

end Stretch
end MazdaPort
