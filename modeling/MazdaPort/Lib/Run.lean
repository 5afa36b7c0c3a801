import Mathlib.Data.List.Infix
import Mathlib.Tactic.Common

/-!
# MazdaPort.Lib.Run

Runs of a deterministic system: `run step s es` is the state after the events `es`. An invariant
is proved for one step (`run_inv`), a property of every state of a run is `Always`, and a
condition met by every step is `AllSteps`. `run_inv_of_steps` turns a step lemma under a condition
into a statement about whole runs; `always_iff_steps` is its exact form. A counter of steps is how
long a condition has lasted (`counter_iff`), a timer how recently it was started (`timer_iff`), a
flag whether it was raised and not lowered since (`flag_iff`). `trace` is what a run shows from step
to step; two runs whose states a relation holds together show the same (`trace_congr`).
-/

namespace MazdaPort
namespace Run

universe u v

variable {σ : Type u} {ε : Type v} (step : σ → ε → σ)

def run (s : σ) (es : List ε) : σ := es.foldl step s

@[simp] theorem run_nil (s : σ) : run step s [] = s := rfl

@[simp] theorem run_cons (s : σ) (e : ε) (es : List ε) :
    run step s (e :: es) = run step (step s e) es := rfl

theorem run_append (s : σ) (es fs : List ε) :
    run step s (es ++ fs) = run step (run step s es) fs := by
  simp [run, List.foldl_append]

@[simp] theorem run_snoc (s : σ) (es : List ε) (e : ε) :
    run step s (es ++ [e]) = step (run step s es) e := by
  simp [run_append]

theorem run_inv {step : σ → ε → σ} {Inv : σ → Prop} (hstep : ∀ s e, Inv s → Inv (step s e))
    {s : σ} (h : Inv s) (es : List ε) : Inv (run step s es) := by
  induction es generalizing s with
  | nil => exact h
  | cons e es ih => exact ih (hstep s e h)

/-- What a step preserves on the events of a set, a run over such events preserves. -/
theorem run_inv_of_mem {step : σ → ε → σ} {Inv : σ → Prop} {E : ε → Prop}
    (hstep : ∀ s e, E e → Inv s → Inv (step s e)) {s : σ} (h : Inv s) {es : List ε}
    (hes : ∀ e ∈ es, E e) : Inv (run step s es) := by
  induction es generalizing s with
  | nil => exact h
  | cons e es ih =>
    exact ih (hstep s e (hes e List.mem_cons_self) h) fun e' he' =>
      hes e' (List.mem_cons_of_mem e he')

def Always (P : σ → Prop) (s : σ) (es : List ε) : Prop :=
  ∀ pre, pre <+: es → P (run step s pre)

/-- Every step of the run meets `ok` in the state it is taken from. -/
def AllSteps (ok : σ → ε → Prop) : σ → List ε → Prop
  | _, [] => True
  | s, e :: es => ok s e ∧ AllSteps ok (step s e) es

instance decidableAllSteps (ok : σ → ε → Prop) [∀ s e, Decidable (ok s e)] :
    (s : σ) → (es : List ε) → Decidable (AllSteps step ok s es)
  | _, [] => inferInstanceAs (Decidable True)
  | s, e :: es => @instDecidableAnd _ _ _ (decidableAllSteps ok (step s e) es)

/-- Some step of the run meets `ev` in the state it is taken from. -/
def SomeStep (ev : σ → ε → Prop) : σ → List ε → Prop
  | _, [] => False
  | s, e :: es => ev s e ∨ SomeStep ev (step s e) es

theorem allSteps_and {step : σ → ε → σ} {ok ok' : σ → ε → Prop} {s : σ} {es : List ε}
    (h : AllSteps step ok s es) (h' : AllSteps step ok' s es) :
    AllSteps step (fun s e => ok s e ∧ ok' s e) s es := by
  induction es generalizing s with
  | nil => trivial
  | cons e es ih => exact ⟨⟨h.1, h'.1⟩, ih h.2 h'.2⟩

theorem AllSteps.and_mem {step : σ → ε → σ} {ok : σ → ε → Prop} {E : ε → Prop} {s : σ}
    {es : List ε} (h : AllSteps step ok s es) (hE : ∀ e ∈ es, E e) :
    AllSteps step (fun s e => E e ∧ ok s e) s es := by
  induction es generalizing s with
  | nil => trivial
  | cons e es ih =>
    refine ⟨⟨hE e List.mem_cons_self, h.1⟩, ih h.2 fun e' he' => ?_⟩
    exact hE e' (List.mem_cons_of_mem e he')

theorem run_inv_of_steps {step : σ → ε → σ} {ok : σ → ε → Prop} {Inv : σ → Prop}
    (hstep : ∀ s e, ok s e → Inv s → Inv (step s e)) {s : σ} {es : List ε}
    (hes : AllSteps step ok s es) (h : Inv s) : Inv (run step s es) := by
  induction es generalizing s with
  | nil => exact h
  | cons e es ih => exact ih hes.2 (hstep s e hes.1 h)

/-- What the steps of the run preserve and one event of it brings about holds at its end. -/
theorem run_inv_of_someStep {step : σ → ε → σ} {ok ev : σ → ε → Prop} {Inv Goal : σ → Prop}
    (hInv : ∀ s e, ok s e → Inv s → Inv (step s e))
    (hGoal : ∀ s e, ok s e → Goal s → Goal (step s e))
    (hev : ∀ s e, ok s e → ev s e → Inv s → Goal (step s e)) {s : σ} {es : List ε}
    (hes : AllSteps step ok s es) (h : Inv s) (hsome : SomeStep step ev s es) :
    Goal (run step s es) := by
  induction es generalizing s with
  | nil => cases hsome
  | cons e es ih =>
    rcases hsome with hnow | hlater
    · have hnext : Goal (step s e) := hev s e hes.1 hnow h
      rw [run_cons]
      exact run_inv_of_steps hGoal hes.2 hnext
    · exact ih hes.2 (hInv s e hes.1 h) hlater

/-- What no step ends holds once a step has brought it about. -/
theorem lasting_iff {step : σ → ε → σ} {P : σ → Prop} {ev : σ → ε → Prop}
    (hstay : ∀ s e, P s → P (step s e)) (hstart : ∀ s e, ¬ P s → (P (step s e) ↔ ev s e)) {s : σ}
    (es : List ε) : P (run step s es) ↔ P s ∨ SomeStep step ev s es := by
  induction es generalizing s with
  | nil => simp [SomeStep]
  | cons e es ih =>
    rw [run_cons, ih, SomeStep]
    by_cases h : P s
    · simp [h, hstay s e h]
    · simp [h, hstart s e h]

/-- Two conditions that agree under an invariant agree on runs. -/
theorem allSteps_congr {step : σ → ε → σ} {ok ok' : σ → ε → Prop} {Inv : σ → Prop}
    (hInv : ∀ s e, Inv s → Inv (step s e)) (hok : ∀ s e, Inv s → (ok s e ↔ ok' s e)) {s : σ}
    (h : Inv s) (es : List ε) : AllSteps step ok s es ↔ AllSteps step ok' s es := by
  induction es generalizing s with
  | nil => exact Iff.rfl
  | cons e es ih => exact and_congr (hok s e h) (ih (hInv s e h))

/-- Two systems that a relation holds together for as long as the steps of the first are good, and
whose steps are good at the same time. -/
theorem allSteps_iff {τ : Type*} {step : σ → ε → σ} {step' : τ → ε → τ} {ok : σ → ε → Prop}
    {ok' : τ → ε → Prop} {R : σ → τ → Prop} (hok : ∀ s t e, R s t → (ok s e ↔ ok' t e))
    (hstep : ∀ s t e, R s t → ok s e → R (step s e) (step' t e)) {s : σ} {t : τ} (h : R s t)
    (es : List ε) : AllSteps step ok s es ↔ AllSteps step' ok' t es := by
  induction es generalizing s t with
  | nil => exact Iff.rfl
  | cons e es ih =>
    constructor
    · rintro ⟨hnow, hlater⟩
      exact ⟨(hok s t e h).1 hnow, (ih (hstep s t e h hnow)).1 hlater⟩
    · rintro ⟨hnow, hlater⟩
      have hok' := (hok s t e h).2 hnow
      exact ⟨hok', (ih (hstep s t e h hok')).2 hlater⟩

theorem allSteps_append {ok : σ → ε → Prop} {s : σ} {es fs : List ε} :
    AllSteps step ok s (es ++ fs) ↔
      AllSteps step ok s es ∧ AllSteps step ok (run step s es) fs := by
  induction es generalizing s with
  | nil => simp [AllSteps]
  | cons e es ih => simp [AllSteps, ih, and_assoc]

theorem allSteps_snoc {ok : σ → ε → Prop} {s : σ} {es : List ε} {e : ε} :
    AllSteps step ok s (es ++ [e]) ↔ AllSteps step ok s es ∧ ok (run step s es) e := by
  simp [allSteps_append, AllSteps]

/-- Every step of a run is the last step of a prefix of it. -/
theorem allSteps_iff_forall {ok : σ → ε → Prop} {s : σ} {es : List ε} :
    AllSteps step ok s es ↔ ∀ pre e, pre ++ [e] <+: es → ok (run step s pre) e := by
  induction es using List.reverseRecOn with
  | nil => simp [AllSteps]
  | append_singleton es e ih =>
    rw [allSteps_snoc, ih]
    constructor
    · rintro ⟨hall, hlast⟩ pre e' hp
      rcases List.prefix_concat_iff.1 hp with heq | hp
      · obtain ⟨rfl, hcons⟩ := List.append_inj' heq rfl
        cases hcons
        exact hlast
      · exact hall pre e' hp
    · intro h
      refine ⟨fun pre e' hp => h pre e' ?_, h es e (List.prefix_refl _)⟩
      exact hp.trans (List.prefix_append es [e])

theorem always_nil {P : σ → Prop} {s : σ} : Always step P s [] ↔ P s := by
  simp [Always]

theorem always_cons {P : σ → Prop} {s : σ} {e : ε} {es : List ε} :
    Always step P s (e :: es) ↔ P s ∧ Always step P (step s e) es := by
  constructor
  · intro h
    exact ⟨h [] (List.nil_prefix), fun pre hp => h (e :: pre) (List.cons_prefix_cons.2 ⟨rfl, hp⟩)⟩
  · rintro ⟨h0, h⟩ pre hp
    cases pre with
    | nil => exact h0
    | cons a pre =>
      obtain ⟨rfl, hp'⟩ := List.cons_prefix_cons.1 hp
      exact h pre hp'

theorem Always.last {step : σ → ε → σ} {P : σ → Prop} {s : σ} {es : List ε}
    (h : Always step P s es) : P (run step s es) := h es (List.prefix_refl es)

/-- `Inv` is kept by every step on the events of `E`. A run over such events keeps `P` exactly when
its steps all meet `ok`: a step from an `Inv`-state with `P` keeps `P` if and only if it does. -/
theorem always_iff_steps {step : σ → ε → σ} {Inv P : σ → Prop} {ok : σ → ε → Prop} {E : ε → Prop}
    (hInv : ∀ s e, E e → Inv s → Inv (step s e))
    (hok : ∀ s e, E e → Inv s → P s → (P (step s e) ↔ ok s e)) {s : σ} (hi : Inv s) (hp : P s)
    {es : List ε} (hes : ∀ e ∈ es, E e) : Always step P s es ↔ AllSteps step ok s es := by
  induction es generalizing s with
  | nil => simp [always_nil, AllSteps, hp]
  | cons e es ih =>
    have he : E e := hes e List.mem_cons_self
    have hes' : ∀ e' ∈ es, E e' := fun e' he' => hes e' (List.mem_cons_of_mem e he')
    have hi' : Inv (step s e) := hInv s e he hi
    rw [always_cons, AllSteps]
    constructor
    · rintro ⟨_, h⟩
      have hp' : P (step s e) := by simpa using h [] List.nil_prefix
      exact ⟨(hok s e he hi hp).1 hp', (ih hi' hp' hes').1 h⟩
    · rintro ⟨h1, h2⟩
      exact ⟨hp, (ih hi' ((hok s e he hi hp).2 h1) hes').2 h2⟩

/-! ## Counters and timers -/

section Counters

/-- The last `n` steps of the run all meet `P`. -/
def Lasted (P : σ → ε → Prop) (n : Nat) (s : σ) (es : List ε) : Prop :=
  ∃ pre suf, es = pre ++ suf ∧ suf.length = n ∧ AllSteps step P (run step s pre) suf

/-- Fewer than `n` steps ago a step met `start`, and every step since has met `keep`. -/
def Recent (start keep : σ → ε → Prop) (n : Nat) (s : σ) (es : List ε) : Prop :=
  ∃ pre e suf, es = pre ++ e :: suf ∧ suf.length < n ∧ start (run step s pre) e ∧
    AllSteps step keep (run step s (pre ++ [e])) suf

variable {step}

theorem lasted_zero {P : σ → ε → Prop} {s : σ} {es : List ε} : Lasted step P 0 s es :=
  ⟨es, [], by simp, rfl, trivial⟩

theorem lasted_succ_snoc {P : σ → ε → Prop} {n : Nat} {s : σ} {es : List ε} {e : ε} :
    Lasted step P (n + 1) s (es ++ [e]) ↔ Lasted step P n s es ∧ P (run step s es) e := by
  constructor
  · rintro ⟨pre, suf, heq, hlen, hall⟩
    rcases List.eq_nil_or_concat suf with rfl | ⟨suf, e', rfl⟩
    · cases hlen
    · rw [List.concat_eq_append] at heq hlen hall
      rw [← List.append_assoc] at heq
      obtain ⟨rfl, hcons⟩ := List.append_inj' heq rfl
      cases hcons
      rw [allSteps_snoc, ← run_append] at hall
      exact ⟨⟨pre, suf, rfl, by simpa using hlen, hall.1⟩, hall.2⟩
  · rintro ⟨⟨pre, suf, rfl, hlen, hall⟩, hlast⟩
    refine ⟨pre, suf ++ [e], by simp, by simp [hlen], ?_⟩
    rw [allSteps_snoc, ← run_append]
    exact ⟨hall, hlast⟩

/-- A counter that a step either raises or clears says how long the steps have raised it. -/
theorem counter_iff {c : σ → Nat} {P : σ → ε → Prop}
    (hup : ∀ s e, P s e → c (step s e) = c s + 1)
    (hclear : ∀ s e, ¬ P s e → c (step s e) = 0) {s : σ} (h : c s = 0) (es : List ε)
    {n : Nat} : n ≤ c (run step s es) ↔ Lasted step P n s es := by
  induction es using List.reverseRecOn generalizing n with
  | nil =>
    cases n with
    | zero => simp [lasted_zero]
    | succ n =>
      constructor
      · intro hn
        simp [h] at hn
      · rintro ⟨pre, suf, heq, hlen, -⟩
        obtain ⟨-, rfl⟩ := List.append_eq_nil_iff.1 heq.symm
        cases hlen
  | append_singleton es e ih =>
    cases n with
    | zero => simp [lasted_zero]
    | succ n =>
      rw [lasted_succ_snoc, ← ih, run_snoc]
      by_cases hP : P (run step s es) e
      · rw [hup _ _ hP]
        simp [hP]
      · rw [hclear _ _ hP]
        simp [hP]

theorem recent_snoc {start keep : σ → ε → Prop} {n : Nat} {s : σ} {es : List ε} {e : ε} :
    Recent step start keep (n + 1) s (es ++ [e]) ↔
      start (run step s es) e ∨
        Recent step start keep n s es ∧ keep (run step s es) e := by
  constructor
  · rintro ⟨pre, e', suf, heq, hlen, hstart, hall⟩
    rcases List.eq_nil_or_concat suf with rfl | ⟨suf, e'', rfl⟩
    · obtain ⟨rfl, hcons⟩ := List.append_inj' heq rfl
      cases hcons
      exact .inl hstart
    · rw [List.concat_eq_append] at heq hlen hall
      rw [← List.cons_append, ← List.append_assoc] at heq
      obtain ⟨rfl, hcons⟩ := List.append_inj' heq rfl
      cases hcons
      rw [allSteps_snoc, ← run_append] at hall
      rw [List.append_assoc] at hall
      refine .inr ⟨⟨pre, e', suf, rfl, by simpa using hlen, hstart, hall.1⟩, hall.2⟩
  · rintro (hstart | ⟨⟨pre, e', suf, rfl, hlen, hstart, hall⟩, hkeep⟩)
    · exact ⟨es, e, [], rfl, Nat.zero_lt_succ n, hstart, trivial⟩
    · refine ⟨pre, e', suf ++ [e], by simp, by simpa using hlen, hstart, ?_⟩
      rw [allSteps_snoc, ← run_append, List.append_assoc]
      exact ⟨hall, hkeep⟩

/-- A timer that `start` sets to `N` and the other steps count down, or clear. -/
theorem timer_iff {t : σ → Nat} {start keep : σ → ε → Prop} {N : Nat}
    (hstart : ∀ s e, start s e → t (step s e) = N)
    (hkeep : ∀ s e, ¬ start s e → keep s e → t (step s e) = t s - 1)
    (hclear : ∀ s e, ¬ start s e → ¬ keep s e → t (step s e) = 0) {s : σ} (h : t s = 0)
    (es : List ε) {k : Nat} :
    k < t (run step s es) ↔ Recent step start keep (N - k) s es := by
  induction es using List.reverseRecOn generalizing k with
  | nil =>
    constructor
    · intro hk
      simp [h] at hk
    · rintro ⟨pre, e, suf, heq, -⟩
      simp at heq
  | append_singleton es e ih =>
    rcases Nat.lt_or_ge k N with hk | hk
    · have hn : N - k = N - (k + 1) + 1 := by omega
      rw [run_snoc, hn, recent_snoc, ← ih]
      by_cases hs : start (run step s es) e
      · rw [hstart _ _ hs]
        simp only [hs, true_or, iff_true]
        omega
      · by_cases hq : keep (run step s es) e
        · rw [hkeep _ _ hs hq]
          simp only [hs, hq, false_or, and_true]
          omega
        · rw [hclear _ _ hs hq]
          simp [hs, hq]
    · have hle : t (run step s (es ++ [e])) ≤ N := by
        have hstep : ∀ s e, t s ≤ N → t (step s e) ≤ N := by
          intro s e hs
          by_cases h1 : start s e
          · exact (hstart s e h1).le
          · by_cases h2 : keep s e
            · rw [hkeep s e h1 h2]
              omega
            · rw [hclear s e h1 h2]
              omega
        exact run_inv hstep (by omega) _
      constructor
      · intro hlt
        omega
      · rintro ⟨pre, e', suf, -, hlen, -⟩
        omega

variable (step) in
/-- Some step met `start`, and every step since has met `keep`. -/
def Since (start keep : σ → ε → Prop) (s : σ) (es : List ε) : Prop :=
  ∃ n, Recent step start keep n s es

theorem since_snoc {start keep : σ → ε → Prop} {s : σ} {es : List ε} {e : ε} :
    Since step start keep s (es ++ [e]) ↔
      start (run step s es) e ∨ Since step start keep s es ∧ keep (run step s es) e := by
  constructor
  · rintro ⟨n, hn⟩
    cases n with
    | zero =>
      obtain ⟨_, _, suf, _, hlt, _⟩ := hn
      exact absurd hlt (Nat.not_lt_zero suf.length)
    | succ n =>
      rcases recent_snoc.1 hn with hstart | ⟨hrecent, hkeep⟩
      · exact .inl hstart
      · exact .inr ⟨⟨n, hrecent⟩, hkeep⟩
  · rintro (hstart | ⟨⟨n, hrecent⟩, hkeep⟩)
    · exact ⟨1, recent_snoc.2 (.inl hstart)⟩
    · exact ⟨n + 1, recent_snoc.2 (.inr ⟨hrecent, hkeep⟩)⟩

/-- A flag that `start` raises, that stays as it is under `keep` and that the other steps lower. -/
theorem flag_iff {flag : σ → Prop} {start keep : σ → ε → Prop}
    (hstart : ∀ s e, start s e → flag (step s e))
    (hkeep : ∀ s e, ¬ start s e → keep s e → (flag (step s e) ↔ flag s))
    (hclear : ∀ s e, ¬ start s e → ¬ keep s e → ¬ flag (step s e)) {s : σ} (h : ¬ flag s)
    (es : List ε) : flag (run step s es) ↔ Since step start keep s es := by
  induction es using List.reverseRecOn with
  | nil =>
    constructor
    · intro hflag
      exact absurd hflag h
    · rintro ⟨n, pre, e, suf, heq, -⟩
      simp at heq
  | append_singleton es e ih =>
    rw [since_snoc, ← ih, run_snoc]
    by_cases hs : start (run step s es) e
    · simp [hs, hstart _ _ hs]
    · by_cases hk : keep (run step s es) e
      · simp [hs, hk, hkeep _ _ hs hk]
      · simp [hs, hk, hclear _ _ hs hk]

end Counters

/-! ## History variables -/

universe w

variable {γ : Type w}

/-- The system beside a history variable that `note` keeps and no step reads. -/
def withHistory (note : σ → γ → ε → γ) (p : σ × γ) (e : ε) : σ × γ :=
  (step p.1 e, note p.1 p.2 e)

@[simp] theorem run_withHistory_fst (note : σ → γ → ε → γ) (p : σ × γ) (es : List ε) :
    (run (withHistory step note) p es).1 = run step p.1 es := by
  induction es generalizing p with
  | nil => rfl
  | cons e es ih => exact ih (withHistory step note p e)

/-! ## Two runs side by side -/

variable {ο : Type w} (out : σ → ε → ο)

/-- What each step of the run shows, in order. -/
def trace : σ → List ε → List ο
  | _, [] => []
  | s, e :: es => out s e :: trace (step s e) es

theorem trace_snoc (s : σ) (es : List ε) (e : ε) :
    trace step out s (es ++ [e]) = trace step out s es ++ [out (run step s es) e] := by
  induction es generalizing s with
  | nil => rfl
  | cons a es ih => simp [trace, ih]

/-- A relation that the events of a set preserve, and under which they show the same. -/
theorem trace_congr {step : σ → ε → σ} {out : σ → ε → ο} {R : σ → σ → Prop} {E : ε → Prop}
    (hstep : ∀ s s' e, E e → R s s' → R (step s e) (step s' e))
    (hout : ∀ s s' e, E e → R s s' → out s e = out s' e) {s s' : σ} (h : R s s') {es : List ε}
    (hes : ∀ e ∈ es, E e) : trace step out s es = trace step out s' es := by
  induction es generalizing s s' with
  | nil => rfl
  | cons e es ih =>
    have he : E e := hes e List.mem_cons_self
    have hes' : ∀ e' ∈ es, E e' := fun e' he' => hes e' (List.mem_cons_of_mem e he')
    rw [trace, trace, hout s s' e he h, ih (hstep s s' e he h) hes']

end Run
end MazdaPort
