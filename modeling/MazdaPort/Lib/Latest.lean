import Mathlib.Data.List.Infix
import Mathlib.Tactic.Common

/-!
# MazdaPort.Lib.Latest

The latest entry of a history with a property, and what came after it. `Latest.split` places any
other entry with the property before it; `Latest.snoc` and `latest_snoc` follow a growing history.
-/

namespace MazdaPort

universe u

variable {α : Type u} {P : α → Prop}

/-- `a` is the last entry of `h` with `P`, and `since` is what follows it. -/
structure Latest (P : α → Prop) (h : List α) (a : α) (since : List α) : Prop where
  split : ∃ pre, h = pre ++ a :: since
  here : P a
  since_not : ∀ b ∈ since, ¬ P b

theorem latest_snoc (h : List α) {a : α} (ha : P a) : Latest P (h ++ [a]) a [] :=
  ⟨⟨h, rfl⟩, ha, by simp⟩

theorem Latest.snoc {h since : List α} {a b : α} (hl : Latest P h a since) (hb : ¬ P b) :
    Latest P (h ++ [b]) a (since ++ [b]) := by
  obtain ⟨⟨pre, rfl⟩, ha, hs⟩ := hl
  refine ⟨⟨pre, by simp⟩, ha, fun c hc => ?_⟩
  rcases List.mem_append.1 hc with h' | h'
  · exact hs c h'
  · rw [List.mem_singleton.1 h']
    exact hb

/-- Any entry with the property is the latest one or stands before it. -/
theorem Latest.eq_or_before {h since pre post : List α} {a b : α} (hl : Latest P h a since)
    (hsplit : h = pre ++ b :: post) (hb : P b) :
    (b = a ∧ post = since) ∨ ∃ mid, post = mid ++ a :: since := by
  obtain ⟨⟨pre', heq⟩, -, hs⟩ := hl
  rw [hsplit, List.append_eq_append_iff] at heq
  rcases heq with ⟨mid, -, hmid⟩ | ⟨mid, -, hmid⟩
  · cases mid with
    | nil =>
      simp only [List.nil_append, List.cons.injEq] at hmid
      exact .inl hmid
    | cons c mid =>
      simp only [List.cons_append, List.cons.injEq] at hmid
      exact .inr ⟨mid, hmid.2⟩
  · cases mid with
    | nil =>
      simp only [List.nil_append, List.cons.injEq] at hmid
      exact .inl ⟨hmid.1.symm, hmid.2.symm⟩
    | cons c mid =>
      simp only [List.cons_append, List.cons.injEq] at hmid
      have hmem : b ∈ since := by simp [hmid.2]
      exact absurd hb (hs b hmem)

theorem pairwise_of_split {R : α → α → Prop} {h pre mid post : List α} {a b : α}
    (hp : h.Pairwise R) (hsplit : h = pre ++ a :: mid ++ b :: post) : R a b := by
  rw [hsplit, List.append_assoc, List.pairwise_append] at hp
  have htail := hp.2.1
  rw [List.cons_append, List.pairwise_cons] at htail
  exact htail.1 b (by simp)

end MazdaPort
