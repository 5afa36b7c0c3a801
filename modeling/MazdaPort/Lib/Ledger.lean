import Mathlib.Data.List.Basic

/-!
# MazdaPort.Lib.Ledger

The books of a queue. A piece of code is offered elements, puts some of them into a queue and takes
elements out of it; `Passes` compares what has come out and what is left with what was there and
what was offered. Under equality the code loses nothing, under `List.Sublist` it may lose elements
but neither reorders nor doubles nor invents any.

`Passes.trans` composes the books of two pieces of code, and so of a run step by step.
-/

namespace MazdaPort
namespace Ledger

universe u

variable {α : Type u}

/-- A preorder of lists that appending on either side respects. -/
structure Appending (R : List α → List α → Prop) : Prop where
  refl : ∀ xs, R xs xs
  trans : ∀ {xs ys zs}, R xs ys → R ys zs → R xs zs
  append : ∀ {xs ys} zs, R xs ys → R (xs ++ zs) (ys ++ zs)
  prepend : ∀ {xs ys} zs, R xs ys → R (zs ++ xs) (zs ++ ys)

theorem appending_eq : Appending (α := α) (· = ·) where
  refl _ := rfl
  trans := Eq.trans
  append zs h := by rw [h]
  prepend zs h := by rw [h]

theorem appending_sublist : Appending (α := α) List.Sublist where
  refl := List.Sublist.refl
  trans := List.Sublist.trans
  append zs h := List.Sublist.append h (List.Sublist.refl zs)
  prepend zs h := List.Sublist.append (List.Sublist.refl zs) h

/-- From the queue `q` and the elements `offered`, `taken` has come out and `q'` is left. -/
def Passes (R : List α → List α → Prop) (q offered taken q' : List α) : Prop :=
  R (taken ++ q') (q ++ offered)

section Books

variable {R : List α → List α → Prop}

theorem Passes.none (hR : Appending R) (q : List α) : Passes R q [] [] q := by
  simpa [Passes] using hR.refl q

theorem Passes.trans (hR : Appending R) {q q₁ q₂ o₁ o₂ t₁ t₂ : List α}
    (h₁ : Passes R q o₁ t₁ q₁) (h₂ : Passes R q₁ o₂ t₂ q₂) :
    Passes R q (o₁ ++ o₂) (t₁ ++ t₂) q₂ := by
  have hlate : R (t₁ ++ (t₂ ++ q₂)) (t₁ ++ (q₁ ++ o₂)) := hR.prepend t₁ h₂
  have hearly : R (t₁ ++ q₁ ++ o₂) (q ++ o₁ ++ o₂) := hR.append o₂ h₁
  rw [← List.append_assoc t₁ q₁ o₂] at hlate
  unfold Passes
  rw [List.append_assoc, ← List.append_assoc q o₁ o₂]
  exact hR.trans hlate hearly

end Books

end Ledger
end MazdaPort
