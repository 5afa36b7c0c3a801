import Mathlib.Data.List.Basic
import Mathlib.Tactic.Common

/-!
# MazdaPort.Lib.Blocks

A list taken in blocks of `n`. `foldBlocks` folds over the whole blocks, and `rest` is what they
leave. `foldBlocks_snoc`: what one more element does to both.
-/

namespace MazdaPort
namespace Blocks

universe u v

variable {α : Type u} {σ : Type v} {n : ℕ}

def block (n : ℕ) (xs : List α) (i : ℕ) : List α := (xs.drop (n * i)).take n

/-- The elements behind the whole blocks. -/
def rest (n : ℕ) (xs : List α) : List α := xs.drop (n * (xs.length / n))

def foldBlocks (n : ℕ) (f : σ → List α → σ) (s : σ) (xs : List α) : σ :=
  (List.range (xs.length / n)).foldl (fun s i => f s (block n xs i)) s

theorem rest_length (n : ℕ) (xs : List α) : (rest n xs).length = xs.length % n := by
  have h := Nat.mod_add_div xs.length n
  rw [rest, List.length_drop]
  omega

theorem rest_eq_nil {xs : List α} (h : xs.length % n = 0) : rest n xs = [] := by
  rw [← List.length_eq_zero_iff, rest_length, h]

/-- A whole block does not change when the list gets longer. -/
theorem block_append {xs : List α} {i : ℕ} (h : i < xs.length / n) (ys : List α) :
    block n (xs ++ ys) i = block n xs i := by
  have hpos : 0 < n := by
    rcases Nat.eq_zero_or_pos n with rfl | hpos
    · rw [Nat.div_zero] at h
      omega
    · exact hpos
  have hend : n * i + n ≤ xs.length := by
    have hle := Nat.mul_le_mul_left n (Nat.succ_le_of_lt h)
    rw [Nat.mul_succ] at hle
    exact Nat.le_trans hle (Nat.mul_div_le xs.length n)
  unfold block
  rw [List.drop_append_of_le_length (by omega), List.take_append_of_le_length]
  rw [List.length_drop]
  omega

theorem foldBlocks_append_of_eq {xs ys : List α} (h : (xs ++ ys).length / n = xs.length / n)
    (f : σ → List α → σ) (s : σ) : foldBlocks n f s (xs ++ ys) = foldBlocks n f s xs := by
  unfold foldBlocks
  rw [h]
  refine List.foldl_ext _ _ s fun a i hi => ?_
  rw [block_append (List.mem_range.1 hi)]

/-- One more element goes to the rest, or completes it to a block. -/
theorem foldBlocks_snoc (hn : 0 < n) (f : σ → List α → σ) (s : σ) (xs : List α) (x : α) :
    (xs.length % n + 1 < n → foldBlocks n f s (xs ++ [x]) = foldBlocks n f s xs ∧
      rest n (xs ++ [x]) = rest n xs ++ [x]) ∧
    (xs.length % n + 1 = n →
      foldBlocks n f s (xs ++ [x]) = f (foldBlocks n f s xs) (rest n xs ++ [x]) ∧
        rest n (xs ++ [x]) = []) := by
  have hsplit := Nat.mod_add_div xs.length n
  have hlen : (xs ++ [x]).length = xs.length + 1 := by simp
  constructor
  · intro hshort
    have hdiv : (xs.length + 1) / n = xs.length / n := by
      refine Nat.div_eq_of_lt_le ?_ ?_
      · rw [Nat.mul_comm]
        omega
      · rw [Nat.succ_mul, Nat.mul_comm]
        omega
    refine ⟨foldBlocks_append_of_eq (by rw [hlen, hdiv]) f s, ?_⟩
    unfold rest
    rw [hlen, hdiv, List.drop_append_of_le_length (by omega)]
  · intro hfull
    have htotal : xs.length + 1 = n * (xs.length / n + 1) := by
      rw [Nat.mul_succ]
      omega
    have hdiv : (xs.length + 1) / n = xs.length / n + 1 := by
      rw [htotal, Nat.mul_div_cancel_left _ hn]
    have hlast : block n (xs ++ [x]) (xs.length / n) = rest n xs ++ [x] := by
      unfold block rest
      rw [List.drop_append_of_le_length (by omega)]
      refine List.take_of_length_le ?_
      rw [List.length_append, List.length_drop, List.length_singleton]
      omega
    have hbefore : (List.range (xs.length / n)).foldl (fun s i => f s (block n (xs ++ [x]) i)) s =
        foldBlocks n f s xs := by
      refine List.foldl_ext _ _ s fun a i hi => ?_
      rw [block_append (List.mem_range.1 hi)]
    constructor
    · rw [foldBlocks, hlen, hdiv, List.range_succ, List.foldl_append, hbefore]
      simp only [List.foldl_cons, List.foldl_nil]
      rw [hlast]
    · refine rest_eq_nil ?_
      rw [hlen, htotal, Nat.mul_mod_right]

end Blocks
end MazdaPort
