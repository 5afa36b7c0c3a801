import Mathlib.Data.Nat.ModEq
import Mathlib.Tactic.Common

/-!
# MazdaPort.Lib.Capture

A ring of `n` cells that a free-running producer fills: item `u` of its stream goes to cell
`(base + u) % n`, whatever the consumer has read. As long as the producer is less than a lap ahead,
the masked distance of the cursors is how far it is ahead (`distance_eq`), and the cells between
them hold the stream (`cells_recent`).
-/

namespace MazdaPort
namespace Capture

universe u

variable {α : Type u} {n base : Nat}

/-- How far cursor `b` is ahead of cursor `a`, up to whole laps. -/
def distance (n a b : Nat) : Nat := (b + n - a) % n

/-- The cells once `c` items of the stream have been captured. -/
def cells (n base : Nat) (old : Nat → α) (stream : List α) : Nat → Nat → α
  | 0, j => old j
  | c + 1, j =>
    if j = (base + c) % n then stream.getD c (old j) else cells n base old stream c j

theorem slot_ne {v c : Nat} (hv : v < c) (hc : c < v + n) : (base + v) % n ≠ (base + c) % n := by
  intro heq
  have hzero : (base + c - (base + v)) % n = 0 := Nat.sub_mod_eq_zero_of_mod_eq heq.symm
  rw [Nat.add_sub_add_left, Nat.mod_eq_of_lt (by omega)] at hzero
  omega

theorem cells_recent {old : Nat → α} {stream : List α} {v c : Nat} (hv : v < c) (hc : c ≤ v + n)
    (hs : c ≤ stream.length) :
    stream[v]? = some (cells n base old stream c ((base + v) % n)) := by
  induction c with
  | zero => omega
  | succ c ih =>
    simp only [cells]
    rcases Nat.lt_or_ge v c with hlt | hge
    · rw [if_neg (slot_ne hlt (by omega))]
      exact ih hlt (by omega) (by omega)
    · obtain rfl : v = c := by omega
      rw [if_pos rfl, List.getD_eq_getElem?_getD, List.getElem?_eq_getElem (by omega)]
      rfl

theorem distance_eq {v c : Nat} (hv : v ≤ c) (hc : c < v + n) :
    distance n ((base + v) % n) ((base + c) % n) = c - v := by
  have hpos : 0 < n := by omega
  have hr : (base + v) % n < n := Nat.mod_lt _ hpos
  have hc' : (base + c) % n = ((base + v) % n + (c - v)) % n := by
    rw [Nat.mod_add_mod]
    congr 1
    omega
  rw [hc', distance]
  generalize (base + v) % n = r at hr
  rcases Nat.lt_or_ge (r + (c - v)) n with hlt | hge
  · rw [Nat.mod_eq_of_lt hlt, show r + (c - v) + n - r = c - v + n by omega, Nat.add_mod_right,
      Nat.mod_eq_of_lt (by omega)]
  · rw [Nat.mod_eq_sub_mod hge, Nat.mod_eq_of_lt (a := r + (c - v) - n) (by omega),
      show r + (c - v) - n + n - r = c - v by omega, Nat.mod_eq_of_lt (by omega)]

end Capture
end MazdaPort
