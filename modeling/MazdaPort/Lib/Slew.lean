import Mathlib.Algebra.Order.BigOperators.Group.List
import Mathlib.Algebra.Order.Field.Basic
import Mathlib.Algebra.Order.Group.MinMax
import Mathlib.Tactic.Linarith

/-!
# MazdaPort.Lib.Slew

A value that follows its targets by at most a given amount a move. `slewRun_le`: under targets of at
most `c` the value comes down to `c` in steps, and stays there. `le_slewRun`: it never falls below
what is under all of its targets and its start. `slew_mono`: a move keeps the order of starts and of
targets. A target is often read off a table: `le_interp` and `interp_le` are the bounds for a point
between two of its entries.
-/

namespace MazdaPort
namespace Slew

variable {α : Type*} [AddCommGroup α] [LinearOrder α]

def slew (prev amount target : α) : α := max (prev - amount) (min target (prev + amount))

theorem slew_le {prev amount target c : α} (h : target ≤ c) :
    slew prev amount target ≤ max c (prev - amount) := by
  refine max_le (le_max_right ..) ?_
  exact (min_le_left ..).trans (h.trans (le_max_left ..))

/-- One move: how far it may go and where it wants to be. -/
structure Move (α : Type*) where
  amount : α
  target : α

def slewRun (start : α) (moves : List (Move α)) : α :=
  moves.foldl (fun prev m => slew prev m.amount m.target) start

@[simp] theorem slewRun_nil (start : α) : slewRun start [] = start := rfl

@[simp] theorem slewRun_cons (start : α) (m : Move α) (moves : List (Move α)) :
    slewRun start (m :: moves) = slewRun (slew start m.amount m.target) moves := rfl

variable [IsOrderedAddMonoid α]

/-- As programs write it. -/
theorem slew_eq_ite {prev amount target : α} (h : 0 ≤ amount) :
    slew prev amount target =
      if target > prev + amount then prev + amount
      else if target < prev - amount then prev - amount
      else target := by
  have horder : prev - amount ≤ prev + amount := (sub_le_self _ h).trans (le_add_of_nonneg_right h)
  unfold slew
  split
  · next hup => rw [min_eq_right hup.le, max_eq_right horder]
  · next hup =>
    rw [min_eq_left (not_lt.1 hup)]
    split
    · next hdown => exact max_eq_left hdown.le
    · next hdown => exact max_eq_right (not_lt.1 hdown)

theorem le_slew {prev amount target b : α} (hamount : 0 ≤ amount) (hprev : b ≤ prev)
    (htarget : b ≤ target) : b ≤ slew prev amount target := by
  refine le_max_of_le_right (le_min htarget ?_)
  exact hprev.trans (le_add_of_nonneg_right hamount)

theorem slew_mono {prev prev' amount target target' : α} (hprev : prev ≤ prev')
    (htarget : target ≤ target') : slew prev amount target ≤ slew prev' amount target' :=
  max_le_max (sub_le_sub_right hprev _) (min_le_min htarget (add_le_add_left hprev _))

theorem slewRun_le {c : α} {moves : List (Move α)} (hamount : ∀ m ∈ moves, 0 ≤ m.amount)
    (htarget : ∀ m ∈ moves, m.target ≤ c) (start : α) :
    slewRun start moves ≤ max c (start - (moves.map Move.amount).sum) := by
  induction moves generalizing start with
  | nil => simp
  | cons m moves ih =>
    have hrest : ∀ m' ∈ moves, 0 ≤ m'.amount :=
      fun m' hm' => hamount m' (List.mem_cons_of_mem _ hm')
    have hsum : 0 ≤ (moves.map Move.amount).sum := by
      refine List.sum_nonneg fun x hx => ?_
      obtain ⟨m', hm', rfl⟩ := List.mem_map.1 hx
      exact hrest m' hm'
    have hstep : slew start m.amount m.target ≤ max c (start - m.amount) :=
      slew_le (htarget m (List.mem_cons_self ..))
    rw [slewRun_cons, List.map_cons, List.sum_cons]
    calc slewRun (slew start m.amount m.target) moves
        ≤ max c (slew start m.amount m.target - (moves.map Move.amount).sum) :=
          ih hrest (fun m' hm' => htarget m' (List.mem_cons_of_mem _ hm')) _
      _ ≤ max c (max c (start - m.amount) - (moves.map Move.amount).sum) :=
          max_le_max_left c (sub_le_sub_right hstep _)
      _ ≤ max c (start - (m.amount + (moves.map Move.amount).sum)) := by
          rw [← max_sub_sub_right, sub_sub]
          refine max_le (le_max_left ..) (max_le_max_right _ ?_)
          exact sub_le_self _ hsum

theorem le_slewRun {b : α} {moves : List (Move α)} (hamount : ∀ m ∈ moves, 0 ≤ m.amount)
    (htarget : ∀ m ∈ moves, b ≤ m.target) {start : α} (hstart : b ≤ start) :
    b ≤ slewRun start moves := by
  induction moves generalizing start with
  | nil => exact hstart
  | cons m moves ih =>
    have hm := List.mem_cons_self (a := m) (l := moves)
    rw [slewRun_cons]
    refine ih (fun m' hm' => hamount m' (List.mem_cons_of_mem _ hm'))
      (fun m' hm' => htarget m' (List.mem_cons_of_mem _ hm')) ?_
    exact le_slew (hamount m hm) hstart (htarget m hm)

section Interpolation

variable {β : Type*} [Field β] [LinearOrder β] [IsStrictOrderedRing β]

/-- On a segment whose ends are at least `c`, so is every point. -/
theorem le_interp {c x0 y0 x1 y1 v : β} (hx : x0 < x1) (hlow : x0 ≤ v) (hle : v ≤ x1)
    (h0 : c ≤ y0) (h1 : c ≤ y1) : c ≤ y0 + (y1 - y0) * ((v - x0) / (x1 - x0)) := by
  have hwidth : 0 < x1 - x0 := sub_pos.2 hx
  have hratio : 0 ≤ (v - x0) / (x1 - x0) := div_nonneg (sub_nonneg.2 hlow) hwidth.le
  have hratio' : (v - x0) / (x1 - x0) ≤ 1 :=
    (div_le_one hwidth).2 (sub_le_sub_right hle x0)
  nlinarith

theorem interp_le {c x0 y0 x1 y1 v : β} (hx : x0 < x1) (hlow : x0 ≤ v) (hle : v ≤ x1)
    (h0 : y0 ≤ c) (h1 : y1 ≤ c) : y0 + (y1 - y0) * ((v - x0) / (x1 - x0)) ≤ c := by
  have hneg := le_interp hx hlow hle (neg_le_neg h0) (neg_le_neg h1)
  linarith

/-- A segment that falls, falls at every point. -/
theorem interp_anti {x0 y0 x1 y1 v w : β} (hx : x0 < x1) (hy : y1 ≤ y0) (hvw : v ≤ w) :
    y0 + (y1 - y0) * ((w - x0) / (x1 - x0)) ≤ y0 + (y1 - y0) * ((v - x0) / (x1 - x0)) := by
  have hratio : (v - x0) / (x1 - x0) ≤ (w - x0) / (x1 - x0) :=
    div_le_div_of_nonneg_right (sub_le_sub_right hvw x0) (sub_pos.2 hx).le
  have hslope : y1 - y0 ≤ 0 := sub_nonpos.2 hy
  exact add_le_add_right (mul_le_mul_of_nonpos_left hratio hslope) y0

end Interpolation

end Slew
end MazdaPort
