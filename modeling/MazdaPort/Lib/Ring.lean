import Mathlib.Data.Vector.Basic
import Mathlib.Tactic.Common

/-!
# MazdaPort.Lib.Ring

A queue in a ring of `n` cells between a read index and a write index. The ring is empty when they
are equal, so one cell always stays free.

`contents` is the queue as a list. `pop` takes its head (`pop_none`, `pop_some`), `push` appends to
it or refuses (`push_accepted`, `push_refused`). `slotsEmpty` is how often `push` will not refuse
(`push_fst`).
-/

namespace MazdaPort

universe u

structure Ring (α : Type u) (n : Nat) where
  wPtr : Nat
  rPtr : Nat
  elems : Vector α n
  w_lt : wPtr < n
  r_lt : rPtr < n

namespace Ring

variable {α : Type u} {n : Nat}

def advance (n i : Nat) : Nat := if i + 1 = n then 0 else i + 1

theorem advance_lt {i : Nat} (h : i < n) : advance n i < n := by
  unfold advance
  split <;> omega

def empty (x : α) (h : 0 < n) : Ring α n :=
  { wPtr := 0, rPtr := 0, elems := Vector.replicate n x, w_lt := h, r_lt := h }

def pop (q : Ring α n) : Option (α × Ring α n) :=
  if q.wPtr ≠ q.rPtr then
    some (q.elems.get ⟨q.rPtr, q.r_lt⟩,
      { q with rPtr := advance n q.rPtr, r_lt := advance_lt q.r_lt })
  else none

def push (q : Ring α n) (x : α) : Bool × Ring α n :=
  if advance n q.wPtr ≠ q.rPtr then
    (true,
      { q with
        elems := q.elems.set q.wPtr x q.w_lt
        wPtr := advance n q.wPtr
        w_lt := advance_lt q.w_lt })
  else (false, q)

def clear (q : Ring α n) : Ring α n :=
  { q with
    wPtr := 0
    rPtr := 0
    w_lt := Nat.zero_lt_of_lt q.w_lt
    r_lt := Nat.zero_lt_of_lt q.w_lt }

def slotsEmpty (q : Ring α n) : Nat :=
  if q.rPtr ≤ q.wPtr then n - 1 - q.wPtr + q.rPtr else q.rPtr - q.wPtr - 1

/-- The cells of `l` from `r` round to `w`. -/
def slots (l : List α) (r w : Nat) : List α :=
  if r ≤ w then (l.take w).drop r else l.drop r ++ l.take w

theorem slots_cons {l : List α} {r w : Nat} (hr : r < l.length) (hw : w < l.length)
    (hne : w ≠ r) : slots l r w = l[r] :: slots l (advance l.length r) w := by
  unfold slots
  by_cases hle : r ≤ w
  · have hcell : r < (l.take w).length := by
      rw [List.length_take]
      omega
    have hnext : advance l.length r = r + 1 := if_neg (by omega)
    rw [if_pos hle, hnext, if_pos (by omega), List.drop_eq_getElem_cons hcell, List.getElem_take]
  · rw [if_neg hle, List.drop_eq_getElem_cons hr]
    by_cases hend : r + 1 = l.length
    · have hnext : advance l.length r = 0 := if_pos hend
      rw [hnext, if_pos (Nat.zero_le _), hend, List.drop_length]
      rfl
    · have hnext : advance l.length r = r + 1 := if_neg hend
      rw [hnext, if_neg (by omega)]
      rfl

theorem slots_snoc {l : List α} {r w : Nat} (x : α) (hr : r < l.length) (hw : w < l.length)
    (hne : advance l.length w ≠ r) :
    slots (l.set w x) r (advance l.length w) = slots l r w ++ [x] := by
  have hset : (l.set w x).take (w + 1) = l.take w ++ [x] := by
    rw [List.take_add_one, List.take_set_of_le (le_refl w)]
    simp [hw]
  unfold slots
  by_cases hle : r ≤ w
  · have hdrop : (l.take w ++ [x]).drop r = (l.take w).drop r ++ [x] := by
      rw [List.drop_append_of_le_length]
      rw [List.length_take]
      omega
    rw [if_pos hle]
    by_cases hend : w + 1 = l.length
    · have hnext : advance l.length w = 0 := if_pos hend
      have hlen : (l.set w x).length = l.length := List.length_set
      have hall : l.set w x = l.take w ++ [x] := by
        rw [← hset, hend, ← hlen, List.take_length]
      rw [hnext] at hne ⊢
      rw [if_neg (by omega), List.take_zero, List.append_nil, hall, hdrop]
    · have hnext : advance l.length w = w + 1 := if_neg hend
      rw [hnext, if_pos (by omega), hset, hdrop]
  · have hnext : advance l.length w = w + 1 := if_neg (by omega)
    rw [hnext] at hne ⊢
    rw [if_neg hle, if_neg (by omega), hset, List.drop_set_of_lt (by omega), List.append_assoc]

def contents (q : Ring α n) : List α := slots q.elems.toList q.rPtr q.wPtr

theorem contents_eq_nil {q : Ring α n} : q.contents = [] ↔ q.wPtr = q.rPtr := by
  have hw := q.w_lt
  have hr := q.r_lt
  rw [← List.length_eq_zero_iff]
  unfold contents slots
  split <;> simp <;> omega

theorem ptr_lt (q : Ring α n) :
    q.rPtr < q.elems.toList.length ∧ q.wPtr < q.elems.toList.length := by
  rw [Vector.length_toList]
  exact ⟨q.r_lt, q.w_lt⟩

theorem pop_none {q : Ring α n} (h : q.pop = none) : q.contents = [] := by
  rw [contents_eq_nil]
  unfold pop at h
  split at h
  · cases h
  · next heq => exact not_not.1 heq

theorem pop_some {q q' : Ring α n} {x : α} (h : q.pop = some (x, q')) :
    q.contents = x :: q'.contents := by
  have hlen : q.elems.toList.length = n := Vector.length_toList
  obtain ⟨hr, hw⟩ := q.ptr_lt
  unfold pop at h
  split at h
  · next hne =>
    have hcons := slots_cons hr hw hne
    rw [hlen] at hcons
    cases h
    exact hcons
  · cases h

theorem push_accepted {q q' : Ring α n} {x : α} (h : q.push x = (true, q')) :
    q'.contents = q.contents ++ [x] := by
  have hlen : q.elems.toList.length = n := Vector.length_toList
  obtain ⟨hr, hw⟩ := q.ptr_lt
  unfold push at h
  split at h
  · next hne =>
    have hfree : advance q.elems.toList.length q.wPtr ≠ q.rPtr := by
      rw [hlen]
      exact hne
    have hsnoc := slots_snoc x hr hw hfree
    rw [hlen] at hsnoc
    cases h
    simp only [contents, Vector.toList_set]
    exact hsnoc
  · cases h

theorem push_refused {q q' : Ring α n} {x : α} (h : q.push x = (false, q')) : q' = q := by
  unfold push at h
  split at h
  · cases h
  · cases h
    rfl

@[simp] theorem contents_empty (x : α) (h : 0 < n) : (empty x h).contents = [] :=
  contents_eq_nil.2 rfl

@[simp] theorem contents_clear (q : Ring α n) : q.clear.contents = [] := contents_eq_nil.2 rfl

/-- What a push leaves in the queue was there or is the new element. -/
theorem mem_push {q : Ring α n} {x y : α} (h : y ∈ (q.push x).2.contents) :
    y ∈ q.contents ∨ y = x := by
  cases hpush : q.push x with
  | mk ok q' =>
    rw [hpush] at h
    cases ok with
    | true =>
      rw [push_accepted hpush] at h
      simpa using h
    | false =>
      rw [push_refused hpush] at h
      exact .inl h

/-! ## Free cells -/

theorem slotsEmpty_eq (q : Ring α n) : q.slotsEmpty + q.contents.length + 1 = n := by
  have hw := q.w_lt
  have hr := q.r_lt
  unfold slotsEmpty contents slots
  split <;> simp <;> omega

theorem push_fst (q : Ring α n) (x : α) : (q.push x).1 = true ↔ 0 < q.slotsEmpty := by
  have hw := q.w_lt
  have hr := q.r_lt
  have hfst : (q.push x).1 = true ↔ advance n q.wPtr ≠ q.rPtr := by
    unfold push
    split <;> simp_all
  rw [hfst]
  unfold advance slotsEmpty
  split_ifs <;> omega

theorem slotsEmpty_push (q : Ring α n) (x : α) :
    (q.push x).2.slotsEmpty = q.slotsEmpty - 1 := by
  have hfree := push_fst q x
  have hq := q.slotsEmpty_eq
  cases hpush : q.push x with
  | mk ok q' =>
    have hq' := q'.slotsEmpty_eq
    rw [hpush] at hfree
    cases ok with
    | true =>
      rw [push_accepted hpush, List.length_append, List.length_singleton] at hq'
      dsimp only
      omega
    | false =>
      have hfull : ¬ 0 < q.slotsEmpty := fun h => absurd (hfree.2 h) (by simp)
      rw [push_refused hpush]
      dsimp only
      omega

theorem slotsEmpty_pop {q q' : Ring α n} {x : α} (h : q.pop = some (x, q')) :
    q'.slotsEmpty = q.slotsEmpty + 1 := by
  have hq := q.slotsEmpty_eq
  have hq' := q'.slotsEmpty_eq
  rw [pop_some h, List.length_cons] at hq
  omega

/-- After a push there is something to pop, unless the ring has one cell only. -/
theorem pop_push (hn : 1 < n) (q : Ring α n) (x : α) : ∃ r, (q.push x).2.pop = some r := by
  cases hpop : (q.push x).2.pop with
  | some r => exact ⟨r, rfl⟩
  | none =>
    have hq := q.slotsEmpty_eq
    have hq' := (q.push x).2.slotsEmpty_eq
    have hpush := slotsEmpty_push q x
    rw [pop_none hpop, List.length_nil] at hq'
    omega

end Ring
end MazdaPort
