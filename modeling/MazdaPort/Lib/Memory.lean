import Mathlib.Data.Vector.Basic
import Mathlib.Tactic.Common

/-!
# MazdaPort.Lib.Memory

Objects of a fixed number of cells, loads from them and stores into them. `copyWithin` is the copy
loop of a C library whose source and destination are in one object: a unit is loaded and stored
before the next one is loaded, so an overlap matters. Towards lower addresses it does not
(`copyWithin_eq`).

An `Access` is the range of an object that a copy or a loop touches, kept apart from the copy so
that one past the end can be spoken of.
-/

namespace MazdaPort
namespace Memory

universe u

variable {α : Type u} {n : Nat}

/-! ## Loads and stores -/

/-- The `len` cells from `off` on. -/
def load (d : Vector α n) (off len : Nat) : List α := (d.toList.drop off).take len

/-- `src` written from `off` on. What would lie past the end is not written. -/
def store (d : Vector α n) (off : Nat) (src : List α) : Vector α n :=
  Vector.ofFn fun i => if off ≤ i.val then src.getD (i.val - off) (d.get i) else d.get i

/-- The `len` cells from address `a` on, of a memory that is addressed as a whole. -/
def fetch (mem : Nat → α) (a len : Nat) : List α := (List.range len).map fun i => mem (a + i)

theorem load_length (d : Vector α n) {off len : Nat} (h : off + len ≤ n) :
    (load d off len).length = len := by
  simp only [load, List.length_take, List.length_drop, Vector.length_toList]
  omega

@[simp] theorem load_zero_len (d : Vector α n) (off : Nat) : load d off 0 = [] := by
  simp [load]

theorem load_add (d : Vector α n) (off a b : Nat) :
    load d off (a + b) = load d off a ++ load d (off + a) b := by
  rw [load, List.take_add, List.drop_drop]
  rfl

@[simp] theorem fetch_length (mem : Nat → α) (a len : Nat) : (fetch mem a len).length = len := by
  simp [fetch]

theorem fetch_add (mem : Nat → α) (a m n : Nat) :
    fetch mem a (m + n) = fetch mem a m ++ fetch mem (a + m) n := by
  unfold fetch
  rw [List.range_add, List.map_append, List.map_map]
  refine congrArg _ (List.map_congr_left fun i _ => ?_)
  rw [Function.comp_apply, Nat.add_assoc]

theorem fetch_congr {mem mem' : Nat → α} {a len : Nat}
    (h : ∀ c, a ≤ c → c < a + len → mem' c = mem c) : fetch mem' a len = fetch mem a len := by
  refine List.map_congr_left fun i hi => ?_
  have hi' := List.mem_range.1 hi
  exact h _ (Nat.le_add_right a i) (Nat.add_lt_add_left hi' a)

/-- Memory that holds two strings one behind the other holds each of them. -/
theorem fetch_split {mem : Nat → α} {a : Nat} {xs ys : List α}
    (h : fetch mem a (xs ++ ys).length = xs ++ ys) :
    fetch mem a xs.length = xs ∧ fetch mem (a + xs.length) ys.length = ys := by
  rw [List.length_append, fetch_add] at h
  exact List.append_inj h (fetch_length _ _ _)

theorem getElem_store (d : Vector α n) (off : Nat) (src : List α) {i : Nat} (hi : i < n) :
    (store d off src)[i] = if off ≤ i then src.getD (i - off) d[i] else d[i] := by
  have hget : d.get ⟨i, hi⟩ = d[i] := rfl
  simp [store, hget]

theorem toList_store (d : Vector α n) {off : Nat} {src : List α} (h : off + src.length ≤ n) :
    (store d off src).toList = d.toList.take off ++ src ++ d.toList.drop (off + src.length) := by
  apply List.ext_getElem
  · simp only [Vector.length_toList, List.length_append, List.length_take, List.length_drop]
    omega
  · intro i hi _
    have hin : i < n := by simpa using hi
    have hcell : (store d off src).toList[i] = (store d off src)[i] := Vector.getElem_toList hi
    rw [hcell, getElem_store d off src hin]
    simp only [List.getElem_append, List.length_append, List.length_take, Vector.length_toList]
    have hmin : min off n = off := by omega
    simp only [hmin]
    by_cases hlt : i < off
    · simp [hlt, Nat.lt_add_right src.length hlt]
    · by_cases hsrc : i < off + src.length
      · have hidx : i - off < src.length := by omega
        simp [hlt, hsrc, Nat.le_of_not_lt hlt, hidx]
      · have hidx : ¬ i - off < src.length := by omega
        have hback : off + src.length + (i - (off + src.length)) = i := by omega
        simp [hsrc, Nat.le_of_not_lt hlt, hidx, hback]

/-- Appending to the cells in use. -/
theorem load_store_append (d : Vector α n) (off : Nat) (src : List α)
    (h : off + src.length ≤ n) :
    load (store d off src) 0 (off + src.length) = load d 0 off ++ src := by
  have htake : (d.toList.take off).length = off := by simp; omega
  have hboth : (d.toList.take off ++ src).length = off + src.length := by
    rw [List.length_append, htake]
  rw [load, List.drop_zero, toList_store d h, ← hboth, List.take_left, load, List.drop_zero]

theorem load_store_zero (d : Vector α n) {src : List α} (h : src.length ≤ n) :
    load (store d 0 src) 0 src.length = src := by
  have happ := load_store_append d 0 src (by omega)
  simpa using happ

/-! ## Copies within an object -/

/-- `k` times, a unit of `w` cells is loaded from `src` and stored at `dst`, and both advance. -/
def copyUnits (w : Nat) : Nat → Vector α n → Nat → Nat → Vector α n
  | 0, d, _, _ => d
  | k + 1, d, dst, src => copyUnits w k (store d dst (load d src w)) (dst + w) (src + w)

/-- Units of `w` cells while both ends are aligned, then single cells. -/
def copyWithin (w : Nat) (d : Vector α n) (dst src len : Nat) : Vector α n :=
  if w ≤ len ∧ dst % w = 0 ∧ src % w = 0 then
    copyUnits 1 (len % w) (copyUnits w (len / w) d dst src) (dst + len / w * w)
      (src + len / w * w)
  else copyUnits 1 len d dst src

theorem load_store_above (d : Vector α n) {off : Nat} {src : List α} (h : off + src.length ≤ n)
    {i : Nat} (hi : off + src.length ≤ i) (len : Nat) :
    load (store d off src) i len = load d i len := by
  have htake : (d.toList.take off ++ src).length = off + src.length := by simp; omega
  have hdrop : (store d off src).toList.drop i = d.toList.drop i := by
    obtain ⟨k, rfl⟩ := Nat.exists_eq_add_of_le hi
    rw [toList_store d h, ← List.drop_drop, ← htake, List.drop_left, htake, List.drop_drop]
  rw [load, hdrop, load]

theorem store_store_append (d : Vector α n) (off : Nat) (xs ys : List α)
    (h : off + xs.length + ys.length ≤ n) :
    store (store d off xs) (off + xs.length) ys = store d off (xs ++ ys) := by
  have hxs : off + xs.length ≤ n := by omega
  have htake : (d.toList.take off ++ xs).length = off + xs.length := by simp; omega
  have hboth : off + (xs ++ ys).length ≤ n := by
    rw [List.length_append]
    omega
  apply Vector.toList_inj.1
  rw [toList_store _ h, toList_store d hxs, toList_store d hboth, List.length_append]
  have hhead : (d.toList.take off ++ xs ++ d.toList.drop (off + xs.length)).take
      (off + xs.length) = d.toList.take off ++ xs := by
    rw [← htake, List.take_left]
  have htail : (d.toList.take off ++ xs ++ d.toList.drop (off + xs.length)).drop
      (off + xs.length + ys.length) = d.toList.drop (off + (xs.length + ys.length)) := by
    rw [← List.drop_drop, ← htake, List.drop_left, htake, List.drop_drop, Nat.add_assoc]
  rw [hhead, htail]
  simp only [List.append_assoc]

theorem store_nil (d : Vector α n) (off : Nat) : store d off [] = d := by
  apply Vector.ext
  intro i hi
  rw [getElem_store]
  simp

/-- A copy to lower addresses reads no cell it has already written. -/
theorem copyUnits_eq (w k : Nat) (d : Vector α n) {dst src : Nat} (hle : dst ≤ src)
    (h : src + k * w ≤ n) :
    copyUnits w k d dst src = store d dst (load d src (k * w)) := by
  induction k generalizing d dst src with
  | zero =>
    rw [Nat.zero_mul, load_zero_len, store_nil]
    rfl
  | succ k ih =>
    have hmul : (k + 1) * w = w + k * w := by rw [Nat.succ_mul, Nat.add_comm]
    rw [hmul] at h ⊢
    have hlen : (load d src w).length = w := load_length d (by omega)
    have hlen' : (load d (src + w) (k * w)).length = k * w := load_length d (by omega)
    have hread : load (store d dst (load d src w)) (src + w) (k * w) =
        load d (src + w) (k * w) :=
      load_store_above d (by rw [hlen]; omega) (by rw [hlen]; omega) _
    have hstore := store_store_append d dst (load d src w) (load d (src + w) (k * w))
      (by rw [hlen, hlen']; omega)
    rw [hlen] at hstore
    rw [copyUnits, ih _ (by omega) (by omega), hread, hstore, ← load_add]

theorem copyWithin_eq (w : Nat) (d : Vector α n) {dst src len : Nat} (hle : dst ≤ src)
    (h : src + len ≤ n) : copyWithin w d dst src len = store d dst (load d src len) := by
  unfold copyWithin
  split
  · have hdiv : len / w * w + len % w = len := by
      rw [Nat.mul_comm]
      exact Nat.div_add_mod len w
    have hlen : (load d src (len / w * w)).length = len / w * w := load_length d (by omega)
    have hlen' : (load d (src + len / w * w) (len % w)).length = len % w :=
      load_length d (by omega)
    have hread : load (store d dst (load d src (len / w * w))) (src + len / w * w) (len % w) =
        load d (src + len / w * w) (len % w) :=
      load_store_above d (by rw [hlen]; omega) (by rw [hlen]; omega) _
    have hstore := store_store_append d dst (load d src (len / w * w))
      (load d (src + len / w * w) (len % w)) (by rw [hlen, hlen']; omega)
    rw [hlen] at hstore
    rw [copyUnits_eq w _ d hle (by omega), copyUnits_eq 1 _ _ (by omega) (by omega), Nat.mul_one,
      hread, hstore, ← load_add, hdiv]
  · rw [copyUnits_eq 1 len d hle (by omega), Nat.mul_one]

/-! ## Accesses -/

/-- The range of an object of `size` cells that is read or written. -/
structure Access where
  size : Nat
  off : Nat
  len : Nat
  deriving DecidableEq, Repr

def Access.Inside (a : Access) : Prop := a.off + a.len ≤ a.size

instance (a : Access) : Decidable a.Inside := inferInstanceAs (Decidable (_ ≤ _))

end Memory
end MazdaPort
