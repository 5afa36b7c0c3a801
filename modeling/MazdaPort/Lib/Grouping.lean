import Mathlib.Data.List.Dedup
import Mathlib.Data.List.GetD
import Mathlib.Order.Lattice
import Mathlib.Order.Nat
import Mathlib.Tactic.Common

/-!
# MazdaPort.Lib.Grouping

An array grouped by its keys: the keys once each in their order (`unique`), where each comes first
(`starts`), and the differences of those places (`counts`). `exact_iff_sorted`: the slices that
this gives are the places of their keys exactly when the array is in the order of its keys.
`searchsorted_getElem?` finds a key among the unique ones.
-/

namespace MazdaPort
namespace Grouping

variable {α : Type*} [LinearOrder α]

def unique (keys : List α) : List α := keys.dedup.mergeSort fun a b => decide (a ≤ b)

def starts (keys : List α) : List Nat := (unique keys).map fun k => keys.idxOf k

/-- Where the slices begin, and where the last one ends. -/
def bounds (keys : List α) : List Nat := starts keys ++ [keys.length]

def diff : List Int → List Int
  | a :: b :: rest => (b - a) :: diff (b :: rest)
  | _ => []

def counts (keys : List α) : List Int := diff ((bounds keys).map Int.ofNat)

/-- Where `k` belongs in an array in order. -/
def searchsorted (sorted : List α) (k : α) : Nat := sorted.countP fun a => decide (a < k)

/-! ## The unique keys -/

@[simp] theorem mem_unique {keys : List α} {k : α} : k ∈ unique keys ↔ k ∈ keys := by
  simp [unique]

theorem unique_sorted (keys : List α) : (unique keys).Pairwise (· < ·) := by
  have hle : (unique keys).Pairwise (· ≤ ·) := by
    have htrans : ∀ a b c : α, decide (a ≤ b) = true → decide (b ≤ c) = true →
        decide (a ≤ c) = true := by
      intro a b c hab hbc
      simpa using le_trans (of_decide_eq_true hab) (of_decide_eq_true hbc)
    have htotal : ∀ a b : α, (decide (a ≤ b) || decide (b ≤ a)) = true := by
      intro a b
      simpa using le_total a b
    exact (List.pairwise_mergeSort htrans htotal keys.dedup).imp fun h => of_decide_eq_true h
  have hne : (unique keys).Pairwise (· ≠ ·) :=
    (List.mergeSort_perm ..).nodup_iff.2 (List.nodup_dedup keys)
  exact (hle.and hne).imp fun h => lt_of_le_of_ne h.1 h.2

theorem searchsorted_getElem? {sorted : List α} (h : sorted.Pairwise (· < ·)) {k : α} :
    sorted[searchsorted sorted k]? = some k ↔ k ∈ sorted := by
  induction sorted with
  | nil => simp
  | cons x xs ih =>
    have hx := List.pairwise_cons.1 h
    by_cases hlt : x < k
    · have hplace : searchsorted (x :: xs) k = searchsorted xs k + 1 := by
        simp [searchsorted, hlt]
      rw [hplace, List.getElem?_cons_succ, ih hx.2, List.mem_cons]
      exact ⟨.inr, fun h => h.resolve_left hlt.ne'⟩
    · have hplace : searchsorted (x :: xs) k = 0 := by
        simp only [searchsorted, List.countP_eq_zero, List.mem_cons, decide_eq_true_eq]
        rintro a (rfl | ha)
        · exact hlt
        · exact fun hak => hlt ((hx.1 a ha).trans hak)
      rw [hplace, List.getElem?_cons_zero, List.mem_cons, Option.some.injEq]
      refine ⟨fun h => .inl h.symm, ?_⟩
      rintro (rfl | hk)
      · rfl
      · exact absurd (hx.1 k hk) hlt

/-- A key among the unique ones is where `searchsorted` finds it. -/
theorem searchsorted_unique {keys : List α} {k : α} {i : Nat}
    (h : (unique keys)[i]? = some k) : searchsorted (unique keys) k = i := by
  have hmem : k ∈ unique keys := List.mem_of_getElem? h
  have hfound := (searchsorted_getElem? (unique_sorted keys)).2 hmem
  have hnodup : (unique keys).Nodup := (unique_sorted keys).imp fun h => h.ne
  have hplace := (List.getElem?_eq_some_iff.1 hfound).1
  exact (List.getElem?_inj hplace hnodup).1 (hfound.trans h.symm)

/-! ## The slices -/

@[simp] theorem bounds_length (keys : List α) :
    (bounds keys).length = (unique keys).length + 1 := by
  simp [bounds, starts]

theorem diff_getElem? {l : List Int} {i : Nat} (hi : i + 1 < l.length) :
    (diff l)[i]? = some (l[i + 1] - l[i]) := by
  induction l generalizing i with
  | nil => simp at hi
  | cons a rest ih =>
    cases rest with
    | nil => simp at hi
    | cons b rest =>
      cases i with
      | zero => rfl
      | succ i =>
        rw [diff, List.getElem?_cons_succ, ih (by simpa using hi)]
        rfl

/-- Where slice `i` begins, and slice `i - 1` ends. -/
def bound (keys : List α) (i : Nat) : Nat := (bounds keys).getD i 0

theorem bound_eq_idxOf {keys : List α} {i : Nat} {k : α} (h : (unique keys)[i]? = some k) :
    bound keys i = keys.idxOf k := by
  have hi : i < (unique keys).length := (List.getElem?_eq_some_iff.1 h).1
  rw [bound, bounds, List.getD_append _ _ _ _ (by simpa [starts] using hi), starts,
    List.getD_eq_getElem?_getD, List.getElem?_map, h]
  rfl

theorem starts_getD {keys : List α} {i : Nat} (hi : i < (unique keys).length) :
    (starts keys).getD i 0 = bound keys i := by
  rw [bound, bounds, List.getD_append _ _ _ _ (by simpa [starts] using hi)]

theorem bound_last (keys : List α) : bound keys (unique keys).length = keys.length := by
  have hlen : (starts keys).length = (unique keys).length := List.length_map _
  rw [bound, bounds, ← hlen, List.getD_append_right _ _ _ _ (le_refl _), Nat.sub_self]
  rfl

theorem counts_getElem? {keys : List α} {i : Nat} (hi : i < (unique keys).length) :
    (counts keys)[i]? = some ((bound keys (i + 1) : Int) - bound keys i) := by
  have hlen : i + 1 < ((bounds keys).map Int.ofNat).length := by simpa using hi
  rw [counts, diff_getElem? hlen]
  have hi1 : i + 1 < (bounds keys).length := by simpa using hi
  have hi0 : i < (bounds keys).length := by omega
  rw [bound, bound, List.getD_eq_getElem _ _ hi1, List.getD_eq_getElem _ _ hi0, List.getElem_map,
    List.getElem_map]
  rfl

/-- Every slice has exactly the places of its key. -/
def Exact (keys : List α) : Prop :=
  ∀ i k, (unique keys)[i]? = some k →
    ∀ j, (bound keys i ≤ j ∧ j < bound keys (i + 1)) ↔ keys[j]? = some k

/-- Slices that have the places of their keys are in order. -/
theorem Exact.bound_mono {keys : List α} (h : Exact keys) {i i' : Nat} (hi : i ≤ i')
    (hlen : i' ≤ (unique keys).length) : bound keys i ≤ bound keys i' := by
  induction i' with
  | zero => exact (Nat.le_zero.1 hi) ▸ Nat.le_refl _
  | succ i' ih =>
    rcases Nat.eq_or_lt_of_le hi with rfl | hlt
    · exact Nat.le_refl _
    have hk : (unique keys)[i']? = some (unique keys)[i'] := List.getElem?_eq_getElem hlen
    have hmem : (unique keys)[i'] ∈ keys := mem_unique.1 (List.getElem_mem hlen)
    have hplace : keys[keys.idxOf (unique keys)[i']]? = some (unique keys)[i'] := by
      rw [List.getElem?_eq_getElem (List.idxOf_lt_length_of_mem hmem), List.getElem_idxOf]
    have hslice := (h i' _ hk _).2 hplace
    exact (ih (by omega) (by omega)).trans (hslice.1.trans hslice.2.le)

theorem Exact.sorted {keys : List α} (h : Exact keys) : keys.Pairwise (· ≤ ·) := by
  rw [List.pairwise_iff_getElem]
  intro p q hp hq hpq
  by_contra hlt
  rw [not_le] at hlt
  obtain ⟨a, ha, hka⟩ := List.mem_iff_getElem.1 (mem_unique.2 (List.getElem_mem hp))
  obtain ⟨b, hb, hkb⟩ := List.mem_iff_getElem.1 (mem_unique.2 (List.getElem_mem hq))
  have hpa := (h a keys[p] (by rw [List.getElem?_eq_getElem ha, hka]) p).2
    (List.getElem?_eq_getElem hp)
  have hqb := (h b keys[q] (by rw [List.getElem?_eq_getElem hb, hkb]) q).2
    (List.getElem?_eq_getElem hq)
  have hba : b < a := by
    by_contra hge
    rcases Nat.eq_or_lt_of_le (Nat.not_lt.1 hge) with rfl | hlt'
    · exact absurd (hka.symm.trans hkb) hlt.ne'
    · have hord := List.pairwise_iff_getElem.1 (unique_sorted keys) a b ha hb hlt'
      rw [hka, hkb] at hord
      exact lt_asymm hlt hord
  have hnext : b + 1 ≤ a := hba
  have hmono := h.bound_mono hnext (by omega)
  omega

/-- In an array in order nothing stands between one unique key and the next. -/
theorem exact_of_sorted {keys : List α} (h : keys.Pairwise (· ≤ ·)) : Exact keys := by
  intro i k hk j
  obtain ⟨hi, hik⟩ := List.getElem?_eq_some_iff.1 hk
  have hsorted := List.pairwise_iff_getElem.1 h
  have hfirst : ∀ {k'} (hk' : k' ∈ keys) {j} (hj : j < keys.length),
      keys.idxOf k' ≤ j ↔ k' ≤ keys[j] := by
    intro k' hk' j hj
    have hplace := List.idxOf_lt_length_of_mem hk'
    have hget : keys[keys.idxOf k'] = k' := List.getElem_idxOf hplace
    constructor
    · intro hle
      rcases Nat.eq_or_lt_of_le hle with heq | hlt
      · subst heq
        exact hget.ge
      · have hord := hsorted _ _ hplace hj hlt
        rwa [hget] at hord
    · intro hle
      by_contra hlt
      rw [Nat.not_le] at hlt
      have hord := hsorted _ _ hj hplace hlt
      rw [hget] at hord
      have hne : (keys[j] == k') = false := List.not_of_lt_findIdx hlt
      exact absurd (le_antisymm hord hle) (by simpa using hne)
  have hkmem : k ∈ keys := mem_unique.1 (hik ▸ List.getElem_mem hi)
  have hunique := List.pairwise_iff_getElem.1 (unique_sorted keys)
  have hend : ∀ {j} (hj : j < keys.length), j < bound keys (i + 1) ↔ keys[j] ≤ k := by
    intro j hj
    obtain ⟨a, ha, hka⟩ := List.mem_iff_getElem.1 (mem_unique.2 (List.getElem_mem hj))
    have hle : a ≤ i → keys[j] ≤ k := by
      intro hai
      rcases Nat.eq_or_lt_of_le hai with rfl | hlt
      · exact (hka.symm.trans hik).le
      · exact hka ▸ hik ▸ (hunique a i ha hi hlt).le
    by_cases hnext : i + 1 < (unique keys).length
    · have hk' := List.getElem?_eq_getElem hnext
      have hmem' : (unique keys)[i + 1] ∈ keys := mem_unique.1 (List.getElem_mem hnext)
      rw [bound_eq_idxOf hk', ← Nat.not_le, hfirst hmem' hj]
      constructor
      · intro hbelow
        refine hle (Nat.not_lt.1 fun hia => hbelow ?_)
        rcases Nat.eq_or_lt_of_le hia with heq | hlt
        · subst heq
          exact hka.le
        · exact hka ▸ (hunique _ a hnext ha hlt).le
      · intro hjk hbelow
        have hord := hunique i (i + 1) hi hnext (Nat.lt_succ_self i)
        rw [hik] at hord
        exact absurd (hord.trans_le (hbelow.trans hjk)) (lt_irrefl k)
    · have hlast : i + 1 = (unique keys).length := by omega
      rw [hlast, bound_last]
      exact ⟨fun _ => hle (by omega), fun _ => hj⟩
  rw [bound_eq_idxOf hk]
  constructor
  · rintro ⟨hlow, hhigh⟩
    have hj : j < keys.length := by
      by_contra hout
      have hbound : bound keys (i + 1) ≤ keys.length := by
        by_cases hnext : i + 1 < (unique keys).length
        · rw [bound_eq_idxOf (List.getElem?_eq_getElem hnext)]
          exact List.idxOf_le_length
        · have hlast : i + 1 = (unique keys).length := by omega
          rw [hlast, bound_last]
      omega
    rw [List.getElem?_eq_getElem hj, Option.some.injEq]
    exact le_antisymm ((hend hj).1 hhigh) ((hfirst hkmem hj).1 hlow)
  · intro hjk
    obtain ⟨hj, rfl⟩ := List.getElem?_eq_some_iff.1 hjk
    exact ⟨(hfirst hkmem hj).2 (le_refl _), (hend hj).2 (le_refl _)⟩

/-- The slices are exact if and only if the array is in the order of its keys. -/
theorem exact_iff_sorted {keys : List α} : Exact keys ↔ keys.Pairwise (· ≤ ·) :=
  ⟨Exact.sorted, exact_of_sorted⟩

end Grouping
end MazdaPort
