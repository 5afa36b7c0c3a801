import Mathlib.Data.List.MinMax
import Mathlib.Order.Lattice
import Mathlib.Tactic.Common

/-!
# MazdaPort.Lib.Pick

The best element of a list under two conditions: `ok` is asked before the least rank is taken (what
fails it ranks as `⊤`), `near` only of the one element that has it. An element that meets both is
found (`exists_pick_of_unhidden`) unless one that meets only the first ranks before all of them
(`unhidden_of_pick`).
-/

namespace MazdaPort
namespace Pick

/-! ## The first of the least -/

section Leftmost

variable {α γ : Type*} [LinearOrder γ] {f : α → γ}

/-- `a` stands at `k` and is the first of the least. -/
structure Leftmost (f : α → γ) (l : List α) (k : Nat) (a : α) : Prop where
  at_k : l[k]? = some a
  le : ∀ (j : Nat) b, l[j]? = some b → f a ≤ f b
  lt : ∀ (j : Nat) b, l[j]? = some b → j < k → f a < f b

theorem exists_leftmost_of_argmin {l : List α} {a : α} (h : l.argmin f = some a) :
    ∃ k, Leftmost f l k a := by
  induction l generalizing a with
  | nil => cases h
  | cons x l ih =>
    rw [List.argmin_cons] at h
    cases hl : l.argmin f with
    | none =>
      rw [hl] at h
      cases h
      rw [List.argmin_eq_none] at hl
      subst hl
      refine ⟨0, rfl, ?_, fun j _ _ hj => absurd hj (Nat.not_lt_zero j)⟩
      rintro (_ | j) b hb
      · cases hb
        exact le_refl _
      · cases hb
    | some c =>
      obtain ⟨k, hc⟩ := ih hl
      rw [hl] at h
      dsimp only at h
      split at h
      · next hlt =>
        cases h
        refine ⟨k + 1, hc.at_k, ?_, ?_⟩
        · rintro (_ | j) b hb
          · cases hb
            exact hlt.le
          · exact hc.le j b hb
        · rintro (_ | j) b hb hj
          · cases hb
            exact hlt
          · exact hc.lt j b hb (Nat.lt_of_succ_lt_succ hj)
      · next hge =>
        cases h
        refine ⟨0, rfl, ?_, fun j _ _ hj => absurd hj (Nat.not_lt_zero j)⟩
        rintro (_ | j) b hb
        · cases hb
          exact le_refl _
        · exact (not_lt.1 hge).trans (hc.le j b hb)

theorem Leftmost.unique {l : List α} {k k' : Nat} {a a' : α} (h : Leftmost f l k a)
    (h' : Leftmost f l k' a') : a = a' := by
  rcases Nat.lt_trichotomy k k' with hlt | rfl | hlt
  · exact absurd (h.le k' a' h'.at_k) (not_le.2 (h'.lt k a h.at_k hlt))
  · exact Option.some.inj (h.at_k.symm.trans h'.at_k)
  · exact absurd (h'.le k a h.at_k) (not_le.2 (h.lt k' a' h'.at_k hlt))

theorem argmin_eq_some_iff {l : List α} {a : α} :
    l.argmin f = some a ↔ ∃ k, Leftmost f l k a := by
  constructor
  · exact exists_leftmost_of_argmin
  · rintro ⟨k, hk⟩
    cases hl : l.argmin f with
    | none =>
      rw [List.argmin_eq_none] at hl
      subst hl
      cases hk.at_k
    | some c =>
      obtain ⟨k', hk'⟩ := exists_leftmost_of_argmin hl
      rw [hk'.unique hk]

end Leftmost

/-! ## Two conditions -/

variable {α β : Type*} (rank : α → β) (ok near : α → Bool)

/-- The rank, with `⊤` for what is not `ok`. -/
def score (a : α) : WithTop β := if ok a then (rank a : WithTop β) else ⊤

theorem score_of_ok {rank : α → β} {ok : α → Bool} {a : α} (h : ok a) :
    score rank ok a = (rank a : WithTop β) := if_pos h

variable [LinearOrder β]

def pick (l : List α) : Option α :=
  (l.argmin (score rank ok)).filter fun a => ok a && near a

/-- Some `a` meets both conditions, and what only meets the first does not rank before it. -/
def Unhidden (l : List α) : Prop :=
  ∃ (k : Nat) (a : α), l[k]? = some a ∧ ok a ∧ near a ∧
    ∀ (j : Nat) b, l[j]? = some b → ok b → near b = false →
      rank a ≤ rank b ∧ (j < k → rank a < rank b)

variable {rank ok near} {l : List α} {a b : α}

theorem score_le_iff (hb : ok b) :
    score rank ok a ≤ score rank ok b ↔ ok a ∧ rank a ≤ rank b := by
  rw [score_of_ok hb, score]
  split
  · next ha => simp [ha]
  · next ha => simp [ha]

theorem pick_eq_some_iff : pick rank ok near l = some a ↔
    ok a ∧ near a ∧ ∃ k, Leftmost (score rank ok) l k a := by
  rw [pick, Option.filter_eq_some_iff, argmin_eq_some_iff, Bool.and_eq_true, and_comm, and_assoc]

/-- What is picked ranks least among what meets both conditions. -/
theorem rank_le_of_pick (h : pick rank ok near l = some a) (hb : b ∈ l) (hok : ok b) :
    rank a ≤ rank b := by
  obtain ⟨_, _, k, hk⟩ := pick_eq_some_iff.1 h
  obtain ⟨j, hj⟩ := List.mem_iff_getElem?.1 hb
  exact ((score_le_iff hok).1 (hk.le j b hj)).2

theorem pick_mem (h : pick rank ok near l = some a) : a ∈ l ∧ ok a ∧ near a := by
  obtain ⟨hok, hnear, k, hk⟩ := pick_eq_some_iff.1 h
  exact ⟨List.mem_of_getElem? hk.at_k, hok, hnear⟩

theorem unhidden_of_pick (h : pick rank ok near l = some a) : Unhidden rank ok near l := by
  obtain ⟨hok, hnear, k, hk⟩ := pick_eq_some_iff.1 h
  refine ⟨k, a, hk.at_k, hok, hnear, fun j b hj hb _ => ?_⟩
  have hle := hk.le j b hj
  refine ⟨((score_le_iff hb).1 hle).2, fun hjk => ?_⟩
  have hlt := hk.lt j b hj hjk
  rwa [score_of_ok hok, score_of_ok hb, WithTop.coe_lt_coe] at hlt

theorem exists_pick_of_unhidden (h : Unhidden rank ok near l) :
    ∃ a, pick rank ok near l = some a := by
  obtain ⟨k, a, hka, hok, hnear, hfar⟩ := h
  cases hl : l.argmin (score rank ok) with
  | none =>
    rw [List.argmin_eq_none] at hl
    subst hl
    cases hka
  | some c =>
    obtain ⟨k', hc⟩ := exists_leftmost_of_argmin hl
    have hle : ok c ∧ rank c ≤ rank a := (score_le_iff hok).1 (hc.le k a hka)
    refine ⟨c, pick_eq_some_iff.2 ⟨hle.1, ?_, k', hc⟩⟩
    by_contra hcfar
    have hcfar : near c = false := by simpa using hcfar
    obtain ⟨hac, hac'⟩ := hfar k' c hc.at_k hle.1 hcfar
    rcases Nat.lt_trichotomy k k' with hlt | rfl | hlt
    · have hstrict := hc.lt k a hka hlt
      rw [score_of_ok hle.1, score_of_ok hok, WithTop.coe_lt_coe] at hstrict
      exact absurd hac (not_le.2 hstrict)
    · rw [Option.some.inj (hka.symm.trans hc.at_k), hcfar] at hnear
      cases hnear
    · exact absurd hle.2 (not_le.2 (hac' hlt))

end Pick
end MazdaPort
