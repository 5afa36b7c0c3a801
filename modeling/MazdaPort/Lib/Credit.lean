import MazdaPort.Lib.Run

/-!
# MazdaPort.Lib.Credit

Credit-based flow control. Every account holds credits. A request takes one of its account, or
finds none, and may bring one back once it is done.

`covered_cons`: no request of a list goes without (`Covered`) if the first finds a credit and the
rest is covered by what is left. `covered_of_few`: as many requests as there are credits are always
covered. `covered_of_gate`: a gate that opens with `g` credits on each account covers `g` requests
on each until it opens again.
-/

namespace MazdaPort
namespace Credit

open Run

universe u v w

variable {κ : Type u} [DecidableEq κ]

/-- The credits after a request. A pair is the account, and whether a credit comes back. -/
def spend (free : κ → Nat) (q : κ × Bool) : κ → Nat :=
  fun k => if k = q.1 then free k - 1 + q.2.toNat else free k

/-- The requests on an account. -/
def asked (k : κ) (qs : List (κ × Bool)) : Nat := qs.countP fun q => q.1 = k

/-- The credits that the requests on an account bring back. -/
def returned (k : κ) (qs : List (κ × Bool)) : Nat := qs.countP fun q => q.1 = k ∧ q.2

/-- Each request finds a credit: the ones before it on its account are fewer than the credits there
were and those brought back. -/
def Covered (free : κ → Nat) (qs : List (κ × Bool)) : Prop :=
  ∀ pre q, pre ++ [q] <+: qs → asked q.1 pre < free q.1 + returned q.1 pre

@[simp] theorem asked_nil (k : κ) : asked k [] = 0 := rfl

@[simp] theorem returned_nil (k : κ) : returned k [] = 0 := rfl

theorem asked_cons (k : κ) (q : κ × Bool) (qs : List (κ × Bool)) :
    asked k (q :: qs) = asked k qs + if q.1 = k then 1 else 0 := by
  simp [asked, List.countP_cons]

theorem returned_cons (k : κ) (q : κ × Bool) (qs : List (κ × Bool)) :
    returned k (q :: qs) = returned k qs + if q.1 = k then q.2.toNat else 0 := by
  by_cases hk : q.1 = k
  · cases hq : q.2 <;> simp [returned, hk, hq]
  · simp [returned, hk]

theorem covered_nil (free : κ → Nat) : Covered free [] := by
  intro pre q hp
  simp at hp

/-- A request and one after it: what the first leaves covers the second. -/
theorem spend_lt_iff {free : κ → Nat} {q : κ × Bool} (hq : 0 < free q.1) (k : κ)
    (pre : List (κ × Bool)) :
    asked k (q :: pre) < free k + returned k (q :: pre) ↔
      asked k pre < spend free q k + returned k pre := by
  rw [asked_cons, returned_cons]
  by_cases hk : q.1 = k
  · rw [← hk]
    simp only [spend, if_true]
    omega
  · have hk' : ¬ k = q.1 := fun h => hk h.symm
    simp only [spend, if_neg hk, if_neg hk']
    omega

theorem covered_cons {free : κ → Nat} {q : κ × Bool} {qs : List (κ × Bool)} :
    Covered free (q :: qs) ↔ 0 < free q.1 ∧ Covered (spend free q) qs := by
  constructor
  · intro h
    have hq : 0 < free q.1 := by simpa using h [] q (by simp)
    refine ⟨hq, fun pre q' hp => ?_⟩
    exact (spend_lt_iff hq q'.1 pre).1 (h (q :: pre) q' (List.cons_prefix_cons.2 ⟨rfl, hp⟩))
  · rintro ⟨hq, hrest⟩ pre q' hp
    cases pre with
    | nil =>
      obtain ⟨rfl, _⟩ := List.cons_prefix_cons.1 hp
      simpa using hq
    | cons p pre =>
      obtain ⟨rfl, hp'⟩ := List.cons_prefix_cons.1 hp
      exact (spend_lt_iff hq q'.1 pre).2 (hrest pre q' hp')

theorem asked_append (k : κ) (qs rs : List (κ × Bool)) :
    asked k (qs ++ rs) = asked k qs + asked k rs := by
  simp [asked]

theorem covered_of_few {free : κ → Nat} {qs : List (κ × Bool)}
    (h : ∀ q ∈ qs, asked q.1 qs ≤ free q.1) : Covered free qs := by
  rintro pre q ⟨post, rfl⟩
  have hall := h q (by simp)
  rw [asked_append, asked_append] at hall
  simp only [asked_cons, asked_nil, if_true] at hall
  omega

/-! ## A gate -/

section Gate

variable {σ : Type v} {ε : Type w} (step : σ → ε → σ) (free : σ → κ → Nat)
  (reqs : σ → ε → List (κ × Bool)) (opens : σ → ε → Bool)

/-- The requests on each account since the gate last opened. -/
def since (s : σ) (c : κ → Nat) (e : ε) : κ → Nat :=
  fun k => if opens s e then 0 else c k + asked k (reqs s e)

variable {step free reqs opens}

/-- The gate opens only when every account of `K` has `g` credits, and no step takes more credits
than it has requests. Then nothing goes without in a run with at most `g` requests on each account
from one opening to the next, and none outside `K`. -/
theorem covered_of_gate {g : Nat} {K : κ → Prop} {Inv : σ → Prop}
    (hInv : ∀ s e, Inv s → Inv (step s e))
    (hopens : ∀ s e k, Inv s → K k → opens s e = true → g ≤ free (step s e) k)
    (hstep : ∀ s e k, Inv s → K k → free s k ≤ free (step s e) k + asked k (reqs s e)) {s : σ}
    {c : κ → Nat} (hs : Inv s) (hc : ∀ k, K k → g ≤ free s k + c k) {es : List ε}
    (hes : AllSteps (withHistory step (since reqs opens))
      (fun p e => ∀ q ∈ reqs p.1 e, K q.1 ∧ p.2 q.1 + asked q.1 (reqs p.1 e) ≤ g) (s, c) es) :
    AllSteps step (fun s e => (∀ q ∈ reqs s e, K q.1) ∧ Covered (free s) (reqs s e)) s es := by
  induction es generalizing s c with
  | nil => trivial
  | cons e es ih =>
    obtain ⟨hnow, hlater⟩ := hes
    refine ⟨⟨fun q hq => (hnow q hq).1, covered_of_few fun q hq => ?_⟩,
      ih (hInv s e hs) (fun k hK => ?_) hlater⟩
    · obtain ⟨hK, hask⟩ := hnow q hq
      have hk := hc q.1 hK
      dsimp only at hask
      omega
    · simp only [since]
      split
      · next hopen => exact hopens s e k hs hK hopen
      · have hk := hc k hK
        have hkept := hstep s e k hs hK
        omega

end Gate

end Credit
end MazdaPort
