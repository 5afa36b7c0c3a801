import MazdaPort.Lib.Memory
import Mathlib.Data.UInt

/-!
# MazdaPort.Lib.NorFlash

A NOR flash behind a lock: an erase sets the bytes of a sector, programming can only clear bits, and
neither does anything while the flash is locked. `NorFlash` is what the manual of such a part says
about it, over any type of states.

* `read_eraseAll`: sectors erased one after the other.
* `programAll_erased`: units programmed one behind the other into erased flash are in it.
-/

namespace MazdaPort

open Memory

universe u

/-- A flash with the addresses `base` to `limit`. Sector `s` lies between `start s` and
`start (s + 1)`. Where `program` is `none` there is nothing to program: the store is a bus fault. -/
structure NorFlash (F : Type u) where
  base : Nat
  limit : Nat
  sectors : Nat
  start : Nat → Nat
  read : F → Nat → UInt8
  locked : F → Bool
  reset : F → F
  unlock : F → F
  erase : F → Nat → F
  program : F → Nat → List UInt8 → Option F
  start_mono : ∀ s, start s ≤ start (s + 1)
  read_reset : ∀ f a, read (reset f) a = read f a
  locked_reset : ∀ f, locked (reset f) = true
  read_unlock : ∀ f a, read (unlock f) a = read f a
  locked_unlock : ∀ f, locked (unlock f) = false
  locked_erase : ∀ f s, locked (erase f s) = locked f
  read_erase_locked : ∀ f s a, locked f = true → read (erase f s) a = read f a
  read_erase_self : ∀ f s a, locked f = false → s < sectors → start s ≤ a → a < start (s + 1) →
    read (erase f s) a = 0xff
  read_erase_other : ∀ f s a, a < start s ∨ start (s + 1) ≤ a → read (erase f s) a = read f a
  locked_program : ∀ f a xs f', program f a xs = some f' → locked f' = locked f
  read_program_locked : ∀ f a xs f' c, locked f = true → program f a xs = some f' →
    read f' c = read f c
  program_some : ∀ f a xs, locked f = false → base ≤ a → a < limit → a + xs.length ≤ limit →
    ∃ f', program f a xs = some f'
  read_program_self : ∀ f a xs f' i, locked f = false → program f a xs = some f' → base ≤ a →
    a + xs.length ≤ limit → (h : i < xs.length) → read f' (a + i) = read f (a + i) &&& xs[i]
  read_program_other : ∀ f a xs f' c, program f a xs = some f' → base ≤ a →
    c < a ∨ a + xs.length ≤ c → read f' c = read f c
  program_limit : ∀ f xs, program f limit xs = none

namespace NorFlash

variable {F : Type u} (part : NorFlash F)

/-- The sectors `s`, …, `s + k - 1`, one after the other. -/
def eraseAll (f : F) (s : Nat) : Nat → F
  | 0 => f
  | k + 1 => part.erase (eraseAll f s k) (s + k)

/-- The units one behind the other, from `a` on. -/
def programAll (f : F) (a : Nat) : List (List UInt8) → Option F
  | [] => some f
  | xs :: xss => (part.program f a xs).bind fun f => programAll f (a + xs.length) xss

variable {part} {f f' : F} {a : Nat}

theorem start_le {s t : Nat} (h : s ≤ t) : part.start s ≤ part.start t := by
  induction h with
  | refl => exact le_rfl
  | step _ ih => exact ih.trans (part.start_mono _)

/-! ## Erasing -/

theorem locked_eraseAll (f : F) (s k : Nat) : part.locked (part.eraseAll f s k) = part.locked f := by
  induction k with
  | zero => rfl
  | succ k ih => rw [eraseAll, part.locked_erase, ih]

/-- By induction on the number of sectors: a sector that is erased stays so when others are. -/
theorem read_eraseAll {s k : Nat} (hf : part.locked f = false) (hs : s + k ≤ part.sectors)
    (ha : part.start s ≤ a) (ha' : a < part.start (s + k)) :
    part.read (part.eraseAll f s k) a = 0xff := by
  induction k with
  | zero => exact absurd ha (Nat.not_le.2 ha')
  | succ k ih =>
    rw [eraseAll]
    rcases Nat.lt_or_ge a (part.start (s + k)) with hlt | hge
    · rw [part.read_erase_other _ _ _ (.inl hlt)]
      exact ih (by omega) hlt
    · refine part.read_erase_self _ _ _ ?_ (by omega) hge ha'
      rw [locked_eraseAll, hf]

/-! ## Programming -/

/-- Where all bits are set, programming leaves what was asked for. -/
theorem fetch_program_erased {xs : List UInt8} (hf : part.locked f = false)
    (ha : part.base ≤ a) (ha' : a + xs.length ≤ part.limit)
    (herased : ∀ c, a ≤ c → c < a + xs.length → part.read f c = 0xff)
    (h : part.program f a xs = some f') : fetch (part.read f') a xs.length = xs := by
  refine List.ext_getElem (fetch_length _ _ _) fun i hi hi' => ?_
  have hbyte := part.read_program_self f a xs f' i hf h ha ha' hi'
  have hones : (0xff : UInt8) = -1 := rfl
  rw [herased _ (Nat.le_add_right a i) (Nat.add_lt_add_left hi' a), hones, UInt8.and_comm,
    UInt8.and_neg_one] at hbyte
  simpa [fetch] using hbyte

/-- What is programmed does not reach below where it starts, nor behind where it ends. -/
theorem read_programAll_other {xss : List (List UInt8)} {c : Nat} (ha : part.base ≤ a)
    (h : part.programAll f a xss = some f') (hc : c < a ∨ a + xss.flatten.length ≤ c) :
    part.read f' c = part.read f c := by
  induction xss generalizing f a with
  | nil =>
    cases h
    rfl
  | cons xs xss ih =>
    obtain ⟨g, hg, hrest⟩ := Option.bind_eq_some_iff.1 h
    rw [List.flatten_cons, List.length_append] at hc
    rw [ih (ha.trans (Nat.le_add_right _ _)) hrest (by omega)]
    exact part.read_program_other _ _ _ _ _ hg ha (by omega)

/-- By induction on the units: the ones behind lie above, so they leave the ones before as they
are. -/
theorem programAll_erased {xss : List (List UInt8)} (hf : part.locked f = false)
    (ha : part.base ≤ a) (hfits : a + xss.flatten.length < part.limit)
    (herased : ∀ c, a ≤ c → c < a + xss.flatten.length → part.read f c = 0xff) :
    ∃ f', part.programAll f a xss = some f' ∧
      fetch (part.read f') a xss.flatten.length = xss.flatten := by
  induction xss generalizing f a with
  | nil => exact ⟨f, rfl, rfl⟩
  | cons xs xss ih =>
    rw [List.flatten_cons, List.length_append] at hfits herased
    obtain ⟨g, hg⟩ := part.program_some f a xs hf ha (by omega) (by omega)
    have hglocked : part.locked g = false := by rw [part.locked_program _ _ _ _ hg, hf]
    have hgabove : ∀ c, a + xs.length ≤ c → part.read g c = part.read f c := fun c hc =>
      part.read_program_other _ _ _ _ _ hg ha (.inr hc)
    have ha2 : part.base ≤ a + xs.length := ha.trans (Nat.le_add_right _ _)
    obtain ⟨f', hf', hfetch⟩ := ih hglocked ha2 (by omega) (fun c hc hc' => by
      rw [hgabove c hc]
      exact herased c (by omega) (by omega))
    have hfirst : fetch (part.read g) a xs.length = xs :=
      fetch_program_erased hf ha (by omega) (fun c hc hc' => herased c hc (by omega)) hg
    have hkept : fetch (part.read f') a xs.length = fetch (part.read g) a xs.length :=
      fetch_congr fun c _ hc => read_programAll_other ha2 hf' (.inl hc)
    refine ⟨f', ?_, ?_⟩
    · rw [programAll, hg]
      exact hf'
    · rw [List.flatten_cons, List.length_append, fetch_add, hfetch, hkept, hfirst]

/-! ## A flash that is just this -/

structure Cells where
  cells : Nat → UInt8
  locked : Bool

/-- The flash that does what is written above and nothing else. -/
def plain (base limit sectors : Nat) (start : Nat → Nat)
    (hstart : ∀ s, start s ≤ start (s + 1)) : NorFlash Cells where
  base := base
  limit := limit
  sectors := sectors
  start := start
  read f a := f.cells a
  locked f := f.locked
  reset f := { f with locked := true }
  unlock f := { f with locked := false }
  erase f s :=
    if f.locked then f
    else { f with cells := fun a => if start s ≤ a ∧ a < start (s + 1) then 0xff else f.cells a }
  program f a xs :=
    if a = limit then none
    else if f.locked then some f
    else some { f with cells := fun c =>
      if h : a ≤ c ∧ c < a + xs.length then f.cells c &&& xs[c - a] else f.cells c }
  start_mono := hstart
  read_reset _ _ := rfl
  locked_reset _ := rfl
  read_unlock _ _ := rfl
  locked_unlock _ := rfl
  locked_erase f s := by split <;> rfl
  read_erase_locked f s a hf := by rw [if_pos hf]
  read_erase_self f s a hf _ ha ha' := by
    rw [if_neg (by rw [hf]; decide)]
    exact if_pos ⟨ha, ha'⟩
  read_erase_other f s a ha := by
    split
    · rfl
    · exact if_neg (by omega)
  locked_program f a xs f' h := by
    split at h
    · cases h
    · split at h <;> (cases h; rfl)
  read_program_locked f a xs f' c hf h := by
    rw [if_pos hf] at h
    split at h
    · cases h
    · cases h
      rfl
  program_some f a xs hf _ ha _ := by
    rw [if_neg (by omega), if_neg (by rw [hf]; decide)]
    exact ⟨_, rfl⟩
  read_program_self f a xs f' i hf h _ _ hi := by
    rw [if_neg (by omega), if_neg (by rw [hf]; decide)] at h
    cases h
    have hsub : a + i - a = i := by omega
    have hin : a ≤ a + i ∧ a + i < a + xs.length := by omega
    simp only [dif_pos hin, hsub]
  read_program_other f a xs f' c h _ hc := by
    have hout : ¬ (a ≤ c ∧ c < a + xs.length) := by omega
    split at h
    · cases h
    · split at h
      · cases h
        rfl
      · cases h
        exact dif_neg hout
  program_limit f xs := if_pos rfl

end NorFlash
end MazdaPort
