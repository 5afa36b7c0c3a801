import Mathlib.Data.List.DropRight
import Mathlib.Data.List.Infix

/-!
# MazdaPort.Lib.Text

Texts as lists: the blanks around one (`strip`), its first word, and its occurrences of a pattern
taken out from left to right (`remove`). Which elements are blanks is a parameter.
-/

namespace MazdaPort
namespace Text

universe u

variable {α : Type u}

/-! ## Blanks -/

section Blanks

variable (blank : α → Bool)

def strip (s : List α) : List α := (s.dropWhile blank).rdropWhile blank

def firstWord (s : List α) : List α := (s.dropWhile blank).takeWhile fun c => !blank c

variable {blank} {s : List α}

theorem dropWhile_of_head (hne : s ≠ []) (h : ¬ blank (s.head hne)) : s.dropWhile blank = s := by
  cases s with
  | nil => rfl
  | cons c s => exact List.dropWhile_cons_of_neg h

/-- The blanks around a text that has none at its ends come off. -/
theorem strip_pad {lead trail : List α} (hlead : ∀ c ∈ lead, blank c) (htrail : ∀ c ∈ trail, blank c)
    (hne : s ≠ []) (hhead : ¬ blank (s.head hne)) (hlast : ¬ blank (s.getLast hne)) :
    strip blank (lead ++ s ++ trail) = s := by
  have hfront : (lead ++ s ++ trail).dropWhile blank = s ++ trail := by
    rw [List.append_assoc, List.dropWhile_append_of_pos hlead]
    have hne' : s ++ trail ≠ [] := List.append_ne_nil_of_left_ne_nil hne trail
    refine dropWhile_of_head hne' ?_
    rw [List.head_append_of_ne_nil hne]
    exact hhead
  have hback : (s ++ trail).rdropWhile blank = s.rdropWhile blank := by
    have hrev : ∀ c ∈ trail.reverse, blank c := by simpa using htrail
    rw [List.rdropWhile, List.reverse_append, List.dropWhile_append_of_pos hrev]
    rfl
  rw [strip, hfront, hback]
  exact List.rdropWhile_eq_self_iff.2 fun _ => hlast

theorem strip_of_no_blanks (h : ∀ c ∈ s, ¬ blank c) : strip blank s = s := by
  cases s with
  | nil => rfl
  | cons c s =>
    have hne : c :: s ≠ [] := List.cons_ne_nil c s
    have hnil : ∀ c ∈ ([] : List α), blank c := by simp
    simpa using strip_pad hnil hnil hne (h _ (List.head_mem hne)) (h _ (List.getLast_mem hne))

/-- A text that does not begin with a blank keeps its first element. -/
theorem strip_cons {c : α} (h : ¬ blank c) : ∃ s', strip blank (c :: s) = c :: s' := by
  have hdrop : strip blank (c :: s) = (c :: s).rdropWhile blank :=
    congrArg (List.rdropWhile blank) (List.dropWhile_cons_of_neg h)
  rw [hdrop]
  cases hs : (c :: s).rdropWhile blank with
  | nil => exact absurd (List.rdropWhile_eq_nil_iff.1 hs c List.mem_cons_self) h
  | cons d s' =>
    have hpre := List.rdropWhile_prefix blank (c :: s)
    rw [hs] at hpre
    exact ⟨s', congrArg (· :: s') (List.cons_prefix_cons.1 hpre).1⟩

/-- The first element of what is left is no blank. -/
theorem head_strip {c : α} {s' : List α} (h : strip blank s = c :: s') : ¬ blank c := by
  have hpre := List.rdropWhile_prefix blank (s.dropWhile blank)
  rw [show (s.dropWhile blank).rdropWhile blank = c :: s' from h] at hpre
  obtain ⟨rest, hrest⟩ := hpre
  have hhead := List.head?_dropWhile_not blank s
  rw [← hrest] at hhead
  simpa using hhead

theorem firstWord_of_no_blanks (h : ∀ c ∈ s, ¬ blank c) : firstWord blank s = s := by
  cases s with
  | nil => rfl
  | cons c s =>
    have hne : c :: s ≠ [] := List.cons_ne_nil c s
    rw [firstWord, dropWhile_of_head hne (h _ (List.head_mem hne))]
    exact List.takeWhile_eq_self_iff.2 fun d hd => by simpa using h d hd

theorem firstWord_cons {c : α} (h : ¬ blank c) : ∃ s', firstWord blank (c :: s) = c :: s' := by
  refine ⟨s.takeWhile fun d => !blank d, ?_⟩
  rw [firstWord, List.dropWhile_cons_of_neg h]
  simp [h]

end Blanks

/-! ## Patterns -/

section Patterns

variable [DecidableEq α]

/-- `skip` elements of an occurrence are still to be left out. -/
def removeFrom (pat : List α) : Nat → List α → List α
  | _, [] => []
  | skip + 1, _ :: s => removeFrom pat skip s
  | 0, c :: s =>
    if pat <+: c :: s then removeFrom pat (pat.length - 1) s else c :: removeFrom pat 0 s

def remove (pat s : List α) : List α := removeFrom pat 0 s

@[simp] theorem remove_nil (pat : List α) : remove pat [] = [] := rfl

theorem removeFrom_length (pat xs ys : List α) :
    removeFrom pat xs.length (xs ++ ys) = remove pat ys := by
  induction xs with
  | nil => rfl
  | cons x xs ih => exact ih

variable {p : α} {ps xs : List α}

/-- What the pattern does not begin with stays. -/
theorem remove_append (h : p ∉ xs) (ys : List α) :
    remove (p :: ps) (xs ++ ys) = xs ++ remove (p :: ps) ys := by
  induction xs with
  | nil => rfl
  | cons x xs ih =>
    have hx : ¬ p :: ps <+: x :: (xs ++ ys) := by
      intro hpre
      have heq := (List.cons_prefix_cons.1 hpre).1
      exact h (heq ▸ List.mem_cons_self)
    show removeFrom (p :: ps) 0 (x :: (xs ++ ys)) = x :: (xs ++ remove (p :: ps) ys)
    rw [removeFrom, if_neg hx]
    exact congrArg _ (ih fun hmem => h (List.mem_cons_of_mem x hmem))

theorem remove_occurrence (ys : List α) : remove (p :: ps) (p :: ps ++ ys) = remove (p :: ps) ys := by
  have hpre : p :: ps <+: p :: (ps ++ ys) := List.prefix_append (p :: ps) ys
  show removeFrom (p :: ps) 0 (p :: (ps ++ ys)) = remove (p :: ps) ys
  rw [removeFrom, if_pos hpre]
  exact removeFrom_length (p :: ps) ps ys

/-- A pattern at the end, with nothing of it before. -/
theorem remove_suffix (h : p ∉ xs) : remove (p :: ps) (xs ++ p :: ps) = xs := by
  have hocc : remove (p :: ps) (p :: ps) = [] := by
    have hall : remove (p :: ps) (p :: ps ++ []) = remove (p :: ps) [] := remove_occurrence []
    simpa using hall
  rw [remove_append h, hocc, List.append_nil]

theorem remove_of_not_mem (h : p ∉ xs) : remove (p :: ps) xs = xs := by
  have hall : remove (p :: ps) (xs ++ []) = xs ++ remove (p :: ps) [] := remove_append h []
  simpa using hall

end Patterns

end Text
end MazdaPort
