import MazdaPort.SpeedLimits.MaxSpeed

/-!
# MazdaPort.SpeedLimits.Posting

What `parse_maxspeed` makes of a posting: a numeral and a unit in any letter case, with blanks
around them.

`maxspeed_iff`: beside `sane_iff`, a posting of at most 200 km/h comes out as its number times the
multiplier of its unit, exactly when the numeral begins with a digit and is not read as zero.
-/

namespace MazdaPort
namespace SpeedLimits

open Gps (PyFloat pyFloat)
open Text (strip firstWord remove)

/-! ## Postings -/

/-- Digits, and a point before, among or after them or none. -/
structure Decimal where
  whole : List Char
  frac : Option (List Char)
  digits : ∀ c ∈ whole ++ frac.getD [], c.isDigit
  nonempty : whole ++ frac.getD [] ≠ []

namespace Decimal

variable (n : Decimal)

def point : List Char :=
  match n.frac with
  | none => []
  | some frac => '.' :: frac

def text : List Char := n.whole ++ n.point

def mantissa : Nat :=
  (n.whole ++ n.frac.getD []).foldl (fun m c => 10 * m + (c.toNat - '0'.toNat)) 0

def exponent : Int := -((n.frac.getD []).length : Int)

def value : ℚ := n.mantissa * 10 ^ n.exponent

/-- The double nearest to it. -/
def double : Double := .of (.fin n.value)

end Decimal

/-- The unit of a posting, in lower case. -/
inductive Spelling where
  | none
  | kmSlashH
  | kmh
  | kph
  | mph
  deriving DecidableEq, Repr

namespace Spelling

def text : Spelling → List Char
  | none => []
  | kmSlashH => "km/h".toList
  | kmh => "kmh".toList
  | kph => "kph".toList
  | mph => "mph".toList

def scale : Spelling → Scale
  | mph => .mph
  | _ => .kph

end Spelling

/-- Metres per second to the unit. -/
def Scale.rate : Scale → ℚ
  | .kph => 1 / 3.6
  | .mph => 0.44704

structure Posting where
  number : Decimal
  spelling : Spelling
  written : List Char
  written_lower : written.map Char.toLower = spelling.text
  lead : List Char
  between : List Char
  trail : List Char
  blanks : ∀ c ∈ lead ++ between ++ trail, isBlank c

namespace Posting

def text (p : Posting) : List Char :=
  p.lead ++ (p.number.text ++ p.between ++ p.written) ++ p.trail

def speed (p : Posting) : ℚ := p.number.value * p.spelling.scale.rate

end Posting

/-! ## The characters of a posting -/

/-- A character outside the unit. -/
def plain (c : Char) : Bool := c.isDigit || c = '.' || isBlank c

theorem not_mem_of_plain {s : List Char} (h : ∀ c ∈ s, plain c) {d : Char} (hd : ¬ plain d) :
    d ∉ s := by
  intro hmem
  exact hd (h d hmem)

theorem isDigit_bounds {c : Char} (h : c.isDigit) : 48 ≤ c.toNat ∧ c.toNat ≤ 57 :=
  Char.isDigit_iff_toNat.1 h

/-- The blanks among the characters below 128 come before the digits. -/
theorem blank_low {c : Char} (h : isBlank c) (hascii : isAscii c) : c.toNat ≤ 32 := by
  simp only [isBlank, isAscii, Bool.or_eq_true, Bool.and_eq_true, decide_eq_true_eq,
    beq_iff_eq] at h hascii
  omega

theorem digit_not_blank {c : Char} (h : c.isDigit) : ¬ isBlank c := by
  intro hblank
  have hbounds := isDigit_bounds h
  have hlow := blank_low hblank (by simp only [isAscii, decide_eq_true_eq]; omega)
  omega

theorem isAscii_of_toLower {c : Char} (h : isAscii c.toLower) : isAscii c := by
  unfold Char.toLower at h
  split at h
  · next hupper =>
    have hhigh : c.toNat ≤ 90 := UInt32.le_iff_toNat_le.1 hupper.2
    simp only [isAscii, decide_eq_true_eq]
    omega
  · exact h

namespace Decimal

variable (n : Decimal)

theorem text_ne_nil : n.text ≠ [] := by
  intro h
  obtain ⟨hwhole, hpoint⟩ := List.append_eq_nil_iff.1 h
  refine n.nonempty ?_
  unfold point at hpoint
  split at hpoint
  · next hfrac => simp [hwhole, hfrac]
  · cases hpoint

theorem mem_text {c : Char} (h : c ∈ n.text) : c.isDigit ∨ c = '.' := by
  rcases List.mem_append.1 h with hmem | hmem
  · exact .inl (n.digits c (List.mem_append_left _ hmem))
  · unfold point at hmem
    split at hmem
    · cases hmem
    · next frac hfrac =>
      rcases List.mem_cons.1 hmem with heq | hmem
      · exact .inr heq
      · refine .inl (n.digits c (List.mem_append_right _ ?_))
        rw [hfrac]
        exact hmem

theorem text_bounds {c : Char} (h : c ∈ n.text) : 46 ≤ c.toNat ∧ c.toNat ≤ 57 := by
  rcases n.mem_text h with hdigit | rfl
  · have hbounds := isDigit_bounds hdigit
    omega
  · decide

theorem text_not_blank {c : Char} (h : c ∈ n.text) : ¬ isBlank c := by
  rcases n.mem_text h with hdigit | rfl
  · exact digit_not_blank hdigit
  · decide

theorem body_plain {between : List Char} (h : ∀ c ∈ between, isBlank c) :
    ∀ c ∈ n.text ++ between, plain c := by
  intro c hc
  rcases List.mem_append.1 hc with hmem | hmem
  · rcases n.mem_text hmem with hdigit | rfl
    · simp [plain, hdigit]
    · decide
  · simp [plain, h c hmem]

end Decimal

/-! ## The text in lower case -/

section Lower

variable (tables : Unicode)

theorem lowerFrom_plain {s : List Char} (h : ∀ c ∈ s, plain c) (before rest : List Char) :
    lowerFrom tables before (s ++ rest) = s ++ lowerFrom tables (s.reverse ++ before) rest := by
  induction s generalizing before with
  | nil => rfl
  | cons c s ih =>
    have hs : ∀ d ∈ s, plain d := fun d hd => h d (List.mem_cons_of_mem c hd)
    have hc : (if isAscii c then [c.toLower] else tables.lower before c (s ++ rest)) = [c] := by
      have hplain := h c List.mem_cons_self
      simp only [plain, Bool.or_eq_true, decide_eq_true_eq] at hplain
      split
      · next hascii =>
        rw [toLower_of_lt]
        show c.toNat < 65
        rcases hplain with (hdigit | rfl) | hblank
        · have hbounds := isDigit_bounds hdigit
          omega
        · decide
        · have hlow := blank_low hblank hascii
          omega
      · next hascii =>
        have hblank : isBlank c := by
          rcases hplain with (hdigit | rfl) | hblank
          · have hbounds := isDigit_bounds hdigit
            simp only [isAscii, decide_eq_true_eq] at hascii
            omega
          · exact absurd (by decide) hascii
          · exact hblank
        exact tables.lower_blank before c _ hblank
    show (if isAscii c then [c.toLower] else tables.lower before c (s ++ rest)) ++
      lowerFrom tables (c :: before) (s ++ rest) = _
    rw [hc, ih hs, List.reverse_cons, List.append_assoc]
    rfl

theorem lowerFrom_ascii {s : List Char} (h : ∀ c ∈ s, isAscii c) (before : List Char) :
    lowerFrom tables before s = s.map Char.toLower := by
  induction s generalizing before with
  | nil => rfl
  | cons c s ih =>
    have hs : ∀ d ∈ s, isAscii d := fun d hd => h d (List.mem_cons_of_mem c hd)
    rw [lowerFrom, if_pos (h c List.mem_cons_self), ih hs]
    rfl

end Lower

/-! ## The unit -/

theorem readUnit_kph {s : List Char} (hmph : ¬ "mph".toList <:+: s)
    (hkph : "km/h".toList <:+: s ∨ "kmh".toList <:+: s ∨ "kph".toList <:+: s) :
    readUnit s = (.kph, remove ['k', 'p', 'h'] (remove ['k', 'm', 'h']
      (remove ['k', 'm', '/', 'h'] s))) := by
  unfold readUnit
  rw [if_neg hmph, if_pos hkph]
  rfl

namespace Spelling

variable (u : Spelling)

theorem text_char {c : Char} (h : c ∈ u.text) : isAscii c ∧ ¬ isBlank c := by
  have hall : u.text.all (fun c => isAscii c && !isBlank c) := by
    cases u <;> rfl
  simpa using List.all_eq_true.1 hall c h

/-- What comes before the unit is left. -/
theorem readUnit_text {s : List Char} (h : ∀ c ∈ s, plain c) :
    readUnit (s ++ u.text) = (u.scale, s) := by
  have hm : 'm' ∉ s := not_mem_of_plain h (by decide)
  have hk : 'k' ∉ s := not_mem_of_plain h (by decide)
  have hp : 'p' ∉ s := not_mem_of_plain h (by decide)
  -- an occurrence of a word brings its letters
  have hnot : ∀ {word t : List Char} (d : Char), d ∈ word → d ∉ t → ¬ word <:+: t :=
    fun d hd hdt hin => hdt (hin.subset hd)
  cases u with
  | none =>
    have hend : s ++ Spelling.none.text = s := List.append_nil s
    unfold readUnit
    rw [hend, if_neg (hnot 'm' (by simp) hm), if_neg]
    · rfl
    · rintro (hin | hin | hin)
      · exact hnot 'k' (by simp) hk hin
      · exact hnot 'k' (by simp) hk hin
      · exact hnot 'k' (by simp) hk hin
  | kmSlashH =>
    have hp' : 'p' ∉ s ++ "km/h".toList := by simp [hp]
    have hread := readUnit_kph (hnot 'p' (by simp) hp') (.inl (List.suffix_append s _).isInfix)
    refine hread.trans ?_
    show (Scale.kph, remove ['k', 'p', 'h'] (remove ['k', 'm', 'h']
      (remove ['k', 'm', '/', 'h'] (s ++ ['k', 'm', '/', 'h'])))) = (Scale.kph, s)
    rw [Text.remove_suffix hk, Text.remove_of_not_mem hk, Text.remove_of_not_mem hk]
  | kmh =>
    have hp' : 'p' ∉ s ++ "kmh".toList := by simp [hp]
    have hread := readUnit_kph (hnot 'p' (by simp) hp')
      (.inr (.inl (List.suffix_append s _).isInfix))
    refine hread.trans ?_
    rw [Text.remove_append hk]
    show (Scale.kph, remove ['k', 'p', 'h'] (remove ['k', 'm', 'h'] (s ++ ['k', 'm', 'h']))) = _
    rw [Text.remove_suffix hk, Text.remove_of_not_mem hk]
    rfl
  | kph =>
    have hm' : 'm' ∉ s ++ "kph".toList := by simp [hm]
    have hread := readUnit_kph (hnot 'm' (by simp) hm')
      (.inr (.inr (List.suffix_append s _).isInfix))
    refine hread.trans ?_
    rw [Text.remove_append hk]
    show (Scale.kph, remove ['k', 'p', 'h'] (remove ['k', 'm', 'h'] (s ++ ['k', 'p', 'h']))) = _
    rw [Text.remove_append hk]
    show (Scale.kph, remove ['k', 'p', 'h'] (s ++ ['k', 'p', 'h'])) = _
    rw [Text.remove_suffix hk]
    rfl
  | mph =>
    have hin : "mph".toList <:+: s ++ "mph".toList := (List.suffix_append s _).isInfix
    unfold readUnit
    rw [show Spelling.mph.text = "mph".toList from rfl, if_pos hin]
    show (Scale.mph, remove ['m', 'p', 'h'] (s ++ ['m', 'p', 'h'])) = (Scale.mph, s)
    rw [Text.remove_suffix hm]

end Spelling

/-! ## The numeral -/

section FloatText

open Gps

theorem ungroup_of_no_bar {s : List Char} (h : '_' ∉ s) {prev : Char} (hprev : prev ≠ '_') :
    ungroup prev s = some s := by
  induction s generalizing prev with
  | nil => rw [ungroup, if_neg hprev]
  | cons c s ih =>
    have hc : c ≠ '_' := fun heq => h (heq ▸ List.mem_cons_self)
    have hs : '_' ∉ s := fun hmem => h (List.mem_cons_of_mem c hmem)
    have hpair : (prev = '_' && !c.isDigit) = false := by simp [hprev]
    rw [ungroup, if_neg hc, hpair, ih hs hc]
    rfl

theorem span_digits {s rest : List Char} (h : ∀ c ∈ s, c.isDigit)
    (hrest : ∀ c ∈ rest.head?, ¬ c.isDigit) :
    (s ++ rest).takeWhile Char.isDigit = s ∧ (s ++ rest).dropWhile Char.isDigit = rest := by
  have hstop : rest.takeWhile Char.isDigit = [] ∧ rest.dropWhile Char.isDigit = rest := by
    cases rest with
    | nil => exact ⟨rfl, rfl⟩
    | cons c rest =>
      have hc := hrest c rfl
      exact ⟨List.takeWhile_cons_of_neg hc, List.dropWhile_cons_of_neg hc⟩
  rw [List.takeWhile_append_of_pos h, List.dropWhile_append_of_pos h, hstop.1, hstop.2]
  exact ⟨List.append_nil s, rfl⟩

namespace Decimal

variable (n : Decimal)

theorem decimalText_text :
    decimalText false n.text = some (.decimal false n.mantissa n.exponent) := by
  have hdigits : Gps.digits (n.whole ++ n.frac.getD []) = some n.mantissa := by
    have hall : (n.whole ++ n.frac.getD []).all Char.isDigit := List.all_eq_true.2 n.digits
    rw [Gps.digits, if_pos ⟨n.nonempty, hall⟩]
    rfl
  have hwhole : ∀ c ∈ n.whole, c.isDigit :=
    fun c hc => n.digits c (List.mem_append_left _ hc)
  have hpoint : ∀ c ∈ n.point.head?, ¬ c.isDigit := by
    intro c hc
    unfold point at hc
    split at hc
    · cases hc
    · cases hc
      decide
  obtain ⟨htake, hdrop⟩ := span_digits hwhole hpoint
  unfold decimalText text
  rw [htake, hdrop]
  cases hfrac : n.frac with
  | none =>
    have hnil : n.point = [] := by rw [point, hfrac]
    rw [hfrac] at hdigits
    rw [hnil]
    dsimp only
    rw [show Gps.digits (n.whole ++ []) = some n.mantissa from hdigits, exponent, hfrac]
    rfl
  | some frac =>
    have hcons : n.point = '.' :: frac := by rw [point, hfrac]
    have hall : ∀ c ∈ frac, c.isDigit := by
      intro c hc
      refine n.digits c (List.mem_append_right _ ?_)
      rw [hfrac]
      exact hc
    have hend : ∀ c ∈ ([] : List Char).head?, ¬ c.isDigit := by simp
    obtain ⟨htake', hdrop'⟩ := span_digits hall hend
    rw [List.append_nil] at htake' hdrop'
    rw [hfrac] at hdigits
    rw [hcons]
    simp only [htake', hdrop']
    rw [show Gps.digits (n.whole ++ frac) = some n.mantissa from hdigits, exponent, hfrac]
    show some (FloatText.decimal false n.mantissa (0 - (frac.length : Int))) = _
    rw [Int.zero_sub]
    rfl

theorem text_not_mem {c : Char} (h : c.toNat < 46 ∨ 57 < c.toNat) : c ∉ n.text := by
  intro hmem
  have hbounds := n.text_bounds hmem
  omega

theorem floatText_text : floatText n.text = some (.decimal false n.mantissa n.exponent) := by
  have hspace : ∀ c ∈ n.text, ¬ isSpace c := by
    intro c hc hspace
    have hbounds := n.text_bounds hc
    simp only [isSpace, Bool.or_eq_true, Bool.and_eq_true, decide_eq_true_eq] at hspace
    rcases hspace with rfl | ⟨-, hhigh⟩
    · exact absurd hbounds (by decide)
    · omega
  have hstrip : Gps.strip n.text = n.text := Text.strip_of_no_blanks hspace
  have hsigned : signed n.text = (false, n.text) := by
    unfold signed
    split
    · next heq => exact absurd (heq ▸ List.mem_cons_self) (n.text_not_mem (c := '-') (by simp))
    · next heq => exact absurd (heq ▸ List.mem_cons_self) (n.text_not_mem (c := '+') (by simp))
    · rfl
  have hgroup : ungroup '+' n.text = some n.text :=
    ungroup_of_no_bar (n.text_not_mem (by simp)) (by simp)
  have hlower : n.text.map Char.toLower = n.text := by
    have hchar : ∀ c ∈ n.text, c.toLower = id c := by
      intro c hc
      apply toLower_of_lt
      show c.toNat < 65
      have hbounds := n.text_bounds hc
      omega
    rw [List.map_congr_left hchar, List.map_id]
  have hword : ∀ {w : List Char}, 'n' ∈ w → n.text.map Char.toLower ≠ w := by
    intro w hw heq
    rw [hlower] at heq
    exact n.text_not_mem (c := 'n') (by simp) (heq ▸ hw)
  unfold floatText
  rw [hstrip, hsigned]
  dsimp only
  rw [hgroup, Option.bind_some, if_neg, if_neg (hword (by simp))]
  · exact n.decimalText_text
  · rintro (hinf | hinf)
    · exact hword (by simp) hinf
    · exact hword (by simp) hinf

end Decimal

end FloatText

section Number

variable (tables : Unicode) (n : Decimal)

theorem toAscii_of_isAscii {c : Char} (h : isAscii c) : toAscii tables c = c := if_pos h

theorem isDigit_of_isAscii {c : Char} (h : isAscii c) : isDigit tables c = c.isDigit := if_pos h

theorem text_ascii {c : Char} (h : c ∈ n.text) : isAscii c := by
  have hbounds := n.text_bounds h
  simp only [isAscii, decide_eq_true_eq]
  omega

/-- A numeral begins with a digit, or with its point. -/
theorem isDigit_head {c : Char} {s : List Char} (h : n.text = c :: s) :
    isDigit tables c ↔ n.whole ≠ [] := by
  have hascii : isAscii c := text_ascii n (h ▸ List.mem_cons_self)
  rw [isDigit_of_isAscii tables hascii]
  unfold Decimal.text at h
  cases hwhole : n.whole with
  | nil =>
    rw [hwhole, List.nil_append, Decimal.point] at h
    split at h
    · cases h
    · cases h
      simp
  | cons d whole =>
    rw [hwhole] at h
    cases h
    have hdigit : c.isDigit := by
      refine n.digits c (List.mem_append_left _ ?_)
      rw [hwhole]
      exact List.mem_cons_self
    simp [hdigit]

/-- The numeral is read where it begins with a digit. -/
theorem readNumber_text {F : Type} [PyFloat F] {between : List Char}
    (h : ∀ c ∈ between, isBlank c) :
    (readNumber tables (n.text ++ between) : Option F) =
      if n.whole = [] then none
      else some (PyFloat.ofText (.decimal false n.mantissa n.exponent)) := by
  have hne := n.text_ne_nil
  have hblank : ∀ c ∈ n.text, ¬ isBlank c := fun c hc => n.text_not_blank hc
  have hstrip : strip isBlank (n.text ++ between) = n.text := by
    have hnil : ∀ c ∈ ([] : List Char), isBlank c := by simp
    simpa using Text.strip_pad hnil h hne (hblank _ (List.head_mem hne))
      (hblank _ (List.getLast_mem hne))
  have hascii : ∀ c ∈ n.text, toAscii tables c = id c :=
    fun c hc => toAscii_of_isAscii tables (text_ascii n hc)
  have hword : (firstWord isBlank n.text).map (toAscii tables) = n.text := by
    rw [Text.firstWord_of_no_blanks hblank, List.map_congr_left hascii, List.map_id]
  have hfloat : (pyFloat n.text : Except _ F) =
      .ok (PyFloat.ofText (.decimal false n.mantissa n.exponent)) := by
    unfold pyFloat
    rw [n.floatText_text]
  unfold readNumber
  rw [hstrip]
  split
  · next hnil => exact absurd hnil hne
  · next c s hcons =>
    rw [← hcons, hword, hfloat]
    by_cases hwhole : n.whole = []
    · have hdigit : ¬ isDigit tables c :=
        fun hdigit => (isDigit_head tables n hcons).1 hdigit hwhole
      rw [if_neg hdigit, if_pos hwhole]
    · rw [if_pos ((isDigit_head tables n hcons).2 hwhole), if_neg hwhole]

end Number

/-! ## Postings read -/

namespace Posting

variable (tables : Unicode) (p : Posting)

theorem written_char {c : Char} (h : c ∈ p.written) : isAscii c ∧ ¬ isBlank c := by
  have hmem : c.toLower ∈ p.spelling.text := p.written_lower ▸ List.mem_map_of_mem h
  obtain ⟨hascii, hletter⟩ := p.spelling.text_char hmem
  have hc : isAscii c := isAscii_of_toLower hascii
  refine ⟨hc, ?_⟩
  intro hblank
  have hlow : c.toNat < 'A'.toNat := (blank_low hblank hc).trans_lt (by decide)
  rw [toLower_of_lt hlow] at hletter
  exact hletter hblank

/-- What is left of the blanks stands between the numeral and the unit. -/
theorem strip_text : ∃ between, (∀ c ∈ between, isBlank c) ∧
    strip isBlank p.text = p.number.text ++ between ++ p.written := by
  have hlead : ∀ c ∈ p.lead, isBlank c :=
    fun c hc => p.blanks c (List.mem_append_left _ (List.mem_append_left _ hc))
  have hbetween : ∀ c ∈ p.between, isBlank c :=
    fun c hc => p.blanks c (List.mem_append_left _ (List.mem_append_right _ hc))
  have htrail : ∀ c ∈ p.trail, isBlank c := fun c hc => p.blanks c (List.mem_append_right _ hc)
  have hne := p.number.text_ne_nil
  have hnumber : ∀ c ∈ p.number.text, ¬ isBlank c := fun c hc => p.number.text_not_blank hc
  cases hwritten : p.written with
  | nil =>
    refine ⟨[], by simp, ?_⟩
    have htail : ∀ c ∈ p.between ++ p.trail, isBlank c :=
      fun c hc => (List.mem_append.1 hc).elim (hbetween c) (htrail c)
    have htext : p.text = p.lead ++ p.number.text ++ (p.between ++ p.trail) := by
      simp [text, hwritten]
    rw [htext, Text.strip_pad hlead htail hne (hnumber _ (List.head_mem hne))
      (hnumber _ (List.getLast_mem hne))]
    simp
  | cons d written =>
    refine ⟨p.between, hbetween, ?_⟩
    have hne' : p.written ≠ [] := by simp [hwritten]
    have hbody : p.number.text ++ p.between ++ p.written ≠ [] := by simp [hne]
    rw [text, ← hwritten]
    refine Text.strip_pad hlead htrail hbody ?_ ?_
    · simp only [List.append_assoc, List.head_append_of_ne_nil hne]
      exact hnumber _ (List.head_mem hne)
    · rw [List.getLast_append_of_ne_nil hbody hne']
      exact (p.written_char (List.getLast_mem hne')).2

theorem lower_text : ∃ between, (∀ c ∈ between, isBlank c) ∧
    lower tables (strip isBlank p.text) = p.number.text ++ between ++ p.spelling.text := by
  obtain ⟨between, hblank, htext⟩ := p.strip_text
  refine ⟨between, hblank, ?_⟩
  have hplain := p.number.body_plain hblank
  have hascii : ∀ c ∈ p.written, isAscii c := fun c hc => (p.written_char hc).1
  rw [htext, lower, lowerFrom_plain tables hplain, lowerFrom_ascii tables hascii,
    p.written_lower]

/-- A posting says its number, in its unit. -/
theorem numeral_text {F : Type} [PyFloat F] :
    (numeral tables p.text : Option (Scale × F)) =
      if p.number.whole = [] then none
      else some (p.spelling.scale,
        PyFloat.ofText (.decimal false p.number.mantissa p.number.exponent)) := by
  obtain ⟨between, hblank, hlower⟩ := p.lower_text tables
  unfold numeral
  rw [hlower, p.spelling.readUnit_text (p.number.body_plain hblank)]
  dsimp only
  rw [readNumber_text tables p.number hblank]
  split <;> rfl

theorem not_walk : lower tables (strip isBlank p.text) ≠ "walk".toList := by
  intro hwalk
  obtain ⟨between, hblank, hlower⟩ := p.lower_text tables
  have hbody : 'w' ∉ p.number.text ++ between :=
    not_mem_of_plain (p.number.body_plain hblank) (by decide)
  have hunit : 'w' ∉ p.spelling.text := by
    cases p.spelling <;> decide
  have hmem : 'w' ∈ p.number.text ++ between ++ p.spelling.text := by
    rw [← hlower, hwalk]
    simp
  exact (List.mem_append.1 hmem).elim hbody hunit

/-- What a posting is read as, whatever it says. -/
theorem parseMaxspeed_text :
    parseMaxspeed tables p.text =
      if p.number.whole = [] ∨ outOfRange p.number.double then none
      else some (p.number.double * p.spelling.scale.mult) := by
  rw [parseMaxspeed_eq, if_neg (p.not_walk tables), p.numeral_text tables]
  by_cases hwhole : p.number.whole = []
  · rw [if_pos hwhole, if_pos (.inl hwhole)]
    rfl
  · have hiff : (p.number.whole = [] ∨ outOfRange p.number.double) ↔
        outOfRange p.number.double = true := by
      simp [hwhole]
    rw [if_neg hwhole, if_congr hiff rfl rfl]
    rfl

end Posting

/-! ## Within the limit -/

namespace Decimal

variable {n : Decimal}

theorem value_nonneg (n : Decimal) : 0 ≤ n.value :=
  mul_nonneg (Nat.cast_nonneg _) (zpow_nonneg (by norm_num) _)

theorem outOfRange_double (h : n.value ≤ 200) :
    outOfRange n.double = false ↔ 2 ^ (-1075 : ℤ) < n.value := by
  have h0 := n.value_nonneg
  have hval : n.double.val = .fin (binary64.round n.value) := of_fin h0 (h.trans (by norm_num))
  have hmax : binary64.round n.value ≤ 200 := by
    have hmono := binary64.round_mono h
    have hfix : binary64.round 200 = 200 := by decide +kernel
    rwa [hfix] at hmono
  rw [outOfRange_fin hval, binary64.round_pos_iff h0]
  exact and_iff_left hmax

end Decimal

theorem Posting.value_le {p : Posting} (h : p.speed ≤ 200 / 3.6) : p.number.value ≤ 200 := by
  unfold Posting.speed at h
  have h0 := p.number.value_nonneg
  cases hscale : p.spelling.scale with
  | kph =>
    rw [hscale, Scale.rate] at h
    linarith
  | mph =>
    rw [hscale, Scale.rate] at h
    linarith

/-! ## What can be said of every text and every posting -/

theorem maxspeed_iff (tables : Unicode) :
    (∀ raw, Sane (parseMaxspeed tables raw) ↔
      ∀ scale q, numeral tables raw = some (scale, Gps.Exact.fin q) →
        ¬ Slips scale (.of (.fin q))) ∧
    ∀ p : Posting, p.speed ≤ 200 / 3.6 →
      (parseMaxspeed tables p.text = some (p.number.double * p.spelling.scale.mult) ↔
        p.number.whole ≠ [] ∧ 2 ^ (-1075 : ℤ) < p.number.value) := by
  refine ⟨sane_iff tables, ?_⟩
  intro p hspeed
  have hrange := p.number.outOfRange_double (p.value_le hspeed)
  rw [p.parseMaxspeed_text tables, ← hrange, ← Bool.not_eq_true, ne_eq, ← not_or]
  constructor
  · intro heq hnone
    rw [if_pos hnone] at heq
    cases heq
  · intro hsome
    exact if_neg hsome

/-- " 50 MPH" -/
def fifty : Posting :=
  { number :=
      { whole := "50".toList
        frac := none
        digits := List.all_eq_true.1 rfl
        nonempty := List.cons_ne_nil _ _ }
    spelling := .mph
    written := "MPH".toList
    written_lower := rfl
    lead := " ".toList
    between := " ".toList
    trail := []
    blanks := List.all_eq_true.1 rfl }

theorem fifty_read : fifty.text = " 50 MPH".toList ∧
    parseMaxspeed plainTables fifty.text = some (fifty.number.double * Scale.mult .mph) := by
  have hvalue : fifty.number.value = 50 := by decide +kernel
  have hspeed : fifty.speed ≤ 200 / 3.6 := by decide +kernel
  refine ⟨rfl, ((maxspeed_iff plainTables).2 fifty hspeed).2 ⟨List.cons_ne_nil _ _, ?_⟩⟩
  rw [hvalue]
  exact (zpow_lt_one_of_neg₀ one_lt_two (by norm_num)).trans (by norm_num)

/-- The guard lets 150 through, and in miles per hour that is 241 km/h. -/
theorem mph_unguarded : ¬ Sane (parseMaxspeed plainTables "150 mph".toList) := by
  have hread : parseMaxspeed plainTables "150 mph".toList =
      some ((PyFloat.ofInt 150 : Double) * Scale.mult .mph) := by
    decide +kernel
  intro hsane
  have hle := (hsane _ hread).2
  exact absurd hle (by decide +kernel)

end SpeedLimits
end MazdaPort
