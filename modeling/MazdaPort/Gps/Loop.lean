import MazdaPort.Gps.Reader

/-!
# MazdaPort.Gps.Loop

`_run` of `gps_reader.py`: the passes of the reader's thread over what the port gives it. An
exception in `_consume` leaves `_run`, and nothing starts the thread again.

`withstands`: the thread lives on exactly when every sentence that reaches `_consume` is
`Readable`, and then each position is published. `read_cases` says what a malformed sentence does
to the reader: nothing, or it drops the fix, unless defaults stand in for its fields.
-/

namespace MazdaPort
namespace Gps

open GpsReader

variable {F : Type} [PyFloat F]

/-! ## Lines -/

/-- `raw.decode("ascii", "ignore")`. -/
def decodeAscii (raw : List UInt8) : List Char :=
  (raw.filter fun b => b < 128).map fun b => Char.ofNat b.toNat

/-- `str.strip` knows four more separators than `int` and `float`. -/
def stripLine (s : List Char) : List Char :=
  let space := fun c => isSpace c || (0x1c ≤ c.toNat && c.toNat ≤ 0x1f)
  ((s.dropWhile space).reverse.dropWhile space).reverse

def hexDigit (c : Char) : Option Nat :=
  if c.isDigit then some (c.toNat - '0'.toNat)
  else if 'a' ≤ c ∧ c ≤ 'f' then some (c.toNat - 'a'.toNat + 10)
  else if 'A' ≤ c ∧ c ≤ 'F' then some (c.toNat - 'A'.toNat + 10)
  else none

/-- `int(s, 16)` for at most two characters, where no prefix and no underscore fits in. -/
def pyIntHex (s : List Char) : Except PyError Int :=
  let (neg, s) := signed (strip s)
  match s.mapM hexDigit with
  | some (d :: ds) => .ok (withSign neg (ds.foldl (fun n d => 16 * n + d) d))
  | _ => .error .valueError

def nmeaChecksumOk (line : List Char) : Bool :=
  if '*' ∈ line then
    let body := (line.drop 1).takeWhile (· ≠ '*')
    let csum := ((line.drop 1).dropWhile (· ≠ '*')).drop 1
    match pyIntHex (csum.take 2) with
    | .ok want => ((body.foldl (fun got ch => got ^^^ ch.toNat) 0 : Nat) : Int) == want
    | .error _ => false
  else false

/-! ## The loop -/

/-- What a pass meets: a port that does not open, a read that raises, or what the read returns,
which is empty after a timeout. -/
inductive Pass where
  | openFails
  | readFails
  | reads (now : ℚ) (raw : List UInt8)

structure ReadLoop (F : Type) where
  reader : GpsReader F
  sentences : Nat
  checksumErrors : Nat
  deriving DecidableEq

def pass (s : ReadLoop F) : Pass → Except PyError (ReadLoop F)
  | .openFails => .ok s
  | .readFails => .ok s
  | .reads now raw =>
    let line := stripLine (decodeAscii raw)
    if line.head? ≠ some '$' then .ok s
    else if !nmeaChecksumOk line then .ok { s with checksumErrors := s.checksumErrors + 1 }
    else do
      let reader ← consume now line s.reader
      pure { s with reader := reader, sentences := s.sentences + 1 }

/-- Every pass of the run ends without an exception, with `R` between the states around it. -/
def EachPass (R : ReadLoop F → Pass → ReadLoop F → Prop) : ReadLoop F → List Pass → Prop
  | _, [] => True
  | s, p :: ps => ∃ s', pass s p = .ok s' ∧ R s p s' ∧ EachPass R s' ps

/-- The fields of the sentence that a pass hands to `_consume`. -/
def heard : Pass → Option (List (List Char))
  | .openFails => none
  | .readFails => none
  | .reads _ raw =>
    let line := stripLine (decodeAscii raw)
    if line.head? = some '$' ∧ nmeaChecksumOk line = true then some (fields line) else none

/-! ## Sentences -/

/-- `_dm_to_deg` has a number and a hemisphere to read. -/
def HasDm (value hemi : List Char) : Prop := value ≠ [] ∧ hemi ≠ [] ∧ (floatText value).isSome

variable (F) in
/-- The number, if there is one, has an integer part. -/
def FiniteDm (value hemi : List Char) : Prop :=
  value ≠ [] → hemi ≠ [] → ∀ t, floatText value = some t →
    PyFloat.isNan (PyFloat.ofText t / PyFloat.ofInt 100 : F) = false ∧
      PyFloat.isInf (PyFloat.ofText t / PyFloat.ofInt 100 : F) = false

/-- A GGA sentence with a quality other than 0 and a position. -/
def CarriesPosition (f : List (List Char)) : Prop :=
  IsGga f ∧ ggaQuality f ≠ 0 ∧ HasDm (field f 2) (field f 3) ∧ HasDm (field f 4) (field f 5)

variable (F) in
/-- Nothing in the sentence raises: its degrees are finite, and the fields behind a position are
empty or numbers. -/
def Readable (f : List (List Char)) : Prop :=
  IsGga f → ggaQuality f ≠ 0 →
    FiniteDm F (field f 2) (field f 3) ∧ FiniteDm F (field f 4) (field f 5) ∧
      (CarriesPosition f →
        (field f 7 = [] ∨ ∃ n, pyInt (field f 7) = .ok n) ∧
          (field f 8 = [] ∨ (floatText (field f 8)).isSome) ∧
            (field f 9 = [] ∨ (floatText (field f 9)).isSome))

/-- Too few fields, or a field that is empty or no number. -/
def Malformed (f : List (List Char)) : Prop :=
  (kind f = "GGA".toList ∧
    (f.length ≤ 9 ∨ (∃ e, pyInt (field f 6) = .error e) ∨ ¬ HasDm (field f 2) (field f 3) ∨
      ¬ HasDm (field f 4) (field f 5) ∨ (∃ e, pyInt (field f 7) = .error e) ∨
        floatText (field f 8) = none ∨ floatText (field f 9) = none)) ∨
    (kind f = "RMC".toList ∧
      (f.length ≤ 8 ∨ floatText (field f 7) = none ∨ floatText (field f 8) = none))

/-- The sentence is used as it is, with defaults for what it does not say. -/
def Defaulted (f : List (List Char)) : Prop :=
  CarriesPosition f ∨ (IsRmc f ∧ field f 2 = ['A'])

/-! ## What a sentence raises -/

section Conversions

variable (F) {value hemi : List Char}

theorem dmToDeg_none (h : ¬ HasDm value hemi) : dmToDeg (F := F) value hemi = .ok none := by
  unfold dmToDeg
  by_cases hempty : value = [] ∨ hemi = []
  · rw [if_pos hempty]
  · rw [not_or] at hempty
    rw [if_neg (not_or.2 hempty)]
    have htext : floatText value = none := by
      cases ht : floatText value with
      | none => rfl
      | some t => exact absurd ⟨hempty.1, hempty.2, by simp [ht]⟩ h
    simp [pyFloat, htext]

theorem dmToDeg_some (h : HasDm value hemi) (hfin : FiniteDm F value hemi) :
    ∃ x, dmToDeg (F := F) value hemi = .ok (some x) := by
  obtain ⟨hvalue, hhemi, htext⟩ := h
  obtain ⟨t, ht⟩ := Option.isSome_iff_exists.1 htext
  obtain ⟨hnan, hinf⟩ := hfin hvalue hhemi t ht
  unfold dmToDeg
  rw [if_neg (not_or.2 ⟨hvalue, hhemi⟩)]
  simp only [pyFloat, ht, floatToInt, hnan, hinf, Bool.false_eq_true, if_false]
  exact ⟨_, rfl⟩

theorem dmToDeg_error (h : ¬ FiniteDm F value hemi) :
    ∃ e, dmToDeg (F := F) value hemi = .error e := by
  unfold FiniteDm at h
  push Not at h
  obtain ⟨hvalue, hhemi, t, ht, hspecial⟩ := h
  unfold dmToDeg
  rw [if_neg (not_or.2 ⟨hvalue, hhemi⟩)]
  simp only [pyFloat, ht, floatToInt]
  cases hnan : PyFloat.isNan (PyFloat.ofText t / PyFloat.ofInt 100 : F) with
  | true => exact ⟨.valueError, rfl⟩
  | false =>
    have hinf := hspecial hnan
    simp only [ne_eq, Bool.not_eq_false] at hinf
    rw [hinf]
    exact ⟨.overflowError, rfl⟩

theorem dmToDeg_ok (h : FiniteDm F value hemi) :
    ∃ x, dmToDeg (F := F) value hemi = .ok x ∧ (x.isSome ↔ HasDm value hemi) := by
  by_cases hdm : HasDm value hemi
  · obtain ⟨x, hx⟩ := dmToDeg_some F hdm h
    exact ⟨some x, hx, by simp [hdm]⟩
  · exact ⟨none, dmToDeg_none F hdm, by simp [hdm]⟩

/-- A field that may be empty is converted, or what stands for it is taken. -/
theorem optional_ok_iff {α : Type} {s : List Char} (default : α) {conv : Except PyError α} :
    (∃ x, (if s = [] then pure default else conv) = Except.ok x) ↔ s = [] ∨ ∃ x, conv = .ok x := by
  by_cases h : s = []
  · simp [h, pure, Except.pure]
  · simp [h]

theorem pyFloat_ok_iff {s : List Char} :
    (∃ x, pyFloat (F := F) s = .ok x) ↔ (floatText s).isSome := by
  unfold pyFloat
  cases floatText s <;> simp

end Conversions

theorem ok_bind {α β : Type} (x : α) (k : α → Except PyError β) : Except.ok x >>= k = k x := rfl

theorem error_bind {α β : Type} (e : PyError) (k : α → Except PyError β) :
    Except.error e >>= k = .error e := rfl

/-- Three conversions in a row. -/
theorem three_ok_iff {α β γ δ : Type} {a : Except PyError α} {b : Except PyError β}
    {c : Except PyError γ} {k : α → β → γ → δ} :
    (∃ y, (do
        let x ← a
        let y ← b
        let z ← c
        pure (k x y z)) = Except.ok y) ↔
      (∃ x, a = .ok x) ∧ (∃ y, b = .ok y) ∧ ∃ z, c = .ok z := by
  cases a with
  | error e => simp [error_bind]
  | ok x =>
    cases b with
    | error e => simp [ok_bind, error_bind]
    | ok y => cases c <;> simp [ok_bind, error_bind, pure, Except.pure]

theorem three_ok_some {α β γ δ : Type} {a : Except PyError α} {b : Except PyError β}
    {c : Except PyError γ} {k : α → β → γ → δ} {o : Option δ}
    (h : (do
        let x ← a
        let y ← b
        let z ← c
        pure (some (k x y z))) = Except.ok o) : ∃ v, o = some v := by
  obtain ⟨⟨x, rfl⟩, ⟨y, rfl⟩, z, rfl⟩ := three_ok_iff.1 ⟨o, h⟩
  cases h
  exact ⟨_, rfl⟩

/-- Whether `_consume` gets through a GGA sentence with a fix. -/
theorem ggaPosition_ok_iff (f : List (List Char)) :
    (∃ p, ggaPosition (F := F) f = .ok p) ↔
      FiniteDm F (field f 2) (field f 3) ∧ FiniteDm F (field f 4) (field f 5) ∧
        (HasDm (field f 2) (field f 3) ∧ HasDm (field f 4) (field f 5) →
          (field f 7 = [] ∨ ∃ n, pyInt (field f 7) = .ok n) ∧
            (field f 8 = [] ∨ (floatText (field f 8)).isSome) ∧
              (field f 9 = [] ∨ (floatText (field f 9)).isSome)) := by
  unfold ggaPosition
  by_cases hlat : FiniteDm F (field f 2) (field f 3)
  · obtain ⟨lat, hlatEq, hlatSome⟩ := dmToDeg_ok F hlat
    by_cases hlon : FiniteDm F (field f 4) (field f 5)
    · obtain ⟨lon, hlonEq, hlonSome⟩ := dmToDeg_ok F hlon
      rw [hlatEq, ok_bind, hlonEq, ok_bind, ← hlatSome, ← hlonSome]
      simp only [hlat, hlon, true_and]
      cases lat with
      | none => simp [pure, Except.pure]
      | some lat =>
        cases lon with
        | none => simp [pure, Except.pure]
        | some lon =>
          simp only [Option.isSome_some, and_self, forall_const]
          rw [← optional_ok_iff 0, ← pyFloat_ok_iff F, ← pyFloat_ok_iff F,
            ← optional_ok_iff (PyFloat.ofText .nan), ← optional_ok_iff (PyFloat.ofInt 0)]
          -- the continuation is written out in every branch of the three conditionals
          split_ifs <;> exact three_ok_iff
    · obtain ⟨e, he⟩ := dmToDeg_error F hlon
      rw [hlatEq, ok_bind, he, error_bind]
      simp [hlon]
  · obtain ⟨e, he⟩ := dmToDeg_error F hlat
    rw [he, error_bind]
    simp [hlat]

theorem read_ok_iff (line : List Char) :
    (∃ x, Sentence.read (F := F) line = .ok x) ↔ Readable F (fields line) := by
  unfold Sentence.read Readable CarriesPosition
  dsimp only
  by_cases hgga : IsGga (fields line)
  · by_cases hq : ggaQuality (fields line) = 0
    · simp [hgga, hq]
    · have hok := ggaPosition_ok_iff (F := F) (fields line)
      simp only [hgga, hq, if_true, if_false, ne_eq, not_false_eq_true, true_and, forall_const]
      rw [← hok]
      cases ggaPosition (F := F) (fields line) <;> simp [Except.map]
  · simp only [hgga, if_false, false_imp_iff, iff_true]
    split
    · split <;> exact ⟨_, rfl⟩
    · exact ⟨_, rfl⟩

/-- What gets through has a position if both degrees are there. -/
theorem ggaPosition_isSome {f : List (List Char)} {o : Option (Position F)}
    (ho : ggaPosition f = .ok o) :
    o.isSome ↔ HasDm (field f 2) (field f 3) ∧ HasDm (field f 4) (field f 5) := by
  obtain ⟨hlatFin, hlonFin, _⟩ := (ggaPosition_ok_iff f).1 ⟨o, ho⟩
  obtain ⟨lat, hlatEq, hlatSome⟩ := dmToDeg_ok F hlatFin
  obtain ⟨lon, hlonEq, hlonSome⟩ := dmToDeg_ok F hlonFin
  unfold ggaPosition at ho
  rw [hlatEq, ok_bind, hlonEq, ok_bind] at ho
  rw [← hlatSome, ← hlonSome]
  cases lat with
  | none =>
    cases ho
    simp
  | some lat =>
    cases lon with
    | none =>
      cases ho
      simp
    | some lon =>
      have hsome : ∃ p, o = some p := by
        dsimp only at ho
        split_ifs at ho <;> exact three_ok_some ho
      obtain ⟨p, rfl⟩ := hsome
      simp

/-- What a sentence says, by what it is. -/
theorem read_inv {line : List Char} {x : Sentence F} (hx : Sentence.read line = .ok x) :
    (IsGga (fields line) ∧ ggaQuality (fields line) = 0 ∧ x = .noFix) ∨
      (IsGga (fields line) ∧ ggaQuality (fields line) ≠ 0 ∧
        ∃ o, ggaPosition (fields line) = .ok o ∧ x = o.elim .void .position) ∨
      (¬ IsGga (fields line) ∧ (IsRmc (fields line) ∧ field (fields line) 2 = ['A']) ∧
        x = .motion (rmcMotion (fields line))) ∨
      (¬ IsGga (fields line) ∧ ¬ (IsRmc (fields line) ∧ field (fields line) 2 = ['A']) ∧
        x = .void) := by
  unfold Sentence.read at hx
  dsimp only at hx
  split at hx
  · next hgga =>
    split at hx
    · next hq =>
      cases hx
      exact .inl ⟨hgga, hq, rfl⟩
    · next hq =>
      cases ho : ggaPosition (F := F) (fields line) with
      | error e =>
        rw [ho] at hx
        cases hx
      | ok o =>
        rw [ho] at hx
        cases hx
        exact .inr (.inl ⟨hgga, hq, o, rfl, rfl⟩)
  · next hgga =>
    split at hx
    · next hrmc =>
      split at hx
      · next hA =>
        cases hx
        exact .inr (.inr (.inl ⟨hgga, ⟨hrmc, hA⟩, rfl⟩))
      · next hA =>
        cases hx
        exact .inr (.inr (.inr ⟨hgga, fun h => hA h.2, rfl⟩))
    · next hrmc =>
      cases hx
      exact .inr (.inr (.inr ⟨hgga, fun h => hrmc h.1, rfl⟩))

theorem read_eq_position {line : List Char} {q : Position F}
    (hx : Sentence.read line = .ok (.position q)) : ggaPosition (fields line) = .ok (some q) := by
  obtain ⟨_, _, h⟩ | ⟨_, _, o, ho, h⟩ | ⟨_, _, h⟩ | ⟨_, _, h⟩ := read_inv hx
  · cases h
  · cases o with
    | none => cases h
    | some p =>
      cases h
      exact ho
  · cases h
  · cases h

theorem read_eq_motion {line : List Char} {m : Motion F}
    (hx : Sentence.read line = .ok (.motion m)) : m = rmcMotion (fields line) := by
  obtain ⟨_, _, h⟩ | ⟨_, _, o, _, h⟩ | ⟨_, _, h⟩ | ⟨_, _, h⟩ := read_inv hx
  · cases h
  · cases o <;> cases h
  · cases h
    rfl
  · cases h

/-- A position that can be read is what the sentence says. -/
theorem read_position {line : List Char} {x : Sentence F} (hx : Sentence.read line = .ok x)
    (h : CarriesPosition (fields line)) : ∃ q, x = .position q := by
  obtain ⟨hgga, hq, hlat, hlon⟩ := h
  obtain ⟨_, hzero, _⟩ | ⟨_, _, o, ho, rfl⟩ | ⟨hno, _, _⟩ | ⟨hno, _, _⟩ := read_inv hx
  · exact absurd hzero hq
  · obtain ⟨q, rfl⟩ := Option.isSome_iff_exists.1 ((ggaPosition_isSome ho).2 ⟨hlat, hlon⟩)
    exact ⟨q, rfl⟩
  · exact absurd hgga hno
  · exact absurd hgga hno

/-- A sentence that nothing stands in for changes nothing, or drops the fix. -/
theorem read_cases {line : List Char} {x : Sentence F} (hx : Sentence.read line = .ok x)
    (h : ¬ Defaulted (fields line)) : x = .noFix ∨ x = .void := by
  rw [Defaulted, not_or] at h
  obtain ⟨hcarries, hvalid⟩ := h
  obtain ⟨_, _, rfl⟩ | ⟨hgga, hq, o, ho, rfl⟩ | ⟨_, hA, _⟩ | ⟨_, _, rfl⟩ := read_inv hx
  · exact .inl rfl
  · cases o with
    | none => exact .inr rfl
    | some p =>
      obtain ⟨hlat, hlon⟩ := (ggaPosition_isSome ho).1 rfl
      exact absurd ⟨hgga, hq, hlat, hlon⟩ hcarries
  · exact absurd hA hvalid
  · exact .inr rfl

/-! ## Passes -/

theorem pass_silent (s : ReadLoop F) {p : Pass} (h : heard p = none) :
    ∃ s', pass s p = .ok s' ∧ s'.reader = s.reader := by
  cases p with
  | openFails => exact ⟨s, rfl, rfl⟩
  | readFails => exact ⟨s, rfl, rfl⟩
  | reads now raw =>
    unfold heard at h
    unfold pass
    dsimp only at h ⊢
    split
    · exact ⟨s, rfl, rfl⟩
    · next hdollar =>
      rw [not_not] at hdollar
      split
      · exact ⟨_, rfl, rfl⟩
      · next hsum =>
        simp only [hdollar, true_and] at h
        split at h
        · cases h
        · next hbad => simp [hbad] at hsum

/-- A pass with a sentence is `_consume` on it. -/
theorem pass_heard (s : ReadLoop F) {p : Pass} {f : List (List Char)} (h : heard p = some f) :
    ∃ now raw line, p = .reads now raw ∧ fields line = f ∧
      pass s p = (consume now line s.reader).map fun reader =>
        { s with reader := reader, sentences := s.sentences + 1 } := by
  cases p with
  | openFails => cases h
  | readFails => cases h
  | reads now raw =>
    unfold heard at h
    unfold pass
    dsimp only at h ⊢
    split at h
    · next hline =>
      cases h
      refine ⟨now, raw, _, rfl, rfl, ?_⟩
      rw [if_neg (not_not.2 hline.1), if_neg (by simp [hline.2])]
      rfl
    · cases h

/-- A position is published when its sentence is handled. -/
def Published (_ : ReadLoop F) (p : Pass) (s' : ReadLoop F) : Prop :=
  ∀ now raw f, p = .reads now raw → heard p = some f → CarriesPosition f →
    ∃ d, s'.reader.lastFix = some d ∧ s'.reader.lastT = now ∧
      ggaPosition f = .ok (some d.position)

/-- Each group of `partial` is as it was, or comes whole from the sentence. -/
def Whole (s : ReadLoop F) (p : Pass) (s' : ReadLoop F) : Prop :=
  ∀ f, heard p = some f →
    (s'.reader.partialFix.position = s.reader.partialFix.position ∨
        ∃ q, ggaPosition f = .ok (some q) ∧ s'.reader.partialFix.position = some q) ∧
      (s'.reader.partialFix.motion = s.reader.partialFix.motion ∨
        s'.reader.partialFix.motion = some (rmcMotion f))

/-- A malformed sentence leaves `partial` alone, and `_fix` as well or drops it. -/
def Untouched (s : ReadLoop F) (p : Pass) (s' : ReadLoop F) : Prop :=
  ∀ f, heard p = some f → Malformed f → s'.reader.partialFix = s.reader.partialFix ∧
    (s'.reader.lastFix = s.reader.lastFix ∨ s'.reader.lastFix = none)

theorem pass_ok_iff (s : ReadLoop F) (p : Pass) :
    (∃ s', pass s p = .ok s') ↔ ∀ f, heard p = some f → Readable F f := by
  cases hf : heard p with
  | none =>
    obtain ⟨s', hs', _⟩ := pass_silent s hf
    simp [hs']
  | some f =>
    obtain ⟨now, raw, line, rfl, rfl, hpass⟩ := pass_heard s hf
    rw [hpass, consume_eq]
    simp only [Option.some.injEq, forall_eq']
    rw [← read_ok_iff]
    cases Sentence.read (F := F) line <;> simp [Except.map]

/-- What a pass with a sentence does to the reader. -/
theorem pass_reader {s s' : ReadLoop F} {p : Pass} {f : List (List Char)}
    (h : pass s p = .ok s') (hf : heard p = some f) :
    ∃ now raw line x, p = .reads now raw ∧ fields line = f ∧ Sentence.read line = .ok x ∧
      s'.reader = Sentence.apply now s.reader x := by
  obtain ⟨now, raw, line, hp, hline, hpass⟩ := pass_heard s hf
  rw [hpass] at h
  cases hc : consume now line s.reader with
  | error e =>
    rw [hc] at h
    cases h
  | ok r =>
    rw [hc] at h
    cases h
    obtain ⟨x, hx, hr⟩ := consume_ok hc
    exact ⟨now, raw, line, x, hp, hline, hx, hr⟩

theorem pass_published {s s' : ReadLoop F} {p : Pass} (h : pass s p = .ok s') :
    Published s p s' := by
  intro now raw f hp hf hcarries
  obtain ⟨now', raw', line, x, hp', rfl, hx, hreader⟩ := pass_reader h hf
  rw [hp] at hp'
  cases hp'
  obtain ⟨q, rfl⟩ := read_position hx hcarries
  obtain ⟨d, hd, hpub⟩ := publish_some now (s :=
    { s.reader with partialFix := { s.reader.partialFix with position := some q } }) rfl
  rw [hreader, Sentence.apply, hpub]
  refine ⟨d, rfl, rfl, ?_⟩
  rw [hd]
  exact read_eq_position hx

theorem pass_whole {s s' : ReadLoop F} {p : Pass} (h : pass s p = .ok s') : Whole s p s' := by
  intro f hf
  obtain ⟨now, raw, line, x, -, rfl, hx, hreader⟩ := pass_reader h hf
  rw [hreader]
  cases x with
  | noFix => exact ⟨.inl rfl, .inl rfl⟩
  | void => exact ⟨.inl rfl, .inl rfl⟩
  | position q =>
    rw [Sentence.apply, publish_partialFix]
    exact ⟨.inr ⟨q, read_eq_position hx, rfl⟩, .inl rfl⟩
  | motion m =>
    rw [Sentence.apply, publish_partialFix]
    exact ⟨.inl rfl, .inr (congrArg some (read_eq_motion hx))⟩

theorem pass_untouched {s s' : ReadLoop F} {p : Pass} (h : pass s p = .ok s')
    (hdef : ∀ f, heard p = some f → Malformed f → ¬ Defaulted f) : Untouched s p s' := by
  intro f hf hbad
  obtain ⟨now, raw, line, x, -, rfl, hx, hreader⟩ := pass_reader h hf
  rw [hreader]
  rcases read_cases hx (hdef _ hf hbad) with rfl | rfl
  · exact ⟨rfl, .inr rfl⟩
  · exact ⟨rfl, .inl rfl⟩

/-! ## Runs -/

/-- The thread survives a run exactly when each sentence it hears is readable; then it publishes
each position, and each group of `partial` changes as a whole. A malformed sentence changes nothing,
or drops the fix, if nothing stands in for its fields. -/
theorem withstands (s : ReadLoop F) (ps : List Pass) :
    (EachPass (fun s p s' => Published s p s' ∧ Whole s p s') s ps ↔
        ∀ p ∈ ps, ∀ f, heard p = some f → Readable F f) ∧
      ((∀ p ∈ ps, ∀ f, heard p = some f → Readable F f ∧ (Malformed f → ¬ Defaulted f)) →
        EachPass Untouched s ps) := by
  constructor
  · induction ps generalizing s with
    | nil => simp [EachPass]
    | cons p ps ih =>
      rw [EachPass, List.forall_mem_cons, ← pass_ok_iff s p]
      constructor
      · rintro ⟨s', hs', _, hrest⟩
        exact ⟨⟨s', hs'⟩, (ih s').1 hrest⟩
      · rintro ⟨⟨s', hs'⟩, hrest⟩
        exact ⟨s', hs', ⟨pass_published hs', pass_whole hs'⟩, (ih s').2 hrest⟩
  · induction ps generalizing s with
    | nil => exact fun _ => trivial
    | cons p ps ih =>
      intro h
      obtain ⟨hp, hps⟩ := List.forall_mem_cons.1 h
      obtain ⟨s', hs'⟩ := (pass_ok_iff s p).2 fun f hf => (hp f hf).1
      exact ⟨s', hs', pass_untouched hs' fun f hf => (hp f hf).2, ih s' hps⟩

/-! ## A field of the receiver that is no number -/

def reads (now : ℚ) (line : String) : Pass :=
  .reads now ((line ++ "\r\n").toList.map fun c => UInt8.ofNat c.toNat)

def ggaGood : String := "$GPGGA,120000,4530.00,N,09000.00,W,1,08,1.0,50.0,M*37"

def ggaSatsGarbled : String := "$GPGGA,120000,4530.00,N,09000.00,W,1,XX,1.0,50.0,M*3F"

def ggaLatInf : String := "$GPGGA,120000,inf,N,09000.00,W,1,08,1.0,50.0,M*7A"

def rmcSpeedGarbled : String := "$GPRMC,120010,A,4530.00,N,09000.00,W,x,0.0,010126*54"

def ggaQualityGarbled : String := "$GPGGA,120002,4530.00,N,09000.00,W,x,08,1.0,50.0,M*7C"

def started : ReadLoop Exact :=
  { reader := init
    sentences := 0
    checksumErrors := 0 }

def heardGood : ReadLoop Exact :=
  { reader :=
      { lastFix := some
          { position := ⟨.fin (91 / 2), .fin (-90), 1, 8, .fin 1, .fin 50⟩
            motion := ⟨.fin 0, none⟩
            t := 0 }
        lastT := 0
        partialFix := { position := some ⟨.fin (91 / 2), .fin (-90), 1, 8, .fin 1, .fin 50⟩
                        motion := none } }
    sentences := 1
    checksumErrors := 0 }

theorem pass_ggaGood : pass started (reads 0 ggaGood) = .ok heardGood := by decide +kernel

theorem eachPass_ggaGood {R : ReadLoop Exact → Pass → ReadLoop Exact → Prop} {p : Pass}
    (h : EachPass R started [reads 0 ggaGood, p]) :
    ∃ s', pass heardGood p = .ok s' ∧ R heardGood p s' := by
  obtain ⟨s, hs, -, s', hs', hR, -⟩ := h
  rw [pass_ggaGood] at hs
  cases hs
  exact ⟨s', hs', hR⟩

/-- Satellites that are no number, or an infinite latitude, end the thread; a speed that is no
number becomes a standstill. -/
theorem garbled_sentences :
    (∀ R, ¬ EachPass R started [reads 0 ggaGood, reads 1 ggaSatsGarbled]) ∧
      (∀ R, ¬ EachPass R started [reads 0 ggaGood, reads 1 ggaLatInf]) ∧
        ¬ EachPass Untouched started [reads 0 ggaGood, reads 1 rmcSpeedGarbled] := by
  have hsats : pass heardGood (reads 1 ggaSatsGarbled) = .error .valueError := by decide +kernel
  have hlat : pass heardGood (reads 1 ggaLatInf) = .error .overflowError := by decide +kernel
  have hheard : heard (reads 1 rmcSpeedGarbled) = some (fields rmcSpeedGarbled.toList) := by
    decide +kernel
  have hbad : Malformed (fields rmcSpeedGarbled.toList) :=
    .inr ⟨by decide +kernel, .inr (.inl (by decide +kernel))⟩
  refine ⟨fun R h => ?_, fun R h => ?_, fun h => ?_⟩
  · obtain ⟨s', hs', -⟩ := eachPass_ggaGood h
    rw [hsats] at hs'
    cases hs'
  · obtain ⟨s', hs', -⟩ := eachPass_ggaGood h
    rw [hlat] at hs'
    cases hs'
  · obtain ⟨s', hs', hR⟩ := eachPass_ggaGood h
    have hmotion : (pass heardGood (reads 1 rmcSpeedGarbled)).map (·.reader.partialFix.motion) =
        .ok (some ⟨.fin 0, none⟩) := by decide +kernel
    have hsame := congrArg PartialFix.motion (hR _ hheard hbad).1
    rw [hs'] at hmotion
    cases hsame.symm.trans (Except.ok.inj hmotion)

theorem withstands_garbled_quality :
    EachPass (fun s p s' => Published s p s' ∧ Whole s p s') started
        [reads 0 ggaGood, reads 1 ggaQualityGarbled] ∧
      EachPass Untouched heardGood [reads 1 ggaQualityGarbled] := by
  have hgood := (pass_ok_iff started (reads 0 ggaGood)).1 ⟨heardGood, pass_ggaGood⟩
  have hok : pass heardGood (reads 1 ggaQualityGarbled) = .ok
      { heardGood with
        reader := { heardGood.reader with lastFix := none }
        sentences := 2 } := by decide +kernel
  have hquality := (pass_ok_iff heardGood (reads 1 ggaQualityGarbled)).1 ⟨_, hok⟩
  have hheard : heard (reads 1 ggaQualityGarbled) = some (fields ggaQualityGarbled.toList) := by
    decide +kernel
  have hdef : ¬ Defaulted (fields ggaQualityGarbled.toList) := by
    rintro (⟨-, hq, -⟩ | ⟨hrmc, -⟩)
    · exact hq (by decide +kernel)
    · revert hrmc
      decide +kernel
  refine ⟨(withstands started _).1.2 ?_, (withstands heardGood _).2 ?_⟩
  · rw [List.forall_mem_cons, List.forall_mem_singleton]
    exact ⟨hgood, hquality⟩
  · rw [List.forall_mem_singleton]
    intro f hf
    refine ⟨hquality f hf, fun _ => ?_⟩
    rw [hheard] at hf
    cases hf
    exact hdef

end Gps
end MazdaPort
