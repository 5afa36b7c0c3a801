import Mathlib.Data.Rat.Defs
import Mathlib.Algebra.Order.Ring.Rat
import Mathlib.Tactic.Common

/-!
# MazdaPort.Gps.Nmea

The fields of an NMEA sentence and their conversion: `int` and `float` on ASCII text, and
`_dm_to_deg` of `gps_reader.py`. The arithmetic of `float` is a parameter, `PyFloat`; which texts
it reads, and which values `int` refuses, are not.
-/

namespace MazdaPort
namespace Gps

inductive PyError where
  | valueError
  | overflowError
  deriving DecidableEq, Repr

/-! ## Text -/

def isSpace (c : Char) : Bool := c = ' ' || (9 ≤ c.toNat && c.toNat ≤ 13)

def strip (s : List Char) : List Char :=
  ((s.dropWhile isSpace).reverse.dropWhile isSpace).reverse

def signed : List Char → Bool × List Char
  | '-' :: s => (true, s)
  | '+' :: s => (false, s)
  | s => (false, s)

/-- Underscores stand between digits only, and count for nothing. -/
def ungroup (prev : Char) : List Char → Option (List Char)
  | [] => if prev = '_' then none else some []
  | c :: s =>
    if c = '_' then
      if prev.isDigit then ungroup c s else none
    else if prev = '_' && !c.isDigit then none
    else (ungroup c s).map (c :: ·)

def digits (s : List Char) : Option Nat :=
  if s ≠ [] ∧ s.all Char.isDigit then
    some (s.foldl (fun n c => 10 * n + (c.toNat - '0'.toNat)) 0)
  else none

def withSign (neg : Bool) (n : Nat) : Int := if neg then -(n : Int) else n

/-- `sys.int_info.default_max_str_digits` -/
def maxStrDigits : Nat := 4300

/-- A text with more digits than `maxStrDigits` is refused too. -/
def pyInt (s : List Char) : Except PyError Int :=
  let (neg, s) := signed (strip s)
  match ((ungroup '+' s).filter fun s => s.length ≤ maxStrDigits).bind digits with
  | some n => .ok (withSign neg n)
  | none => .error .valueError

/-! ## Floating point -/

/-- What a text that `float` reads says: a decimal scaled by a power of ten, or a special value. -/
inductive FloatText where
  | decimal (neg : Bool) (mantissa : Nat) (exponent : Int)
  | inf (neg : Bool)
  | nan
  deriving DecidableEq, Repr

def exponentPart : List Char → Option Int
  | [] => some 0
  | c :: s =>
    if c = 'e' || c = 'E' then
      let (neg, s) := signed s
      (digits s).map (withSign neg)
    else none

def decimalText (neg : Bool) (s : List Char) : Option FloatText :=
  let whole := s.takeWhile Char.isDigit
  let (frac, rest) :=
    match s.dropWhile Char.isDigit with
    | '.' :: r => (r.takeWhile Char.isDigit, r.dropWhile Char.isDigit)
    | r => ([], r)
  match digits (whole ++ frac), exponentPart rest with
  | some n, some e => some (.decimal neg n (e - frac.length))
  | _, _ => none

def floatText (s : List Char) : Option FloatText :=
  let (neg, s) := signed (strip s)
  (ungroup '+' s).bind fun s =>
    let lower := s.map Char.toLower
    if lower = "inf".toList ∨ lower = "infinity".toList then some (.inf neg)
    else if lower = "nan".toList then some .nan
    else decimalText neg s

/-- The arithmetic of `float`: any rounding, any treatment of the special values. -/
class PyFloat (F : Type) extends Neg F, Add F, Sub F, Mul F, Div F where
  ofText : FloatText → F
  ofInt : Int → F
  isNan : F → Bool
  isInf : F → Bool
  trunc : F → Int
  lt : F → F → Bool

section

variable {F : Type} [PyFloat F]

def pyFloat (s : List Char) : Except PyError F :=
  match floatText s with
  | some t => .ok (PyFloat.ofText t)
  | none => .error .valueError

def floatToInt (x : F) : Except PyError Int :=
  if PyFloat.isNan x then .error .valueError
  else if PyFloat.isInf x then .error .overflowError
  else .ok (PyFloat.trunc x)

def dmToDeg (value hemi : List Char) : Except PyError (Option F) :=
  if value = [] ∨ hemi = [] then .ok none
  else
    match pyFloat (F := F) value with
    | .error _ => .ok none
    | .ok v => do
      let deg ← floatToInt (v / PyFloat.ofInt 100)
      let minutes := v - PyFloat.ofInt deg * PyFloat.ofInt 100
      let out := PyFloat.ofInt deg + minutes / PyFloat.ofInt 60
      pure (some (if hemi = ['S'] ∨ hemi = ['W'] then -out else out))

end

/-! ## Exact arithmetic -/

/-- Floats without rounding. -/
inductive Exact where
  | fin (q : ℚ)
  | inf (neg : Bool)
  | nan
  deriving DecidableEq

namespace Exact

def neg : Exact → Exact
  | fin q => fin (-q)
  | inf s => inf (!s)
  | nan => nan

def add : Exact → Exact → Exact
  | fin p, fin q => fin (p + q)
  | nan, _ => nan
  | _, nan => nan
  | inf s, inf t => if s = t then inf s else nan
  | inf s, fin _ => inf s
  | fin _, inf t => inf t

def mul : Exact → Exact → Exact
  | fin p, fin q => fin (p * q)
  | nan, _ => nan
  | _, nan => nan
  | inf s, inf t => inf (s != t)
  | inf s, fin q => if q = 0 then nan else inf (s != decide (q < 0))
  | fin p, inf t => if p = 0 then nan else inf (t != decide (p < 0))

def div : Exact → Exact → Exact
  | fin p, fin q => fin (p / q)
  | nan, _ => nan
  | _, nan => nan
  | inf _, inf _ => nan
  | inf s, fin q => inf (s != decide (q < 0))
  | fin _, inf _ => fin 0

def lt : Exact → Exact → Bool
  | fin p, fin q => decide (p < q)
  | inf s, inf t => s && !t
  | inf s, fin _ => s
  | fin _, inf t => !t
  | _, _ => false

instance : PyFloat Exact where
  neg := neg
  add := add
  sub a b := add a (neg b)
  mul := mul
  div := div
  ofText
    | .decimal s n e => fin (withSign s n * (10 : ℚ) ^ e)
    | .inf s => inf s
    | .nan => nan
  ofInt n := fin n
  isNan x := x = nan
  isInf x := x = inf true ∨ x = inf false
  trunc
    | fin q => q.num.tdiv q.den
    | _ => 0
  lt := lt

end Exact

example : dmToDeg "3342.9000".toList "S".toList = .ok (some (Exact.fin (-33.715))) := by
  decide +kernel

example : dmToDeg (F := Exact) "-Infinity".toList "N".toList = .error .overflowError := by
  decide +kernel

end Gps
end MazdaPort
