import MazdaPort.Lib.Montgomery
import MazdaPort.Lib.Words
import Mathlib.Data.List.GetD
import Mathlib.Data.Nat.Size
import Mathlib.Tactic.LinearCombination

/-!
# MazdaPort.Boot.Rsa

`crypto/rsa.c`, which the bootstub checks a signature with, and `get_key_header` of the build, which
writes the keys.

* `number_montMulAdd`: the two interleaved carry chains of `montMulAdd` compute a row of Montgomery
  multiplication, `subM` when it overflows included.
* `rsaVerify_iff`: with the header of an odd modulus of 1024 bits, a signature is accepted exactly
  when its power is the padding with the hash.
-/

namespace MazdaPort
namespace Boot

open Montgomery Words

def rsaNumBytes : Nat := 128

def rsaNumWords : Nat := rsaNumBytes / 4

def shaDigestSize : Nat := 20

structure RSAPublicKey where
  len : Int
  n0inv : UInt32
  n : Vector UInt32 rsaNumWords
  rr : Vector UInt32 rsaNumWords
  exponent : Int
  deriving DecidableEq

namespace RSAPublicKey

variable (key : RSAPublicKey)

/-! ## The functions of the source

`RSA_verify` looks at `len` before it calls them, so their loops run over whole arrays. -/

/-- The loop of `subM`. The last argument is `A`. -/
def subMLoop : List UInt32 → List UInt32 → Int → List UInt32
  | a :: as, n :: ns, A =>
    let A := A + (a.toNat - n.toNat)
    UInt32.ofNat (A % 2 ^ 32).toNat :: subMLoop as ns (A / 2 ^ 32)
  | _, _, _ => []

def subM (a : List UInt32) : List UInt32 := subMLoop a key.n.toList 0

/-- The loop of `geM`. -/
def geMLoop (a n : List UInt32) : Nat → Bool
  | 0 => true
  | i + 1 =>
    if a.getD i 0 < n.getD i 0 then false
    else if a.getD i 0 > n.getD i 0 then true
    else geMLoop a n i

def geM (a : List UInt32) : Bool := geMLoop a key.n.toList rsaNumWords

/-- The loop of `montMulAdd`, with what it leaves in `A` and `B`. -/
def montMulAddLoop (a d0 : UInt32) :
    List UInt32 → List UInt32 → List UInt32 → UInt64 → UInt64 → List UInt32 × UInt64 × UInt64
  | b :: bs, n :: ns, c :: cs, A, B =>
    let A := (A >>> 32) + a.toUInt64 * b.toUInt64 + c.toUInt64
    let B := (B >>> 32) + d0.toUInt64 * n.toUInt64 + A.toUInt32.toUInt64
    let rest := montMulAddLoop a d0 bs ns cs A B
    (B.toUInt32 :: rest.1, rest.2)
  | _, _, _, A, B => ([], A, B)

def montMulAdd (b c : List UInt32) (a : UInt32) : List UInt32 :=
  match b, key.n.toList, c with
  | b0 :: bs, n0 :: ns, c0 :: cs =>
    let A := a.toUInt64 * b0.toUInt64 + c0.toUInt64
    let d0 := A.toUInt32 * key.n0inv
    let B := d0.toUInt64 * n0.toUInt64 + A.toUInt32.toUInt64
    let (low, A, B) := montMulAddLoop a d0 bs ns cs A B
    let A := (A >>> 32) + (B >>> 32)
    let c := low ++ [A.toUInt32]
    if A >>> 32 != 0 then key.subM c else c
  | _, _, _ => c

def montMul (a b : List UInt32) : List UInt32 :=
  a.foldl (key.montMulAdd b) (List.replicate rsaNumWords 0)

/-- `for (i = 0; i < 16; i += 2)`, with the number of passes. -/
def squareLoop : Nat → List UInt32 → List UInt32
  | 0, aR => aR
  | i + 1, aR =>
    let aaR := key.montMul aR aR
    squareLoop i (key.montMul aaR aaR)

/-- Word `i` of a string of `4 * k` bytes. -/
def wordAt (k : Nat) (inout : List UInt8) (i : Nat) : UInt32 :=
  word (inout.getD ((k - 1 - i) * 4 + 0) 0) (inout.getD ((k - 1 - i) * 4 + 1) 0)
    (inout.getD ((k - 1 - i) * 4 + 2) 0) (inout.getD ((k - 1 - i) * 4 + 3) 0)

def wordsOf (k : Nat) (inout : List UInt8) : List UInt32 := (List.range k).map (wordAt k inout)

def modpow (inout : List UInt8) : List UInt8 :=
  let a := wordsOf rsaNumWords inout
  let aaa :=
    if key.exponent = 65537 then
      let aR := key.montMul a key.rr.toList
      let aR := key.squareLoop 8 aR
      key.montMul aR a
    else if key.exponent = 3 then
      let aR := key.montMul a key.rr.toList
      let aaR := key.montMul aR aR
      key.montMul aaR a
    else []
  let aaa := if key.geM aaa then key.subM aaa else aaa
  aaa.reverse.flatMap bytes

def shaPadding1024 : List UInt8 :=
  [0x00, 0x01] ++ List.replicate 105 0xff ++ [0x00] ++ List.replicate shaDigestSize 0

end RSAPublicKey

open RSAPublicKey in
def rsaVerify (key : RSAPublicKey) (signature : List UInt8) (len : Int) (hash : List UInt8)
    (hashLen : Int) : Bool :=
  if key.len ≠ rsaNumWords then false
  else if len ≠ rsaNumBytes then false
  else if hashLen ≠ shaDigestSize then false
  else if key.exponent ≠ 3 ∧ key.exponent ≠ 65537 then false
  else
    let buf := signature.take rsaNumBytes
    let buf := key.modpow buf
    let plain := rsaNumBytes - shaDigestSize
    let buf := buf.take plain ++ List.zipWith (· ^^^ ·) (buf.drop plain) hash
    buf == shaPadding1024

/-! ## `get_key_header` -/

/-- `pow(a, -1, m)`. -/
def modInverse (a m : Nat) : Option Nat :=
  if Nat.gcd a m = 1 then some (Nat.gcdA a m % m).toNat else none

/-- The loop of `to_c_uint32`, with the number of passes. -/
def toCUint32Loop : Nat → Nat → List UInt32
  | 0, _ => []
  | i + 1, x => UInt32.ofNat (x % 2 ^ 32) :: toCUint32Loop i (x / 2 ^ 32)

theorem toCUint32Loop_length (i x : Nat) : (toCUint32Loop i x).length = i := by
  induction i generalizing x with
  | zero => rfl
  | succ i ih => simp [toCUint32Loop, ih]

def toCUint32 (x : Nat) : Vector UInt32 rsaNumWords :=
  ⟨(toCUint32Loop 0x20 x).toArray, by rw [List.size_toArray, toCUint32Loop_length]; rfl⟩

/-- The header of the key with modulus `n` and exponent `e`. -/
def getKeyHeader (n e : Nat) : Option RSAPublicKey :=
  if Nat.size n = 1024 then
    (modInverse n (2 ^ 32)).map fun inv =>
      { len := 0x20
        n0inv := UInt32.ofNat (2 ^ 32 - inv)
        n := toCUint32 n
        rr := toCUint32 ((2 ^ 1024) ^ 2 % n)
        exponent := e }
  else none

namespace RSAPublicKey

/-! ## Subtraction and comparison -/

theorem subMLoop_length {as ns : List UInt32} (h : as.length = ns.length) (A : Int) :
    (subMLoop as ns A).length = as.length := by
  induction as generalizing ns A with
  | nil => simp [subMLoop]
  | cons a as ih =>
    cases ns with
    | nil => cases h
    | cons n ns => simp [subMLoop, ih (Nat.succ.inj h)]

/-- By induction on the words: `A` is what the words before have borrowed. -/
theorem number_subMLoop {as ns : List UInt32} (h : as.length = ns.length) (A : Int) :
    ∃ k : Int, (number (subMLoop as ns A) : Int) =
      number as - number ns + A + (2 ^ 32) ^ as.length * k := by
  induction as generalizing ns A with
  | nil =>
    obtain rfl := List.eq_nil_of_length_eq_zero h.symm
    exact ⟨-A, by simp [subMLoop]⟩
  | cons a as ih =>
    cases ns with
    | nil => cases h
    | cons n ns =>
      let x := A + ((a.toNat : Int) - n.toNat)
      obtain ⟨k, hk⟩ := ih (Nat.succ.inj h) (x / 2 ^ 32)
      refine ⟨k, ?_⟩
      have hlow : ((UInt32.ofNat (x % 2 ^ 32).toNat).toNat : Int) = x % 2 ^ 32 := by
        rw [UInt32.toNat_ofNat']
        omega
      have hsplit := Int.emod_add_mul_ediv x (2 ^ 32)
      rw [subMLoop, number_cons_int, number_cons_int, number_cons_int, hlow, hk, List.length_cons,
        pow_succ (2 ^ 32)]
      linear_combination hsplit

variable {key : RSAPublicKey}

theorem subM_length {a : List UInt32} (ha : a.length = rsaNumWords) :
    (key.subM a).length = rsaNumWords := by
  unfold subM
  rw [subMLoop_length (by simp [ha]), ha]

/-- `subM` finds the difference up to a multiple of `2 ^ 1024`, so it finds one that fits. -/
theorem number_subM {a : List UInt32} (ha : a.length = rsaNumWords) {t : ℕ} {k : ℤ}
    (ht : t < (2 ^ 32) ^ rsaNumWords)
    (h : (t : ℤ) = number a - number key.n.toList + (2 ^ 32) ^ rsaNumWords * k) :
    number (key.subM a) = t := by
  have hlt := number_lt (key.subM a)
  rw [subM_length ha] at hlt
  obtain ⟨k', hk'⟩ := number_subMLoop (show a.length = key.n.toList.length by simp [ha]) 0
  rw [ha, add_zero] at hk'
  have hdiff : (number (key.subM a) : ℤ) = t + (2 ^ 32) ^ rsaNumWords * (k' - k) := by
    unfold subM
    rw [hk', h]
    ring
  have hmod := congrArg (· % ((2 ^ 32) ^ rsaNumWords : ℤ)) hdiff
  simp only [Int.add_mul_emod_self_left] at hmod
  rw [Int.emod_eq_of_lt (by positivity) (by exact_mod_cast hlt),
    Int.emod_eq_of_lt (by positivity) (by exact_mod_cast ht)] at hmod
  exact_mod_cast hmod

theorem geMLoop_iff (a n : List UInt32) {i : ℕ} (ha : i ≤ a.length) (hn : i ≤ n.length) :
    geMLoop a n i = true ↔ number (n.take i) ≤ number (a.take i) := by
  induction i with
  | zero => simp [geMLoop]
  | succ i ih =>
    have hlens : (a.take i).length = (n.take i).length := by
      rw [List.length_take, List.length_take]
      omega
    rw [List.take_succ_eq_append_getElem (by omega), List.take_succ_eq_append_getElem (by omega)]
    unfold geMLoop
    rw [List.getD_eq_getElem a 0 (by omega), List.getD_eq_getElem n 0 (by omega)]
    by_cases hlt : a[i] < n[i]
    · have hless := number_snoc_lt hlens hlt
      simp only [hlt, if_true, Bool.false_eq_true, false_iff]
      omega
    · by_cases hgt : a[i] > n[i]
      · have hmore := number_snoc_lt hlens.symm hgt
        simp only [hlt, hgt, if_true, if_false, true_iff]
        omega
      · have heq : a[i] = n[i] := UInt32.le_antisymm (UInt32.not_lt.1 hgt) (UInt32.not_lt.1 hlt)
        simp only [hlt, hgt, if_false]
        rw [ih (by omega) (by omega), number_append, number_append, heq, hlens]
        omega

theorem geM_iff {a : List UInt32} (ha : a.length = rsaNumWords) :
    key.geM a = true ↔ number key.n.toList ≤ number a := by
  have hn : key.n.toList.length = rsaNumWords := by simp
  unfold geM
  rw [geMLoop_iff a key.n.toList (by omega) (by omega), List.take_of_length_le (by omega),
    List.take_of_length_le (by omega)]

/-! ## A row -/

/-- No column overflows its 64 bits. -/
theorem column_toNat (A : UInt64) (x y z : UInt32) :
    ((A >>> 32) + x.toUInt64 * y.toUInt64 + z.toUInt64).toNat =
      A.toNat / 2 ^ 32 + x.toNat * y.toNat + z.toNat := by
  have hA := A.toNat_lt
  have hz := z.toNat_lt
  have hxy : x.toNat * y.toNat ≤ (2 ^ 32 - 1) * (2 ^ 32 - 1) :=
    Nat.mul_le_mul (Nat.le_sub_one_of_lt x.toNat_lt) (Nat.le_sub_one_of_lt y.toNat_lt)
  simp only [UInt64.toNat_add, UInt64.toNat_mul, UInt64.toNat_shiftRight, UInt32.toNat_toUInt64,
    Nat.shiftRight_eq_div_pow, UInt64.reduceToNat, Nat.reduceMod, Nat.reducePow, Nat.reduceSub,
    Nat.reduceMul] at *
  rw [Nat.mod_eq_of_lt (a := x.toNat * y.toNat) (by omega)]
  omega

theorem firstColumn_toNat (x y z : UInt32) :
    (x.toUInt64 * y.toUInt64 + z.toUInt64).toNat = x.toNat * y.toNat + z.toNat := by
  have h := column_toNat 0 x y z
  simpa using h

/-- What the two chains carry and store adds up to the columns, by induction on the words. -/
theorem montMulAddLoop_spec (a d0 : UInt32) {bs ns cs : List UInt32} (hn : ns.length = bs.length)
    (hc : cs.length = bs.length) (A B : UInt64) :
    let r := montMulAddLoop a d0 bs ns cs A B
    r.1.length = bs.length ∧
      number r.1 + (2 ^ 32) ^ bs.length * (r.2.1.toNat / 2 ^ 32 + r.2.2.toNat / 2 ^ 32) =
        A.toNat / 2 ^ 32 + B.toNat / 2 ^ 32 + a.toNat * number bs + number cs +
          d0.toNat * number ns := by
  induction bs generalizing ns cs A B with
  | nil =>
    obtain rfl := List.eq_nil_of_length_eq_zero hn
    obtain rfl := List.eq_nil_of_length_eq_zero hc
    simp [montMulAddLoop]
  | cons b bs ih =>
    cases ns with
    | nil => cases hn
    | cons n ns =>
      cases cs with
      | nil => cases hc
      | cons c cs =>
        let A' := (A >>> 32) + a.toUInt64 * b.toUInt64 + c.toUInt64
        let B' := (B >>> 32) + d0.toUInt64 * n.toUInt64 + A'.toUInt32.toUInt64
        have hA' : A'.toNat = A.toNat / 2 ^ 32 + a.toNat * b.toNat + c.toNat :=
          column_toNat A a b c
        have hB' : B'.toNat = B.toNat / 2 ^ 32 + d0.toNat * n.toNat + A'.toNat % 2 ^ 32 :=
          column_toNat B d0 n A'.toUInt32
        obtain ⟨hlen, hsum⟩ := ih (Nat.succ.inj hn) (Nat.succ.inj hc) A' B'
        have hlow : B'.toUInt32.toNat = B'.toNat % 2 ^ 32 := UInt64.toNat_toUInt32 B'
        have hAsplit := Nat.mod_add_div A'.toNat (2 ^ 32)
        have hBsplit := Nat.mod_add_div B'.toNat (2 ^ 32)
        have hstep : montMulAddLoop a d0 (b :: bs) (n :: ns) (c :: cs) A B =
            (B'.toUInt32 :: (montMulAddLoop a d0 bs ns cs A' B').1,
              (montMulAddLoop a d0 bs ns cs A' B').2) := rfl
        rw [hstep]
        refine ⟨congrArg Nat.succ hlen, ?_⟩
        have hscaled := congrArg (2 ^ 32 * ·) hsum
        dsimp only at hscaled ⊢
        clear_value A' B'
        rw [number_cons, number_cons, number_cons, number_cons, hlow, List.length_cons,
          pow_succ (2 ^ 32)]
        linarith only [hscaled, hAsplit, hBsplit, hA', hB']

theorem exists_cons {ws : List UInt32} (h : ws.length = rsaNumWords) :
    ∃ w rest, ws = w :: rest ∧ rest.length = 31 := by
  cases ws with
  | nil => cases h
  | cons w rest => exact ⟨w, rest, rfl, Nat.succ.inj h⟩

/-- The sum before `subM`: the columns, the lowest of which is cleared, without it. -/
theorem montMulAdd_sum {N : ℕ} (a b0 c0 : UInt32) {n0 n0inv : UInt32} {bs cs ns : List UInt32}
    (hinv : 2 ^ 32 ∣ N * n0inv.toNat + 1) (hN : number (n0 :: ns) = N) (hbs : bs.length = 31)
    (hcs : cs.length = 31) (hns : ns.length = 31) :
    let A := a.toUInt64 * b0.toUInt64 + c0.toUInt64
    let d0 := A.toUInt32 * n0inv
    let r := montMulAddLoop a d0 bs ns cs A (d0.toUInt64 * n0.toUInt64 + A.toUInt32.toUInt64)
    r.1.length = 31 ∧
      number r.1 + (2 ^ 32) ^ 31 * (r.2.1.toNat / 2 ^ 32 + r.2.2.toNat / 2 ^ 32) =
        reduce (2 ^ 32) N n0inv.toNat (number (c0 :: cs) + a.toNat * number (b0 :: bs)) := by
  intro A d0 r
  let B := d0.toUInt64 * n0.toUInt64 + A.toUInt32.toUInt64
  have hA : A.toNat = a.toNat * b0.toNat + c0.toNat := firstColumn_toNat a b0 c0
  have hAlow : A.toUInt32.toNat = A.toNat % 2 ^ 32 := UInt64.toNat_toUInt32 A
  have hB : B.toNat = d0.toNat * n0.toNat + A.toNat % 2 ^ 32 := by
    rw [← hAlow]
    exact firstColumn_toNat d0 n0 A.toUInt32
  obtain ⟨hlen, hsum⟩ := montMulAddLoop_spec a d0 (hns.trans hbs.symm) (hcs.trans hbs.symm) A B
  rw [hbs] at hlen hsum
  refine ⟨hlen, ?_⟩
  have ht : number (c0 :: cs) + a.toNat * number (b0 :: bs) =
      A.toNat + 2 ^ 32 * (number cs + a.toNat * number bs) := by
    rw [number_cons, number_cons, hA]
    ring
  have hd0 : d0.toNat = quotient (2 ^ 32) n0inv.toNat (number (c0 :: cs) + a.toNat * number (b0 :: bs)) := by
    unfold quotient
    rw [ht, Nat.add_mul_mod_self_left, ← hAlow]
    exact UInt32.toNat_mul A.toUInt32 n0inv
  -- the lowest column is cleared
  have hclear : B.toNat % 2 ^ 32 = 0 := by
    have hdvd := dvd_add_quotient hinv (number (c0 :: cs) + a.toNat * number (b0 :: bs))
    rw [← hd0, ht, ← hN, number_cons] at hdvd
    have hcolumns : A.toNat + 2 ^ 32 * (number cs + a.toNat * number bs) +
        d0.toNat * (n0.toNat + 2 ^ 32 * number ns) =
        B.toNat + 2 ^ 32 * (A.toNat / 2 ^ 32 + (number cs + a.toNat * number bs) +
          d0.toNat * number ns) := by
      have hsplit := Nat.mod_add_div A.toNat (2 ^ 32)
      rw [hB]
      linarith only [hsplit]
    rw [hcolumns] at hdvd
    exact Nat.mod_eq_zero_of_dvd ((Nat.dvd_add_left (Nat.dvd_mul_right _ _)).1 hdvd)
  refine (Nat.eq_of_mul_eq_mul_left (Nat.two_pow_pos 32) ?_).symm
  rw [mul_reduce hinv, ← hd0, ht, ← hN, number_cons]
  have hAsplit := Nat.mod_add_div A.toNat (2 ^ 32)
  have hBsplit := Nat.mod_add_div B.toNat (2 ^ 32)
  have hscaled := congrArg (2 ^ 32 * ·) hsum
  rw [hclear] at hBsplit
  linarith only [hscaled, hAsplit, hBsplit, hB]

/-- The end of `montMulAdd`: the word above the others, and `subM` when it overflows. -/
theorem number_carryOut {N t : ℕ} (hN : number key.n.toList = N) {low : List UInt32}
    (hlen : low.length = 31) {T : UInt64} (hsum : number low + (2 ^ 32) ^ 31 * T.toNat = t)
    (ht : t < (2 ^ 32) ^ rsaNumWords + N) :
    let c := low ++ [T.toUInt32]
    let c' := if T >>> 32 != 0 then key.subM c else c
    c'.length = rsaNumWords ∧ number c' = if t < (2 ^ 32) ^ rsaNumWords then t else t - N := by
  intro c
  have hNR := number_lt key.n.toList
  rw [Vector.length_toList, hN] at hNR
  have hword : T.toUInt32.toNat = T.toNat % 2 ^ 32 := UInt64.toNat_toUInt32 T
  have hcarry : (T >>> 32).toNat = T.toNat / 2 ^ 32 := by
    simp only [UInt64.toNat_shiftRight, Nat.shiftRight_eq_div_pow, UInt64.reduceToNat,
      Nat.reduceMod]
  have hclen : c.length = rsaNumWords := by
    rw [List.length_append, hlen]
    rfl
  have hnumber : number c + (2 ^ 32) ^ rsaNumWords * (T.toNat / 2 ^ 32) = t := by
    have hsplit := Nat.mod_add_div T.toNat (2 ^ 32)
    have hpow : (2 ^ 32) ^ rsaNumWords = (2 ^ 32) ^ 31 * 2 ^ 32 := rfl
    rw [number_append, hlen, number_cons, number_nil, hword, hpow, ← hsum]
    linear_combination (2 ^ 32) ^ 31 * hsplit
  have hfits := number_lt c
  rw [hclen] at hfits
  by_cases hzero : T.toNat / 2 ^ 32 = 0
  · have hno : (T >>> 32 != 0) = false := by
      rw [bne_eq_false_iff_eq]
      exact UInt64.toNat_inj.1 (hcarry.trans hzero)
    rw [hzero, Nat.mul_zero, Nat.add_zero] at hnumber
    rw [hno, if_neg (by decide), ← hnumber, if_pos hfits]
    exact ⟨hclen, rfl⟩
  · have hyes : (T >>> 32 != 0) = true := by
      rw [bne_iff_ne]
      intro h
      rw [h] at hcarry
      exact hzero hcarry.symm
    have hone : T.toNat / 2 ^ 32 = 1 := by
      have hle : (2 ^ 32) ^ rsaNumWords * (T.toNat / 2 ^ 32) < (2 ^ 32) ^ rsaNumWords * 2 := by
        omega
      have h2 := Nat.lt_of_mul_lt_mul_left hle
      omega
    rw [hone, Nat.mul_one] at hnumber
    rw [hyes, if_pos rfl, if_neg (by omega)]
    refine ⟨subM_length hclen, number_subM (k := 1) hclen (by omega) ?_⟩
    rw [hN, ← hnumber, Nat.cast_sub (by omega), Nat.cast_add, Nat.cast_pow, Nat.cast_pow,
      Nat.cast_ofNat]
    ring

theorem number_montMulAdd {N : ℕ} (hN : number key.n.toList = N)
    (hinv : 2 ^ 32 ∣ N * key.n0inv.toNat + 1) {b c : List UInt32} (hb : b.length = rsaNumWords)
    (hc : c.length = rsaNumWords) (a : UInt32) :
    (key.montMulAdd b c a).length = rsaNumWords ∧
      number (key.montMulAdd b c a) =
        row (2 ^ 32) N key.n0inv.toNat ((2 ^ 32) ^ rsaNumWords) (number b) (number c) a.toNat := by
  have hbR := number_lt b
  have hcR := number_lt c
  rw [hb] at hbR
  rw [hc] at hcR
  have hbound := reduce_lt hinv (Nat.two_pow_pos 32) a.toNat_lt hbR hcR
  obtain ⟨b0, bs, rfl, hbs⟩ := exists_cons hb
  obtain ⟨c0, cs, rfl, hcs⟩ := exists_cons hc
  obtain ⟨n0, ns, hn, hns⟩ := exists_cons (show key.n.toList.length = rsaNumWords by simp)
  obtain ⟨hlen, hsum⟩ :=
    montMulAdd_sum a b0 c0 hinv (by rw [← hn, hN]) hbs hcs hns
  unfold montMulAdd
  rw [hn]
  dsimp only
  generalize montMulAddLoop a _ bs ns cs _ _ = r at hlen hsum
  obtain ⟨low, A, B⟩ := r
  dsimp only at hlen hsum ⊢
  have htop : ((A >>> 32) + (B >>> 32)).toNat = A.toNat / 2 ^ 32 + B.toNat / 2 ^ 32 := by
    have hA := A.toNat_lt
    have hB := B.toNat_lt
    simp only [UInt64.toNat_add, UInt64.toNat_shiftRight, Nat.shiftRight_eq_div_pow,
      UInt64.reduceToNat, Nat.reduceMod, Nat.reducePow]
    omega
  rw [← htop] at hsum
  exact number_carryOut hN hlen hsum hbound

/-! ## Products -/

/-- What `get_key_header` promises of the words of a key with the modulus `N`. -/
structure Sound (key : RSAPublicKey) (N : ℕ) : Prop where
  modulus : number key.n.toList = N
  inverse : 2 ^ 32 ∣ N * key.n0inv.toNat + 1
  square : number key.rr.toList = ((2 ^ 32) ^ rsaNumWords) ^ 2 % N

section Products

variable {N : ℕ} (h : Sound key N)
include h

/-- By induction on the words of the first factor. -/
theorem number_rows {b : List UInt32} (hb : b.length = rsaNumWords) (as : List UInt32)
    {c : List UInt32} (hc : c.length = rsaNumWords) :
    (as.foldl (key.montMulAdd b) c).length = rsaNumWords ∧
      number (as.foldl (key.montMulAdd b) c) =
        (as.map UInt32.toNat).foldl
          (row (2 ^ 32) N key.n0inv.toNat ((2 ^ 32) ^ rsaNumWords) (number b)) (number c) := by
  induction as generalizing c with
  | nil => exact ⟨hc, rfl⟩
  | cons a as ih =>
    obtain ⟨hlen, hnumber⟩ := number_montMulAdd h.modulus h.inverse hb hc a
    rw [List.foldl_cons, List.map_cons, List.foldl_cons, ← hnumber]
    exact ih hlen

theorem montMul_length (a : List UInt32) {b : List UInt32} (hb : b.length = rsaNumWords) :
    (key.montMul a b).length = rsaNumWords :=
  (number_rows h hb a List.length_replicate).1

/-- A product, with one factor of `2 ^ 1024` less. -/
theorem montMul_zmod {a b : List UInt32} (ha : a.length = rsaNumWords)
    (hb : b.length = rsaNumWords) :
    (((2 ^ 32) ^ rsaNumWords : ℕ) : ZMod N) * number (key.montMul a b) = number a * number b := by
  have hnR := number_lt key.n.toList
  rw [Vector.length_toList, h.modulus] at hnR
  have hrows := rows_modEq h.inverse hnR.le (number b) (a.map UInt32.toNat) 0
  have hzero : number (List.replicate rsaNumWords 0) = 0 := number_zeros rsaNumWords
  unfold montMul
  rw [(number_rows h hb a List.length_replicate).2, hzero]
  rw [List.length_map, ha, Nat.zero_add] at hrows
  have hcast := (ZMod.natCast_eq_natCast_iff _ _ _).2 hrows
  rw [Nat.cast_mul, Nat.cast_mul] at hcast
  exact hcast

theorem montMul_square {x : ZMod N} (hr : IsUnit (((2 ^ 32) ^ rsaNumWords : ℕ) : ZMod N))
    {v : List UInt32} (hv : v.length = rsaNumWords) {k : ℕ}
    (hx : (number v : ZMod N) = x ^ k * ((2 ^ 32) ^ rsaNumWords : ℕ)) :
    (number (key.montMul v v) : ZMod N) = x ^ (2 * k) * ((2 ^ 32) ^ rsaNumWords : ℕ) :=
  mont_square hr hx (montMul_zmod h hv hv)

/-- Every pass squares twice. -/
theorem squareLoop_spec {x : ZMod N} (hr : IsUnit (((2 ^ 32) ^ rsaNumWords : ℕ) : ZMod N)) (i : ℕ)
    {v : List UInt32} (hv : v.length = rsaNumWords) {k : ℕ}
    (hx : (number v : ZMod N) = x ^ k * ((2 ^ 32) ^ rsaNumWords : ℕ)) :
    (key.squareLoop i v).length = rsaNumWords ∧
      (number (key.squareLoop i v) : ZMod N) = x ^ (4 ^ i * k) * ((2 ^ 32) ^ rsaNumWords : ℕ) := by
  induction i generalizing v k with
  | zero =>
    refine ⟨hv, ?_⟩
    rw [pow_zero, one_mul]
    exact hx
  | succ i ih =>
    have hlen := montMul_length h v hv
    have honce := montMul_square h hr hv hx
    have htwice := montMul_square h hr hlen honce
    obtain ⟨hlen', hi⟩ := ih (montMul_length h _ hlen) htwice
    have hexp : 4 ^ i * (2 * (2 * k)) = 4 ^ (i + 1) * k := by ring
    rw [hexp] at hi
    rw [squareLoop]
    exact ⟨hlen', hi⟩

end Products

/-! ## The power -/

theorem wordsOf_length (k : ℕ) (inout : List UInt8) : (wordsOf k inout).length = k := by
  simp [wordsOf]

theorem wordAt_below {k i : ℕ} (hi : i < k) (b0 b1 b2 b3 : UInt8) (rest : List UInt8) :
    wordAt (k + 1) (b0 :: b1 :: b2 :: b3 :: rest) i = wordAt k rest i := by
  have hget : ∀ j, (b0 :: b1 :: b2 :: b3 :: rest).getD ((k + 1 - 1 - i) * 4 + j) 0 =
      rest.getD ((k - 1 - i) * 4 + j) 0 := by
    intro j
    have hidx : (k + 1 - 1 - i) * 4 + j = (k - 1 - i) * 4 + j + 4 := by omega
    rw [hidx]
    rfl
  unfold wordAt
  rw [hget 0, hget 1, hget 2, hget 3]

theorem wordAt_top (k : ℕ) (b0 b1 b2 b3 : UInt8) (rest : List UInt8) :
    wordAt (k + 1) (b0 :: b1 :: b2 :: b3 :: rest) k = word b0 b1 b2 b3 := by
  have hidx : k + 1 - 1 - k = 0 := by omega
  unfold wordAt
  rw [hidx]
  rfl

/-- By induction on the words: the first four bytes are the word on top. -/
theorem number_wordsOf (k : ℕ) {inout : List UInt8} (hlen : inout.length = 4 * k) :
    number (wordsOf k inout) = ofBytes inout := by
  induction k generalizing inout with
  | zero =>
    obtain rfl := List.eq_nil_of_length_eq_zero hlen
    rfl
  | succ k ih =>
    obtain ⟨b0, b1, b2, b3, rest, rfl⟩ : ∃ b0 b1 b2 b3 rest, inout = b0 :: b1 :: b2 :: b3 :: rest := by
      match inout, hlen with
      | b0 :: b1 :: b2 :: b3 :: rest, _ => exact ⟨b0, b1, b2, b3, rest, rfl⟩
    have hrest : rest.length = 4 * k := by
      simp only [List.length_cons] at hlen
      omega
    have hsplit : wordsOf (k + 1) (b0 :: b1 :: b2 :: b3 :: rest) =
        wordsOf k rest ++ [word b0 b1 b2 b3] := by
      unfold wordsOf
      have hlow : (List.range k).map (wordAt (k + 1) (b0 :: b1 :: b2 :: b3 :: rest)) =
          (List.range k).map (wordAt k rest) :=
        List.map_congr_left fun i hi => wordAt_below (List.mem_range.1 hi) b0 b1 b2 b3 rest
      rw [List.range_succ, List.map_append, List.map_singleton, wordAt_top, hlow]
    have hbytes := ofBytes_append [b0, b1, b2, b3] rest
    rw [List.cons_append, List.cons_append, List.cons_append, List.cons_append, List.nil_append,
      hrest] at hbytes
    have hpow : 256 ^ (4 * k) = (2 ^ 32) ^ k := by
      rw [pow_mul]
      rfl
    rw [hsplit, number_append, ih hrest, wordsOf_length, number_cons, number_nil, word_toNat, hbytes,
      hpow, Nat.mul_zero, Nat.add_zero, Nat.add_comm, Nat.mul_comm]

/-- `geM` and `subM` at the end take off the modulus once, which is enough for a modulus with its
top bit set. -/
theorem number_reduced {N : ℕ} (hN : number key.n.toList = N)
    (htop : (2 ^ 32) ^ rsaNumWords ≤ 2 * N) {v : List UInt32} (hv : v.length = rsaNumWords) :
    let w := if key.geM v then key.subM v else v
    w.length = rsaNumWords ∧ number w = number v % N := by
  intro w
  have hlt := number_lt v
  rw [hv] at hlt
  by_cases hge : N ≤ number v
  · have hyes : key.geM v = true := (geM_iff hv).2 (hN.trans_le hge)
    have hw : w = key.subM v := if_pos hyes
    rw [hw]
    refine ⟨subM_length hv, number_subM (k := 0) hv ?_ ?_⟩
    · exact (Nat.mod_le _ _).trans_lt hlt
    · rw [Nat.mod_eq_sub_mod hge, Nat.mod_eq_of_lt (by omega), Nat.cast_sub hge, hN]
      ring
  · have hno : ¬ key.geM v = true := by
      intro h
      rw [geM_iff hv, hN] at h
      exact hge h
    have hw : w = v := if_neg hno
    rw [hw]
    exact ⟨hv, (Nat.mod_eq_of_lt (Nat.not_le.1 hge)).symm⟩

theorem ofBytes_modpow {N : ℕ} (h : Sound key N) (hodd : Odd N)
    (htop : (2 ^ 32) ^ rsaNumWords ≤ 2 * N) {e : ℕ} (he : e = 3 ∨ e = 65537)
    (hexp : key.exponent = e) {inout : List UInt8} (hlen : inout.length = rsaNumBytes) :
    (key.modpow inout).length = rsaNumBytes ∧
      ofBytes (key.modpow inout) = ofBytes inout ^ e % N := by
  let r : ZMod N := ((2 ^ 32) ^ rsaNumWords : ℕ)
  let x : ZMod N := (ofBytes inout : ℕ)
  let a := wordsOf rsaNumWords inout
  have hr : IsUnit r := by
    refine (ZMod.isUnit_iff_coprime _ _).2 (Nat.Coprime.pow_left _ (Nat.Coprime.pow_left _ ?_))
    exact (Nat.coprime_two_left).2 hodd
  have ha : a.length = rsaNumWords := wordsOf_length _ _
  have hax : (number a : ZMod N) = x := by
    rw [number_wordsOf rsaNumWords hlen]
  have hrr : key.rr.toList.length = rsaNumWords := by simp
  -- the form of the signature
  have haR : (number (key.montMul a key.rr.toList) : ZMod N) = x ^ 1 * r := by
    refine hr.mul_left_cancel ((montMul_zmod h ha hrr).trans ?_)
    rw [hax, h.square, ZMod.natCast_mod, Nat.cast_pow]
    ring
  have haRlen : (key.montMul a key.rr.toList).length = rsaNumWords := montMul_length h a hrr
  obtain ⟨v, hv, hvx, hmod⟩ : ∃ v : List UInt32, v.length = rsaNumWords ∧
      (number v : ZMod N) = x ^ e ∧
        key.modpow inout = (if key.geM v then key.subM v else v).reverse.flatMap bytes := by
    rcases he with rfl | rfl
    · have hne : ¬ key.exponent = 65537 := by
        rw [hexp]
        decide
      have hsquare := montMul_square h hr haRlen haR
      have hlen' := montMul_length h (key.montMul a key.rr.toList) haRlen
      refine ⟨key.montMul (key.montMul (key.montMul a key.rr.toList) (key.montMul a key.rr.toList)) a,
        montMul_length h _ ha, mont_finish hr hsquare ?_, ?_⟩
      · rw [montMul_zmod h hlen' ha, hax]
      · have h3 : key.exponent = 3 := hexp
        simp only [modpow, if_neg hne, if_pos h3, a]
    · obtain ⟨hlen', hsquares⟩ := squareLoop_spec h hr 8 haRlen haR
      refine ⟨key.montMul (key.squareLoop 8 (key.montMul a key.rr.toList)) a,
        montMul_length h _ ha, mont_finish hr hsquares ?_, ?_⟩
      · rw [montMul_zmod h hlen' ha, hax]
      · have h65537 : key.exponent = 65537 := hexp
        simp only [modpow, if_pos h65537, a]
  obtain ⟨hwlen, hw⟩ := number_reduced h.modulus htop hv
  rw [hmod]
  refine ⟨?_, ?_⟩
  · simp [List.length_flatMap, hwlen, rsaNumBytes, rsaNumWords]
  · rw [ofBytes_flatMap_bytes, hw]
    refine (ZMod.natCast_eq_natCast_iff' _ _ _).1 ?_
    rw [hvx, Nat.cast_pow]

end RSAPublicKey

/-! ## The header of a key -/

theorem modInverse_spec {a m inv : ℕ} (hm : 1 < m) (h : modInverse a m = some inv) :
    a * inv ≡ 1 [MOD m] ∧ inv < m ∧ 0 < inv := by
  unfold modInverse at h
  split at h
  · next hgcd =>
    cases h
    have hpos : (0 : ℤ) < m := by omega
    have hnn := Int.emod_nonneg (Nat.gcdA a m) hpos.ne'
    have hlt := Int.emod_lt_of_pos (Nat.gcdA a m) hpos
    have hbezout := Nat.gcd_eq_gcd_ab a m
    rw [hgcd] at hbezout
    have hmod : a * (Nat.gcdA a m % m).toNat ≡ 1 [MOD m] := by
      refine Int.natCast_modEq_iff.1 ?_
      rw [Nat.cast_mul, Int.toNat_of_nonneg hnn]
      calc (a : ℤ) * (Nat.gcdA a m % m)
          ≡ a * Nat.gcdA a m [ZMOD m] := (Int.mod_modEq _ _).mul_left _
        _ ≡ a * Nat.gcdA a m + m * Nat.gcdB a m [ZMOD m] := by
            exact (Int.modEq_iff_dvd).2 ⟨Nat.gcdB a m, by ring⟩
        _ = ((1 : ℕ) : ℤ) := hbezout.symm
    refine ⟨hmod, by omega, ?_⟩
    rcases Nat.eq_zero_or_pos (Nat.gcdA a m % m).toNat with hzero | hpos'
    · rw [hzero, Nat.mul_zero] at hmod
      have hone := hmod.symm
      rw [Nat.ModEq, Nat.zero_mod, Nat.mod_eq_of_lt hm] at hone
      cases hone
    · exact hpos'
  · cases h

theorem number_toCUint32Loop (i x : ℕ) : number (toCUint32Loop i x) = x % (2 ^ 32) ^ i := by
  induction i generalizing x with
  | zero => rw [toCUint32Loop, number_nil, pow_zero, Nat.mod_one]
  | succ i ih =>
    have hword : (UInt32.ofNat (x % 2 ^ 32)).toNat = x % 2 ^ 32 := by
      rw [UInt32.toNat_ofNat', Nat.mod_mod]
    rw [toCUint32Loop, number_cons, ih, hword, pow_succ' (2 ^ 32), Nat.mod_mul]

theorem number_toCUint32 {x : ℕ} (hx : x < (2 ^ 32) ^ rsaNumWords) :
    number (toCUint32 x).toList = x := by
  have hloop := number_toCUint32Loop rsaNumWords x
  rw [Nat.mod_eq_of_lt hx] at hloop
  exact hloop

theorem radix_eq : (2 ^ 32) ^ rsaNumWords = 2 ^ (1023 + 1) := by
  have hbits : 32 * rsaNumWords = 1023 + 1 := rfl
  rw [← pow_mul, hbits]

theorem size_eq_iff {n k : ℕ} : Nat.size n = k + 1 ↔ 2 ^ k ≤ n ∧ n < 2 ^ (k + 1) := by
  rw [← Nat.lt_size, ← Nat.size_le]
  omega

/-- The header of a modulus that has one: the modulus is odd, its top bit is set, and the words are
those that the products need. -/
theorem getKeyHeader_sound {N e : ℕ} {key : RSAPublicKey} (h : getKeyHeader N e = some key) :
    key.Sound N ∧ Odd N ∧ (2 ^ 32) ^ rsaNumWords ≤ 2 * N ∧ key.len = rsaNumWords ∧
      key.exponent = e := by
  unfold getKeyHeader at h
  split at h
  · next hsize =>
    obtain ⟨inv, hinv, rfl⟩ := Option.map_eq_some_iff.1 h
    obtain ⟨hmod, hlt, hpos⟩ := modInverse_spec (by decide) hinv
    obtain ⟨htop, hbelow⟩ := size_eq_iff.1 hsize
    rw [← radix_eq] at hbelow
    have hodd : Odd N := by
      rcases Nat.even_or_odd N with heven | hodd
      · obtain ⟨k, rfl⟩ := heven
        have h2 : (k + k) * inv ≡ 1 [MOD 2] := hmod.of_dvd (by decide)
        have heq : (k + k) * inv = 2 * (k * inv) := by ring
        rw [Nat.ModEq, heq, Nat.mul_mod_right] at h2
        cases h2
      · exact hodd
    have hNpos : 0 < N := hodd.pos
    refine ⟨⟨number_toCUint32 hbelow, ?_, ?_⟩, hodd, ?_, rfl, rfl⟩
    · have hword : (UInt32.ofNat (2 ^ 32 - inv)).toNat = 2 ^ 32 - inv := by
        rw [UInt32.toNat_ofNat']
        exact Nat.mod_eq_of_lt (by omega)
      rw [hword]
      have hsum : N * (2 ^ 32 - inv) + N * inv = 2 ^ 32 * N := by
        rw [← Nat.mul_add, Nat.sub_add_cancel hlt.le, Nat.mul_comm]
      have hzero : N * (2 ^ 32 - inv) + 1 ≡ 0 [MOD 2 ^ 32] := by
        refine (hmod.symm.add_left (N * (2 ^ 32 - inv))).trans ?_
        rw [hsum]
        exact (Nat.modEq_zero_iff_dvd).2 (Nat.dvd_mul_right _ _)
      exact (Nat.modEq_zero_iff_dvd).1 hzero
    · rw [number_toCUint32 ((Nat.mod_lt _ hNpos).trans hbelow), radix_eq]
    · rw [radix_eq, pow_succ']
      exact Nat.mul_le_mul_left 2 htop
  · cases h

/-! ## The verdict -/

/-- The padding of the source with the hash in its place. -/
def paddedHash (hash : List UInt8) : List UInt8 :=
  [0x00, 0x01] ++ List.replicate 105 0xff ++ [0x00] ++ hash

theorem zipWith_xor_eq_zeros {xs ys : List UInt8} (hlen : xs.length = ys.length) :
    List.zipWith (· ^^^ ·) xs ys = List.replicate xs.length 0 ↔ xs = ys := by
  induction xs generalizing ys with
  | nil => simpa using (List.eq_nil_of_length_eq_zero hlen.symm).symm
  | cons x xs ih =>
    cases ys with
    | nil => cases hlen
    | cons y ys =>
      rw [List.zipWith_cons_cons, List.length_cons, List.replicate_succ, List.cons.injEq,
        List.cons.injEq, ih (Nat.succ.inj hlen), UInt8.xor_eq_zero_iff]

theorem shaPadding_iff {buf hash : List UInt8} (hbuf : buf.length = rsaNumBytes)
    (hhash : hash.length = shaDigestSize) :
    buf.take (rsaNumBytes - shaDigestSize) ++
        List.zipWith (· ^^^ ·) (buf.drop (rsaNumBytes - shaDigestSize)) hash =
      RSAPublicKey.shaPadding1024 ↔ buf = paddedHash hash := by
  have hdrop : (buf.drop (rsaNumBytes - shaDigestSize)).length = shaDigestSize := by
    rw [List.length_drop, hbuf]
    rfl
  have htake : (buf.take (rsaNumBytes - shaDigestSize)).length =
      ([0x00, 0x01] ++ List.replicate 105 0xff ++ [(0x00 : UInt8)]).length := by
    rw [List.length_take, hbuf]
    rfl
  have hsplit : buf = paddedHash hash ↔
      buf.take (rsaNumBytes - shaDigestSize) ++ buf.drop (rsaNumBytes - shaDigestSize) =
        paddedHash hash := by rw [List.take_append_drop]
  have hzeros := zipWith_xor_eq_zeros (hdrop.trans hhash.symm)
  rw [hdrop] at hzeros
  rw [hsplit]
  unfold RSAPublicKey.shaPadding1024 paddedHash
  constructor
  · intro h
    obtain ⟨hpre, hrest⟩ := List.append_inj h htake
    rw [hpre, hzeros.1 hrest]
  · intro h
    obtain ⟨hpre, hrest⟩ := List.append_inj h htake
    rw [hpre, hzeros.2 hrest]

/-- With a key that the build has written, a signature of 128 bytes is accepted exactly when the
exponent is one of the two and the power of the signature is the padding with the hash. -/
theorem rsaVerify_iff {N e : ℕ} {key : RSAPublicKey} (hkey : getKeyHeader N e = some key)
    {signature hash : List UInt8} (hsig : signature.length = rsaNumBytes)
    (hhash : hash.length = shaDigestSize) :
    rsaVerify key signature rsaNumBytes hash shaDigestSize = true ↔
      (e = 3 ∨ e = 65537) ∧ ofBytes signature ^ e % N = ofBytes (paddedHash hash) := by
  obtain ⟨hsound, hodd, htop, hlen, hexp⟩ := getKeyHeader_sound hkey
  unfold rsaVerify
  rw [if_neg (not_not.2 hlen), if_neg (not_not.2 rfl), if_neg (not_not.2 rfl)]
  by_cases he : e = 3 ∨ e = 65537
  · have hexp' : ¬ (key.exponent ≠ 3 ∧ key.exponent ≠ 65537) := by
      rw [hexp]
      omega
    obtain ⟨hbuf, hpower⟩ := RSAPublicKey.ofBytes_modpow hsound hodd htop he hexp hsig
    have htake : signature.take rsaNumBytes = signature := List.take_of_length_le hsig.le
    have hpadded : (paddedHash hash).length = rsaNumBytes := by
      unfold paddedHash
      rw [List.length_append, hhash]
      rfl
    rw [if_neg hexp', htake]
    dsimp only
    rw [beq_iff_eq, shaPadding_iff hbuf hhash, ← hpower]
    constructor
    · intro h
      exact ⟨he, congrArg ofBytes h⟩
    · rintro ⟨-, h⟩
      exact ofBytes_inj (hbuf.trans hpadded.symm) h
  · have hexp' : key.exponent ≠ 3 ∧ key.exponent ≠ 65537 := by
      rw [hexp]
      omega
    rw [if_pos hexp']
    simp [he]

/-- `certs/release.pub`. -/
def releaseModulus : ℕ :=
  ((0xc637d194da739cd242aaeaf759239a943331eddb7e2782aa1fae00851712f40f * 2 ^ 256 +
    0x65a17b1d33002a7d81aaf41d9a7e6efb69a12814fc4bfcc1ec4d2abf80f504eb) * 2 ^ 256 +
    0x69d9638aec62e5cb6b3ab6bd93ec31a8d8fadd6adcbb8fb053952724455ffdbb) * 2 ^ 256 +
    0x95e2308e15f7cc4fccf73cee229adf0bcc7b84202fe6fc048a558cafbaf05141

theorem getKeyHeader_isSome {N : ℕ} (hbits : 2 ^ 1023 ≤ N ∧ N < 2 ^ (1023 + 1))
    (hgcd : Nat.gcd N (2 ^ 32) = 1) (e : ℕ) : ∃ key, getKeyHeader N e = some key := by
  have hsize : Nat.size N = 1023 + 1 := size_eq_iff.2 hbits
  unfold getKeyHeader modInverse
  rw [if_pos hsize, if_pos hgcd]
  exact ⟨_, rfl⟩

theorem releaseModulus_header : ∃ key, getKeyHeader releaseModulus 65537 = some key :=
  getKeyHeader_isSome (by decide +kernel) (by decide +kernel) 65537

theorem rsaVerify_iff_release : ∃ key, getKeyHeader releaseModulus 65537 = some key ∧
    (rsaVerify key (List.replicate 128 1) rsaNumBytes (List.replicate 20 7) shaDigestSize = true ↔
      (65537 = 3 ∨ 65537 = 65537) ∧
        ofBytes (List.replicate 128 1) ^ 65537 % releaseModulus =
          ofBytes (paddedHash (List.replicate 20 7))) := by
  obtain ⟨key, hkey⟩ := releaseModulus_header
  exact ⟨key, hkey, rsaVerify_iff hkey (by rfl) (by rfl)⟩

end Boot
end MazdaPort
