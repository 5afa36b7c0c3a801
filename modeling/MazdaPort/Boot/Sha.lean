import MazdaPort.Lib.Blocks
import MazdaPort.Lib.Words

/-!
# MazdaPort.Boot.Sha

`crypto/sha.c`, the hash of the bootstub, against the Secure Hash Standard.

* `sha1`: the hash of the standard, on a message padded to whole blocks.
* `shaTransform_eq`: the boolean functions and the schedule of the source are those of the standard.
* `absorbed_update`: a context has taken in what it has been given, in whatever pieces.
* `shaHash_eq`: `SHA_hash` is `sha1`, whatever was in the memory of the context.
-/

namespace MazdaPort
namespace Boot

open Blocks Words

def rol (bits : UInt32) (value : UInt32) : UInt32 := (value <<< bits) ||| (value >>> (32 - bits))

/-- `state`, and the working variables. -/
structure ShaState where
  A : UInt32
  B : UInt32
  C : UInt32
  D : UInt32
  E : UInt32
  deriving DecidableEq, Repr

def ShaState.add (s t : ShaState) : ShaState :=
  { A := s.A + t.A, B := s.B + t.B, C := s.C + t.C, D := s.D + t.D, E := s.E + t.E }

structure ShaCtx where
  state : ShaState
  count : UInt64
  buf : Vector UInt8 64

def wordOfBlock (p : List UInt8) (t : Nat) : UInt32 :=
  word (p.getD (4 * t) 0) (p.getD (4 * t + 1) 0) (p.getD (4 * t + 2) 0) (p.getD (4 * t + 3) 0)

/-- The second loop over `W`, with the number of passes and the words so far. -/
def extendLoop : Nat → List UInt32 → List UInt32
  | 0, W => W
  | k + 1, W =>
    let t := W.length
    extendLoop k
      (W ++ [rol 1 (W.getD (t - 3) 0 ^^^ W.getD (t - 8) 0 ^^^ W.getD (t - 14) 0 ^^^ W.getD (t - 16) 0)])

def expand (p : List UInt8) : List UInt32 := extendLoop 64 ((List.range 16).map (wordOfBlock p))

def shaStep (W : List UInt32) (s : ShaState) (t : Nat) : ShaState :=
  let tmp := rol 5 s.A + s.E + W.getD t 0
  let tmp :=
    if t < 20 then tmp + ((s.D ^^^ (s.B &&& (s.C ^^^ s.D))) + 0x5A827999)
    else if t < 40 then tmp + ((s.B ^^^ s.C ^^^ s.D) + 0x6ED9EBA1)
    else if t < 60 then tmp + (((s.B &&& s.C) ||| (s.D &&& (s.B ||| s.C))) + 0x8F1BBCDC)
    else tmp + ((s.B ^^^ s.C ^^^ s.D) + 0xCA62C1D6)
  { A := tmp, B := s.A, C := rol 30 s.B, D := s.C, E := s.D }

def shaTransform (ctx : ShaCtx) : ShaCtx :=
  let W := expand ctx.buf.toList
  { ctx with state := ctx.state.add ((List.range 80).foldl (shaStep W) ctx.state) }

def shaInitial : ShaState :=
  { A := 0x67452301, B := 0xEFCDAB89, C := 0x98BADCFE, D := 0x10325476, E := 0xC3D2E1F0 }

/-- `SHA_init` leaves the buffer as it is. -/
def shaInit (buf : Vector UInt8 64) : ShaCtx := { state := shaInitial, count := 0, buf := buf }

/-- The loop of `SHA_update`. -/
def updateLoop : List UInt8 → Nat → ShaCtx → ShaCtx
  | [], _, ctx => ctx
  | b :: p, i, ctx =>
    let ctx := { ctx with buf := ctx.buf.setIfInBounds i b }
    if i + 1 = 64 then updateLoop p 0 (shaTransform ctx) else updateLoop p (i + 1) ctx

def shaUpdate (ctx : ShaCtx) (data : List UInt8) : ShaCtx :=
  let i := (ctx.count &&& 63).toNat
  updateLoop data i { ctx with count := ctx.count + UInt64.ofNat data.length }

/-- The loop of `SHA_final`. It takes 64 passes at most. -/
def padLoop : Nat → ShaCtx → ShaCtx
  | 0, ctx => ctx
  | k + 1, ctx => if ctx.count &&& 63 != 56 then padLoop k (shaUpdate ctx [0]) else ctx

/-- The digest that `SHA_final` leaves at the start of the buffer. -/
def shaFinal (ctx : ShaCtx) : List UInt8 :=
  let cnt := ctx.count * 8
  let ctx := shaUpdate ctx [0x80]
  let ctx := padLoop 64 ctx
  let ctx := shaUpdate ctx [(cnt >>> ((7 - 0) * 8)).toUInt8]
  let ctx := shaUpdate ctx [(cnt >>> ((7 - 1) * 8)).toUInt8]
  let ctx := shaUpdate ctx [(cnt >>> ((7 - 2) * 8)).toUInt8]
  let ctx := shaUpdate ctx [(cnt >>> ((7 - 3) * 8)).toUInt8]
  let ctx := shaUpdate ctx [(cnt >>> ((7 - 4) * 8)).toUInt8]
  let ctx := shaUpdate ctx [(cnt >>> ((7 - 5) * 8)).toUInt8]
  let ctx := shaUpdate ctx [(cnt >>> ((7 - 6) * 8)).toUInt8]
  let ctx := shaUpdate ctx [(cnt >>> ((7 - 7) * 8)).toUInt8]
  [ctx.state.A, ctx.state.B, ctx.state.C, ctx.state.D, ctx.state.E].flatMap bytes

/-- `buf` is what the memory of `ctx` held. -/
def shaHash (buf : Vector UInt8 64) (data : List UInt8) : List UInt8 :=
  shaFinal (shaUpdate (shaInit buf) data)

/-! ## The standard -/

/-- Word `t` of the message schedule. -/
def schedule (m : List UInt8) (t : Nat) : UInt32 :=
  if t < 16 then wordOfBlock m t
  else
    rol 1 (schedule m (t - 3) ^^^ schedule m (t - 8) ^^^ schedule m (t - 14) ^^^ schedule m (t - 16))
termination_by t
decreasing_by all_goals omega

def ch (x y z : UInt32) : UInt32 := (x &&& y) ^^^ (~~~x &&& z)

def parity (x y z : UInt32) : UInt32 := x ^^^ y ^^^ z

def maj (x y z : UInt32) : UInt32 := (x &&& y) ^^^ (x &&& z) ^^^ (y &&& z)

/-- The function and the constant of round `t`. -/
def roundOf (t : Nat) : (UInt32 → UInt32 → UInt32 → UInt32) × UInt32 :=
  if t < 20 then (ch, 0x5A827999)
  else if t < 40 then (parity, 0x6ED9EBA1)
  else if t < 60 then (maj, 0x8F1BBCDC)
  else (parity, 0xCA62C1D6)

def sha1Round (m : List UInt8) (s : ShaState) (t : Nat) : ShaState :=
  { A := rol 5 s.A + (roundOf t).1 s.B s.C s.D + s.E + (roundOf t).2 + schedule m t
    B := s.A
    C := rol 30 s.B
    D := s.C
    E := s.D }

def compress (s : ShaState) (m : List UInt8) : ShaState :=
  s.add ((List.range 80).foldl (sha1Round m) s)

/-- The length in bits as 64 of them. -/
def lengthBytes (len : Nat) : List UInt8 :=
  [56, 48, 40, 32, 24, 16, 8, 0].map fun k => UInt8.ofNat (8 * len / 2 ^ k)

def pad (message : List UInt8) : List UInt8 :=
  message ++ [0x80] ++ List.replicate ((119 - message.length % 64) % 64) 0 ++
    lengthBytes message.length

def digest (s : ShaState) : List UInt8 := [s.A, s.B, s.C, s.D, s.E].flatMap bytes

def sha1 (message : List UInt8) : List UInt8 :=
  digest (foldBlocks 64 compress shaInitial (pad message))

/-! ## One block -/

theorem ch_eq (x y z : UInt32) : z ^^^ (x &&& (y ^^^ z)) = ch x y z := by
  apply UInt32.eq_of_toBitVec_eq
  ext i hi
  simp only [ch, UInt32.toBitVec_xor, UInt32.toBitVec_and, UInt32.toBitVec_not, BitVec.getElem_xor,
    BitVec.getElem_and, BitVec.getElem_not]
  cases x.toBitVec[i] <;> cases y.toBitVec[i] <;> cases z.toBitVec[i] <;> rfl

theorem maj_eq (x y z : UInt32) : (x &&& y) ||| (z &&& (x ||| y)) = maj x y z := by
  apply UInt32.eq_of_toBitVec_eq
  ext i hi
  simp only [maj, UInt32.toBitVec_xor, UInt32.toBitVec_and, UInt32.toBitVec_or, BitVec.getElem_xor,
    BitVec.getElem_and, BitVec.getElem_or]
  cases x.toBitVec[i] <;> cases y.toBitVec[i] <;> cases z.toBitVec[i] <;> rfl

/-- Each pass adds the next word, by induction on the passes. -/
theorem extendLoop_eq (p : List UInt8) (k : ℕ) {n : ℕ} (hn : 16 ≤ n) :
    extendLoop k ((List.range n).map (schedule p)) = (List.range (n + k)).map (schedule p) := by
  induction k generalizing n with
  | zero => rfl
  | succ k ih =>
    have hget : ∀ j < n, ((List.range n).map (schedule p)).getD j 0 = schedule p j := by
      intro j hj
      simp [List.getD_eq_getElem?_getD, hj]
    have hlen : ((List.range n).map (schedule p)).length = n := by simp
    have hword : schedule p n = rol 1 (schedule p (n - 3) ^^^ schedule p (n - 8) ^^^
        schedule p (n - 14) ^^^ schedule p (n - 16)) := by
      rw [schedule, if_neg (by omega)]
    have hnext : (List.range n).map (schedule p) ++ [schedule p n] =
        (List.range (n + 1)).map (schedule p) := by
      rw [List.range_succ, List.map_append, List.map_singleton]
    rw [extendLoop, hlen, hget _ (by omega), hget _ (by omega), hget _ (by omega),
      hget _ (by omega), ← hword, hnext, ih (by omega), Nat.add_right_comm]
    rfl

theorem expand_eq (p : List UInt8) : expand p = (List.range 80).map (schedule p) := by
  have hfirst : (List.range 16).map (wordOfBlock p) = (List.range 16).map (schedule p) := by
    refine List.map_congr_left fun t ht => ?_
    rw [schedule, if_pos (List.mem_range.1 ht)]
  rw [expand, hfirst, extendLoop_eq p 64 (le_refl 16)]

theorem round_sum (r e w f k : UInt32) : r + e + w + (f + k) = r + f + e + k + w := by
  ac_rfl

theorem shaStep_eq (p : List UInt8) (s : ShaState) {t : ℕ} (ht : t < 80) :
    shaStep (expand p) s t = sha1Round p s t := by
  have hword : (expand p).getD t 0 = schedule p t := by
    rw [expand_eq]
    simp [List.getD_eq_getElem?_getD, ht]
  unfold shaStep sha1Round roundOf
  rw [hword]
  dsimp only
  rw [ShaState.mk.injEq]
  refine ⟨?_, rfl, rfl, rfl, rfl⟩
  split
  · rw [ch_eq]
    exact round_sum _ _ _ _ _
  · split
    · exact round_sum _ _ _ (parity s.B s.C s.D) _
    · split
      · rw [maj_eq]
        exact round_sum _ _ _ _ _
      · exact round_sum _ _ _ (parity s.B s.C s.D) _

theorem shaTransform_eq (ctx : ShaCtx) :
    shaTransform ctx = { ctx with state := compress ctx.state ctx.buf.toList } := by
  have hrounds : (List.range 80).foldl (shaStep (expand ctx.buf.toList)) ctx.state =
      (List.range 80).foldl (sha1Round ctx.buf.toList) ctx.state :=
    List.foldl_ext _ _ _ fun s t ht => shaStep_eq ctx.buf.toList s (List.mem_range.1 ht)
  unfold shaTransform compress
  dsimp only
  rw [hrounds]

/-! ## What a context has taken in -/

/-- The context after `d`, apart from `count`. `i` is the place of the next byte in the buffer. -/
structure Buffered (ctx : ShaCtx) (i : ℕ) (d : List UInt8) : Prop where
  index : i = d.length % 64
  state : ctx.state = foldBlocks 64 compress shaInitial d
  buf : ctx.buf.toList.take i = rest 64 d

structure Absorbed (ctx : ShaCtx) (d : List UInt8) : Prop where
  count : ctx.count.toNat = d.length
  taken : Buffered ctx (d.length % 64) d

theorem setIfInBounds_take {buf : Vector UInt8 64} {i : ℕ} (hi : i < 64) (b : UInt8) :
    (buf.setIfInBounds i b).toList.take (i + 1) = buf.toList.take i ++ [b] := by
  have hlen : buf.toList.length = 64 := Vector.length_toList
  have hset : (buf.setIfInBounds i b).toList = buf.toList.set i b := by
    simp
  rw [hset, List.take_succ_eq_append_getElem (by simpa using hi), List.take_set_of_le (le_refl i),
    List.getElem_set_self]

/-- One byte: it goes into the buffer, and a full buffer into the state. -/
theorem updateLoop_step {ctx : ShaCtx} {i : ℕ} {d : List UInt8} (h : Buffered ctx i d) (b : UInt8)
    (p : List UInt8) :
    ∃ ctx' i', updateLoop (b :: p) i ctx = updateLoop p i' ctx' ∧ ctx'.count = ctx.count ∧
      Buffered ctx' i' (d ++ [b]) := by
  have hi : i < 64 := by
    rw [h.index]
    exact Nat.mod_lt _ (by decide)
  obtain ⟨hshort, hfull⟩ := foldBlocks_snoc (n := 64) (by decide) compress shaInitial d b
  rw [← h.index] at hshort hfull
  have hlen : (d ++ [b]).length = d.length + 1 := by simp
  have hbuf : (ctx.buf.setIfInBounds i b).toList.take (i + 1) = ctx.buf.toList.take i ++ [b] :=
    setIfInBounds_take hi b
  rw [h.buf] at hbuf
  have hstep : updateLoop (b :: p) i ctx =
      if i + 1 = 64 then
        updateLoop p 0 (shaTransform { ctx with buf := ctx.buf.setIfInBounds i b })
      else updateLoop p (i + 1) { ctx with buf := ctx.buf.setIfInBounds i b } := rfl
  by_cases h64 : i + 1 = 64
  · obtain ⟨hfold, hrest⟩ := hfull h64
    have hblock : (ctx.buf.setIfInBounds i b).toList = rest 64 d ++ [b] := by
      rw [← hbuf, h64]
      exact (List.take_of_length_le (by simp)).symm
    refine ⟨_, 0, hstep.trans (if_pos h64), ?_, ?_, ?_, ?_⟩
    · rw [shaTransform_eq]
    · rw [hlen]
      have hindex := h.index
      omega
    · rw [shaTransform_eq, hfold]
      dsimp only
      rw [hblock, h.state]
    · rw [hrest, List.take_zero]
  · obtain ⟨hfold, hrest⟩ := hshort (by omega)
    refine ⟨_, i + 1, hstep.trans (if_neg h64), rfl, ?_, ?_, ?_⟩
    · rw [hlen]
      have hindex := h.index
      omega
    · rw [hfold]
      exact h.state
    · rw [hrest]
      exact hbuf

/-- By induction on the bytes. -/
theorem updateLoop_buffered {ctx : ShaCtx} {i : ℕ} {d : List UInt8} (h : Buffered ctx i d)
    (p : List UInt8) :
    (updateLoop p i ctx).count = ctx.count ∧
      Buffered (updateLoop p i ctx) ((d ++ p).length % 64) (d ++ p) := by
  induction p generalizing ctx i d with
  | nil =>
    rw [List.append_nil, ← h.index]
    exact ⟨rfl, h⟩
  | cons b p ih =>
    obtain ⟨ctx', i', heq, hcount, hnext⟩ := updateLoop_step h b p
    obtain ⟨hcount', hall⟩ := ih hnext
    rw [List.append_assoc, List.singleton_append] at hall
    rw [heq, hcount', hcount]
    exact ⟨rfl, hall⟩

theorem count_mod (ctx : ShaCtx) : (ctx.count &&& 63).toNat = ctx.count.toNat % 64 := by
  rw [UInt64.toNat_and]
  exact Nat.and_two_pow_sub_one_eq_mod ctx.count.toNat 6

/-- A context that is given more has taken in that too, in whatever pieces it comes. -/
theorem absorbed_update {ctx : ShaCtx} {d : List UInt8} (h : Absorbed ctx d) {data : List UInt8}
    (hlen : (d ++ data).length < 2 ^ 64) : Absorbed (shaUpdate ctx data) (d ++ data) := by
  have htaken : Buffered { ctx with count := ctx.count + UInt64.ofNat data.length }
      (ctx.count &&& 63).toNat d := by
    rw [count_mod, h.count]
    exact ⟨rfl, h.taken.state, h.taken.buf⟩
  obtain ⟨hcount, hbuffered⟩ := updateLoop_buffered htaken data
  refine ⟨?_, hbuffered⟩
  unfold shaUpdate
  dsimp only
  rw [hcount, UInt64.toNat_add, h.count, UInt64.toNat_ofNat', List.length_append]
  rw [List.length_append] at hlen
  omega

theorem absorbed_init (buf : Vector UInt8 64) : Absorbed (shaInit buf) [] :=
  ⟨rfl, rfl, rfl, rfl⟩

theorem absorbed_bytes {ctx : ShaCtx} {d : List UInt8} (h : Absorbed ctx d) (bs : List UInt8)
    (hlen : (d ++ bs).length < 2 ^ 64) :
    Absorbed (bs.foldl (fun ctx b => shaUpdate ctx [b]) ctx) (d ++ bs) := by
  induction bs generalizing ctx d with
  | nil =>
    rw [List.append_nil]
    exact h
  | cons b bs ih =>
    rw [List.append_cons] at hlen ⊢
    have hone : (d ++ [b]).length < 2 ^ 64 := by
      rw [List.length_append] at hlen
      omega
    exact ih (absorbed_update h hone) hlen

/-! ## The end of a message -/

theorem padLoop_again {ctx : ShaCtx} {d : List UInt8} (h : Absorbed ctx d) :
    (ctx.count &&& 63 != 56) = decide (d.length % 64 ≠ 56) := by
  have hnat : ctx.count &&& 63 = 56 ↔ d.length % 64 = 56 := by
    rw [← UInt64.toNat_inj, count_mod, h.count]
    rfl
  by_cases hd : d.length % 64 = 56
  · rw [hnat.2 hd, hd]
    rfl
  · have hne : ctx.count &&& 63 ≠ 56 := by
      intro heq
      exact hd (hnat.1 heq)
    rw [bne_iff_ne.2 hne, decide_eq_true hd]

/-- The loop of `SHA_final` adds zeros until eight bytes are missing. By induction on the zeros. -/
theorem padLoop_spec {ctx : ShaCtx} {d : List UInt8} (h : Absorbed ctx d) {z k : ℕ}
    (hz : (d.length + z) % 64 = 56) (hlt : z < 64) (hk : z ≤ k) (hlen : d.length + z < 2 ^ 64) :
    Absorbed (padLoop k ctx) (d ++ List.replicate z 0) := by
  induction z generalizing ctx d k with
  | zero =>
    rw [List.replicate_zero, List.append_nil]
    cases k with
    | zero => exact h
    | succ k =>
      have hdone : (ctx.count &&& 63 != 56) = false := by
        rw [padLoop_again h, decide_eq_false_iff_not, not_not]
        exact hz
      rw [padLoop, hdone, if_neg (by decide)]
      exact h
  | succ z ih =>
    obtain ⟨k, rfl⟩ : ∃ n, k = n + 1 := ⟨k - 1, by omega⟩
    have hmore : (ctx.count &&& 63 != 56) = true := by
      rw [padLoop_again h, decide_eq_true_iff]
      omega
    have hnext : (d ++ [0]).length = d.length + 1 := by simp
    have habsorbed : Absorbed (shaUpdate ctx [0]) (d ++ [0]) := absorbed_update h (by omega)
    rw [padLoop, hmore, if_pos rfl, List.replicate_succ, List.append_cons]
    exact ih habsorbed (by omega) (by omega) (by omega) (by omega)

theorem lengthByte {cnt : UInt64} {len : ℕ} (hcnt : cnt.toNat = 8 * len) (s : UInt64)
    (hs : s.toNat < 64) : (cnt >>> s).toUInt8 = UInt8.ofNat (8 * len / 2 ^ s.toNat) := by
  rw [← UInt8.toNat_inj, UInt64.toNat_toUInt8, UInt64.toNat_shiftRight, Nat.mod_eq_of_lt hs,
    Nat.shiftRight_eq_div_pow, hcnt, UInt8.toNat_ofNat']

/-- `SHA_final` on a context that has taken in a message: the digest of the standard. -/
theorem shaFinal_eq {ctx : ShaCtx} {d : List UInt8} (h : Absorbed ctx d)
    (hlen : d.length < 2 ^ 61 - 16) : shaFinal ctx = sha1 d := by
  let z := (119 - d.length % 64) % 64
  have hmarked : Absorbed (shaUpdate ctx [0x80]) (d ++ [0x80]) := by
    refine absorbed_update h ?_
    rw [List.length_append, List.length_singleton]
    omega
  have hmlen : (d ++ [(0x80 : UInt8)]).length = d.length + 1 := by simp
  have hpadded : Absorbed (padLoop 64 (shaUpdate ctx [0x80])) (d ++ [0x80] ++ List.replicate z 0) :=
    padLoop_spec hmarked (by omega) (by omega) (by omega) (by omega)
  have hcnt : (ctx.count * 8).toNat = 8 * d.length := by
    have h8 : (8 : UInt64).toNat = 8 := rfl
    rw [UInt64.toNat_mul, h.count, h8, Nat.mod_eq_of_lt (by omega), Nat.mul_comm]
  have hplen : (d ++ [(0x80 : UInt8)] ++ List.replicate z 0).length = d.length + 1 + z := by
    rw [List.length_append, hmlen, List.length_replicate]
  have hllen : (lengthBytes d.length).length = 8 := rfl
  have hall := absorbed_bytes hpadded (lengthBytes d.length) (by
    rw [List.length_append, hplen, hllen]
    omega)
  have hbytes : lengthBytes d.length =
      [((ctx.count * 8) >>> ((7 - 0) * 8)).toUInt8, ((ctx.count * 8) >>> ((7 - 1) * 8)).toUInt8,
        ((ctx.count * 8) >>> ((7 - 2) * 8)).toUInt8, ((ctx.count * 8) >>> ((7 - 3) * 8)).toUInt8,
        ((ctx.count * 8) >>> ((7 - 4) * 8)).toUInt8, ((ctx.count * 8) >>> ((7 - 5) * 8)).toUInt8,
        ((ctx.count * 8) >>> ((7 - 6) * 8)).toUInt8, ((ctx.count * 8) >>> ((7 - 7) * 8)).toUInt8] := by
    rw [lengthByte hcnt _ (by decide), lengthByte hcnt _ (by decide), lengthByte hcnt _ (by decide),
      lengthByte hcnt _ (by decide), lengthByte hcnt _ (by decide), lengthByte hcnt _ (by decide),
      lengthByte hcnt _ (by decide), lengthByte hcnt _ (by decide)]
    rfl
  have hstate : ((lengthBytes d.length).foldl (fun ctx b => shaUpdate ctx [b])
      (padLoop 64 (shaUpdate ctx [0x80]))).state = foldBlocks 64 compress shaInitial (pad d) :=
    hall.taken.state
  rw [hbytes] at hstate
  unfold sha1 digest
  rw [← hstate]
  rfl

/-- `SHA_hash` is the hash of the standard, on whatever the memory of its context held. -/
theorem shaHash_eq (buf : Vector UInt8 64) {data : List UInt8} (hlen : data.length < 2 ^ 61 - 16) :
    shaHash buf data = sha1 data := by
  have habsorbed : Absorbed (shaUpdate (shaInit buf) data) ([] ++ data) := by
    refine absorbed_update (absorbed_init buf) ?_
    rw [List.nil_append]
    omega
  rw [List.nil_append] at habsorbed
  exact shaFinal_eq habsorbed hlen

theorem shaHash_eq_abc : shaHash (Vector.replicate 64 0x55) [0x61, 0x62, 0x63] =
    sha1 [0x61, 0x62, 0x63] :=
  shaHash_eq (Vector.replicate 64 0x55) (by decide)

/-- The example of the standard for one block. -/
example : shaHash (Vector.replicate 64 0x55) [0x61, 0x62, 0x63] =
    [0xa9, 0x99, 0x3e, 0x36, 0x47, 0x06, 0x81, 0x6a, 0xba, 0x3e, 0x25, 0x71, 0x78, 0x50, 0xc2,
      0x6c, 0x9c, 0xd0, 0xd8, 0x9d] := by
  decide +kernel

end Boot
end MazdaPort
