import MazdaPort.Boot.Rsa
import MazdaPort.Boot.Sha
import MazdaPort.Lib.Memory
import MazdaPort.Lib.PowerMod
import Mathlib.NumberTheory.LucasLehmer
import Mathlib.Tactic.NormNum.Prime

/-!
# MazdaPort.Boot.Bootstub

`main` of `board/bootstub.c`, which starts the application or stays in the flasher, and
`crypto/sign.py`, which makes the image that it starts.

* `bootstubMain_iff`: what has to be in flash for the application to be started. Nothing else
  starts it.
* `sign_signed`: an image that `sign.py` has signed is intact, and signed with its key.
-/

namespace MazdaPort
namespace Boot

open Memory Words

def enterSoftloaderMagic : UInt32 := 0xdeadc0de

def versTag : UInt32 := 0x53524556

def minVersion : UInt32 := 2

def appStart : Nat := 0x8004000

/-- The word at `a`, its lowest byte first. -/
def loadWord (mem : Nat → UInt8) (a : Nat) : UInt32 :=
  word (mem (a + 3)) (mem (a + 2)) (mem (a + 1)) (mem a)

/-- `(int)w`. -/
def toInt (w : UInt32) : Int := if w.toNat < 2 ^ 31 then w.toNat else w.toNat - 2 ^ 32

inductive Booted where
  | app (entry : UInt32)
  | flasher
  deriving DecidableEq, Repr

/-- The keys and the flags that the build puts into the bootstub. -/
structure BootBuild where
  releaseRsaKey : RSAPublicKey
  debugRsaKey : RSAPublicKey
  allowDebug : Bool

/-- `buf` is what the memory of the hash context held. -/
def bootstubMain (b : BootBuild) (buf : Vector UInt8 64) (enterBootloaderMode : UInt32)
    (mem : Nat → UInt8) : Booted :=
  if enterBootloaderMode = enterSoftloaderMagic then .flasher
  else
    let len := toInt (loadWord mem appStart)
    if len < 8 ∨ len > 0x1000000 - 0x4000 - 4 - rsaNumBytes then .flasher
    else
      let len := len.toNat
      let digest := shaHash buf (fetch mem (appStart + 4) (len - 4))
      if loadWord mem (appStart + len - 8) ≠ versTag ∨
          loadWord mem (appStart + len - 8 + 4) < minVersion then .flasher
      else if rsaVerify b.releaseRsaKey (fetch mem (appStart + len) rsaNumBytes) rsaNumBytes digest
          shaDigestSize then .app (loadWord mem (appStart + 4))
      else if b.allowDebug && rsaVerify b.debugRsaKey (fetch mem (appStart + len) rsaNumBytes)
          rsaNumBytes digest shaDigestSize then .app (loadWord mem (appStart + 4))
      else .flasher

/-! ## `sign.py` -/

/-- `struct.pack("I", x)`. -/
def packI (x : Nat) : List UInt8 :=
  [UInt8.ofNat x, UInt8.ofNat (x / 2 ^ 8), UInt8.ofNat (x / 2 ^ 16), UInt8.ofNat (x / 2 ^ 24)]

def signVersion : Nat := 2

/-- A number below `256 ^ k` as `k` bytes, the highest first. -/
def toBytes : Nat → Nat → List UInt8
  | 0, _ => []
  | k + 1, x => toBytes k (x / 256) ++ [UInt8.ofNat x]

/-- The file that `sign.py` writes, with the modulus `n` and the private exponent `d`. The number
`rsa_out` is below `n`, so it has 256 digits at most. -/
def sign (n d : Nat) (setLen : Bool) (dat : List UInt8) : List UInt8 :=
  let (x, dd) :=
    if setLen then
      let dat := dat ++ [0x56, 0x45, 0x52, 0x53] ++ packI signVersion
      (packI dat.length ++ dat.drop 4, sha1 (dat.drop 4))
    else (dat, sha1 dat)
  let dd := [0x00, 0x01] ++ List.replicate 0x69 0xff ++ [0x00] ++ dd
  let rsaOut := ofBytes dd ^ d % n
  x ++ toBytes 128 rsaOut

/-! ## What is started -/

theorem digest_length (s : ShaState) : (digest s).length = shaDigestSize := rfl

theorem sha1_length (message : List UInt8) : (sha1 message).length = shaDigestSize :=
  digest_length _

/-- The length that the image gives for itself. -/
def imageLen (mem : Nat → UInt8) : Int := toInt (loadWord mem appStart)

/-- The image has a length in range and ends in a version that is not too old. -/
structure Intact (mem : Nat → UInt8) : Prop where
  long : 8 ≤ imageLen mem
  short : imageLen mem ≤ 0x1000000 - 0x4000 - 4 - rsaNumBytes
  tag : loadWord mem (appStart + (imageLen mem).toNat - 8) = versTag
  version : minVersion ≤ loadWord mem (appStart + (imageLen mem).toNat - 8 + 4)

/-- The bytes behind the image are its signature with the modulus `N` and the exponent `e`. -/
def Signed (mem : Nat → UInt8) (N e : Nat) : Prop :=
  (e = 3 ∨ e = 65537) ∧
    ofBytes (fetch mem (appStart + (imageLen mem).toNat) rsaNumBytes) ^ e % N =
      ofBytes (paddedHash (sha1 (fetch mem (appStart + 4) ((imageLen mem).toNat - 4))))

theorem imageLen_lt (mem : Nat → UInt8) : imageLen mem < 2 ^ 31 := by
  have hlt := (loadWord mem appStart).toNat_lt
  unfold imageLen toInt
  split <;> omega

/-- With a key that the build has written, `RSA_verify` in `main` looks for `Signed`. -/
theorem rsaVerify_signed {N e : Nat} {key : RSAPublicKey} (hkey : getKeyHeader N e = some key)
    (buf : Vector UInt8 64) (mem : Nat → UInt8) :
    rsaVerify key (fetch mem (appStart + (imageLen mem).toNat) rsaNumBytes) rsaNumBytes
      (shaHash buf (fetch mem (appStart + 4) ((imageLen mem).toNat - 4))) shaDigestSize = true ↔
      Signed mem N e := by
  have hlt := imageLen_lt mem
  have hhash : shaHash buf (fetch mem (appStart + 4) ((imageLen mem).toNat - 4)) =
      sha1 (fetch mem (appStart + 4) ((imageLen mem).toNat - 4)) := by
    refine shaHash_eq buf ?_
    rw [fetch_length]
    omega
  rw [hhash]
  exact rsaVerify_iff hkey (fetch_length _ _ _) (sha1_length _)

/-- The bootstub starts the application exactly when the flasher was not asked for, the image is
intact, and it is signed with the release key, or with the debug key in a build that allows it. -/
theorem bootstubMain_iff {b : BootBuild} {Nr er Nd ed : Nat}
    (hrelease : getKeyHeader Nr er = some b.releaseRsaKey)
    (hdebug : getKeyHeader Nd ed = some b.debugRsaKey) (buf : Vector UInt8 64)
    (enterBootloaderMode : UInt32) (mem : Nat → UInt8) (entry : UInt32) :
    bootstubMain b buf enterBootloaderMode mem = .app entry ↔
      enterBootloaderMode ≠ enterSoftloaderMagic ∧ Intact mem ∧
        (Signed mem Nr er ∨ b.allowDebug = true ∧ Signed mem Nd ed) ∧
          entry = loadWord mem (appStart + 4) := by
  have hr := rsaVerify_signed hrelease buf mem
  have hd := rsaVerify_signed hdebug buf mem
  have hentry : Booted.app (loadWord mem (appStart + 4)) = .app entry ↔
      entry = loadWord mem (appStart + 4) := by
    rw [Booted.app.injEq, eq_comm]
  unfold bootstubMain
  by_cases hmode : enterBootloaderMode = enterSoftloaderMagic
  · simp [hmode]
  · rw [if_neg hmode]
    have hlen : toInt (loadWord mem appStart) = imageLen mem := rfl
    dsimp only
    rw [hlen]
    by_cases hrange : imageLen mem < 8 ∨ imageLen mem > 0x1000000 - 0x4000 - 4 - rsaNumBytes
    · rw [if_pos hrange]
      constructor
      · intro h
        cases h
      · rintro ⟨-, hintact, -⟩
        have hlong := hintact.long
        have hshort := hintact.short
        omega
    · rw [if_neg hrange]
      by_cases hvers : loadWord mem (appStart + (imageLen mem).toNat - 8) ≠ versTag ∨
          loadWord mem (appStart + (imageLen mem).toNat - 8 + 4) < minVersion
      · rw [if_pos hvers]
        constructor
        · intro h
          cases h
        · rintro ⟨-, hintact, -⟩
          rcases hvers with htag | hversion
          · exact absurd hintact.tag htag
          · exact absurd hintact.version (UInt32.not_le.2 hversion)
      · rw [if_neg hvers]
        rw [not_or, not_not, UInt32.not_lt] at hvers
        have hintact : Intact mem := ⟨by omega, by omega, hvers.1, hvers.2⟩
        by_cases hrel : Signed mem Nr er
        · rw [if_pos (hr.2 hrel), hentry]
          simp [hmode, hintact, hrel]
        · rw [if_neg (fun h => hrel (hr.1 h))]
          by_cases hdbg : b.allowDebug = true ∧ Signed mem Nd ed
          · rw [if_pos (by rw [hdbg.1, hd.2 hdbg.2]; rfl), hentry]
            simp [hmode, hintact, hdbg]
          · have hno : ¬ (b.allowDebug && rsaVerify b.debugRsaKey
                (fetch mem (appStart + (imageLen mem).toNat) rsaNumBytes) rsaNumBytes
                (shaHash buf (fetch mem (appStart + 4) ((imageLen mem).toNat - 4)))
                shaDigestSize) = true := by
              rw [Bool.and_eq_true, hd]
              exact hdbg
            rw [if_neg hno]
            simp [hrel, hdbg]

/-! ## What is signed -/

theorem toBytes_length (k x : Nat) : (toBytes k x).length = k := by
  induction k generalizing x with
  | zero => rfl
  | succ k ih => rw [toBytes, List.length_append, ih, List.length_singleton]

theorem ofBytes_toBytes {k x : Nat} (hx : x < 256 ^ k) : ofBytes (toBytes k x) = x := by
  induction k generalizing x with
  | zero =>
    rw [pow_zero, Nat.lt_one_iff] at hx
    rw [hx]
    rfl
  | succ k ih =>
    have hdiv : x / 256 < 256 ^ k := by
      rw [pow_succ] at hx
      exact Nat.div_lt_of_lt_mul (hx.trans_eq (Nat.mul_comm _ _))
    have hbyte : (UInt8.ofNat x).toNat = x % 256 := UInt8.toNat_ofNat'
    have hsplit := Nat.div_add_mod x 256
    rw [toBytes, ofBytes_append, ih hdiv, ofBytes_singleton, hbyte, List.length_singleton, pow_one]
    omega

section Load

variable {mem : Nat → UInt8} {a : Nat}

theorem loadWord_fetch {b0 b1 b2 b3 : UInt8} (h : fetch mem a 4 = [b0, b1, b2, b3]) :
    loadWord mem a = word b3 b2 b1 b0 := by
  have hcells : fetch mem a 4 = [mem (a + 0), mem (a + 1), mem (a + 2), mem (a + 3)] := rfl
  rw [hcells] at h
  injection h with h0 h
  injection h with h1 h
  injection h with h2 h
  injection h with h3
  rw [Nat.add_zero] at h0
  rw [loadWord, h0, h1, h2, h3]

theorem loadWord_packI {x : Nat} (hx : x < 2 ^ 32) (h : fetch mem a 4 = packI x) :
    (loadWord mem a).toNat = x := by
  rw [loadWord_fetch h, word_toNat]
  simp only [ofBytes_cons, ofBytes_nil, List.length_cons, List.length_nil, UInt8.toNat_ofNat']
  omega

end Load

/-- The image in front of the signature. -/
def signedBody (dat : List UInt8) : List UInt8 :=
  dat.drop 4 ++ ([0x56, 0x45, 0x52, 0x53] ++ packI signVersion)

theorem sign_eq {n d : Nat} {dat : List UInt8} (hdat : 4 ≤ dat.length) :
    sign n d true dat = packI (dat.length + 8) ++ signedBody dat ++
      toBytes 128 (ofBytes (paddedHash (sha1 (signedBody dat))) ^ d % n) := by
  have hdrop : (dat ++ [0x56, 0x45, 0x52, 0x53] ++ packI signVersion).drop 4 = signedBody dat := by
    rw [List.append_assoc, List.drop_append_of_le_length hdat]
    rfl
  have hlen : (dat ++ [0x56, 0x45, 0x52, 0x53] ++ packI signVersion).length = dat.length + 8 := by
    rw [List.length_append, List.length_append]
    rfl
  unfold sign
  rw [if_pos rfl]
  dsimp only
  rw [hdrop, hlen]
  rfl

theorem signedBody_length {dat : List UInt8} (hdat : 4 ≤ dat.length) :
    (signedBody dat).length = dat.length + 4 := by
  have htail : ([0x56, 0x45, 0x52, 0x53] ++ packI signVersion : List UInt8).length = 8 := rfl
  unfold signedBody
  rw [List.length_append, List.length_drop, htail]
  omega

/-- The padding begins with a zero byte, so it is below any modulus of the right size. -/
theorem ofBytes_paddedHash_lt {hash : List UInt8} (hhash : hash.length = shaDigestSize) :
    ofBytes (paddedHash hash) < 256 ^ 127 := by
  have hcons : paddedHash hash =
      0x00 :: ([0x01] ++ List.replicate 105 0xff ++ [0x00] ++ hash) := by
    simp only [paddedHash, List.cons_append, List.nil_append]
  have hlen : ([0x01] ++ List.replicate 105 0xff ++ [0x00] ++ hash).length = 127 := by
    rw [List.length_append, hhash]
    rfl
  have hlt := ofBytes_lt ([0x01] ++ List.replicate 105 0xff ++ [0x00] ++ hash)
  rw [hlen] at hlt
  rw [hcons, ofBytes_cons]
  exact (Nat.add_comm _ _).trans_lt (by simpa using hlt)

theorem radix_bytes : (2 ^ 32) ^ rsaNumWords = 256 ^ rsaNumBytes := by
  have hbytes : rsaNumBytes = 4 * rsaNumWords := rfl
  have hword : 2 ^ 32 = 256 ^ 4 := rfl
  rw [hbytes, pow_mul, hword]

/-- Flash that holds what `sign.py` has written holds an image that is intact and signed. -/
theorem sign_signed {p q e d : Nat} {key : RSAPublicKey} {dat : List UInt8} {mem : Nat → UInt8}
    (hp : p.Prime) (hq : q.Prime) (hne : p ≠ q) (hed : e * d % Nat.lcm (p - 1) (q - 1) = 1)
    (he : e = 3 ∨ e = 65537) (hkey : getKeyHeader (p * q) e = some key) (hdat : 4 ≤ dat.length)
    (hfits : dat.length + 8 ≤ 0x1000000 - 0x4000 - 4 - rsaNumBytes)
    (hmem : fetch mem appStart (sign (p * q) d true dat).length = sign (p * q) d true dat) :
    Intact mem ∧ Signed mem (p * q) e := by
  obtain ⟨hsound, hodd, htop, -, -⟩ := getKeyHeader_sound hkey
  have hmax : 0x1000000 - 0x4000 - 4 - rsaNumBytes = 16760700 := rfl
  have hblen := signedBody_length hdat
  -- the parts of the image
  rw [sign_eq hdat] at hmem
  obtain ⟨himage, hsig⟩ := fetch_split hmem
  obtain ⟨hlenword, hbody⟩ := fetch_split himage
  obtain ⟨-, htail⟩ := fetch_split hbody
  obtain ⟨hvers, hversion⟩ := fetch_split htail
  have hpack : ∀ x, (packI x).length = 4 := fun _ => rfl
  have hword : (loadWord mem appStart).toNat = dat.length + 8 := by
    refine loadWord_packI (by omega) ?_
    exact hlenword
  have hlen : imageLen mem = dat.length + 8 := by
    unfold imageLen toInt
    rw [hword, if_pos (by omega)]
    push_cast
    rfl
  have hnat : (imageLen mem).toNat = dat.length + 8 := by
    rw [hlen]
    omega
  have htag : appStart + (imageLen mem).toNat - 8 =
      appStart + (packI (dat.length + 8)).length + (dat.drop 4).length := by
    rw [hnat, hpack, List.length_drop]
    omega
  refine ⟨⟨by omega, by omega, ?_, ?_⟩, he, ?_⟩
  · rw [htag]
    exact (loadWord_fetch hvers).trans (by decide)
  · have hpos : appStart + (imageLen mem).toNat - 8 + 4 =
        appStart + (packI (dat.length + 8)).length + (dat.drop 4).length +
          [(0x56 : UInt8), 0x45, 0x52, 0x53].length := by
      rw [htag]
      rfl
    rw [hpos, UInt32.le_iff_toNat_le, loadWord_packI (by decide) hversion]
    decide
  · have hslen : (packI (dat.length + 8) ++ signedBody dat).length = dat.length + 8 := by
      rw [List.length_append, hpack, hblen]
      omega
    have hsigat : fetch mem (appStart + (imageLen mem).toNat) rsaNumBytes =
        toBytes 128 (ofBytes (paddedHash (sha1 (signedBody dat))) ^ d % (p * q)) := by
      rw [hnat, ← hslen]
      rw [toBytes_length] at hsig
      exact hsig
    have hbodyat : fetch mem (appStart + 4) ((imageLen mem).toNat - 4) = signedBody dat := by
      have hcount : dat.length + 8 - 4 = (signedBody dat).length := by omega
      rw [hnat, hcount]
      exact hbody
    have hsmall : ofBytes (paddedHash (sha1 (signedBody dat))) < p * q := by
      refine (ofBytes_paddedHash_lt (sha1_length _)).trans_le ?_
      have hpow : 256 ^ 127 * 2 ≤ (2 ^ 32) ^ rsaNumWords := by decide +kernel
      omega
    have hsigsmall : ofBytes (paddedHash (sha1 (signedBody dat))) ^ d % (p * q) < 256 ^ 128 := by
      refine (Nat.mod_lt _ hodd.pos).trans ?_
      rw [← hsound.modulus]
      exact (number_lt _).trans_eq (by rw [Vector.length_toList, radix_bytes]; rfl)
    rw [hsigat, hbodyat, ofBytes_toBytes hsigsmall]
    exact PowerMod.rsa_inverse hp hq hne hed hsmall

/-! ## A key whose primes are known -/

theorem knownPrimes : (mersenne 521).Prime ∧ (433 * 2 ^ (493 + 1) + 1).Prime := by
  refine ⟨lucas_lehmer_sufficiency 521 (by decide) (by norm_num), ?_⟩
  exact PowerMod.proth_prime (a := 3) rfl (by norm_num) (by decide +kernel) (by decide +kernel)
    (by decide +kernel)

/-- The inverse of 65537. -/
def knownExponent : Nat :=
  ((0x4cbf7f80807f7f80807f7f80807f7f80807f7f80807f7f80807f7f80807f7f80 * 2 ^ 256 +
    0x807f7f80807f7f80807f7f80807f7f80807f7f80807f7f80807f7f80807f7f80) * 2 ^ 256 +
    0x8032c000ffff0000ffff0000ffff0000ffff0000ffff0000ffff0000ffff0000) * 2 ^ 256 +
    0xffff0000ffff0000ffff0000ffff0000ffff0000ffff0000ffff0000ffff0001

theorem knownModulus_header :
    ∃ key, getKeyHeader (mersenne 521 * (433 * 2 ^ (493 + 1) + 1)) 65537 = some key :=
  getKeyHeader_isSome (by decide +kernel) (by decide +kernel) 65537

/-- Flash with an image of sixteen zero bytes behind the bootstub, signed with the known key. -/
def signedFlash (a : Nat) : UInt8 :=
  (sign (mersenne 521 * (433 * 2 ^ (493 + 1) + 1)) knownExponent true
    (List.replicate 16 0)).getD (a - appStart) 0xff

theorem bootstubMain_iff_signed : ∃ b : BootBuild, b.allowDebug = false ∧
    bootstubMain b (Vector.replicate 64 0) 0 signedFlash =
      .app (loadWord signedFlash (appStart + 4)) := by
  obtain ⟨key, hkey⟩ := knownModulus_header
  have hinverse : 65537 * knownExponent %
      Nat.lcm (mersenne 521 - 1) (433 * 2 ^ (493 + 1) + 1 - 1) = 1 := by decide +kernel
  have hmem : ∀ image : List UInt8,
      fetch (fun a => image.getD (a - appStart) 0xff) appStart image.length = image := by
    intro image
    refine List.ext_getElem (fetch_length _ _ _) fun i _ hi => ?_
    simp [fetch, List.getElem?_eq_getElem hi]
  have hdat : 4 ≤ (List.replicate 16 (0 : UInt8)).length := by decide
  obtain ⟨hintact, hsigned⟩ : Intact signedFlash ∧ Signed signedFlash _ 65537 :=
    sign_signed knownPrimes.1 knownPrimes.2 (by decide +kernel) hinverse (.inr rfl) hkey hdat
      (by decide) (hmem _)
  exact ⟨{ releaseRsaKey := key, debugRsaKey := key, allowDebug := false }, rfl,
    (bootstubMain_iff hkey hkey _ 0 signedFlash _).2 ⟨by decide, hintact, .inl hsigned, rfl⟩⟩

end Boot
end MazdaPort
