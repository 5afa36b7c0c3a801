import MazdaPort.Safety.Declarations

/-!
# MazdaPort.Usb.Wire

The byte stream from the panda to the host: the memory image of a `CANPacket_t`, its checksum
(`can_common.h`) and the marked frame that `comms_can_read` (`can_comms.h`) sends for it.
-/

namespace MazdaPort
namespace Usb

open Safety

/-! ## Packets in memory -/

def canpacketHeadSize : Nat := 6

/-- Fourteen bytes, rounded up to the alignment of four. -/
def sizeofCANPacket : Nat := 16

def canSyncMarker : UInt8 := 0xAA

/-- The first byte of a packet: `fd`, `bus` and `data_len_code`, from the low end. -/
def headByte (p : CANPacket) : Nat := p.fd.toNat + 2 * p.bus.toNat + 16 * p.dataLenCode.toNat

def headWord (p : CANPacket) : Nat :=
  p.rejected.toNat + 2 * p.returned.toNat + 4 * p.extended.toNat + 8 * p.addr.toNat

def header (p : CANPacket) : List UInt8 :=
  [UInt8.ofNat (headByte p), UInt8.ofNat (headWord p), UInt8.ofNat (headWord p / 256),
    UInt8.ofNat (headWord p / 65536), UInt8.ofNat (headWord p / 16777216), p.checksum]

def image (p : CANPacket) : List UInt8 := header p ++ p.data.toList

/-- The packet without the data bytes its length does not reach. A length code above 8 takes the
source past the end of the object; here the bytes end with it. -/
def packed (p : CANPacket) : List UInt8 := (image p).take (canpacketHeadSize + p.getLen)

theorem packed_eq (p : CANPacket) : packed p = header p ++ p.data.toList.take p.getLen := by
  have hlen : (header p).length = canpacketHeadSize := rfl
  rw [packed, image, ← hlen, List.take_length_add_append]

/-- `asm_buffer`, which holds a packet that spans two transfers. -/
structure AsmBuffer where
  ptr : Nat
  tailSize : Nat
  data : Vector UInt8 72
  deriving DecidableEq, Repr

/-! ## The head of a packet -/

theorem or_shiftLeft {a b k : Nat} (h : a < 2 ^ k) : a ||| (b <<< k) = a + b * 2 ^ k := by
  rw [Nat.or_comm, ← Nat.shiftLeft_add_eq_or_of_lt h, Nat.shiftLeft_eq, Nat.add_comm]

theorem headByte_lt (p : CANPacket) : headByte p < 256 := by
  have hbus := p.bus.isLt
  have hdlc := p.dataLenCode.isLt
  have hfd := Bool.toNat_le p.fd
  unfold headByte
  omega

theorem headByte_toNat (p : CANPacket) : (UInt8.ofNat (headByte p)).toNat = headByte p := by
  rw [UInt8.toNat_ofNat']
  exact Nat.mod_eq_of_lt (headByte_lt p)

theorem headByte_dlc (p : CANPacket) : headByte p >>> 4 = p.dataLenCode.toNat := by
  have hbus := p.bus.isLt
  have hfd := Bool.toNat_le p.fd
  rw [Nat.shiftRight_eq_div_pow]
  unfold headByte
  omega

theorem headWord_lt (p : CANPacket) : headWord p < 4294967296 := by
  have haddr := p.addr.isLt
  have h1 := Bool.toNat_le p.rejected
  have h2 := Bool.toNat_le p.returned
  have h3 := Bool.toNat_le p.extended
  unfold headWord
  omega

def wordOf (h : List UInt8) : Nat :=
  (h.getD 1 0).toNat ||| ((h.getD 2 0).toNat <<< 8) ||| ((h.getD 3 0).toNat <<< 16) |||
    ((h.getD 4 0).toNat <<< 24)

theorem wordOf_header (p : CANPacket) (rest : List UInt8) :
    wordOf (header p ++ rest) = headWord p := by
  have hlt := headWord_lt p
  have h0 : (UInt8.ofNat (headWord p)).toNat = headWord p % 256 := UInt8.toNat_ofNat'
  have h1 : (UInt8.ofNat (headWord p / 256)).toNat = headWord p / 256 % 256 :=
    UInt8.toNat_ofNat'
  have h2 : (UInt8.ofNat (headWord p / 65536)).toNat = headWord p / 65536 % 256 :=
    UInt8.toNat_ofNat'
  have h3 : (UInt8.ofNat (headWord p / 16777216)).toNat = headWord p / 16777216 % 256 :=
    UInt8.toNat_ofNat'
  have hword : wordOf (header p ++ rest) =
      (UInt8.ofNat (headWord p)).toNat ||| ((UInt8.ofNat (headWord p / 256)).toNat <<< 8) |||
        ((UInt8.ofNat (headWord p / 65536)).toNat <<< 16) |||
        ((UInt8.ofNat (headWord p / 16777216)).toNat <<< 24) := rfl
  rw [hword, h0, h1, h2, h3, or_shiftLeft (k := 8) (by omega), or_shiftLeft (k := 16) (by omega),
    or_shiftLeft (k := 24) (by omega)]
  omega

theorem headWord_fields (p : CANPacket) :
    headWord p >>> 3 = p.addr.toNat ∧ (headWord p).testBit 0 = p.rejected ∧
      (headWord p).testBit 1 = p.returned ∧ (headWord p).testBit 2 = p.extended := by
  simp only [Nat.shiftRight_eq_div_pow, Nat.testBit_eq_decide_div_mod_eq]
  unfold headWord
  cases p.rejected <;> cases p.returned <;> cases p.extended <;>
    simp only [Bool.toNat_false, Bool.toNat_true, decide_eq_true_eq, decide_eq_false_iff_not] <;>
    omega

/-- The packet that lies in memory as `h`. -/
def ofImage (h : List UInt8) : CANPacket :=
  { fd := (h.getD 0 0).toNat.testBit 0
    bus := BitVec.ofNat 3 ((h.getD 0 0).toNat >>> 1)
    dataLenCode := BitVec.ofNat 4 ((h.getD 0 0).toNat >>> 4)
    rejected := (wordOf h).testBit 0
    returned := (wordOf h).testBit 1
    extended := (wordOf h).testBit 2
    addr := BitVec.ofNat 29 (wordOf h >>> 3)
    checksum := h.getD 5 0
    data := Vector.ofFn fun i => h.getD (canpacketHeadSize + i) 0 }

theorem ofImage_image (p : CANPacket) (rest : List UInt8) : ofImage (image p ++ rest) = p := by
  have hlt := headByte_lt p
  have hbus := p.bus.isLt
  have hdlc := p.dataLenCode.isLt
  have hfd := Bool.toNat_le p.fd
  have hhead : (image p ++ rest).getD 0 0 = UInt8.ofNat (headByte p) := rfl
  have hcheck : (image p ++ rest).getD 5 0 = p.checksum := rfl
  have hword : wordOf (image p ++ rest) = headWord p := by
    rw [image, List.append_assoc]
    exact wordOf_header p _
  obtain ⟨haddr, hrej, hret, hext⟩ := headWord_fields p
  have hdata : (Vector.ofFn fun i : Fin 8 => (image p ++ rest).getD (canpacketHeadSize + i) 0) =
      p.data := by
    apply Vector.ext
    intro i hi
    have hidx : canpacketHeadSize + i < (image p).length := by
      simp [image, header, canpacketHeadSize]
      omega
    have hcell : (image p ++ rest).getD (canpacketHeadSize + i) 0 = p.data[i] := by
      rw [List.getD_eq_getElem?_getD, List.getElem?_append_left hidx, image,
        List.getElem?_append_right (by simp [header, canpacketHeadSize])]
      simp [header, canpacketHeadSize, hi]
    simpa using hcell
  unfold ofImage
  rw [hhead, headByte_toNat, hcheck, hword, haddr, hrej, hret, hext, hdata]
  cases p with
  | mk fd bus dataLenCode rejected returned extended addr checksum data =>
    simp only [headByte, Nat.shiftRight_eq_div_pow] at *
    congr 1
    · cases fd <;> simp [Nat.testBit_eq_decide_div_mod_eq] <;> omega
    · apply BitVec.eq_of_toNat_eq
      simp only [BitVec.toNat_ofNat]
      omega
    · apply BitVec.eq_of_toNat_eq
      simp only [BitVec.toNat_ofNat]
      omega
    · simp

theorem headByte_ofImage (h : List UInt8) : headByte (ofImage h) = (h.getD 0 0).toNat := by
  have hlt := (h.getD 0 0).toNat_lt
  simp only [headByte, ofImage, BitVec.toNat_ofNat, Nat.shiftRight_eq_div_pow, Nat.toNat_testBit]
  omega

theorem wordOf_eq (h : List UInt8) :
    wordOf h = (h.getD 1 0).toNat + (h.getD 2 0).toNat * 256 + (h.getD 3 0).toNat * 65536 +
      (h.getD 4 0).toNat * 16777216 := by
  have h1 := (h.getD 1 0).toNat_lt
  have h2 := (h.getD 2 0).toNat_lt
  have h3 := (h.getD 3 0).toNat_lt
  unfold wordOf
  rw [or_shiftLeft (k := 8) (by omega), or_shiftLeft (k := 16) (by omega),
    or_shiftLeft (k := 24) (by omega)]
  rfl

theorem headWord_ofImage (h : List UInt8) : headWord (ofImage h) = wordOf h := by
  have hlt : wordOf h < 4294967296 := by
    have h1 := (h.getD 1 0).toNat_lt
    have h2 := (h.getD 2 0).toNat_lt
    have h3 := (h.getD 3 0).toNat_lt
    have h4 := (h.getD 4 0).toNat_lt
    rw [wordOf_eq]
    omega
  simp only [headWord, ofImage, BitVec.toNat_ofNat, Nat.shiftRight_eq_div_pow, Nat.toNat_testBit]
  omega

/-- The bytes a packet was read from are its image. -/
theorem image_ofImage {h : List UInt8} (hlen : 14 ≤ h.length) : image (ofImage h) = h.take 14 := by
  have hbyte : ∀ b : UInt8, ∀ m : Nat, m % 256 = b.toNat → UInt8.ofNat m = b := by
    intro b m hm
    apply UInt8.toNat_inj.1
    rw [UInt8.toNat_ofNat']
    exact hm
  have h0 := (h.getD 0 0).toNat_lt
  have h1 := (h.getD 1 0).toNat_lt
  have h2 := (h.getD 2 0).toNat_lt
  have h3 := (h.getD 3 0).toNat_lt
  have h4 := (h.getD 4 0).toNat_lt
  have hhead : header (ofImage h) =
      [h.getD 0 0, h.getD 1 0, h.getD 2 0, h.getD 3 0, h.getD 4 0, h.getD 5 0] := by
    unfold header
    rw [headByte_ofImage, headWord_ofImage, wordOf_eq, hbyte (h.getD 0 0) _ (by omega),
      hbyte (h.getD 1 0) _ (by omega), hbyte (h.getD 2 0) _ (by omega),
      hbyte (h.getD 3 0) _ (by omega), hbyte (h.getD 4 0) _ (by omega)]
    rfl
  apply List.ext_getElem
  · simp [image, header]
    omega
  · intro i hi hi'
    have hin : i < 14 := by simpa [image, header] using hi
    have hcell : h[i] = h.getD i 0 := by
      rw [List.getD_eq_getElem?_getD, List.getElem?_eq_getElem (by omega)]
      rfl
    rw [List.getElem_take, hcell]
    simp only [image, hhead]
    rcases Nat.lt_or_ge i 6 with hlt | hge
    · rw [List.getElem_append_left (by simpa using hlt)]
      match i, hlt with
      | 0, _ => rfl
      | 1, _ => rfl
      | 2, _ => rfl
      | 3, _ => rfl
      | 4, _ => rfl
      | 5, _ => rfl
    · rw [List.getElem_append_right (by simpa using hge)]
      simp only [ofImage, Vector.getElem_toList, Vector.getElem_ofFn, List.length_cons,
        List.length_nil, canpacketHeadSize]
      congr 1
      omega

/-! ## Checksum -/

def calculateChecksum (dat : List UInt8) : UInt8 := dat.foldl (fun c b => c ^^^ b) 0

def canSetChecksum (p : CANPacket) : CANPacket :=
  { p with checksum := calculateChecksum (packed { p with checksum := 0 }) }

def canCheckChecksum (p : CANPacket) : Bool := calculateChecksum (packed p) == 0

theorem foldl_xor (dat : List UInt8) (c : UInt8) :
    dat.foldl (fun c b => c ^^^ b) c = c ^^^ calculateChecksum dat := by
  unfold calculateChecksum
  induction dat generalizing c with
  | nil => simp
  | cons b dat ih =>
    rw [List.foldl_cons, List.foldl_cons, ih, ih (0 ^^^ b)]
    simp [UInt8.xor_assoc]

theorem calculateChecksum_append (xs ys : List UInt8) :
    calculateChecksum (xs ++ ys) = calculateChecksum xs ^^^ calculateChecksum ys := by
  rw [calculateChecksum, List.foldl_append, foldl_xor]
  rfl

/-- The checksum byte enters the sum once, so setting it makes the sum zero. -/
theorem canSetChecksum_valid (p : CANPacket) : canCheckChecksum (canSetChecksum p) = true := by
  have hsum : ∀ c : UInt8, calculateChecksum (packed { p with checksum := c }) =
      c ^^^ calculateChecksum (packed { p with checksum := 0 }) := by
    intro c
    have hhead : ∀ c : UInt8, calculateChecksum (header { p with checksum := c }) =
        c ^^^ calculateChecksum (header { p with checksum := 0 }) := by
      intro c
      have hsplit : ∀ c : UInt8, header { p with checksum := c } = (header p).take 5 ++ [c] :=
        fun _ => rfl
      rw [hsplit c, hsplit 0, calculateChecksum_append, calculateChecksum_append]
      simp [calculateChecksum, UInt8.xor_comm]
    rw [packed_eq, packed_eq, calculateChecksum_append, calculateChecksum_append, hhead c,
      UInt8.xor_assoc]
    rfl
  simp only [canCheckChecksum, canSetChecksum]
  rw [hsum]
  simp

/-! ## Framing -/

def framed (p : CANPacket) : List UInt8 := canSyncMarker :: packed p

/-! ## Packets of at most eight bytes -/

/-- The data of the packet fits into its `data` array. -/
def Short (p : CANPacket) : Prop := p.dataLenCode.toNat ≤ 8

instance (p : CANPacket) : Decidable (Short p) := inferInstanceAs (Decidable (_ ≤ _))

theorem getLen_of_short {p : CANPacket} (h : Short p) : p.getLen = p.dataLenCode.toNat := by
  have htable : ∀ c : BitVec 4, c.toNat ≤ 8 → dlcToLen c = c.toNat := by decide
  exact htable p.dataLenCode h

theorem packed_length_of_short {p : CANPacket} (h : Short p) :
    (packed p).length = 6 + p.dataLenCode.toNat := by
  have hlen : p.dataLenCode.toNat ≤ 8 := h
  rw [packed_eq, List.length_append, List.length_take, getLen_of_short h]
  simp [header]
  omega

/-- Any other length code stands for twelve bytes or more. -/
theorem getLen_of_not_short {p : CANPacket} (h : ¬ Short p) : 12 ≤ p.getLen := by
  have htable : ∀ c : BitVec 4, ¬ c.toNat ≤ 8 → 12 ≤ dlcToLen c := by decide
  exact htable p.dataLenCode h

def lkasPacket : CANPacket := .eightBytes 0 0x243 (Vector.replicate 8 0)

/-- A steering frame that asks for nothing. -/
def lkasIdle : CANPacket := .eightBytes 0 0x243 #v[0x08, 0, 0, 0, 0, 0, 0, 0]

/-! ## What the host is promised -/

/-- A packet off the bus: a bus of the board, an address of the size its flag says, at most eight
bytes, and a checksum that is right. -/
structure WellFormed (p : CANPacket) : Prop where
  bus : p.bus.toNat ≤ 2
  addr : p.extended = false → p.addr.toNat ≤ 0x7FF
  len : p.dataLenCode.toNat ≤ 8
  checksum : canCheckChecksum p = true

abbrev WirePacket : Type := { p : CANPacket // WellFormed p }

theorem WellFormed.getLen {p : CANPacket} (h : WellFormed p) :
    p.getLen = p.dataLenCode.toNat := getLen_of_short h.len

theorem WellFormed.packed_length {p : CANPacket} (h : WellFormed p) :
    (packed p).length = 6 + p.dataLenCode.toNat := packed_length_of_short h.len

end Usb
end MazdaPort
