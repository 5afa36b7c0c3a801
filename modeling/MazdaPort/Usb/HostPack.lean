import MazdaPort.Usb.Wire
import MazdaPort.Lib.Memory

/-!
# MazdaPort.Usb.HostPack

The host's two packers of CAN messages: `pack_can_buffer` of the Python library and the member of
the same name in `panda.cc`. One works with shifts and a dictionary, the other fills a bit field
and computes the length code; both cut the stream into chunks, at different places.

`packers_agree`: on messages the wire format can carry, for the buses of one panda, they put out the
same bytes, in chunks of whole packets, and the C++ one stays inside `send_buf`.
-/

namespace MazdaPort
namespace Usb

open Safety Memory

/-! ## Messages -/

structure CanMessage where
  address : Nat
  dat : List UInt8
  bus : Nat
  deriving DecidableEq, Repr

/-- What the wire format can carry: 29 bits of address, three of bus, and a length in the table. -/
structure Encodable (m : CanMessage) : Prop where
  address : m.address < 2 ^ 29
  bus : m.bus < 8
  dat : m.dat.length ∈ dlcToLenTable

instance (m : CanMessage) : Decidable (Encodable m) :=
  decidable_of_iff (m.address < 2 ^ 29 ∧ m.bus < 8 ∧ m.dat.length ∈ dlcToLenTable)
    ⟨fun h => ⟨h.1, h.2.1, h.2.2⟩, fun h => ⟨h.address, h.bus, h.dat⟩⟩

def lengthCodeOf (m : CanMessage) : Nat := dlcToLenTable.idxOf m.dat.length

/-- The word at bytes 1 to 4, with the two status bits clear. -/
def wireWord (m : CanMessage) : Nat := 8 * m.address + if 0x800 ≤ m.address then 4 else 0

/-- The header without its checksum. -/
def wireHead (fd : Bool) (m : CanMessage) : List UInt8 :=
  [UInt8.ofNat (fd.toNat + 2 * m.bus + 16 * lengthCodeOf m), UInt8.ofNat (wireWord m),
    UInt8.ofNat (wireWord m / 256), UInt8.ofNat (wireWord m / 65536),
    UInt8.ofNat (wireWord m / 16777216)]

/-- A message on the wire. -/
def wireImage (fd : Bool) (m : CanMessage) : List UInt8 :=
  wireHead fd m ++ calculateChecksum (wireHead fd m ++ m.dat) :: m.dat

theorem wireImage_length (fd : Bool) (m : CanMessage) :
    (wireImage fd m).length = canpacketHeadSize + m.dat.length := by
  simp [wireImage, wireHead, canpacketHeadSize]
  omega

theorem wireImage_checksum (fd : Bool) (m : CanMessage) :
    calculateChecksum (wireImage fd m) = 0 := by
  have hcons : ∀ c : UInt8, ∀ xs, calculateChecksum (c :: xs) = c ^^^ calculateChecksum xs := by
    intro c xs
    have happ := calculateChecksum_append [c] xs
    simpa [calculateChecksum] using happ
  rw [wireImage, calculateChecksum_append, hcons, calculateChecksum_append]
  rw [UInt8.xor_assoc, UInt8.xor_self, UInt8.xor_zero, UInt8.xor_self]

/-! ## `pack_can_buffer` -/

inductive PackError where
  | assertionError
  | valueError
  deriving DecidableEq, Repr

/-- `LEN_TO_DLC.get`. -/
def lenToDlcDict (len : Nat) : Option Nat :=
  if len ∈ dlcToLenTable then some (dlcToLenTable.idxOf len) else none

/-- The loop body, up to the bytes it appends. A bytearray takes no value above 255. -/
def packMessage (fd : Bool) (m : CanMessage) : Except PackError (List UInt8) :=
  match lenToDlcDict m.dat.length with
  | none => .error .assertionError
  | some dataLenCode =>
    let extended := if m.address ≥ 0x800 then 1 else 0
    let word4b := (m.address <<< 3) ||| (extended <<< 2)
    let head := (dataLenCode <<< 4) ||| (m.bus <<< 1) ||| fd.toNat
    if 255 < head then .error .valueError
    else
      let header := [UInt8.ofNat head, UInt8.ofNat (word4b &&& 0xFF),
        UInt8.ofNat ((word4b >>> 8) &&& 0xFF), UInt8.ofNat ((word4b >>> 16) &&& 0xFF),
        UInt8.ofNat ((word4b >>> 24) &&& 0xFF)]
      .ok (header ++ [calculateChecksum (header ++ m.dat)] ++ m.dat)

/-- The loop: `done` are the chunks before the last one. -/
def packLoop (fd : Bool) : List CanMessage → List (List UInt8) → List UInt8 →
    Except PackError (List (List UInt8))
  | [], done, last => .ok (done ++ [last])
  | m :: arr, done, last =>
    match packMessage fd m with
    | .error e => .error e
    | .ok bytes =>
      -- Limit chunks to 256 bytes
      if (last ++ bytes).length > 256 then packLoop fd arr (done ++ [last ++ bytes]) []
      else packLoop fd arr done (last ++ bytes)

def packCanBuffer (arr : List CanMessage) (fd : Bool) : Except PackError (List (List UInt8)) :=
  packLoop fd arr [] []

/-! ## `Panda::pack_can_buffer` -/

def usbTxSoftLimit : Nat := 0x100

def pandaBusOffset : Nat := 4

def lenToDlc (len : Nat) : Nat :=
  if len ≤ 8 then len
  else if len ≤ 24 then 8 + (len - 8) / 4 + (if len % 4 ≠ 0 then 1 else 0)
  else 11 + len / 16 + (if len % 16 ≠ 0 then 1 else 0)

/-- `can_header`, a packed bit field, with a checksum of zero in its last byte. -/
def canHeader (m : CanMessage) (dataLenCode : Nat) : List UInt8 :=
  let word := 4 * (if m.address ≥ 0x800 then 1 else 0) + 8 * (m.address % 2 ^ 29)
  [UInt8.ofNat (2 * (m.bus % 8) + 16 * (dataLenCode % 16)), UInt8.ofNat word,
    UInt8.ofNat (word / 256), UInt8.ofNat (word / 65536), UInt8.ofNat (word / 16777216), 0]

/-- The chunks handed to `write_func`, and the copies into `send_buf`. -/
structure PackedChunks where
  chunks : List (List UInt8)
  copies : List Access

def sendBufCopy (off len : Nat) : Access := { size := 2 * usbTxSoftLimit, off := off, len := len }

/-- The loop: `sendBuf` are the `pos` bytes in `send_buf`. `none` is a failed assertion. -/
def packLoopCpp : List CanMessage → List UInt8 → Option PackedChunks
  | [], sendBuf => some { chunks := if sendBuf.length > 0 then [sendBuf] else [], copies := [] }
  | m :: canDataList, sendBuf =>
    if m.bus ≥ pandaBusOffset then packLoopCpp canDataList sendBuf
    else
      let dataLenCode := lenToDlc (m.dat.length % 256)
      if m.dat.length ≤ 64 ∧ m.dat.length = dlcToLenTable.getD dataLenCode 0 then
        let header := canHeader m dataLenCode
        let pos := sendBuf.length
        let copies := [sendBufCopy pos header.length,
          sendBufCopy (pos + header.length) m.dat.length]
        let bytes := header.set 5 (calculateChecksum (header ++ m.dat)) ++ m.dat
        let pos := pos + (header.length + m.dat.length)
        if pos ≥ usbTxSoftLimit then
          (packLoopCpp canDataList []).map fun r =>
            { chunks := (sendBuf ++ bytes) :: r.chunks, copies := copies ++ r.copies }
        else
          (packLoopCpp canDataList (sendBuf ++ bytes)).map fun r =>
            { r with copies := copies ++ r.copies }
      else none

def packCanBufferCpp (canDataList : List CanMessage) : Option PackedChunks :=
  packLoopCpp canDataList []

/-! ## Both put out the image -/

section Headers

variable {m : CanMessage}

theorem lengthCode_spec (h : Encodable m) :
    lengthCodeOf m < 16 ∧ dlcToLenTable.getD (lengthCodeOf m) 0 = m.dat.length := by
  have hlt : lengthCodeOf m < dlcToLenTable.length := List.idxOf_lt_length_of_mem h.dat
  refine ⟨hlt, ?_⟩
  rw [List.getD_eq_getElem?_getD, List.getElem?_eq_getElem hlt]
  exact List.getElem_idxOf hlt

theorem wireWord_lt (h : Encodable m) : wireWord m < 4294967296 := by
  have haddr := h.address
  unfold wireWord
  split <;> omega

theorem ofNat_and_255 (x : Nat) : UInt8.ofNat (x &&& 0xFF) = UInt8.ofNat x := by
  have hmask : (0xFF : Nat) = 2 ^ 8 - 1 := rfl
  apply UInt8.toNat_inj.1
  rw [hmask, Nat.and_two_pow_sub_one_eq_mod, UInt8.toNat_ofNat', UInt8.toNat_ofNat']
  omega

/-- Python's shifts. -/
theorem packMessage_ok (h : Encodable m) (fd : Bool) :
    packMessage fd m = .ok (wireImage fd m) := by
  obtain ⟨hcode, -⟩ := lengthCode_spec h
  have hbus := h.bus
  have hfd := Bool.toNat_le fd
  have hdict : lenToDlcDict m.dat.length = some (lengthCodeOf m) := if_pos h.dat
  have hhead : (lengthCodeOf m <<< 4) ||| (m.bus <<< 1) ||| fd.toNat =
      fd.toNat + 2 * m.bus + 16 * lengthCodeOf m := by
    rw [Nat.or_assoc, Nat.or_comm, Nat.or_comm (m.bus <<< 1), or_shiftLeft (k := 1) (by omega),
      or_shiftLeft (k := 4) (by omega)]
    omega
  have hword : (m.address <<< 3) ||| ((if m.address ≥ 0x800 then 1 else 0) <<< 2) =
      wireWord m := by
    unfold wireWord
    split
    · rw [Nat.or_comm, or_shiftLeft (k := 3) (by decide), Nat.shiftLeft_eq]
      omega
    · rw [Nat.zero_shiftLeft, Nat.or_zero, Nat.shiftLeft_eq]
      omega
  unfold packMessage
  rw [hdict]
  simp only [hhead, hword, ofNat_and_255, Nat.shiftRight_eq_div_pow, Nat.reducePow]
  rw [if_neg (by omega)]
  simp only [wireImage, wireHead, List.cons_append, List.nil_append]

theorem lenToDlc_eq {len : Nat} (h : len ∈ dlcToLenTable) :
    len ≤ 64 ∧ lenToDlc (len % 256) = dlcToLenTable.idxOf len := by
  simp only [dlcToLenTable, List.mem_cons, List.not_mem_nil, or_false] at h
  rcases h with rfl | rfl | rfl | rfl | rfl | rfl | rfl | rfl | rfl | rfl | rfl | rfl | rfl | rfl |
    rfl | rfl <;> decide

/-- The bit field. -/
theorem canHeader_eq (h : Encodable m) :
    canHeader m (lengthCodeOf m) = wireHead false m ++ [0] := by
  obtain ⟨hcode, -⟩ := lengthCode_spec h
  have hbus : m.bus % 8 = m.bus := Nat.mod_eq_of_lt h.bus
  have haddr : m.address % 2 ^ 29 = m.address := Nat.mod_eq_of_lt h.address
  have hfour : lengthCodeOf m % 16 = lengthCodeOf m := Nat.mod_eq_of_lt hcode
  have hword : 4 * (if m.address ≥ 0x800 then 1 else 0) + 8 * m.address = wireWord m := by
    unfold wireWord
    split <;> omega
  simp only [canHeader, wireHead, hbus, haddr, hfour, hword, List.cons_append, List.nil_append]
  simp

/-- A checksum field of zero does not change the sum. -/
theorem canHeader_bytes (h : Encodable m) :
    (canHeader m (lengthCodeOf m)).set 5
        (calculateChecksum (canHeader m (lengthCodeOf m) ++ m.dat)) ++ m.dat =
      wireImage false m := by
  have hsum : calculateChecksum (wireHead false m ++ [0] ++ m.dat) =
      calculateChecksum (wireHead false m ++ m.dat) := by
    have hzero : calculateChecksum [(0 : UInt8)] = 0 := rfl
    rw [calculateChecksum_append, calculateChecksum_append, calculateChecksum_append, hzero]
    simp
  rw [canHeader_eq h, hsum]
  simp [wireImage, wireHead]

end Headers

/-! ## Chunks -/

/-- The chunks hold whole packets, the packets of `arr` in order. -/
def Whole (fd : Bool) (chunks : List (List UInt8)) (arr : List CanMessage) : Prop :=
  ∃ groups : List (List CanMessage), groups.flatten = arr ∧
    chunks = groups.map fun g => g.flatMap (wireImage fd)

theorem Whole.flatten {fd : Bool} {chunks : List (List UInt8)} {arr : List CanMessage}
    (h : Whole fd chunks arr) : chunks.flatten = arr.flatMap (wireImage fd) := by
  obtain ⟨groups, rfl, rfl⟩ := h
  induction groups with
  | nil => rfl
  | cons g groups ih => simp [ih]

theorem Encodable.length_le {m : CanMessage} (h : Encodable m) (fd : Bool) :
    6 ≤ (wireImage fd m).length ∧ (wireImage fd m).length ≤ 70 := by
  have hle := (lenToDlc_eq h.dat).1
  rw [wireImage_length, canpacketHeadSize]
  omega

theorem packLoop_whole {fd : Bool} {arr : List CanMessage} (harr : ∀ m ∈ arr, Encodable m)
    {done : List (List UInt8)} {before g : List CanMessage} (hdone : Whole fd done before)
    (hlast : (g.flatMap (wireImage fd)).length ≤ 256)
    (hlens : ∀ c ∈ done, c.length ≤ 326) :
    ∃ snds, packLoop fd arr done (g.flatMap (wireImage fd)) = .ok snds ∧
      Whole fd snds (before ++ g ++ arr) ∧ ∀ c ∈ snds, c.length ≤ 326 := by
  induction arr generalizing done before g with
  | nil =>
    obtain ⟨groups, hflat, hmap⟩ := hdone
    refine ⟨done ++ [g.flatMap (wireImage fd)], rfl, ⟨groups ++ [g], ?_, ?_⟩, ?_⟩
    · simp [hflat]
    · simp [hmap]
    · intro c hc
      rcases List.mem_append.1 hc with hold | hnew
      · exact hlens c hold
      · rw [List.mem_singleton.1 hnew]
        omega
  | cons m arr ih =>
    have hm := harr m List.mem_cons_self
    have harr' : ∀ m' ∈ arr, Encodable m' := fun m' h' => harr m' (List.mem_cons_of_mem m h')
    have hlen := hm.length_le fd
    have hgrown : g.flatMap (wireImage fd) ++ wireImage fd m =
        (g ++ [m]).flatMap (wireImage fd) := by simp
    have hsize : ((g ++ [m]).flatMap (wireImage fd)).length =
        (g.flatMap (wireImage fd)).length + (wireImage fd m).length := by
      rw [← hgrown, List.length_append]
    simp only [packLoop, packMessage_ok hm fd, hgrown]
    split
    · have hdone' : Whole fd (done ++ [(g ++ [m]).flatMap (wireImage fd)])
          (before ++ (g ++ [m])) := by
        obtain ⟨groups, hflat, hmap⟩ := hdone
        exact ⟨groups ++ [g ++ [m]], by simp [hflat], by simp [hmap]⟩
      have hlens' : ∀ c ∈ done ++ [(g ++ [m]).flatMap (wireImage fd)], c.length ≤ 326 := by
        intro c hc
        rcases List.mem_append.1 hc with hold | hnew
        · exact hlens c hold
        · rw [List.mem_singleton.1 hnew]
          omega
      obtain ⟨snds, hok, hwhole, hle⟩ := ih harr' (g := []) hdone' (by simp) hlens'
      exact ⟨snds, hok, by simpa using hwhole, hle⟩
    · obtain ⟨snds, hok, hwhole, hle⟩ := ih harr' (g := g ++ [m]) hdone (by omega) hlens
      exact ⟨snds, hok, by simpa using hwhole, hle⟩

/-- `pack_can_buffer` raises nothing on messages the format can carry. -/
theorem packCanBuffer_whole {arr : List CanMessage} (harr : ∀ m ∈ arr, Encodable m) (fd : Bool) :
    ∃ snds, packCanBuffer arr fd = .ok snds ∧ Whole fd snds arr ∧ ∀ c ∈ snds, c.length ≤ 326 := by
  have hnone : Whole fd [] [] := ⟨[], rfl, rfl⟩
  have hloop := packLoop_whole harr (g := []) hnone (by simp) (by simp)
  simpa [packCanBuffer] using hloop

/-- The messages that the C++ packer does not leave out. -/
def forThisPanda (arr : List CanMessage) : List CanMessage :=
  arr.filter fun m => m.bus < pandaBusOffset

theorem packLoopCpp_whole {arr : List CanMessage} (harr : ∀ m ∈ arr, Encodable m)
    {g : List CanMessage} (hlast : (g.flatMap (wireImage false)).length < 256) :
    ∃ r, packLoopCpp arr (g.flatMap (wireImage false)) = some r ∧
      Whole false r.chunks (g ++ forThisPanda arr) ∧
        (∀ c ∈ r.chunks, 0 < c.length ∧ c.length ≤ 325) ∧ ∀ a ∈ r.copies, a.Inside := by
  induction arr generalizing g with
  | nil =>
    refine ⟨_, rfl, ?_, ?_, by simp⟩
    · split
      · exact ⟨[g], by simp [forThisPanda], by simp⟩
      · next hzero =>
        cases g with
        | nil => exact ⟨[], rfl, rfl⟩
        | cons m g =>
          rw [List.flatMap_cons, List.length_append, wireImage_length, canpacketHeadSize] at hzero
          omega
    · intro c hc
      split at hc
      · next hpos =>
        rw [List.mem_singleton.1 hc]
        omega
      · cases hc
  | cons m arr ih =>
    have hm := harr m List.mem_cons_self
    have harr' : ∀ m' ∈ arr, Encodable m' := fun m' h' => harr m' (List.mem_cons_of_mem m h')
    simp only [packLoopCpp]
    by_cases hbus : m.bus ≥ pandaBusOffset
    · rw [if_pos hbus]
      have hskip : forThisPanda (m :: arr) = forThisPanda arr := by
        simp [forThisPanda, Nat.not_lt.2 hbus]
      rw [hskip]
      exact ih harr' hlast
    · obtain ⟨hle, hcode⟩ := lenToDlc_eq hm.dat
      have htake : forThisPanda (m :: arr) = m :: forThisPanda arr := by
        simp [forThisPanda, Nat.not_le.1 hbus]
      have hlen := hm.length_le false
      have hgrown : g.flatMap (wireImage false) ++ wireImage false m =
          (g ++ [m]).flatMap (wireImage false) := by simp
      have hsize : ((g ++ [m]).flatMap (wireImage false)).length =
          (g.flatMap (wireImage false)).length + (wireImage false m).length := by
        rw [← hgrown, List.length_append]
      have hcodeOf : lenToDlc (m.dat.length % 256) = lengthCodeOf m := hcode
      have hhead : ∀ code, (canHeader m code).length = 6 := fun _ => rfl
      have himage := wireImage_length false m
      have hinside : ∀ a ∈ [sendBufCopy (g.flatMap (wireImage false)).length 6,
          sendBufCopy ((g.flatMap (wireImage false)).length + 6) m.dat.length],
          a.Inside := by
        intro a ha
        simp only [List.mem_cons, List.not_mem_nil, or_false] at ha
        rcases ha with rfl | rfl <;>
        · simp only [sendBufCopy, usbTxSoftLimit, Access.Inside]
          omega
      rw [if_neg hbus, hcodeOf, if_pos ⟨hle, (lengthCode_spec hm).2.symm⟩, canHeader_bytes hm,
        hgrown]
      simp only [hhead]
      rw [himage, canpacketHeadSize] at hsize
      split
      · next hfull =>
        obtain ⟨r, hr, hwhole, hlens, hcopies⟩ := ih harr' (g := []) (by simp)
        rw [List.flatMap_nil] at hr
        refine ⟨_, by rw [hr]; rfl, ?_, ?_, ?_⟩
        · obtain ⟨groups, hflat, hmap⟩ := hwhole
          refine ⟨(g ++ [m]) :: groups, ?_, ?_⟩
          · simp [hflat, htake]
          · simp [hmap]
        · intro c hc
          rcases List.mem_cons.1 hc with rfl | hlater
          · simp only [usbTxSoftLimit] at hfull
            omega
          · exact hlens c hlater
        · intro a ha
          rcases List.mem_append.1 ha with hnow | hlater
          · exact hinside a hnow
          · exact hcopies a hlater
      · next hroom =>
        simp only [usbTxSoftLimit] at hroom
        obtain ⟨r, hr, hwhole, hlens, hcopies⟩ := ih harr' (g := g ++ [m]) (by omega)
        refine ⟨_, by rw [hr]; rfl, ?_, ?_, ?_⟩
        · rw [htake]
          simpa using hwhole
        · exact hlens
        · intro a ha
          rcases List.mem_append.1 ha with hnow | hlater
          · exact hinside a hnow
          · exact hcopies a hlater

/-- On messages the format can carry, for buses below 4, both packers put out the same bytes in
chunks of whole packets, and neither fails. The C++ one writes inside `send_buf`, and none of its
chunks is empty. -/
theorem packers_agree {arr : List CanMessage} (harr : ∀ m ∈ arr, Encodable m)
    (hbus : ∀ m ∈ arr, m.bus < pandaBusOffset) :
    ∃ snds r, packCanBuffer arr false = .ok snds ∧ packCanBufferCpp arr = some r ∧
      Whole false snds arr ∧ Whole false r.chunks arr ∧ snds.flatten = r.chunks.flatten ∧
        (∀ c ∈ snds, c.length ≤ 326) ∧ (∀ c ∈ r.chunks, 0 < c.length ∧ c.length ≤ 325) ∧
          ∀ a ∈ r.copies, a.Inside := by
  have hmine : forThisPanda arr = arr :=
    List.filter_eq_self.2 fun m hm => decide_eq_true (hbus m hm)
  obtain ⟨snds, hok, hwhole, hlens⟩ := packCanBuffer_whole harr false
  obtain ⟨r, hr, hwhole', hlens', hcopies⟩ := packLoopCpp_whole harr (g := []) (by simp)
  rw [List.flatMap_nil] at hr
  rw [List.nil_append, hmine] at hwhole'
  refine ⟨snds, r, hok, hr, hwhole, hwhole', ?_, hlens, hlens', hcopies⟩
  rw [hwhole.flatten, hwhole'.flatten]

/-- A steering frame, a diagnostic request with an address of 29 bits, and messages of twelve bytes
that fill a chunk. -/
def mixedMessages : List CanMessage :=
  [{ address := 0x243, dat := [8, 0, 0, 0, 0, 0, 0, 0], bus := 0 },
    { address := 0x18DAB0F1, dat := [2, 0x3E, 0x80], bus := 2 }] ++
    List.replicate 15 { address := 0x764, dat := List.replicate 12 0, bus := 1 }

theorem packers_agree_mixed :
    ∃ snds r, packCanBuffer mixedMessages false = .ok snds ∧
      packCanBufferCpp mixedMessages = some r ∧
      Whole false snds mixedMessages ∧ Whole false r.chunks mixedMessages ∧
        snds.flatten = r.chunks.flatten ∧ (∀ c ∈ snds, c.length ≤ 326) ∧
          (∀ c ∈ r.chunks, 0 < c.length ∧ c.length ≤ 325) ∧ ∀ a ∈ r.copies, a.Inside :=
  packers_agree (by decide) (by decide)

end Usb
end MazdaPort
