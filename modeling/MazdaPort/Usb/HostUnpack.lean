import MazdaPort.Lib.Framing
import MazdaPort.Lib.Run
import MazdaPort.Usb.HostPack

/-!
# MazdaPort.Usb.HostUnpack

The host's two readers of an unmarked packet stream: `unpack_can_buffer` and `can_recv` of the
Python library, which keep the tail in a byte string and raise on a bad checksum, and the members
of `panda.cc`, which keep it at the beginning of `receive_buffer` and throw it away.

`unpackers_agree`: on any reads at all they return the same frames for as long as no checksum is
bad, the tail stays under 70 bytes, and no copy leaves `receive_buffer`.
`unpack_pack`: what either packer packed is read back, however the stream is cut.
-/

namespace MazdaPort
namespace Usb

open Safety Framing Memory

/-! ## `unpack_can_buffer` -/

def canReturnedBusOffset : Nat := 0x80

def canRejectedBusOffset : Nat := 0xC0

def packetLen (dat : List UInt8) : Nat :=
  canpacketHeadSize + dlcToLenTable.getD ((dat.getD 0 0).toNat >>> 4) 0

/-- The packet at the head of `dat`, as the host lists it. -/
def messageOf (dat : List UInt8) : CanMessage :=
  { address := wordOf dat >>> 3
    dat := (dat.take (packetLen dat)).drop canpacketHeadSize
    bus := ((dat.getD 0 0).toNat >>> 1) % 8 +
      (if (wordOf dat).testBit 1 then canReturnedBusOffset else 0) +
      (if (wordOf dat).testBit 0 then canRejectedBusOffset else 0) }

/-- The loop; `none` is the failed assertion. -/
def unpackLoop : Nat → List UInt8 → List CanMessage → Option (List CanMessage × List UInt8)
  | 0, dat, ret => some (ret, dat)
  | k + 1, dat, ret =>
    if canpacketHeadSize ≤ dat.length then
      -- we need more from the next transfer
      if dat.length - canpacketHeadSize < packetLen dat - canpacketHeadSize then some (ret, dat)
      else if calculateChecksum (dat.take (packetLen dat)) = 0 then
        unpackLoop k (dat.drop (packetLen dat)) (ret ++ [messageOf dat])
      else none
    else some (ret, dat)

def unpackCanBuffer (dat : List UInt8) : Option (List CanMessage × List UInt8) :=
  unpackLoop dat.length dat []

/-- `can_recv`: the overflow buffer is assigned only if `unpack_can_buffer` returns. -/
def canRecv (overflow dat : List UInt8) : Option (List CanMessage) × List UInt8 :=
  match unpackCanBuffer (overflow ++ dat) with
  | some (msgs, rest) => (some msgs, rest)
  | none => (none, overflow)

/-! ## `Panda::can_receive` -/

def recvSize : Nat := 0x4000

/-- `RECV_SIZE + sizeof(can_header) + 64`. -/
def receiveBufferSize : Nat := 16454

structure PandaRx where
  buffer : Vector UInt8 receiveBufferSize
  size : Nat

/-- What a parse returns: its verdict, the frames put out, and `pos` or, after a bad checksum, `none`
for `size = 0`. -/
structure Parsed where
  frames : List CanMessage
  pos : Option Nat
  copies : List Access

def receiveCopy (off len : Nat) : Access := { size := receiveBufferSize, off := off, len := len }

/-- The frame put out for the packet at `pos`. -/
def canData (data : Vector UInt8 receiveBufferSize) (pos dataLen : Nat) : CanMessage :=
  let header := load data pos canpacketHeadSize
  { address := wordOf header >>> 3
    dat := load data (pos + canpacketHeadSize) dataLen
    bus := ((header.getD 0 0).toNat >>> 1) % 8 +
      (if (wordOf header).testBit 0 then canRejectedBusOffset else 0) +
      (if (wordOf header).testBit 1 then canReturnedBusOffset else 0) }

def dataLenAt (data : Vector UInt8 receiveBufferSize) (pos : Nat) : Nat :=
  dlcToLenTable.getD (((load data pos canpacketHeadSize).getD 0 0).toNat >>> 4) 0

/-- The loop of `unpack_can_buffer`. The guard is unsigned, so with less than a header in the buffer
it is true, and the header read is what older data left there. -/
def parseLoop (data : Vector UInt8 receiveBufferSize) (size : Nat) :
    Nat → Nat → List CanMessage → List Access → Parsed
  | 0, pos, out, copies => { frames := out, pos := some pos, copies := copies }
  | k + 1, pos, out, copies =>
    if pos ≤ (size + 2 ^ 64 - canpacketHeadSize) % 2 ^ 64 then
      let copies := copies ++ [receiveCopy pos canpacketHeadSize]
      let dataLen := dataLenAt data pos
      if pos + canpacketHeadSize + dataLen > size then
        -- we don't have all the data for this message yet
        { frames := out, pos := some pos, copies := copies }
      else
        let copies := copies ++ [receiveCopy pos (canpacketHeadSize + dataLen)]
        if calculateChecksum (load data pos (canpacketHeadSize + dataLen)) ≠ 0 then
          { frames := out, pos := none, copies := copies }
        else
          parseLoop data size k (pos + (canpacketHeadSize + dataLen))
            (out ++ [canData data pos dataLen]) copies
    else { frames := out, pos := some pos, copies := copies }

/-- A call of `can_receive`: its result, the frames, the copies and the buffer afterwards. -/
structure Receiving where
  ret : Bool
  frames : List CanMessage
  copies : List Access
  rx : PandaRx

/-- The end of `unpack_can_buffer`. -/
def afterParse (data : Vector UInt8 receiveBufferSize) (size : Nat) (r : Parsed) : Receiving :=
  match r.pos with
  | none =>
    { ret := false, frames := r.frames, copies := r.copies, rx := { buffer := data, size := 0 } }
  | some pos =>
    -- move the overflowing data to the beginning of the buffer for the next round
    { ret := true
      frames := r.frames
      copies := r.copies ++ [receiveCopy 0 (size - pos), receiveCopy pos (size - pos)]
      rx := { buffer := store data 0 (load data pos (size - pos)), size := size - pos } }

/-- `can_receive`, where the read leaves `recv` in the buffer and the link `healthy` or not. `none`
is the failed assertion. -/
def canReceive (recv : List UInt8) (healthy : Bool) (p : PandaRx) : Option Receiving :=
  if p.size + recvSize ≤ receiveBufferSize then
    let data := store p.buffer p.size recv
    let copies := [receiveCopy p.size recv.length]
    if !healthy then
      some { ret := false, frames := [], copies := copies, rx := { p with buffer := data } }
    else if 0 < recv.length then
      let size := p.size + recv.length
      some (afterParse data size (parseLoop data size (size + 1) 0 [] copies))
    else some { ret := true, frames := [], copies := copies, rx := { p with buffer := data } }
  else none

/-! ## The packets of an unmarked stream -/

theorem packetLen_bounds (dat : List UInt8) : 6 ≤ packetLen dat ∧ packetLen dat ≤ 70 := by
  have hlen := dlcToLenTable_le ((dat.getD 0 0).toNat >>> 4)
  simp only [packetLen, canpacketHeadSize]
  omega

def unpackScan (_ : Unit) (dat : List UInt8) : Option (Unit × Option CanMessage × Nat) :=
  if packetLen dat ≤ dat.length ∧ calculateChecksum (dat.take (packetLen dat)) = 0 then
    some ((), some (messageOf dat), packetLen dat)
  else none

theorem unpackScan_pos (st : Unit) (dat : List UInt8) (r : Unit × Option CanMessage × Nat)
    (h : unpackScan st dat = some r) : 0 < r.2.2 ∧ r.2.2 ≤ dat.length := by
  have hb := (packetLen_bounds dat).1
  unfold unpackScan at h
  split at h
  · next hc =>
    cases h
    exact ⟨by dsimp only; omega, hc.1⟩
  · cases h

def unpacker : Scanner Unit UInt8 CanMessage := { scan := unpackScan, pos := unpackScan_pos }

/-- A whole packet with a bad checksum comes first. -/
def Bad (dat : List UInt8) : Prop :=
  packetLen dat ≤ dat.length ∧ calculateChecksum (dat.take (packetLen dat)) ≠ 0

instance (dat : List UInt8) : Decidable (Bad dat) := inferInstanceAs (Decidable (_ ∧ _))

section Streams

variable {dat more : List UInt8}

theorem packetLen_append (h : 0 < dat.length) : packetLen (dat ++ more) = packetLen dat := by
  cases dat with
  | nil => cases h
  | cons b dat => rfl

theorem take_whole (h : packetLen dat ≤ dat.length) :
    packetLen (dat ++ more) = packetLen dat ∧
      (dat ++ more).take (packetLen dat) = dat.take (packetLen dat) := by
  have hb := (packetLen_bounds dat).1
  exact ⟨packetLen_append (by omega), List.take_append_of_le_length h⟩

theorem getD_append (h : 6 ≤ dat.length) {i : Nat} (hi : i < 6) :
    (dat ++ more).getD i 0 = dat.getD i 0 := by
  rw [List.getD_eq_getElem?_getD, List.getD_eq_getElem?_getD,
    List.getElem?_append_left (by omega)]

theorem messageOf_append (h : packetLen dat ≤ dat.length) :
    messageOf (dat ++ more) = messageOf dat := by
  have hb := (packetLen_bounds dat).1
  obtain ⟨hlen, htake⟩ : packetLen (dat ++ more) = packetLen dat ∧
      (dat ++ more).take (packetLen dat) = dat.take (packetLen dat) := take_whole h
  have hword : wordOf (dat ++ more) = wordOf dat := by
    unfold wordOf
    rw [getD_append (by omega) (by omega), getD_append (by omega) (by omega),
      getD_append (by omega) (by omega), getD_append (by omega) (by omega)]
  simp only [messageOf, hlen, htake, hword, getD_append (by omega : 6 ≤ dat.length) (by omega : 0 < 6)]

theorem unpacker_stable : unpacker.Stable := by
  intro st xs ys r h
  have hscan : unpackScan st xs = some r := h
  unfold unpackScan at hscan
  split at hscan
  · next hc =>
    obtain ⟨hlen, htake⟩ : packetLen (xs ++ ys) = packetLen xs ∧
        (xs ++ ys).take (packetLen xs) = xs.take (packetLen xs) := take_whole hc.1
    have hmore : packetLen xs ≤ (xs ++ ys).length := by
      rw [List.length_append]
      omega
    have hgoal : unpackScan st (xs ++ ys) = some r := by
      rw [unpackScan, hlen, htake, if_pos ⟨hmore, hc.2⟩, messageOf_append hc.1]
      exact hscan
    exact hgoal
  · cases hscan

theorem Bad.append (h : Bad dat) : Bad (dat ++ more) := by
  obtain ⟨hlen, htake⟩ : packetLen (dat ++ more) = packetLen dat ∧
      (dat ++ more).take (packetLen dat) = dat.take (packetLen dat) := take_whole h.1
  unfold Bad
  rw [hlen, htake, List.length_append]
  exact ⟨Nat.le_add_right_of_le h.1, h.2⟩

theorem Bad.waits (h : Bad dat) : unpacker.scan () dat = none :=
  if_neg fun hc => h.2 hc.2

/-- What waits is a packet in part or a bad one. -/
theorem waits_cases (h : unpacker.scan () dat = none) : Bad dat ∨ dat.length < packetLen dat := by
  by_cases hlen : packetLen dat ≤ dat.length
  · left
    refine ⟨hlen, fun hsum => ?_⟩
    have hscan : unpacker.scan () dat = some ((), some (messageOf dat), packetLen dat) :=
      if_pos ⟨hlen, hsum⟩
    rw [hscan] at h
    cases h
  · exact .inr (Nat.lt_of_not_le hlen)

theorem drain_waits (dat : List UInt8) :
    unpacker.scan () (unpacker.drain () dat).2.2 = none :=
  (unpacker.drain_ends () dat).waits

end Streams

/-! ## The Python reader -/

theorem unpackLoop_eq {k : Nat} {dat : List UInt8} (hk : dat.length ≤ k) (ret : List CanMessage) :
    unpackLoop k dat ret =
      if Bad (unpacker.drain () dat).2.2 then none
      else some (ret ++ (unpacker.drain () dat).1, (unpacker.drain () dat).2.2) := by
  induction k generalizing dat ret with
  | zero =>
    have hnil : dat = [] := List.eq_nil_of_length_eq_zero (Nat.le_zero.1 hk)
    subst hnil
    have hgood : ¬ Bad [] := by decide
    rw [unpacker.drain_none (unpacker.scan_nil ()), if_neg hgood, List.append_nil]
    rfl
  | succ k ih =>
    have hb := (packetLen_bounds dat).1
    have hsix : canpacketHeadSize = 6 := rfl
    simp only [unpackLoop]
    by_cases hlen : packetLen dat ≤ dat.length
    · have hhead : canpacketHeadSize ≤ dat.length := by omega
      have hall : ¬ dat.length - canpacketHeadSize < packetLen dat - canpacketHeadSize := by omega
      rw [if_pos hhead, if_neg hall]
      by_cases hsum : calculateChecksum (dat.take (packetLen dat)) = 0
      · have hscan : unpacker.scan () dat = some ((), some (messageOf dat), packetLen dat) :=
          if_pos ⟨hlen, hsum⟩
        rw [if_pos hsum, ih (by rw [List.length_drop]; omega), unpacker.drain_some hscan]
        simp only [Option.toList_some, List.append_assoc]
      · have hbad : Bad dat := ⟨hlen, hsum⟩
        rw [if_neg hsum, unpacker.drain_none hbad.waits, if_pos hbad]
    · have hwait : unpacker.scan () dat = none := if_neg fun hc => hlen hc.1
      have hgood : ¬ Bad dat := fun hbad => hlen hbad.1
      rw [unpacker.drain_none hwait, if_neg hgood, List.append_nil]
      split
      · next hhead =>
        have hmore : dat.length - canpacketHeadSize < packetLen dat - canpacketHeadSize := by omega
        rw [if_pos hmore]
      · rfl

theorem canRecv_eq (overflow dat : List UInt8) :
    canRecv overflow dat =
      if Bad (unpacker.drain () (overflow ++ dat)).2.2 then (none, overflow)
      else (some (unpacker.drain () (overflow ++ dat)).1,
        (unpacker.drain () (overflow ++ dat)).2.2) := by
  rw [canRecv, unpackCanBuffer, unpackLoop_eq (le_refl _), List.nil_append]
  by_cases hbad : Bad (unpacker.drain () (overflow ++ dat)).2.2
  · simp only [if_pos hbad]
  · simp only [if_neg hbad]

/-! ## The C++ reader -/

section Buffer

variable {data : Vector UInt8 receiveBufferSize} {size pos : Nat}

/-- The bytes not parsed yet. -/
def unread (data : Vector UInt8 receiveBufferSize) (size pos : Nat) : List UInt8 :=
  load data pos (size - pos)

theorem unread_length (hsize : size ≤ receiveBufferSize) (hpos : pos ≤ size) :
    (unread data size pos).length = size - pos := load_length data (by omega)

theorem load_unread {j : Nat} (hj : j ≤ size - pos) :
    load data pos j = (unread data size pos).take j := by
  rw [unread, load, load, List.take_take, Nat.min_eq_left hj]

theorem unread_add {j : Nat} :
    unread data size (pos + j) = (unread data size pos).drop j := by
  have hlen : size - (pos + j) = size - pos - j := by omega
  rw [unread, unread, load, load, List.drop_take, List.drop_drop, hlen]

/-- The header the loop loads, when there is a whole one. -/
theorem header_getD (hsize : size ≤ receiveBufferSize) (hroom : 6 ≤ size - pos) {i : Nat}
    (hi : i < 6) :
    (load data pos canpacketHeadSize).getD i 0 = (unread data size pos).getD i 0 := by
  have hlen : (load data pos canpacketHeadSize).length = 6 :=
    load_length data (by simp only [canpacketHeadSize]; omega)
  have hhead : load data pos canpacketHeadSize = (unread data size pos).take canpacketHeadSize :=
    load_unread hroom
  have hsplit : unread data size pos =
      load data pos canpacketHeadSize ++ (unread data size pos).drop canpacketHeadSize := by
    rw [hhead, List.take_append_drop]
  rw [hsplit, getD_append (by omega) hi]

theorem dataLenAt_eq (hsize : size ≤ receiveBufferSize) (hroom : 6 ≤ size - pos) :
    canpacketHeadSize + dataLenAt data pos = packetLen (unread data size pos) := by
  rw [dataLenAt, header_getD hsize hroom (by decide)]
  rfl

/-- Both readers list a packet alike. -/
theorem canData_eq (hsize : size ≤ receiveBufferSize) (hroom : 6 ≤ size - pos)
    (hwhole : packetLen (unread data size pos) ≤ size - pos) :
    canData data pos (dataLenAt data pos) = messageOf (unread data size pos) := by
  have hlen : canpacketHeadSize + dataLenAt data pos = packetLen (unread data size pos) :=
    dataLenAt_eq hsize hroom
  have hword : wordOf (load data pos canpacketHeadSize) = wordOf (unread data size pos) := by
    unfold wordOf
    rw [header_getD hsize hroom (by decide), header_getD hsize hroom (by decide),
      header_getD hsize hroom (by decide), header_getD hsize hroom (by decide)]
  have hdat : load data (pos + canpacketHeadSize) (dataLenAt data pos) =
      ((unread data size pos).take (packetLen (unread data size pos))).drop canpacketHeadSize := by
    rw [← load_unread hwhole, ← hlen, load, load, List.drop_take, List.drop_drop,
      Nat.add_sub_cancel_left]
  simp only [canData, messageOf, hword, hdat, header_getD hsize hroom (by decide : 0 < 6),
    Nat.add_right_comm]

/-- The parse of the bytes from `pos` to `size` is a drain of them. -/
structure Parses (data : Vector UInt8 receiveBufferSize) (size pos : Nat) (out : List CanMessage)
    (r : Parsed) : Prop where
  frames : r.frames = out ++ (unpacker.drain () (unread data size pos)).1
  bad : Bad (unpacker.drain () (unread data size pos)).2.2 → r.pos = none
  good : ¬ Bad (unpacker.drain () (unread data size pos)).2.2 →
    ∃ q, r.pos = some q ∧ q ≤ size ∧
      unread data size q = (unpacker.drain () (unread data size pos)).2.2
  copies : ∀ a ∈ r.copies, a.Inside

theorem parses_waits (hpos : pos ≤ size) {out : List CanMessage} {copies : List Access}
    (hshort : (unread data size pos).length < packetLen (unread data size pos))
    (hcopies : ∀ a ∈ copies, a.Inside) :
    Parses data size pos out { frames := out, pos := some pos, copies := copies } := by
  have hwait : unpacker.scan () (unread data size pos) = none :=
    if_neg fun hc => Nat.not_le.2 hshort hc.1
  have hdrain := unpacker.drain_none hwait
  exact
    { frames := by rw [hdrain, List.append_nil]
      bad := fun hbad => by
        rw [hdrain] at hbad
        exact absurd hbad.1 (Nat.not_le.2 hshort)
      good := fun _ => ⟨pos, rfl, hpos, by rw [hdrain]⟩
      copies := hcopies }

theorem parses_bad {out : List CanMessage} {copies : List Access}
    (hbad : Bad (unread data size pos)) (hcopies : ∀ a ∈ copies, a.Inside) :
    Parses data size pos out { frames := out, pos := none, copies := copies } := by
  have hdrain := unpacker.drain_none hbad.waits
  exact
    { frames := by rw [hdrain, List.append_nil]
      bad := fun _ => rfl
      good := fun hgood => by
        rw [hdrain] at hgood
        exact absurd hbad hgood
      copies := hcopies }

/-- One packet, and the parse of what follows it. -/
theorem Parses.cons {out : List CanMessage} {r : Parsed}
    (hscan : unpacker.scan () (unread data size pos) =
      some ((), some (messageOf (unread data size pos)), packetLen (unread data size pos)))
    (h : Parses data size (pos + packetLen (unread data size pos))
      (out ++ [messageOf (unread data size pos)]) r) : Parses data size pos out r := by
  have hdrain := unpacker.drain_some hscan
  rw [← unread_add] at hdrain
  exact
    { frames := by
        rw [h.frames, hdrain]
        simp only [Option.toList_some, List.append_assoc]
      bad := fun hbad => by
        rw [hdrain] at hbad
        exact h.bad hbad
      good := fun hgood => by
        rw [hdrain] at hgood ⊢
        exact h.good hgood
      copies := h.copies }

theorem copies_snoc {copies : List Access} (h : ∀ a ∈ copies, a.Inside) {off len : Nat}
    (hin : off + len ≤ receiveBufferSize) : ∀ a ∈ copies ++ [receiveCopy off len], a.Inside := by
  intro a ha
  rcases List.mem_append.1 ha with hold | hnew
  · exact h a hold
  · rw [List.mem_singleton.1 hnew]
    exact hin

/-- The unsigned guard: true when a header is left, or when there is less than one in all. -/
theorem guard_iff (hsize : size ≤ receiveBufferSize) (hpos : pos ≤ size) :
    pos ≤ (size + 2 ^ 64 - canpacketHeadSize) % 2 ^ 64 ↔ size < 6 ∨ pos + 6 ≤ size := by
  have hsix : canpacketHeadSize = 6 := rfl
  have hcap : receiveBufferSize = 16454 := rfl
  omega

theorem parseLoop_parses (hsize : size ≤ receiveBufferSize) {k : Nat} (hpos : pos ≤ size)
    (hk : size - pos < k) {out : List CanMessage} {copies : List Access}
    (hcopies : ∀ a ∈ copies, a.Inside) :
    Parses data size pos out (parseLoop data size k pos out copies) := by
  induction k generalizing pos out copies with
  | zero => exact absurd hk (Nat.not_lt_zero _)
  | succ k ih =>
    have hsix : canpacketHeadSize = 6 := rfl
    have hcap : receiveBufferSize = 16454 := rfl
    have hlen : (unread data size pos).length = size - pos := unread_length hsize hpos
    have hb := packetLen_bounds (unread data size pos)
    have hguard := guard_iff hsize hpos
    simp only [parseLoop]
    by_cases hwhole : packetLen (unread data size pos) ≤ size - pos
    · have hroom : 6 ≤ size - pos := by omega
      have htotal : canpacketHeadSize + dataLenAt data pos = packetLen (unread data size pos) :=
        dataLenAt_eq hsize hroom
      have hfits : ¬ pos + canpacketHeadSize + dataLenAt data pos > size := by omega
      have hpacket : load data pos (packetLen (unread data size pos)) =
          (unread data size pos).take (packetLen (unread data size pos)) := load_unread hwhole
      have hhead : pos + canpacketHeadSize ≤ receiveBufferSize := by omega
      have hin : pos + packetLen (unread data size pos) ≤ receiveBufferSize := by omega
      have hcopies' := copies_snoc (copies_snoc hcopies hhead) hin
      rw [if_pos (hguard.2 (by omega)), if_neg hfits, htotal, hpacket,
        canData_eq hsize hroom hwhole]
      by_cases hsum : calculateChecksum
          ((unread data size pos).take (packetLen (unread data size pos))) = 0
      · rw [if_neg (not_not.2 hsum)]
        exact Parses.cons (if_pos ⟨by omega, hsum⟩) (ih (by omega) (by omega) hcopies')
      · rw [if_pos hsum]
        exact parses_bad ⟨by omega, hsum⟩ hcopies'
    · have hshort : (unread data size pos).length < packetLen (unread data size pos) := by omega
      by_cases hg : pos ≤ (size + 2 ^ 64 - canpacketHeadSize) % 2 ^ 64
      · have hmore : pos + canpacketHeadSize + dataLenAt data pos > size := by
          rcases hguard.1 hg with hlt | hle
          · omega
          · have htotal : canpacketHeadSize + dataLenAt data pos =
                packetLen (unread data size pos) := dataLenAt_eq hsize (by omega)
            omega
        have hin : pos + canpacketHeadSize ≤ receiveBufferSize := by
          have hcases := hguard.1 hg
          omega
        rw [if_pos hg, if_pos hmore]
        exact parses_waits hpos hshort (copies_snoc hcopies hin)
      · rw [if_neg hg]
        exact parses_waits hpos hshort hcopies

end Buffer

/-! ## Calls -/

/-- The bytes carried over from one call to the next. -/
def carried (p : PandaRx) : List UInt8 := unread p.buffer p.size 0

/-- A packet received in part. -/
def Partial (dat : List UInt8) : Prop := dat.length < packetLen dat

instance (dat : List UInt8) : Decidable (Partial dat) := inferInstanceAs (Decidable (_ < _))

theorem partial_nil : Partial [] := by decide

theorem Partial.length_lt {dat : List UInt8} (h : Partial dat) : dat.length < 70 :=
  Nat.lt_of_lt_of_le h (packetLen_bounds dat).2

theorem Partial.drain {dat : List UInt8} (h : Partial dat) :
    unpacker.drain () dat = ([], (), dat) ∧ ¬ Bad dat :=
  ⟨unpacker.drain_none (if_neg fun hc => Nat.not_le.2 h hc.1), fun hbad => Nat.not_le.2 h hbad.1⟩

theorem partial_rest {dat : List UInt8} (h : ¬ Bad (unpacker.drain () dat).2.2) :
    Partial (unpacker.drain () dat).2.2 :=
  (waits_cases (drain_waits dat)).resolve_left h

/-- Between two calls. -/
structure Carries (p : PandaRx) : Prop where
  part : Partial (carried p)
  size : p.size ≤ receiveBufferSize

theorem Carries.size_lt {p : PandaRx} (h : Carries p) : p.size < 70 := by
  have hlen : (carried p).length = p.size := unread_length h.size (Nat.zero_le _)
  rw [← hlen]
  exact h.part.length_lt

theorem carried_size_zero {p : PandaRx} (h : p.size = 0) : carried p = [] := by
  unfold carried unread
  rw [h]
  exact load_zero_len _ _

section Receive

variable {p : PandaRx} {recv : List UInt8}

theorem carried_store (h : Carries p) (hrecv : recv.length ≤ recvSize) :
    unread (store p.buffer p.size recv) (p.size + recv.length) 0 = carried p ++ recv := by
  have hsize := h.size_lt
  have hcap : recvSize = 16384 := rfl
  have hroom : receiveBufferSize = 16454 := rfl
  exact load_store_append p.buffer p.size recv (by omega)

theorem carried_unhealthy (h : Carries p) (hrecv : recv.length ≤ recvSize) :
    carried { p with buffer := store p.buffer p.size recv } = carried p := by
  have hall := carried_store h hrecv
  have hlen : (carried p).length = p.size := unread_length h.size (Nat.zero_le _)
  have hfirst : unread (store p.buffer p.size recv) p.size 0 =
      (unread (store p.buffer p.size recv) (p.size + recv.length) 0).take p.size :=
    load_unread (by omega)
  rw [carried, hfirst, hall, ← hlen, List.take_left]

/-- A call on a healthy link is a drain of the bytes carried over and those read. -/
structure Drains (p : PandaRx) (recv : List UInt8) (r : Receiving) : Prop where
  frames : r.frames = (unpacker.drain () (carried p ++ recv)).1
  bad : Bad (unpacker.drain () (carried p ++ recv)).2.2 → r.ret = false ∧ r.rx.size = 0
  good : ¬ Bad (unpacker.drain () (carried p ++ recv)).2.2 →
    r.ret = true ∧ carried r.rx = (unpacker.drain () (carried p ++ recv)).2.2

theorem afterParse_spec {data : Vector UInt8 receiveBufferSize} {size : Nat} {r : Parsed}
    (hsize : size ≤ receiveBufferSize) (hbytes : unread data size 0 = carried p ++ recv)
    (h : Parses data size 0 [] r) :
    (∀ a ∈ (afterParse data size r).copies, a.Inside) ∧ Carries (afterParse data size r).rx ∧
      Drains p recv (afterParse data size r) := by
  obtain ⟨hframes, hbad, hgood, hcopies⟩ := h
  rw [hbytes] at hframes hbad hgood
  rw [List.nil_append] at hframes
  unfold afterParse
  by_cases hstop : Bad (unpacker.drain () (carried p ++ recv)).2.2
  · rw [hbad hstop]
    refine ⟨hcopies, ?_, ?_⟩
    · exact
        { part := by
            rw [carried_size_zero rfl]
            exact partial_nil
          size := Nat.zero_le _ }
    · exact
        { frames := hframes
          bad := fun _ => ⟨rfl, rfl⟩
          good := fun hok => absurd hstop hok }
  · obtain ⟨q, hq, hle, hrest⟩ := hgood hstop
    rw [hq]
    have hlen : (load data q (size - q)).length = size - q := unread_length hsize hle
    have hfit : (load data q (size - q)).length ≤ receiveBufferSize := by omega
    have hkept : carried
        { buffer := store data 0 (load data q (size - q)), size := size - q } =
          (unpacker.drain () (carried p ++ recv)).2.2 := by
      have hback := load_store_zero data hfit
      rw [hlen] at hback
      rw [← hrest]
      exact hback
    refine ⟨?_, ?_, ?_⟩
    · intro a ha
      rcases List.mem_append.1 ha with hparsed | hmove
      · exact hcopies a hparsed
      · simp only [List.mem_cons, List.not_mem_nil, or_false] at hmove
        rcases hmove with rfl | rfl <;>
        · simp only [receiveCopy, Access.Inside]
          omega
    · exact
        { part := by
            rw [hkept]
            exact partial_rest hstop
          size := by
            dsimp only
            omega }
    · exact
        { frames := hframes
          bad := fun hno => absurd hno hstop
          good := fun _ => ⟨rfl, hkept⟩ }

/-- The assertion holds, every copy stays inside the buffer, and less than a packet is kept. -/
theorem canReceive_spec (h : Carries p) (hrecv : recv.length ≤ recvSize) (healthy : Bool) :
    ∃ r, canReceive recv healthy p = some r ∧ (∀ a ∈ r.copies, a.Inside) ∧ Carries r.rx ∧
      (healthy = true → Drains p recv r) := by
  have hsize := h.size_lt
  have hcap : recvSize = 16384 := rfl
  have hroom : receiveBufferSize = 16454 := rfl
  have hcopy : ∀ a ∈ [receiveCopy p.size recv.length], a.Inside := by
    intro a ha
    rw [List.mem_singleton.1 ha]
    simp only [receiveCopy, Access.Inside]
    omega
  have hassert : p.size + recvSize ≤ receiveBufferSize := by omega
  have hsame := carried_unhealthy h hrecv
  have hidle : Carries { p with buffer := store p.buffer p.size recv } :=
    { part := by
        rw [hsame]
        exact h.part
      size := h.size }
  unfold canReceive
  rw [if_pos hassert]
  cases healthy with
  | false => exact ⟨_, rfl, hcopy, hidle, fun hfalse => by cases hfalse⟩
  | true =>
    rw [if_neg (by simp)]
    by_cases hpos : 0 < recv.length
    · rw [if_pos hpos]
      have hfit : p.size + recv.length ≤ receiveBufferSize := by omega
      have hparse : Parses (store p.buffer p.size recv) (p.size + recv.length) 0 []
          (parseLoop (store p.buffer p.size recv) (p.size + recv.length)
            (p.size + recv.length + 1) 0 [] [receiveCopy p.size recv.length]) :=
        parseLoop_parses hfit (Nat.zero_le _) (by omega) hcopy
      obtain ⟨hcopies, hcarries, hdrains⟩ := afterParse_spec hfit (carried_store h hrecv) hparse
      exact ⟨_, rfl, hcopies, hcarries, fun _ => hdrains⟩
    · rw [if_neg hpos]
      have hnil : recv = [] := List.eq_nil_of_length_eq_zero (by omega)
      obtain ⟨hdrain, hgood⟩ := h.part.drain
      have hall : carried p ++ recv = carried p := by rw [hnil, List.append_nil]
      refine ⟨_, rfl, hcopy, hidle, fun _ => ?_⟩
      exact
        { frames := by rw [hall, hdrain]
          bad := fun hbad => by
            rw [hall, hdrain] at hbad
            exact absurd hbad hgood
          good := fun _ => ⟨rfl, by rw [hall, hdrain]; exact hsame⟩ }

end Receive

/-! ## Runs of calls -/

/-- The C++ reader over any reads: no assertion fails, no copy leaves the buffer, and less than 70
bytes are carried over. -/
def Safe : PandaRx → List (List UInt8 × Bool) → Prop
  | _, [] => True
  | p, (recv, healthy) :: reads => ∃ r, canReceive recv healthy p = some r ∧
      (∀ a ∈ r.copies, a.Inside) ∧ r.rx.size < 70 ∧ Safe r.rx reads

/-- The two readers on the same reads, until the Python one raises: the same messages, and the same
bytes carried over. -/
def Agree : List UInt8 → PandaRx → List (List UInt8) → Prop
  | _, _, [] => True
  | overflow, p, dat :: reads => ∃ r, canReceive dat true p = some r ∧
      match canRecv overflow dat with
      | (some msgs, overflow') =>
        r.ret = true ∧ r.frames = msgs ∧ carried r.rx = overflow' ∧ Agree overflow' r.rx reads
      | (none, _) => r.ret = false ∧ r.rx.size = 0

theorem safe_of_carries {p : PandaRx} (h : Carries p) {reads : List (List UInt8 × Bool)}
    (hreads : ∀ r ∈ reads, r.1.length ≤ recvSize) : Safe p reads := by
  induction reads generalizing p with
  | nil => trivial
  | cons read reads ih =>
    obtain ⟨recv, healthy⟩ := read
    obtain ⟨r, hr, hcopies, hcarries, -⟩ :=
      canReceive_spec h (hreads (recv, healthy) List.mem_cons_self) healthy
    exact ⟨r, hr, hcopies, hcarries.size_lt,
      ih hcarries fun r' hr' => hreads r' (List.mem_cons_of_mem _ hr')⟩

theorem agree_of_carries {p : PandaRx} (h : Carries p) {overflow : List UInt8}
    (hsame : carried p = overflow) {reads : List (List UInt8)}
    (hreads : ∀ r ∈ reads, r.length ≤ recvSize) : Agree overflow p reads := by
  induction reads generalizing p overflow with
  | nil => trivial
  | cons dat reads ih =>
    obtain ⟨r, hr, -, hcarries, hdrains⟩ :=
      canReceive_spec h (hreads dat List.mem_cons_self) true
    obtain ⟨hframes, hbad, hgood⟩ := hdrains rfl
    rw [hsame] at hframes hbad hgood
    refine ⟨r, hr, ?_⟩
    rw [canRecv_eq]
    by_cases hstop : Bad (unpacker.drain () (overflow ++ dat)).2.2
    · rw [if_pos hstop]
      exact hbad hstop
    · rw [if_neg hstop]
      obtain ⟨hret, hrest⟩ := hgood hstop
      refine ⟨hret, hframes, hrest, ih hcarries hrest fun r' hr' => ?_⟩
      exact hreads r' (List.mem_cons_of_mem _ hr')

/-- On any reads, of any bytes, from an empty buffer with anything in its memory. -/
theorem unpackers_agree (buffer : Vector UInt8 receiveBufferSize)
    {reads : List (List UInt8 × Bool)} (hreads : ∀ r ∈ reads, r.1.length ≤ recvSize) :
    Safe { buffer := buffer, size := 0 } reads ∧
      Agree [] { buffer := buffer, size := 0 } (reads.map Prod.fst) := by
  have hnone : carried { buffer := buffer, size := 0 } = [] := carried_size_zero rfl
  have hcarries : Carries { buffer := buffer, size := 0 } :=
    { part := by
        rw [hnone]
        exact partial_nil
      size := Nat.zero_le _ }
  refine ⟨safe_of_carries hcarries hreads, agree_of_carries hcarries hnone ?_⟩
  intro r hr
  obtain ⟨read, hread, rfl⟩ := List.mem_map.1 hr
  exact hreads read hread

/-- Half a header, and a read that the link fails in. -/
theorem unpackers_agree_torn :
    Safe { buffer := Vector.replicate receiveBufferSize 0, size := 0 }
        [([0x80, 0x18], true), ([0x12], false), ([0, 0, 0x8A], true)] ∧
      Agree [] { buffer := Vector.replicate receiveBufferSize 0, size := 0 }
        [[0x80, 0x18], [0x12], [0, 0, 0x8A]] :=
  unpackers_agree (Vector.replicate receiveBufferSize 0) (by simp [recvSize])

/-! ## Reading back what was packed -/

def canRecvAll : List UInt8 → List (List UInt8) → Option (List CanMessage × List UInt8)
  | overflow, [] => some ([], overflow)
  | overflow, dat :: reads =>
    match canRecv overflow dat with
    | (some msgs, overflow') =>
      (canRecvAll overflow' reads).map fun q => (msgs ++ q.1, q.2)
    | (none, _) => none

def canReceiveAll : PandaRx → List (List UInt8) → Option (List CanMessage × PandaRx)
  | p, [] => some ([], p)
  | p, recv :: reads =>
    (canReceive recv true p).bind fun r =>
      if r.ret then (canReceiveAll r.rx reads).map fun q => (r.frames ++ q.1, q.2) else none

/-- However the reads cut the bytes: the packets up to the end, unless a bad one comes first. -/
theorem canRecvAll_eq {overflow : List UInt8} (h : Partial overflow) (reads : List (List UInt8)) :
    canRecvAll overflow reads =
      if Bad (unpacker.drain () (overflow ++ reads.flatten)).2.2 then none
      else some ((unpacker.drain () (overflow ++ reads.flatten)).1,
        (unpacker.drain () (overflow ++ reads.flatten)).2.2) := by
  induction reads generalizing overflow with
  | nil =>
    obtain ⟨hdrain, hgood⟩ := h.drain
    rw [List.flatten_nil, List.append_nil, hdrain, if_neg hgood]
    rfl
  | cons dat reads ih =>
    rw [List.flatten_cons, ← List.append_assoc, Scanner.drain_append unpacker_stable]
    simp only [canRecvAll, canRecv_eq]
    by_cases hstop : Bad (unpacker.drain () (overflow ++ dat)).2.2
    · have hmore : Bad ((unpacker.drain () (overflow ++ dat)).2.2 ++ reads.flatten) := hstop.append
      rw [if_pos hstop, unpacker.drain_none hmore.waits, if_pos hmore]
    · rw [if_neg hstop]
      simp only [ih (partial_rest hstop)]
      split <;> rfl

theorem canReceiveAll_eq {p : PandaRx} (h : Carries p) {reads : List (List UInt8)}
    (hreads : ∀ r ∈ reads, r.length ≤ recvSize)
    (hgood : ¬ Bad (unpacker.drain () (carried p ++ reads.flatten)).2.2) :
    ∃ p', canReceiveAll p reads =
        some ((unpacker.drain () (carried p ++ reads.flatten)).1, p') ∧
      carried p' = (unpacker.drain () (carried p ++ reads.flatten)).2.2 ∧ Carries p' := by
  induction reads generalizing p with
  | nil =>
    obtain ⟨hdrain, -⟩ := h.part.drain
    rw [List.flatten_nil, List.append_nil, hdrain]
    exact ⟨p, rfl, rfl, h⟩
  | cons recv reads ih =>
    obtain ⟨r, hr, -, hcarries, hdrains⟩ :=
      canReceive_spec h (hreads recv List.mem_cons_self) true
    obtain ⟨hframes, hbad, hok⟩ := hdrains rfl
    rw [List.flatten_cons, ← List.append_assoc, Scanner.drain_append unpacker_stable] at hgood ⊢
    have hstop : ¬ Bad (unpacker.drain () (carried p ++ recv)).2.2 := by
      intro hstop
      have hmore : Bad ((unpacker.drain () (carried p ++ recv)).2.2 ++ reads.flatten) :=
        hstop.append
      rw [unpacker.drain_none hmore.waits] at hgood
      exact hgood hmore
    obtain ⟨hret, hrest⟩ := hok hstop
    rw [← hrest] at hgood ⊢
    obtain ⟨p', hall, hkept, hcarries'⟩ :=
      ih hcarries (fun r' hr' => hreads r' (List.mem_cons_of_mem _ hr')) hgood
    refine ⟨p', ?_, hkept, hcarries'⟩
    simp only [canReceiveAll, hr, Option.bind_some, hret, if_true, hall, hframes, Option.map_some]

section RoundTrip

variable {m : CanMessage}

theorem wireImage_head (h : Encodable m) (fd : Bool) (rest : List UInt8) :
    ((wireImage fd m ++ rest).getD 0 0).toNat = fd.toNat + 2 * m.bus + 16 * lengthCodeOf m := by
  obtain ⟨hcode, -⟩ := lengthCode_spec h
  have hbus := h.bus
  have hfd := Bool.toNat_le fd
  have hfirst : (wireImage fd m ++ rest).getD 0 0 =
      UInt8.ofNat (fd.toNat + 2 * m.bus + 16 * lengthCodeOf m) := rfl
  rw [hfirst, UInt8.toNat_ofNat']
  exact Nat.mod_eq_of_lt (by omega)

theorem wireImage_word (h : Encodable m) (fd : Bool) (rest : List UInt8) :
    wordOf (wireImage fd m ++ rest) = wireWord m := by
  have hlt := wireWord_lt h
  have hbytes : wordOf (wireImage fd m ++ rest) = (UInt8.ofNat (wireWord m)).toNat +
      (UInt8.ofNat (wireWord m / 256)).toNat * 256 +
      (UInt8.ofNat (wireWord m / 65536)).toNat * 65536 +
      (UInt8.ofNat (wireWord m / 16777216)).toNat * 16777216 := by
    rw [wordOf_eq]
    rfl
  simp only [hbytes, UInt8.toNat_ofNat']
  omega

theorem wireImage_packetLen (h : Encodable m) (fd : Bool) (rest : List UInt8) :
    packetLen (wireImage fd m ++ rest) = (wireImage fd m).length := by
  obtain ⟨hcode, htable⟩ := lengthCode_spec h
  have hbus := h.bus
  have hfd := Bool.toNat_le fd
  have hshift : ((wireImage fd m ++ rest).getD 0 0).toNat >>> 4 = lengthCodeOf m := by
    rw [wireImage_head h, Nat.shiftRight_eq_div_pow]
    omega
  rw [packetLen, hshift, htable, wireImage_length]

/-- The packet of a message is listed as the message. -/
theorem messageOf_wireImage (h : Encodable m) (fd : Bool) (rest : List UInt8) :
    messageOf (wireImage fd m ++ rest) = m := by
  have hbus := h.bus
  have hfd := Bool.toNat_le fd
  have hword := wireImage_word h fd rest
  have haddr : wordOf (wireImage fd m ++ rest) >>> 3 = m.address := by
    rw [hword, Nat.shiftRight_eq_div_pow, wireWord]
    split <;> omega
  have hrejected : (wordOf (wireImage fd m ++ rest)).testBit 0 = false := by
    rw [hword, Nat.testBit_eq_decide_div_mod_eq, wireWord]
    split <;>
    · simp only [decide_eq_false_iff_not]
      omega
  have hreturned : (wordOf (wireImage fd m ++ rest)).testBit 1 = false := by
    rw [hword, Nat.testBit_eq_decide_div_mod_eq, wireWord]
    split <;>
    · simp only [decide_eq_false_iff_not]
      omega
  have hb : ((wireImage fd m ++ rest).getD 0 0).toNat >>> 1 % 8 = m.bus := by
    rw [wireImage_head h, Nat.shiftRight_eq_div_pow]
    omega
  have hdat : ((wireImage fd m ++ rest).take (packetLen (wireImage fd m ++ rest))).drop
      canpacketHeadSize = m.dat := by
    rw [wireImage_packetLen h, List.take_left]
    rfl
  simp only [messageOf, haddr, hrejected, hreturned, hb, hdat, Bool.false_eq_true, if_false,
    Nat.add_zero]

theorem drain_wireImages {arr : List CanMessage} (harr : ∀ m ∈ arr, Encodable m) (fd : Bool) :
    unpacker.drain () (arr.flatMap (wireImage fd)) = (arr, (), []) := by
  induction arr with
  | nil => rfl
  | cons m arr ih =>
    have hm := harr m List.mem_cons_self
    have hlen := wireImage_packetLen hm fd (arr.flatMap (wireImage fd))
    have hscan : unpacker.scan () (wireImage fd m ++ arr.flatMap (wireImage fd)) =
        some ((), some m, (wireImage fd m).length) := by
      have hwhole : packetLen (wireImage fd m ++ arr.flatMap (wireImage fd)) ≤
          (wireImage fd m ++ arr.flatMap (wireImage fd)).length ∧
            calculateChecksum ((wireImage fd m ++ arr.flatMap (wireImage fd)).take
              (packetLen (wireImage fd m ++ arr.flatMap (wireImage fd)))) = 0 := by
        rw [hlen, List.take_left, List.length_append]
        exact ⟨Nat.le_add_right _ _, wireImage_checksum fd m⟩
      have hfound : unpackScan () (wireImage fd m ++ arr.flatMap (wireImage fd)) =
          some ((), some (messageOf (wireImage fd m ++ arr.flatMap (wireImage fd))),
            packetLen (wireImage fd m ++ arr.flatMap (wireImage fd))) := if_pos hwhole
      rw [messageOf_wireImage hm, hlen] at hfound
      exact hfound
    rw [List.flatMap_cons, unpacker.drain_some hscan, List.drop_left,
      ih fun m' hm' => harr m' (List.mem_cons_of_mem m hm')]
    rfl

end RoundTrip

/-- What `pack_can_buffer` has packed, cut anew in any way, is read back by both readers: the same
messages in order, nothing raised and nothing left over. -/
theorem unpack_pack {arr : List CanMessage} (harr : ∀ m ∈ arr, Encodable m) (fd : Bool)
    (buffer : Vector UInt8 receiveBufferSize) :
    ∃ snds, packCanBuffer arr fd = .ok snds ∧ ∀ reads : List (List UInt8),
      reads.flatten = snds.flatten →
        canRecvAll [] reads = some (arr, []) ∧
          ((∀ r ∈ reads, r.length ≤ recvSize) →
            ∃ p, canReceiveAll { buffer := buffer, size := 0 } reads = some (arr, p) ∧
              p.size = 0) := by
  obtain ⟨snds, hpack, hwhole, -⟩ := packCanBuffer_whole harr fd
  refine ⟨snds, hpack, ?_⟩
  intro reads hreads
  rw [hwhole.flatten] at hreads
  have hdrain := drain_wireImages harr fd
  have hgood : ¬ Bad [] := by decide
  have hnone : carried { buffer := buffer, size := 0 } = [] := carried_size_zero rfl
  have hcarries : Carries { buffer := buffer, size := 0 } :=
    { part := by
        rw [hnone]
        exact partial_nil
      size := Nat.zero_le _ }
  constructor
  · rw [canRecvAll_eq partial_nil, List.nil_append, hreads, hdrain, if_neg hgood]
  · intro hlens
    have hcpp := canReceiveAll_eq hcarries hlens (by
      rw [hnone, List.nil_append, hreads, hdrain]
      exact hgood)
    rw [hnone, List.nil_append, hreads, hdrain] at hcpp
    obtain ⟨p, hall, hkept, hp⟩ := hcpp
    refine ⟨p, hall, ?_⟩
    have hlen : (carried p).length = p.size := unread_length hp.size (Nat.zero_le _)
    rw [hkept] at hlen
    exact hlen.symm

theorem unpack_pack_mixed :
    ∃ snds, packCanBuffer mixedMessages false = .ok snds ∧ ∀ reads : List (List UInt8),
      reads.flatten = snds.flatten →
        canRecvAll [] reads = some (mixedMessages, []) ∧
          ((∀ r ∈ reads, r.length ≤ recvSize) →
            ∃ p, canReceiveAll { buffer := Vector.replicate receiveBufferSize 0, size := 0 } reads =
                some (mixedMessages, p) ∧ p.size = 0) :=
  unpack_pack (by decide) false (Vector.replicate receiveBufferSize 0)

end Usb
end MazdaPort
