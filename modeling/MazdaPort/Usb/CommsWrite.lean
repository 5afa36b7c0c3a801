import MazdaPort.Lib.Framing
import MazdaPort.Lib.Memory
import MazdaPort.Usb.Wire

/-!
# MazdaPort.Usb.CommsWrite

`comms_can_write` (`can_comms.h`): the host's bytes arrive in chunks, whole packets are handed to
`can_send`, and a partial one waits in `can_write_buffer`, with the number of bytes it still lacks.

`commsCanWrite_takes`: a call is a drain of the scanner `assembler` over the bytes that wait and
those that come, so the cutting of the stream does not matter (`writeAll_takes`).
`commsCanWrite_split`: on a stream of host packets exactly these packets are sent, and between the
calls `ptr + tail_size` is the length of the packet received in part.

Lengths are `Nat`: a chunk lies in a buffer of the board, so no sum of them reaches 2^32.
-/

namespace MazdaPort
namespace Usb

open Safety Framing Memory

/-! ## The function -/

def pcktLen (b : UInt8) : Nat := canpacketHeadSize + dlcToLenTable.getD (b.toNat >>> 4) 0

/-- `CANPacket_t to_push = {0}`, with `bytes` copied over it. -/
def toPush (bytes : List UInt8) : CANPacket :=
  ofImage (store (Vector.replicate sizeofCANPacket 0) 0 bytes).toList

def toPushCopy (len : Nat) : Access := { size := sizeofCANPacket, off := 0, len := len }

def writeBufferCopy (off len : Nat) : Access := { size := 72, off := off, len := len }

/-- The packets handed to `can_send`, the copies made, and the buffer afterwards. -/
structure Written where
  sent : List CANPacket
  copies : List Access
  buf : AsmBuffer

/-- The loop over the rest of the message: `data` is what lies from `pos` on. -/
def restOfMessage : Nat → List UInt8 → AsmBuffer → Written
  | 0, _, buf => { sent := [], copies := [], buf := buf }
  | _ + 1, [], buf => { sent := [], copies := [], buf := buf }
  | k + 1, b :: data, buf =>
    if pcktLen b ≤ (b :: data).length then
      let r := restOfMessage k ((b :: data).drop (pcktLen b)) buf
      { sent := toPush ((b :: data).take (pcktLen b)) :: r.sent
        copies := toPushCopy (pcktLen b) :: r.copies
        buf := r.buf }
    else
      { sent := []
        copies := [writeBufferCopy 0 (b :: data).length]
        buf :=
          { ptr := (b :: data).length
            tailSize := pcktLen b - (b :: data).length
            data := store buf.data 0 (b :: data) } }

def commsCanWrite (data : List UInt8) (buf : AsmBuffer) : Written :=
  if buf.ptr ≠ 0 then
    if buf.tailSize ≤ data.length then
      let filled := store buf.data buf.ptr (data.take buf.tailSize)
      let ptr := buf.ptr + buf.tailSize
      let r := restOfMessage data.length (data.drop buf.tailSize)
        { ptr := 0, tailSize := 0, data := filled }
      { sent := toPush (load filled 0 ptr) :: r.sent
        copies := writeBufferCopy buf.ptr buf.tailSize :: toPushCopy ptr :: r.copies
        buf := r.buf }
    else
      -- maybe next time
      { sent := []
        copies := [writeBufferCopy buf.ptr data.length]
        buf :=
          { ptr := buf.ptr + data.length
            tailSize := buf.tailSize - data.length
            data := store buf.data buf.ptr data } }
  else restOfMessage data.length data buf

/-! ## What it assembles -/

def hostScan (_ : Unit) : List UInt8 → Option (Unit × Option (List UInt8) × Nat)
  | [] => none
  | b :: rest =>
    if (b :: rest).length < pcktLen b then none
    else some ((), some ((b :: rest).take (pcktLen b)), pcktLen b)

theorem pcktLen_bounds (b : UInt8) : 6 ≤ pcktLen b ∧ pcktLen b ≤ 70 := by
  have hlen := dlcToLenTable_le (b.toNat >>> 4)
  simp only [pcktLen, canpacketHeadSize]
  omega

theorem hostScan_cons {b : UInt8} {rest : List UInt8} {r : Unit × Option (List UInt8) × Nat}
    (h : hostScan () (b :: rest) = some r) :
    pcktLen b ≤ (b :: rest).length ∧
      r = ((), some ((b :: rest).take (pcktLen b)), pcktLen b) := by
  simp only [hostScan] at h
  split at h
  · cases h
  · next hlen =>
    cases h
    exact ⟨Nat.le_of_not_lt hlen, rfl⟩

theorem hostScan_pos (st : Unit) (xs : List UInt8) (r : Unit × Option (List UInt8) × Nat)
    (h : hostScan st xs = some r) : 0 < r.2.2 ∧ r.2.2 ≤ xs.length := by
  cases xs with
  | nil => cases h
  | cons b rest =>
    obtain ⟨hlen, rfl⟩ := hostScan_cons h
    have hb := (pcktLen_bounds b).1
    exact ⟨by dsimp only; omega, hlen⟩

/-- The packets of the host's stream, as byte strings. -/
def assembler : Scanner Unit UInt8 (List UInt8) := { scan := hostScan, pos := hostScan_pos }

theorem assembler_stable : assembler.Stable := by
  intro st xs ys r h
  cases xs with
  | nil => cases h
  | cons b rest =>
    obtain ⟨hlen, rfl⟩ := hostScan_cons h
    have hmore : ¬ (b :: (rest ++ ys)).length < pcktLen b := by
      simp only [List.length_cons, List.length_append] at hlen ⊢
      omega
    have htake : (b :: (rest ++ ys)).take (pcktLen b) = (b :: rest).take (pcktLen b) := by
      rw [← List.cons_append, List.take_append_of_le_length hlen]
    simp only [assembler, hostScan, List.cons_append, if_neg hmore, htake]

/-- The length of the packet that begins so. -/
def owed : List UInt8 → Nat
  | [] => 0
  | b :: _ => pcktLen b

/-- `tail` waits in the buffer, a packet received in part. -/
structure Holds (buf : AsmBuffer) (tail : List UInt8) : Prop where
  ptr : buf.ptr = tail.length
  bytes : load buf.data 0 tail.length = tail
  owed : buf.ptr + buf.tailSize = owed tail
  waits : assembler.scan () tail = none

theorem Holds.length_lt {buf : AsmBuffer} {tail : List UInt8} (h : Holds buf tail) :
    tail.length < 70 := by
  cases tail with
  | nil => decide
  | cons b rest =>
    have hb := (pcktLen_bounds b).2
    have hw : hostScan () (b :: rest) = none := h.waits
    by_contra hlen
    rw [hostScan, if_neg (by omega)] at hw
    cases hw

/-- The call sends the packets of `d` and keeps what `d` leaves over. Its copies stay inside their
objects exactly when the packets fit into a `CANPacket_t`. -/
structure Takes (r : Written) (d : List (List UInt8) × Unit × List UInt8) : Prop where
  sent : r.sent = d.1.map toPush
  holds : Holds r.buf d.2.2
  copies : (∀ a ∈ r.copies, a.Inside) ↔ ∀ bs ∈ d.1, bs.length ≤ sizeofCANPacket

theorem drain_cons_whole {b : UInt8} {xs : List UInt8} (h : pcktLen b ≤ (b :: xs).length) :
    assembler.drain () (b :: xs) =
      ((b :: xs).take (pcktLen b) :: (assembler.drain () ((b :: xs).drop (pcktLen b))).1,
        (assembler.drain () ((b :: xs).drop (pcktLen b))).2) := by
  have hscan : assembler.scan () (b :: xs) =
      some ((), some ((b :: xs).take (pcktLen b)), pcktLen b) := by
    simp only [assembler, hostScan]
    rw [if_neg (Nat.not_lt.2 h)]
  exact assembler.drain_some hscan

theorem drain_cons_waits {b : UInt8} {xs : List UInt8} (h : ¬ pcktLen b ≤ (b :: xs).length) :
    assembler.scan () (b :: xs) = none := by
  simp only [assembler, hostScan]
  rw [if_pos (Nat.not_le.1 h)]

/-- What comes out of the assembler has the length its first byte says. -/
theorem assembler_whole {xs bs : List UInt8} (h : bs ∈ (assembler.drain () xs).1) :
    ∃ b rest, bs = b :: rest ∧ bs.length = pcktLen b := by
  have key : ∀ (u : Unit) (xs : List UInt8), ∀ bs ∈ (assembler.drain u xs).1,
      ∃ b rest, bs = b :: rest ∧ bs.length = pcktLen b := by
    intro u xs
    induction u, xs using assembler.scan_induction with
    | wait u xs hs =>
      rw [assembler.drain_none hs]
      simp
    | take u xs u' o k hs ih =>
      rw [assembler.drain_some hs]
      cases xs with
      | nil => cases hs
      | cons b rest =>
        obtain ⟨hlen, heq⟩ := hostScan_cons hs
        cases heq
        intro bs hbs
        rcases List.mem_cons.1 hbs with rfl | hlater
        · obtain ⟨c, hc⟩ : ∃ c, pcktLen b = c + 1 := ⟨pcktLen b - 1, by
            have hb := (pcktLen_bounds b).1
            omega⟩
          refine ⟨b, rest.take c, by rw [hc, List.take_succ_cons], ?_⟩
          rw [List.length_take]
          omega
        · exact ih bs hlater
  exact key () xs bs h

theorem takes_nil {buf : AsmBuffer} (hptr : buf.ptr = 0) (htail : buf.tailSize = 0) :
    Takes { sent := [], copies := [], buf := buf } (assembler.drain () []) := by
  rw [assembler.drain_none (assembler.scan_nil ())]
  exact
    { sent := rfl
      holds := { ptr := hptr, bytes := by simp, owed := by simp [hptr, htail, owed], waits := rfl }
      copies := by simp }

/-- A packet goes out before what the rest of the call does. -/
theorem Takes.cons {r : Written} {d : List (List UInt8) × Unit × List UInt8} (h : Takes r d)
    (bs : List UInt8) (copies : List Access) (hcopies : ∀ a ∈ copies, a.Inside) :
    Takes
      { sent := toPush bs :: r.sent
        copies := copies ++ toPushCopy bs.length :: r.copies
        buf := r.buf }
      (bs :: d.1, d.2) where
  sent := by simp [h.sent]
  holds := h.holds
  copies := by
    have hfit : (toPushCopy bs.length).Inside ↔ bs.length ≤ sizeofCANPacket := by
      simp [toPushCopy, Access.Inside]
    constructor
    · intro hall bs' hbs'
      rcases List.mem_cons.1 hbs' with rfl | hrest
      · exact hfit.1 (hall _ (List.mem_append_right _ List.mem_cons_self))
      · refine h.copies.1 (fun a ha => hall a ?_) bs' hrest
        exact List.mem_append_right _ (List.mem_cons_of_mem _ ha)
    · intro hall a ha
      rcases List.mem_append.1 ha with hbuf | hrest
      · exact hcopies a hbuf
      · rcases List.mem_cons.1 hrest with rfl | hlater
        · exact hfit.2 (hall bs List.mem_cons_self)
        · exact h.copies.2 (fun bs' hbs' => hall bs' (List.mem_cons_of_mem _ hbs')) a hlater

/-- What a packet cut off by the end of the chunk leaves behind. -/
theorem takes_waits {buf : AsmBuffer} {tail : List UInt8} {a : Access}
    (hwaits : assembler.scan () tail = none) (ha : a.Inside) (h : Holds buf tail) :
    Takes { sent := [], copies := [a], buf := buf } (assembler.drain () tail) := by
  rw [assembler.drain_none hwaits]
  exact { sent := rfl, holds := h, copies := by simp [ha] }

theorem restOfMessage_takes {k : Nat} {data : List UInt8} {buf : AsmBuffer}
    (hk : data.length ≤ k) (hptr : buf.ptr = 0) (htail : buf.tailSize = 0) :
    Takes (restOfMessage k data buf) (assembler.drain () data) := by
  induction k generalizing data with
  | zero =>
    have hnil : data = [] := List.eq_nil_of_length_eq_zero (Nat.le_zero.1 hk)
    rw [hnil]
    exact takes_nil hptr htail
  | succ k ih =>
    cases data with
    | nil => exact takes_nil hptr htail
    | cons b data =>
      by_cases hlen : pcktLen b ≤ (b :: data).length
      · have hdrop : ((b :: data).drop (pcktLen b)).length ≤ k := by
          have hb := (pcktLen_bounds b).1
          rw [List.length_drop]
          omega
        have htake : ((b :: data).take (pcktLen b)).length = pcktLen b := by
          rw [List.length_take]
          omega
        have hcons := (ih hdrop).cons ((b :: data).take (pcktLen b)) [] (by simp)
        rw [htake] at hcons
        rw [drain_cons_whole hlen, restOfMessage, if_pos hlen]
        exact hcons
      · have hb := (pcktLen_bounds b).2
        have hfit : (b :: data).length ≤ 72 := by omega
        rw [restOfMessage, if_neg hlen]
        refine takes_waits (drain_cons_waits hlen) ?_ ?_
        · simpa [writeBufferCopy, Access.Inside] using hfit
        · exact
            { ptr := rfl
              bytes := load_store_zero buf.data hfit
              owed := by
                simp only [owed]
                omega
              waits := drain_cons_waits hlen }

/-- A call is a drain over the bytes that wait and those that come. -/
theorem commsCanWrite_takes {buf : AsmBuffer} {tail : List UInt8} (h : Holds buf tail)
    (data : List UInt8) :
    Takes (commsCanWrite data buf) (assembler.drain () (tail ++ data)) := by
  have hlt := h.length_lt
  cases tail with
  | nil =>
    have hptr : buf.ptr = 0 := h.ptr
    have htail : buf.tailSize = 0 := by
      have howed := h.owed
      simp only [owed] at howed
      omega
    rw [commsCanWrite, if_neg (by simp [hptr])]
    exact restOfMessage_takes (le_refl _) hptr htail
  | cons b tail =>
    have hptr := h.ptr
    have howed : buf.ptr + buf.tailSize = pcktLen b := h.owed
    have hbytes : load buf.data 0 buf.ptr = b :: tail := by
      rw [hptr]
      exact h.bytes
    have hbound := (pcktLen_bounds b).2
    have hpos : buf.ptr ≠ 0 := by
      rw [hptr]
      simp
    rw [commsCanWrite, if_pos hpos]
    by_cases hfits : buf.tailSize ≤ data.length
    · -- enough to complete the packet
      have hchunk : (data.take buf.tailSize).length = buf.tailSize := by
        rw [List.length_take]
        omega
      have hfilled : load (store buf.data buf.ptr (data.take buf.tailSize)) 0
          (buf.ptr + buf.tailSize) = b :: tail ++ data.take buf.tailSize := by
        have happ := load_store_append buf.data buf.ptr (data.take buf.tailSize) (by omega)
        rw [hchunk, hbytes] at happ
        exact happ
      have hwhole : pcktLen b ≤ (b :: (tail ++ data)).length := by
        simp only [List.length_cons, List.length_append] at hptr ⊢
        omega
      have htake : (b :: (tail ++ data)).take (pcktLen b) =
          b :: tail ++ data.take buf.tailSize := by
        rw [← howed, hptr, ← List.cons_append, List.take_length_add_append]
      have hdrop : (b :: (tail ++ data)).drop (pcktLen b) = data.drop buf.tailSize := by
        rw [← howed, hptr, ← List.cons_append, List.drop_length_add_append]
      have hlen : (b :: tail ++ data.take buf.tailSize).length = buf.ptr + buf.tailSize := by
        rw [List.length_append, hchunk, hptr]
      have hrest : Takes (restOfMessage data.length (data.drop buf.tailSize)
          { ptr := 0, tailSize := 0, data := store buf.data buf.ptr (data.take buf.tailSize) })
          (assembler.drain () (data.drop buf.tailSize)) := by
        refine restOfMessage_takes ?_ rfl rfl
        rw [List.length_drop]
        omega
      have hcons := hrest.cons (b :: tail ++ data.take buf.tailSize)
        [writeBufferCopy buf.ptr buf.tailSize] (by
          simp only [List.mem_singleton, forall_eq, writeBufferCopy, Access.Inside]
          omega)
      rw [hlen] at hcons
      rw [List.cons_append, drain_cons_whole hwhole, htake, hdrop, if_pos hfits]
      simp only [hfilled]
      exact hcons
    · -- maybe next time
      have hstill : ¬ pcktLen b ≤ (b :: (tail ++ data)).length := by
        simp only [List.length_cons, List.length_append] at hptr ⊢
        omega
      have hlen : (b :: tail ++ data).length = buf.ptr + data.length := by
        rw [List.length_append, hptr]
      rw [if_neg hfits]
      refine takes_waits (drain_cons_waits hstill) ?_ ?_
      · simp only [writeBufferCopy, Access.Inside]
        omega
      · exact
          { ptr := hlen.symm
            bytes := by
              have happ := load_store_append buf.data buf.ptr data (by omega)
              rw [hbytes] at happ
              rw [hlen]
              exact happ
            owed := by
              simp only [List.cons_append, owed]
              omega
            waits := drain_cons_waits hstill }

/-! ## Streams -/

def writeAll (buf : AsmBuffer) : List (List UInt8) → List CANPacket × AsmBuffer
  | [] => ([], buf)
  | c :: cs =>
    let r := commsCanWrite c buf
    let e := writeAll r.buf cs
    (r.sent ++ e.1, e.2)

/-- The calls together send what one drain of the whole stream finds, however it was cut. -/
theorem writeAll_takes {buf : AsmBuffer} {tail : List UInt8} (h : Holds buf tail)
    (cs : List (List UInt8)) :
    (writeAll buf cs).1 = (assembler.drain () (tail ++ cs.flatten)).1.map toPush ∧
      Holds (writeAll buf cs).2 (assembler.drain () (tail ++ cs.flatten)).2.2 := by
  induction cs generalizing buf tail with
  | nil =>
    rw [List.flatten_nil, List.append_nil, assembler.drain_none h.waits]
    exact ⟨rfl, h⟩
  | cons c cs ih =>
    have hcall := commsCanWrite_takes h c
    obtain ⟨hsent, hholds⟩ := ih hcall.holds
    rw [List.flatten_cons, ← List.append_assoc, Scanner.drain_append assembler_stable]
    refine ⟨?_, hholds⟩
    simp only [writeAll, List.map_append, hcall.sent, hsent]

/-! ## Host packets -/

/-- A packet as the host packs it: at most eight bytes, and nothing after them. -/
structure HostPacket (p : CANPacket) : Prop where
  short : Short p
  pad : p.data.toList.drop p.getLen = List.replicate (8 - p.getLen) 0

theorem pcktLen_headByte (p : CANPacket) :
    pcktLen (UInt8.ofNat (headByte p)) = canpacketHeadSize + p.getLen := by
  rw [pcktLen, headByte_toNat, headByte_dlc]
  rfl

theorem toPush_eq {bytes : List UInt8} (h : bytes.length ≤ sizeofCANPacket) :
    toPush bytes = ofImage (bytes ++ List.replicate (sizeofCANPacket - bytes.length) 0) := by
  rw [toPush, toList_store _ (by omega)]
  simp only [List.take_zero, List.nil_append, Nat.zero_add, Vector.toList_replicate,
    List.drop_replicate]

theorem toPush_packed {p : CANPacket} (h : HostPacket p) : toPush (packed p) = p := by
  have hlen := packed_length_of_short h.short
  have hshort : p.dataLenCode.toNat ≤ 8 := h.short
  have hget := getLen_of_short h.short
  have hfit : (packed p).length ≤ sizeofCANPacket := by
    rw [hlen, sizeofCANPacket]
    omega
  have hcount : sizeofCANPacket - (packed p).length = (8 - p.getLen) + 2 := by
    rw [hlen, hget, sizeofCANPacket]
    omega
  have himage : packed p ++ List.replicate (8 - p.getLen) 0 = image p := by
    rw [packed_eq, image, List.append_assoc, ← h.pad, List.take_append_drop]
  rw [toPush_eq hfit, hcount, List.replicate_add, ← List.append_assoc, himage]
  exact ofImage_image p _

/-- Every byte string with the length its first byte says, and no more than eight bytes of data, is
the packing of a host packet. -/
theorem toPush_hostPacket {b : UInt8} {rest : List UInt8} (hcode : b.toNat >>> 4 ≤ 8)
    (hlen : (b :: rest).length = pcktLen b) :
    HostPacket (toPush (b :: rest)) ∧ packed (toPush (b :: rest)) = b :: rest := by
  have htable : ∀ c : Fin 9, dlcToLenTable.getD c.val 0 = c.val := by decide
  have hpckt : (b :: rest).length = canpacketHeadSize + b.toNat >>> 4 := by
    rw [hlen, pcktLen]
    exact congrArg _ (htable ⟨b.toNat >>> 4, by omega⟩)
  have hfit : (b :: rest).length ≤ sizeofCANPacket := by
    rw [hpckt, canpacketHeadSize, sizeofCANPacket]
    omega
  have hpush := toPush_eq hfit
  generalize toPush (b :: rest) = p at hpush
  have hcodeEq : p.dataLenCode.toNat = b.toNat >>> 4 := by
    rw [hpush]
    simp only [ofImage, List.cons_append, List.getD_cons_zero, BitVec.toNat_ofNat]
    omega
  have hshort : Short p := by
    rw [Short, hcodeEq]
    exact hcode
  have hget : p.getLen = b.toNat >>> 4 := (getLen_of_short hshort).trans hcodeEq
  have hzeros : sizeofCANPacket - (b :: rest).length = (8 - p.getLen) + 2 := by
    rw [hpckt, hget, canpacketHeadSize, sizeofCANPacket]
    omega
  have himage : image p = b :: rest ++ List.replicate (8 - p.getLen) 0 := by
    have hfourteen : (b :: rest ++ List.replicate (8 - p.getLen) 0).length = 14 := by
      rw [List.length_append, List.length_replicate, hpckt, hget, canpacketHeadSize]
      omega
    rw [hzeros, List.replicate_add, ← List.append_assoc] at hpush
    generalize b :: rest ++ List.replicate (8 - p.getLen) 0 = h at hpush hfourteen ⊢
    have hlong : 14 ≤ (h ++ List.replicate 2 0).length := by
      rw [List.length_append, hfourteen]
      omega
    rw [hpush, image_ofImage hlong, ← hfourteen, List.take_left]
  have hpacked : packed p = b :: rest := by
    rw [packed, himage, hget, ← hpckt, List.take_left]
  refine ⟨⟨hshort, ?_⟩, hpacked⟩
  have hdata : b :: rest ++ p.data.toList.drop p.getLen =
      b :: rest ++ List.replicate (8 - p.getLen) 0 := by
    rw [← himage, ← hpacked, packed_eq, image, List.append_assoc, List.take_append_drop]
  exact List.append_cancel_left hdata

theorem assembler_packed {p : CANPacket} (h : Short p) (rest : List UInt8) :
    assembler.scan () (packed p ++ rest) = some ((), some (packed p), (packed p).length) := by
  have hlen : (packed p).length = pcktLen (UInt8.ofNat (headByte p)) := by
    rw [packed_length_of_short h, pcktLen_headByte, getLen_of_short h]
    rfl
  have hcons : ∃ xs, packed p = UInt8.ofNat (headByte p) :: xs := ⟨_, packed_eq p⟩
  obtain ⟨xs, hxs⟩ := hcons
  have hscan : assembler.scan () (xs.cons (UInt8.ofNat (headByte p)) ++ rest) =
      some ((), some ((packed p ++ rest).take (packed p).length), (packed p).length) := by
    simp only [assembler, List.cons_append, hostScan, ← hlen]
    rw [← List.cons_append, ← hxs, if_neg (by simp)]
  rw [← hxs, List.take_left] at hscan
  exact hscan

theorem drain_packed {ps : List CANPacket} (hps : ∀ p ∈ ps, Short p) (tail : List UInt8) :
    assembler.drain () (ps.flatMap packed ++ tail) =
      (ps.map packed ++ (assembler.drain () tail).1, (assembler.drain () tail).2) := by
  induction ps with
  | nil => simp
  | cons p ps ih =>
    have hscan := assembler_packed (hps p List.mem_cons_self) (ps.flatMap packed ++ tail)
    rw [List.flatMap_cons, List.append_assoc, assembler.drain_some hscan, List.drop_left,
      ih fun q hq => hps q (List.mem_cons_of_mem p hq)]
    simp

/-- The beginning of a packet waits. -/
theorem assembler_begins {rs : List CANPacket} (hrs : ∀ p ∈ rs, Short p) {tail : List UInt8}
    (h : Begins packed rs tail) : assembler.scan () tail = none := by
  rcases h with ⟨_, rfl⟩ | ⟨p, rest, rfl, ⟨more, hmore⟩, hlt⟩
  · rfl
  · cases hs : assembler.scan () tail with
    | none => rfl
    | some r =>
      have hwhole := assembler_packed (hrs p List.mem_cons_self) []
      rw [List.append_nil, ← hmore, assembler_stable () tail more r hs] at hwhole
      have hpos := (assembler.pos () tail r hs).2
      have hlen : r.2.2 = (tail ++ more).length := congrArg (fun r => r.2.2) (Option.some.inj hwhole)
      rw [← hmore, ← hlen] at hlt
      omega

/-- The buffer between two calls, when `tail` has come of the packets `rs`: nothing, or the
beginning of the first of them, with the number of bytes it lacks. -/
def Awaits (buf : AsmBuffer) (rs : List CANPacket) (tail : List UInt8) : Prop :=
  (tail = [] ∧ buf.ptr = 0 ∧ buf.tailSize = 0) ∨
    ∃ p rest, rs = p :: rest ∧ tail <+: packed p ∧ load buf.data 0 buf.ptr = tail ∧
      0 < buf.ptr ∧ buf.ptr < (packed p).length ∧ buf.ptr + buf.tailSize = (packed p).length

theorem Holds.awaits {buf : AsmBuffer} {rs : List CANPacket} {tail : List UInt8}
    (h : Holds buf tail) (hrs : ∀ p ∈ rs, Short p) (hb : Begins packed rs tail) :
    Awaits buf rs tail := by
  have hptr := h.ptr
  have howed := h.owed
  have hempty : tail = [] → Awaits buf rs tail := by
    intro hnil
    rw [hnil] at hptr howed
    simp only [List.length_nil] at hptr
    simp only [Usb.owed] at howed
    exact .inl ⟨hnil, hptr, by omega⟩
  rcases hb with ⟨_, hnil⟩ | ⟨p, rest, rfl, hpre, hlt⟩
  · exact hempty hnil
  · cases tail with
    | nil => exact hempty rfl
    | cons b tail =>
      have hhead : UInt8.ofNat (headByte p) = b := by
        obtain ⟨more, hmore⟩ := hpre
        rw [packed_eq] at hmore
        exact (List.cons_eq_cons.1 hmore).1.symm
      have hlen : pcktLen b = (packed p).length := by
        have hshort := hrs p List.mem_cons_self
        rw [← hhead, pcktLen_headByte, packed_length_of_short hshort, getLen_of_short hshort]
        rfl
      have hbytes := h.bytes
      rw [← hptr] at hbytes hlt
      simp only [Usb.owed, hlen] at howed
      exact .inr ⟨p, rest, rfl, hpre, hbytes, by rw [hptr]; simp, hlt, howed⟩

/-- However a stream of host packets is cut, exactly they are sent, each with zeros after its data.
Between two calls the buffer holds what has come of the next packet, and says what it lacks. -/
theorem commsCanWrite_split {ps : List CANPacket} (hps : ∀ p ∈ ps, HostPacket p)
    {cs : List (List UInt8)} (hstream : cs.flatten = ps.flatMap packed) {buf : AsmBuffer}
    (hptr : buf.ptr = 0) (htail : buf.tailSize = 0) :
    (writeAll buf cs).1 = ps ∧
      ∀ pre, pre <+: cs → ∃ qs rs tail, ps = qs ++ rs ∧
        pre.flatten = qs.flatMap packed ++ tail ∧ (writeAll buf pre).1 = qs ∧
          Awaits (writeAll buf pre).2 rs tail := by
  have hshort : ∀ p ∈ ps, Short p := fun p hp => (hps p hp).short
  have hstart : Holds buf [] :=
    { ptr := hptr, bytes := by simp, owed := by simp [hptr, htail, owed], waits := rfl }
  have hcut : ∀ qs rs tail, ps = qs ++ rs → Begins packed rs tail → ∀ pre : List (List UInt8),
      pre.flatten = qs.flatMap packed ++ tail →
        (writeAll buf pre).1 = qs ∧ Holds (writeAll buf pre).2 tail := by
    intro qs rs tail hsplit hb pre hpre
    have hqs : ∀ p ∈ qs, p ∈ ps := fun p hp => hsplit ▸ List.mem_append_left rs hp
    have hrs : ∀ p ∈ rs, Short p := fun p hp => hshort p (hsplit ▸ List.mem_append_right qs hp)
    obtain ⟨hsent, hholds⟩ := writeAll_takes hstart pre
    have hdrain : assembler.drain () ([] ++ pre.flatten) = (qs.map packed, (), tail) := by
      rw [List.nil_append, hpre, drain_packed fun p hp => hshort p (hqs p hp),
        assembler.drain_none (assembler_begins hrs hb), List.append_nil]
    rw [hdrain] at hsent hholds
    refine ⟨?_, hholds⟩
    rw [hsent, List.map_map]
    exact (List.map_congr_left fun p hp => toPush_packed (hps p (hqs p hp))).trans (List.map_id qs)
  constructor
  · have hb : Begins packed ([] : List CANPacket) [] := .inl ⟨rfl, rfl⟩
    exact (hcut ps [] [] (by simp) hb cs (by simp [hstream])).1
  · intro pre hpre
    have hpart : pre.flatten <+: ps.flatMap packed := by
      obtain ⟨post, rfl⟩ := hpre
      rw [← hstream, List.flatten_append]
      exact List.prefix_append _ _
    obtain ⟨qs, rs, tail, hsplit, hraw, hb⟩ := split_stream ps hpart
    have hrs : ∀ p ∈ rs, Short p := fun p hp => hshort p (hsplit ▸ List.mem_append_right qs hp)
    obtain ⟨hsent, hholds⟩ := hcut qs rs tail hsplit hb pre hraw
    exact ⟨qs, rs, tail, hsplit, hraw, hsent, hholds.awaits hrs hb⟩

theorem commsCanWrite_split_lkas :
    let cs := [(packed lkasPacket).take 3, (packed lkasPacket).drop 3 ++
      (packed lkasPacket).take 6, (packed lkasPacket).drop 6]
    let buf : AsmBuffer := { ptr := 0, tailSize := 0, data := Vector.replicate 72 0 }
    (writeAll buf cs).1 = [lkasPacket, lkasPacket] ∧
      ∀ pre, pre <+: cs → ∃ qs rs tail, [lkasPacket, lkasPacket] = qs ++ rs ∧
        pre.flatten = qs.flatMap packed ++ tail ∧ (writeAll buf pre).1 = qs ∧
          Awaits (writeAll buf pre).2 rs tail :=
  commsCanWrite_split (by
    intro p hp
    have hp' : p = lkasPacket := by simpa using hp
    rw [hp']
    exact ⟨by decide, by decide⟩) (by decide) rfl rfl

end Usb
end MazdaPort
