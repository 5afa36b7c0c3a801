import MazdaPort.Safety.Authority
import MazdaPort.Usb.CommsRead
import MazdaPort.Usb.CommsWrite

/-!
# MazdaPort.Board.CanPath

Every path of a packet through a board without CAN FD: received and forwarded (`can_rx`), sent and
echoed (`process_can`), refused (`can_send`), written and read by the host (`can_comms.h`).

Each function also lists the copies and sums whose length it takes from `dlc_to_len`. The table
goes up to 64 bytes, the packet's `data` has eight. `copies_inside_iff`: in a run they all stay
inside their objects exactly when no frame off the bus and no packet from the host has a length
code above 8. Nothing on the way checks that.
-/

namespace MazdaPort
namespace Board
namespace CanPath

open Safety Usb Usb.Comms Memory

/-! ## The board -/

/-- `bus_config`, the registers behind each CAN number (`cans`, where CAN3 is CAN2), and the list
of `mazda_filter.h`, if the build has `MAZDA_FILTER`. -/
structure CanBuild extends Firmware where
  busLookup : Nat → Nat
  canNumLookup : Nat → Nat
  cans : Nat → Nat
  mazdaHostIds : Option (List Nat)

def CanBuild.f407 : CanBuild :=
  { build := Build.f407
    busLookup := fun canNumber => if canNumber < 3 then canNumber else 0xFF
    canNumLookup := fun busNumber => if busNumber < 3 then busNumber else 0xFF
    cans := fun canNumber => min canNumber 1
    mazdaHostIds := some [0x078, 0x082, 0x09A, 0x09D, 0x165, 0x202, 0x215, 0x21B, 0x21C, 0x21F,
      0x228, 0x240, 0x241, 0x243, 0x340, 0x43E, 0x440, 0x477, 0x76C, 0x361, 0x362, 0x363, 0x364,
      0x365, 0x366, 0x499] }

def mazdaCamHostVisible (addr : Nat) : Bool := addr == 0x243 || addr == 0x440

/-- What `can_rx` shows to the host. -/
def CanBuild.hostVisible (fw : CanBuild) (busNumber addr : Nat) : Bool :=
  match fw.mazdaHostIds with
  | none => true
  | some ids =>
    if busNumber == 0 then ids.contains addr
    else if busNumber == 2 then mazdaCamHostVisible addr
    else true

/-- The echoes that `process_can` shows to the host. -/
def CanBuild.echoVisible (fw : CanBuild) (busNumber addr : Nat) : Bool :=
  match fw.mazdaHostIds with
  | none => true
  | some ids => busNumber == 0 && ids.contains addr

/-- The registers of a receive or transmit mailbox: identifier, length and data. -/
structure Mailbox where
  ir : UInt32 := 0
  dtr : UInt32 := 0
  dlr : UInt32 := 0
  dhr : UInt32 := 0
  deriving DecidableEq, Repr

/-- The bits of `TSR` when `process_can` reads it. -/
structure TxStatus where
  tme0 : Bool := false
  rqcp0 : Bool := false
  txok0 : Bool := false
  deriving DecidableEq, Repr

structure CanBoard (n m : Nat) where
  safety : SafetyState
  canRxQ : CanRing n
  canQueues : Nat → CanRing m
  txMailbox : Nat → Mailbox
  canReadBuffer : AsmBuffer
  canWriteBuffer : AsmBuffer

variable {n m : Nat}

def CanBoard.pushRx (b : CanBoard n m) (p : CANPacket) : CanBoard n m :=
  { b with canRxQ := (canPush b.canRxQ p).2 }

def CanBoard.setQueue (b : CanBoard n m) (busNumber : Nat) (q : CanRing m) : CanBoard n m :=
  { b with canQueues := fun i => if i = busNumber then q else b.canQueues i }

/-! ## Packets and registers -/

def wordToByteArray (w : UInt32) : List UInt8 :=
  [w.toUInt8, (w >>> 8).toUInt8, (w >>> 16).toUInt8, (w >>> 24).toUInt8]

def byteArrayToWord (d : Vector UInt8 8) (off : Fin 5) : UInt32 :=
  (d.toList.getD off 0).toUInt32 ||| ((d.toList.getD (off + 1) 0).toUInt32 <<< 8) |||
    ((d.toList.getD (off + 2) 0).toUInt32 <<< 16) ||| ((d.toList.getD (off + 3) 0).toUInt32 <<< 24)

def Mailbox.dataLenCode (r : Mailbox) : BitVec 4 := BitVec.ofNat 4 (r.dtr &&& 0xF).toNat

/-- The packet a mailbox holds, as `can_rx` and the echo of `process_can` read it. -/
def Mailbox.toPacket (r : Mailbox) (returned : Bool) (busNumber : Nat) : CANPacket :=
  let extended := (r.ir >>> 2) &&& 1 != 0
  { fd := false
    bus := BitVec.ofNat 3 busNumber
    dataLenCode := r.dataLenCode
    rejected := false
    returned := returned
    extended := extended
    addr := BitVec.ofNat 29 (if extended then r.ir >>> 3 else r.ir >>> 21).toNat
    checksum := 0
    data := store (Vector.replicate 8 0) 0 (wordToByteArray r.dlr ++ wordToByteArray r.dhr) }

def Mailbox.ofPacket (p : CANPacket) : Mailbox :=
  let addr := UInt32.ofNat p.addr.toNat
  let ext : UInt32 := if p.extended then 1 else 0
  { ir := (if p.extended then addr <<< 3 else addr <<< 21) ||| (ext <<< 2) ||| 1
    dtr := UInt32.ofNat p.dataLenCode.toNat
    dlr := byteArrayToWord p.data 0
    dhr := byteArrayToWord p.data 4 }

/-- The range `can_set_checksum` and `can_check_checksum` sum up. -/
def checksumCopy (p : CANPacket) : Access :=
  { size := sizeofCANPacket, off := 0, len := canpacketHeadSize + p.getLen }

/-- The copy from `to_push.data` to `to_send.data`. -/
def forwardCopies (p : CANPacket) : List Access :=
  [{ size := 8, off := 0, len := p.getLen }, { size := 8, off := 0, len := p.getLen }]

/-! ## Sending -/

def txEcho (fw : CanBuild) (canNumber : Nat) (b : CanBoard n m) : List Access × CanBoard n m :=
  let busNumber := fw.busLookup canNumber
  let toPush := (b.txMailbox (fw.cans canNumber)).toPacket true busNumber
  ([checksumCopy toPush],
    if fw.echoVisible busNumber toPush.addr.toNat then b.pushRx (canSetChecksum toPush) else b)

def sendNext (fw : CanBuild) (canNumber : Nat) (b : CanBoard n m) : List Access × CanBoard n m :=
  let busNumber := fw.busLookup canNumber
  match canPop (b.canQueues busNumber) with
  | none => ([], b)
  | some (toSend, q) =>
    let b := b.setQueue busNumber q
    ([checksumCopy toSend],
      if canCheckChecksum toSend then
        { b with
          txMailbox := fun i =>
            if i = fw.cans canNumber then Mailbox.ofPacket toSend else b.txMailbox i }
      else b)

def processCan (fw : CanBuild) (canNumber : Nat) (tsr : TxStatus) (b : CanBoard n m) :
    List Access × CanBoard n m :=
  if canNumber != 0xFF && tsr.tme0 then
    let r := if tsr.rqcp0 && tsr.txok0 then txEcho fw canNumber b else ([], b)
    let r' := sendNext fw canNumber r.2
    (r.1 ++ r'.1, r'.2)
  else ([], b)

def canSend (fw : CanBuild) (toPush : CANPacket) (busNumber : Nat) (skipTxHook : Bool)
    (ts : UInt32) (tsr : TxStatus) (b : CanBoard n m) : List Access × CanBoard n m :=
  let r := if skipTxHook then (true, b.safety) else safetyTxHook fw.toFirmware ts toPush b.safety
  let b := { b with safety := r.2 }
  if r.1 then
    if busNumber < 3 then
      processCan fw (fw.canNumLookup busNumber) tsr
        (b.setQueue busNumber (canPush (b.canQueues busNumber) toPush).2)
    else ([], b)
  else
    let toPush := { toPush with returned := false, rejected := true }
    ([checksumCopy toPush], b.pushRx (canSetChecksum toPush))

/-! ## Receiving -/

/-- `to_send`, on a stack that held `stale`. -/
def forwarded (toPush : CANPacket) (stale : Vector UInt8 8) : CANPacket :=
  { toPush with
    rejected := false
    returned := false
    data := store stale 0 (load toPush.data 0 toPush.getLen) }

/-- The forwarding part of `can_rx`. -/
def forward (fw : CanBuild) (busNumber : Nat) (toPush : CANPacket) (stale : Vector UInt8 8)
    (ts : UInt32) (tsr : TxStatus) (b : CanBoard n m) : List Access × CanBoard n m :=
  match safetyFwdHook fw.toFirmware busNumber toPush.addr.toNat b.safety with
  | none => ([], b)
  | some busFwdNum =>
    let toSend := canSetChecksum (forwarded toPush stale)
    let r := canSend fw toSend busFwdNum true ts tsr b
    (forwardCopies toPush ++ checksumCopy toSend :: r.1, r.2)

/-- `can_rx` for one frame of the FIFO. -/
def canRx (fw : CanBuild) (canNumber : Nat) (fifo : Mailbox) (stale : Vector UInt8 8)
    (ts : UInt32) (tsr : TxStatus) (b : CanBoard n m) : List Access × CanBoard n m :=
  let busNumber := fw.busLookup canNumber
  let toPush := canSetChecksum (fifo.toPacket false busNumber)
  let r := forward fw busNumber toPush stale ts tsr b
  let b := { r.2 with safety := (safetyRxHook fw.toFirmware ts toPush r.2.safety).2 }
  (checksumCopy toPush :: r.1,
    if fw.hostVisible busNumber toPush.addr.toNat then b.pushRx toPush else b)

/-! ## The host -/

/-- `can_send` for each packet of a transfer, with the timer and the status each finds. -/
def sendAll (fw : CanBuild) : List CANPacket → List (UInt32 × TxStatus) → CanBoard n m →
    List Access × CanBoard n m
  | [], _, b => ([], b)
  | p :: ps, sts, b =>
    let st := sts.headD (0, {})
    let r := canSend fw p p.bus.toNat false st.1 st.2 b
    let r' := sendAll fw ps sts.tail r.2
    (r.1 ++ r'.1, r'.2)

def hostWrite (fw : CanBuild) (data : List UInt8) (sts : List (UInt32 × TxStatus))
    (b : CanBoard n m) : List Access × CanBoard n m :=
  let w := commsCanWrite data b.canWriteBuffer
  let r := sendAll fw w.sent sts { b with canWriteBuffer := w.buf }
  (w.copies ++ r.1, r.2)

def hostRead (maxLen : Nat) (b : CanBoard n m) : List Access × CanBoard n m :=
  let r := commsCanRead maxLen [] { canRxQ := b.canRxQ, canReadBuffer := b.canReadBuffer }
  (r.copies, { b with canRxQ := r.canRxQ, canReadBuffer := r.canReadBuffer })

def commsCanReset (b : CanBoard n m) : CanBoard n m :=
  { b with
    canWriteBuffer := { b.canWriteBuffer with ptr := 0, tailSize := 0 }
    canReadBuffer := { b.canReadBuffer with ptr := 0, tailSize := 0 } }

/-- The control requests that touch the queues and the buffers. -/
def commsControlHandler (request : UInt8) (param1 : UInt16) (b : CanBoard n m) : CanBoard n m :=
  if request == 0xc0 then commsCanReset b
  else if request == 0xf1 then
    if param1 == 0xFFFF then { b with canRxQ := b.canRxQ.clear }
    else if param1 < 3 then b.setQueue param1.toNat (b.canQueues param1.toNat).clear
    else b
  else b

/-! ## The system -/

/-- Frames received, transmit interrupts, the host's transfers and requests, and whatever else
reaches the safety layer. -/
inductive Event where
  | rx (canNumber : Nat) (fifo : Mailbox) (stale : Vector UInt8 8) (ts : UInt32) (tsr : TxStatus)
  | txIrq (canNumber : Nat) (tsr : TxStatus)
  | hostWrite (data : List UInt8) (sts : List (UInt32 × TxStatus))
  | hostRead (maxLen : Nat)
  | control (request : UInt8) (param1 : UInt16)
  | safety (e : Safety.Event)

def act (fw : CanBuild) (b : CanBoard n m) : Event → List Access × CanBoard n m
  | .rx canNumber fifo stale ts tsr => canRx fw canNumber fifo stale ts tsr b
  | .txIrq canNumber tsr => processCan fw canNumber tsr b
  | .hostWrite data sts => hostWrite fw data sts b
  | .hostRead maxLen => hostRead maxLen b
  | .control request param1 => ([], commsControlHandler request param1 b)
  | .safety e => ([], { b with safety := Safety.step fw.toFirmware b.safety e })

def step (fw : CanBuild) (b : CanBoard n m) (e : Event) : CanBoard n m := (act fw b e).2

/-- Every copy and sum the event leads to stays inside its object. -/
def Inside (fw : CanBuild) (b : CanBoard n m) (e : Event) : Prop :=
  ∀ a ∈ (act fw b e).1, a.Inside

def noPacket : CANPacket := .eightBytes 0 0 (Vector.replicate 8 0)

def noBuffer : AsmBuffer := { ptr := 0, tailSize := 0, data := Vector.replicate 72 0 }

def boot (n m : Nat) (statics : List Int) : CanBoard (n + 1) (m + 1) :=
  { safety := powerOn statics
    canRxQ := Ring.empty noPacket (Nat.succ_pos n)
    canQueues := fun _ => Ring.empty noPacket (Nat.succ_pos m)
    txMailbox := fun _ => {}
    canReadBuffer := noBuffer
    canWriteBuffer := noBuffer }

/-! ## What comes in -/

/-- The length code of a host packet, in the high half of its first byte. -/
def lengthCode (bs : List UInt8) : Nat := (bs.headD 0).toNat >>> 4

/-- The host's bytes that do not make up a packet yet. -/
def carry (tail : List UInt8) : Event → List UInt8
  | .hostWrite data _ => (assembler.drain () (tail ++ data)).2.2
  | .control request _ => if request == 0xc0 then [] else tail
  | _ => tail

/-- The frame received, or each packet of the host's that is complete with the event, has a length
code of at most 8. -/
def ShortInput (tail : List UInt8) : Event → Prop
  | .rx _ fifo _ _ _ => fifo.dataLenCode.toNat ≤ 8
  | .hostWrite data _ => ∀ bs ∈ (assembler.drain () (tail ++ data)).1, lengthCode bs ≤ 8
  | _ => True

instance (tail : List UInt8) (e : Event) : Decidable (ShortInput tail e) :=
  match e with
  | .rx _ fifo _ _ _ => inferInstanceAs (Decidable (fifo.dataLenCode.toNat ≤ 8))
  | .hostWrite data _ =>
    inferInstanceAs
      (Decidable (∀ bs ∈ (assembler.drain () (tail ++ data)).1, lengthCode bs ≤ 8))
  | .txIrq _ _ | .hostRead _ | .control _ _ | .safety _ => inferInstanceAs (Decidable True)

/-! ## Short packets stay short -/

/-- Every packet in a queue or in a mailbox is short. -/
structure Clean (b : CanBoard n m) : Prop where
  rx : ∀ p ∈ b.canRxQ.contents, Short p
  tx : ∀ busNumber, ∀ p ∈ (b.canQueues busNumber).contents, Short p
  mailbox : ∀ i, (b.txMailbox i).dataLenCode.toNat ≤ 8

/-- What a function does to a clean board outside the host's buffers. -/
structure Keeps (b : CanBoard n m) (r : List Access × CanBoard n m) : Prop where
  inside : ∀ a ∈ r.1, a.Inside
  clean : Clean r.2
  canReadBuffer : r.2.canReadBuffer = b.canReadBuffer
  canWriteBuffer : r.2.canWriteBuffer = b.canWriteBuffer

theorem Clean.keeps {b : CanBoard n m} (h : Clean b) : Keeps b ([], b) :=
  { inside := by simp, clean := h, canReadBuffer := rfl, canWriteBuffer := rfl }

theorem Keeps.trans {b : CanBoard n m} {r r' : List Access × CanBoard n m} (h : Keeps b r)
    (h' : Keeps r.2 r') : Keeps b (r.1 ++ r'.1, r'.2) where
  inside := by
    intro a ha
    rcases List.mem_append.1 ha with hfirst | hsecond
    · exact h.inside a hfirst
    · exact h'.inside a hsecond
  clean := h'.clean
  canReadBuffer := h'.canReadBuffer.trans h.canReadBuffer
  canWriteBuffer := h'.canWriteBuffer.trans h.canWriteBuffer

theorem checksumCopy_inside {p : CANPacket} : (checksumCopy p).Inside ↔ Short p := by
  by_cases hp : Short p
  · have hlen : p.dataLenCode.toNat ≤ 8 := hp
    have hget := getLen_of_short hp
    simp only [checksumCopy, Access.Inside, hp, iff_true, canpacketHeadSize, sizeofCANPacket]
    omega
  · have hget := getLen_of_not_short hp
    simp only [checksumCopy, Access.Inside, hp, iff_false, canpacketHeadSize, sizeofCANPacket]
    omega

theorem forwardCopies_inside {p : CANPacket} (hp : Short p) :
    ∀ a ∈ forwardCopies p, a.Inside := by
  have hlen : p.dataLenCode.toNat ≤ 8 := hp
  have hget := getLen_of_short hp
  intro a ha
  simp only [forwardCopies, List.mem_cons, List.not_mem_nil, or_false] at ha
  rcases ha with rfl | rfl <;> simp only [Access.Inside] <;> omega

theorem ofPacket_dataLenCode (p : CANPacket) :
    (Mailbox.ofPacket p).dataLenCode = p.dataLenCode := by
  have hcodes : ∀ c : BitVec 4, BitVec.ofNat 4 (UInt32.ofNat c.toNat &&& 0xF).toNat = c := by
    decide
  exact hcodes p.dataLenCode

theorem Clean.pushRx {b : CanBoard n m} (h : Clean b) {p : CANPacket} (hp : Short p) :
    Clean (b.pushRx p) where
  rx := by
    intro p' hp'
    rcases Ring.mem_push hp' with hold | rfl
    · exact h.rx p' hold
    · exact hp
  tx := h.tx
  mailbox := h.mailbox

theorem Clean.setQueue {b : CanBoard n m} (h : Clean b) (busNumber : Nat) {q : CanRing m}
    (hq : ∀ p ∈ q.contents, Short p) : Clean (b.setQueue busNumber q) where
  rx := h.rx
  tx := by
    intro i p hp
    simp only [CanBoard.setQueue] at hp
    split at hp
    · exact hq p hp
    · exact h.tx i p hp
  mailbox := h.mailbox

section Paths

variable (fw : CanBuild) {b : CanBoard n m}

theorem txEcho_keeps (h : Clean b) (canNumber : Nat) : Keeps b (txEcho fw canNumber b) := by
  have hshort : Short ((b.txMailbox (fw.cans canNumber)).toPacket true (fw.busLookup canNumber)) :=
    h.mailbox _
  unfold txEcho
  dsimp only
  generalize (b.txMailbox (fw.cans canNumber)).toPacket true (fw.busLookup canNumber) = p at *
  have hinside : ∀ a ∈ [checksumCopy p], a.Inside := by
    simpa using checksumCopy_inside.2 hshort
  split
  · exact
      { inside := hinside
        clean := h.pushRx hshort
        canReadBuffer := rfl
        canWriteBuffer := rfl }
  · exact { inside := hinside, clean := h, canReadBuffer := rfl, canWriteBuffer := rfl }

theorem sendNext_keeps (h : Clean b) (canNumber : Nat) : Keeps b (sendNext fw canNumber b) := by
  unfold sendNext
  dsimp only
  split
  · exact h.keeps
  · next toSend q hpop =>
    have hq : (b.canQueues (fw.busLookup canNumber)).contents = toSend :: q.contents :=
      Ring.pop_some hpop
    have hshort : Short toSend := h.tx _ toSend (by rw [hq]; exact List.mem_cons_self)
    have hrest : ∀ p ∈ q.contents, Short p := fun p hp =>
      h.tx _ p (by rw [hq]; exact List.mem_cons_of_mem toSend hp)
    have hclean := h.setQueue (fw.busLookup canNumber) hrest
    have hinside : ∀ a ∈ [checksumCopy toSend], a.Inside := by
      simpa using checksumCopy_inside.2 hshort
    split
    · exact
        { inside := hinside
          clean :=
            { rx := hclean.rx
              tx := hclean.tx
              mailbox := by
                intro i
                dsimp only
                split
                · rw [ofPacket_dataLenCode]
                  exact hshort
                · exact hclean.mailbox i }
          canReadBuffer := rfl
          canWriteBuffer := rfl }
    · exact { inside := hinside, clean := hclean, canReadBuffer := rfl, canWriteBuffer := rfl }

theorem processCan_keeps (h : Clean b) (canNumber : Nat) (tsr : TxStatus) :
    Keeps b (processCan fw canNumber tsr b) := by
  unfold processCan
  split
  · have hecho : Keeps b (if tsr.rqcp0 && tsr.txok0 then txEcho fw canNumber b else ([], b)) := by
      split
      · exact txEcho_keeps fw h canNumber
      · exact h.keeps
    exact hecho.trans (sendNext_keeps fw hecho.clean canNumber)
  · exact h.keeps

theorem canSend_keeps (h : Clean b) {p : CANPacket} (hp : Short p) (busNumber : Nat)
    (skipTxHook : Bool) (ts : UInt32) (tsr : TxStatus) :
    Keeps b (canSend fw p busNumber skipTxHook ts tsr b) := by
  unfold canSend
  dsimp only
  generalize (if skipTxHook = true then (true, b.safety)
    else safetyTxHook fw.toFirmware ts p b.safety) = r
  have hsafety : Clean { b with safety := r.2 } :=
    { rx := h.rx, tx := h.tx, mailbox := h.mailbox }
  split
  · split
    · have hqueue : ∀ p' ∈ ((canPush (b.canQueues busNumber) p).2).contents, Short p' := by
        intro p' hp'
        rcases Ring.mem_push hp' with hold | rfl
        · exact h.tx busNumber p' hold
        · exact hp
      have hsend := processCan_keeps fw (hsafety.setQueue busNumber hqueue)
        (fw.canNumLookup busNumber) tsr
      exact
        { inside := hsend.inside
          clean := hsend.clean
          canReadBuffer := hsend.canReadBuffer
          canWriteBuffer := hsend.canWriteBuffer }
    · exact { inside := by simp, clean := hsafety, canReadBuffer := rfl, canWriteBuffer := rfl }
  · have hecho : Short { p with returned := false, rejected := true } := hp
    exact
      { inside := by simpa using checksumCopy_inside.2 hecho
        clean := hsafety.pushRx hecho
        canReadBuffer := rfl
        canWriteBuffer := rfl }

theorem sendAll_keeps {ps : List CANPacket} (hps : ∀ p ∈ ps, Short p) (h : Clean b)
    (sts : List (UInt32 × TxStatus)) : Keeps b (sendAll fw ps sts b) := by
  induction ps generalizing b sts with
  | nil => exact h.keeps
  | cons p ps ih =>
    have hsend := canSend_keeps fw h (hps p List.mem_cons_self) p.bus.toNat false
      (sts.headD (0, {})).1 (sts.headD (0, {})).2
    exact hsend.trans (ih (fun p' hp' => hps p' (List.mem_cons_of_mem p hp')) hsend.clean sts.tail)

theorem forward_keeps (h : Clean b) (busNumber : Nat) {toPush : CANPacket}
    (hpush : Short toPush) (stale : Vector UInt8 8) (ts : UInt32) (tsr : TxStatus) :
    Keeps b (forward fw busNumber toPush stale ts tsr b) := by
  unfold forward
  split
  · exact h.keeps
  · next busFwdNum _ =>
    have hsend : Short (canSetChecksum (forwarded toPush stale)) := hpush
    have hkeeps := canSend_keeps fw h hsend busFwdNum true ts tsr
    refine { hkeeps with inside := ?_ }
    intro a ha
    rcases List.mem_append.1 ha with hcopy | hrest
    · exact forwardCopies_inside hpush a hcopy
    · rcases List.mem_cons.1 hrest with rfl | hlater
      · exact checksumCopy_inside.2 hsend
      · exact hkeeps.inside a hlater

theorem canRx_keeps (h : Clean b) (canNumber : Nat) {fifo : Mailbox}
    (hfifo : fifo.dataLenCode.toNat ≤ 8) (stale : Vector UInt8 8) (ts : UInt32)
    (tsr : TxStatus) : Keeps b (canRx fw canNumber fifo stale ts tsr b) := by
  have hpush : Short (canSetChecksum (fifo.toPacket false (fw.busLookup canNumber))) := hfifo
  unfold canRx
  dsimp only
  generalize canSetChecksum (fifo.toPacket false (fw.busLookup canNumber)) = toPush at hpush ⊢
  have hforward := forward_keeps fw h (fw.busLookup canNumber) hpush stale ts tsr
  generalize forward fw (fw.busLookup canNumber) toPush stale ts tsr b = r at hforward ⊢
  have hclean : Clean
      { r.2 with safety := (safetyRxHook fw.toFirmware ts toPush r.2.safety).2 } :=
    { rx := hforward.clean.rx, tx := hforward.clean.tx, mailbox := hforward.clean.mailbox }
  have hinside : ∀ a ∈ checksumCopy toPush :: r.1, a.Inside := by
    intro a ha
    rcases List.mem_cons.1 ha with rfl | hrest
    · exact checksumCopy_inside.2 hpush
    · exact hforward.inside a hrest
  split
  · exact
      { inside := hinside
        clean := hclean.pushRx hpush
        canReadBuffer := hforward.canReadBuffer
        canWriteBuffer := hforward.canWriteBuffer }
  · exact
      { inside := hinside
        clean := hclean
        canReadBuffer := hforward.canReadBuffer
        canWriteBuffer := hforward.canWriteBuffer }

end Paths

/-! ## Runs -/

/-- The board after a run of short inputs, with `tail` of the host's next packet. -/
structure Bounded (b : CanBoard n m) (tail : List UInt8) : Prop where
  clean : Clean b
  ptr : b.canReadBuffer.ptr ≤ 14
  write : Holds b.canWriteBuffer tail

theorem bounded_boot (n m : Nat) (statics : List Int) : Bounded (boot n m statics) [] where
  clean :=
    { rx := by simp [boot]
      tx := by simp [boot]
      mailbox := by
        intro i
        show (Mailbox.dataLenCode {}).toNat ≤ 8
        decide }
  ptr := Nat.zero_le 14
  write := { ptr := rfl, bytes := by simp, owed := rfl, waits := rfl }

theorem Bounded.of_keeps {b : CanBoard n m} {tail : List UInt8} (h : Bounded b tail)
    {r : List Access × CanBoard n m} (hr : Keeps b r) : Bounded r.2 tail where
  clean := hr.clean
  ptr := by
    rw [hr.canReadBuffer]
    exact h.ptr
  write := by
    rw [hr.canWriteBuffer]
    exact h.write

/-- A packet of the host's fits into a `CANPacket_t` exactly when its length code is at most 8. -/
theorem assembled_fits {xs bs : List UInt8} (h : bs ∈ (assembler.drain () xs).1) :
    bs.length ≤ sizeofCANPacket ↔ lengthCode bs ≤ 8 := by
  have htable : ∀ c : Fin 16, canpacketHeadSize + dlcToLenTable.getD c.val 0 ≤ sizeofCANPacket ↔
      c.val ≤ 8 := by decide
  obtain ⟨b, rest, rfl, hlen⟩ := assembler_whole h
  have hlt : b.toNat >>> 4 < 16 := by
    have hb := b.toNat_lt
    rw [Nat.shiftRight_eq_div_pow]
    omega
  rw [hlen, lengthCode, List.headD_cons]
  exact htable ⟨b.toNat >>> 4, hlt⟩

theorem toPush_short {xs bs : List UInt8} (h : bs ∈ (assembler.drain () xs).1)
    (hcode : lengthCode bs ≤ 8) : Short (toPush bs) := by
  obtain ⟨b, rest, rfl, hlen⟩ := assembler_whole h
  exact (toPush_hostPacket hcode hlen).1.short

theorem inside_nil : ∀ a ∈ ([] : List Access), a.Inside := by simp

section System

variable (fw : CanBuild) {b : CanBoard n m} {tail : List UInt8}

theorem hostWrite_bounded (h : Bounded b tail) {data : List UInt8}
    (hdata : ∀ bs ∈ (assembler.drain () (tail ++ data)).1, lengthCode bs ≤ 8)
    (sts : List (UInt32 × TxStatus)) :
    (∀ a ∈ (hostWrite fw data sts b).1, a.Inside) ∧
      Bounded (hostWrite fw data sts b).2 (assembler.drain () (tail ++ data)).2.2 := by
  have htakes := commsCanWrite_takes h.write data
  have hshort : ∀ p ∈ (commsCanWrite data b.canWriteBuffer).sent, Short p := by
    intro p hp
    rw [htakes.sent] at hp
    obtain ⟨bs, hbs, rfl⟩ := List.mem_map.1 hp
    exact toPush_short hbs (hdata bs hbs)
  have hbuf : Bounded { b with canWriteBuffer := (commsCanWrite data b.canWriteBuffer).buf }
      (assembler.drain () (tail ++ data)).2.2 :=
    { clean := { rx := h.clean.rx, tx := h.clean.tx, mailbox := h.clean.mailbox }
      ptr := h.ptr
      write := htakes.holds }
  have hsend := sendAll_keeps fw hshort hbuf.clean sts
  have hbounded := hbuf.of_keeps hsend
  refine ⟨?_, hbounded⟩
  intro a ha
  rcases List.mem_append.1 ha with hcopy | hrest
  · exact htakes.copies.2 (fun bs hbs => (assembled_fits hbs).2 (hdata bs hbs)) a hcopy
  · exact hsend.inside a hrest

theorem hostRead_bounded (h : Bounded b tail) (maxLen : Nat) :
    (∀ a ∈ (hostRead maxLen b).1, a.Inside) ∧ Bounded (hostRead maxLen b).2 tail := by
  have harr : ∀ ps ∈ ([] : List (List CANPacket)), ∀ p ∈ ps, Short p := by simp
  obtain ⟨hcall, _⟩ := commsCanRead_inv maxLen
    (s := { canRxQ := b.canRxQ, canReadBuffer := b.canReadBuffer }) h.ptr h.clean.rx harr
  exact ⟨hcall.copies,
    { clean := { rx := hcall.short, tx := h.clean.tx, mailbox := h.clean.mailbox }
      ptr := hcall.ptr
      write := h.write }⟩

theorem control_bounded (h : Bounded b tail) (request : UInt8) (param1 : UInt16) :
    Bounded (commsControlHandler request param1 b) (carry tail (.control request param1)) := by
  unfold commsControlHandler
  simp only [carry]
  split
  · exact
      { clean := { rx := h.clean.rx, tx := h.clean.tx, mailbox := h.clean.mailbox }
        ptr := Nat.zero_le 14
        write := { ptr := rfl, bytes := by simp, owed := rfl, waits := rfl } }
  · split
    · split
      · exact
          { clean := { rx := by simp, tx := h.clean.tx, mailbox := h.clean.mailbox }
            ptr := h.ptr
            write := h.write }
      · split
        · exact
            { clean := h.clean.setQueue _ (by simp)
              ptr := h.ptr
              write := h.write }
        · exact h
    · exact h

/-- What comes in short stays inside, and leaves the board as it was. -/
theorem bounded_step {e : Event} (h : Bounded b tail) (he : ShortInput tail e) :
    Inside fw b e ∧ Bounded (step fw b e) (carry tail e) := by
  cases e with
  | rx canNumber fifo stale ts tsr =>
    have hkeeps := canRx_keeps fw h.clean canNumber he stale ts tsr
    exact ⟨hkeeps.inside, h.of_keeps hkeeps⟩
  | txIrq canNumber tsr =>
    have hkeeps := processCan_keeps fw h.clean canNumber tsr
    exact ⟨hkeeps.inside, h.of_keeps hkeeps⟩
  | hostWrite data sts => exact hostWrite_bounded fw h he sts
  | hostRead maxLen => exact hostRead_bounded h maxLen
  | control request param1 =>
    exact ⟨inside_nil, control_bounded h request param1⟩
  | safety e =>
    exact ⟨inside_nil,
      { clean := { rx := h.clean.rx, tx := h.clean.tx, mailbox := h.clean.mailbox }
        ptr := h.ptr
        write := h.write }⟩

/-- What comes in longer reaches past an object at once: the sum over the frame received, or the
copy into `to_push`. -/
theorem short_of_inside {e : Event} (h : Bounded b tail) (he : Inside fw b e) :
    ShortInput tail e := by
  cases e with
  | rx canNumber fifo stale ts tsr =>
    have hfirst : (checksumCopy
        (canSetChecksum (fifo.toPacket false (fw.busLookup canNumber)))).Inside :=
      he _ List.mem_cons_self
    exact checksumCopy_inside.1 hfirst
  | hostWrite data sts =>
    intro bs hbs
    have hcopies : ∀ a ∈ (commsCanWrite data b.canWriteBuffer).copies, a.Inside := fun a ha =>
      he a (List.mem_append_left _ ha)
    exact (assembled_fits hbs).1 ((commsCanWrite_takes h.write data).copies.1 hcopies bs hbs)
  | txIrq canNumber tsr => trivial
  | hostRead maxLen => trivial
  | control request param1 => trivial
  | safety e => trivial

/-- Over a run every copy stays inside its object exactly when what comes in is short. -/
theorem Bounded.run_inside_iff (h : Bounded b tail) (es : List Event) :
    Run.AllSteps (step fw) (Inside fw) b es ↔ Run.AllSteps carry ShortInput tail es := by
  have hok : ∀ (b : CanBoard n m) (tail : List UInt8) (e : Event), Bounded b tail →
      (Inside fw b e ↔ ShortInput tail e) := fun b tail e h =>
    ⟨short_of_inside fw h, fun he => (bounded_step fw h he).1⟩
  have hstep : ∀ (b : CanBoard n m) (tail : List UInt8) (e : Event),
      Bounded b tail → Inside fw b e → Bounded (step fw b e) (carry tail e) :=
    fun b tail e h he => (bounded_step fw h (short_of_inside fw h he)).2
  exact Run.allSteps_iff hok hstep h es

end System

/-- In a run from the start every copy and sum stays inside its object if and only if every frame
received, and every packet of the host's, has a length code of at most 8. -/
theorem copies_inside_iff (fw : CanBuild) (n m : Nat) (statics : List Int) (es : List Event) :
    Run.AllSteps (step fw) (Inside fw) (boot n m statics) es ↔
      Run.AllSteps carry ShortInput [] es :=
  (bounded_boot n m statics).run_inside_iff fw es

/-- A frame off the bus with length code 9, and a packet of the host's with the same. -/
theorem copies_outside_code9 :
    ¬ Run.AllSteps (step .f407) (Inside .f407) (boot 2047 127 [])
        [.rx 0 { dtr := 9 } (Vector.replicate 8 0) 0 {}] ∧
      ¬ Run.AllSteps (step .f407) (Inside .f407) (boot 2047 127 [])
        [.hostWrite (0x90 :: List.replicate 17 0) []] := by
  constructor
  · rintro ⟨h, _⟩
    have hsum := h _ List.mem_cons_self
    exact absurd hsum (by decide)
  · rintro ⟨h, _⟩
    have hcopy := h (toPushCopy 18) (List.mem_append_left _ (by decide))
    exact absurd hcopy (by decide)

end CanPath
end Board
end MazdaPort
