import MazdaPort.Board.CanPath
import MazdaPort.Lib.Credit

/-!
# MazdaPort.Board.FlowControl

The flow control of the host's transfers: the endpoint EP3 (`usb.h`), the gate that arms it
(`refresh_can_tx_slots_available`) and the transmit queues behind `can_send`.

A free cell of a queue is a credit, a packet that `safety_tx_hook` approves a request for one of the
queue of its bus, and the mailbox it finds empty brings one back. `approved_queued_iff`: every
approved packet is queued exactly when the packets of each USB packet are covered by the cells free
at that moment (`Room`), which holds while no more packets of one bus come from one arming to the
next than the gate asks cells for. Nothing in a transfer of 0x800 bytes sees to that.
-/

namespace MazdaPort
namespace Board
namespace FlowControl

open Safety Usb Usb.Comms CanPath Credit Memory

/-! ## The board -/

def canTxBufferSize : Nat := 128

def maxCanMsgsPerUsbBulkTransfer : Nat := 51

/-- `NAKSTS` of `DOEPCTL`, and the two fields of `DOEPTSIZ`. -/
structure Endpoint where
  naksts : Bool
  pktcnt : Nat
  xfrsiz : Nat
  deriving DecidableEq, Repr

/-- `DOEPTSIZ = (32 << 19) | 0x800`, then `EPENA | CNAK`. -/
def Endpoint.armed : Endpoint := { naksts := false, pktcnt := 32, xfrsiz := 0x800 }

/-- The entries of the receive FIFO for EP3: a USB packet, and the end of a transfer. -/
inductive RxEntry where
  | dataUpdt (usbdata : List UInt8)
  | xfrc
  deriving DecidableEq, Repr

/-- The losses are counted without the wrap of `tx_buffer_overflow` at 2^32. -/
structure TxBoard (n m : Nat) where
  board : CanBoard n m
  outep3 : Endpoint
  rxFifo : List RxEntry
  outep3Processing : Bool
  txBufferOverflow : Nat

/-- What became of a packet handed to `can_send`. -/
inductive Fate where
  | blocked
  | noQueue
  | queued
  | overflowed
  deriving DecidableEq, Repr

variable {n m : Nat}

/-! ## The gate -/

def canSlotsEmpty (q : CanRing m) : Nat := q.slotsEmpty

def canTxCheckMinSlotsFree (b : CanBoard n m) (min : Nat) : Bool :=
  min ≤ canSlotsEmpty (b.canQueues 0) && min ≤ canSlotsEmpty (b.canQueues 1) &&
    min ≤ canSlotsEmpty (b.canQueues 2)

def canTxCommsResumeUsb (b : TxBoard n m) : TxBoard n m :=
  if !b.outep3Processing && b.outep3.naksts then { b with outep3 := .armed } else b

def refreshCanTxSlotsAvailable (b : TxBoard n m) : TxBoard n m :=
  if canTxCheckMinSlotsFree b.board maxCanMsgsPerUsbBulkTransfer then canTxCommsResumeUsb b else b

/-! ## Sending -/

def processCan (fw : CanBuild) (canNumber : Nat) (tsr : TxStatus) (b : TxBoard n m) :
    TxBoard n m :=
  let popped := canNumber != 0xFF && tsr.tme0 &&
    (canPop (b.board.canQueues (fw.busLookup canNumber))).isSome
  let b := { b with board := (CanPath.processCan fw canNumber tsr b.board).2 }
  if popped then refreshCanTxSlotsAvailable b else b

/-- `can_send` for a packet of the host, which the hook judges. -/
def canSend (fw : CanBuild) (toPush : CANPacket) (st : UInt32 × TxStatus) (b : TxBoard n m) :
    Fate × TxBoard n m :=
  let busNumber := toPush.bus.toNat
  let r := safetyTxHook fw.toFirmware st.1 toPush b.board.safety
  let b := { b with board := { b.board with safety := r.2 } }
  if r.1 then
    if busNumber < 3 then
      let pushed := canPush (b.board.canQueues busNumber) toPush
      (if pushed.1 then .queued else .overflowed,
        processCan fw (fw.canNumLookup busNumber) st.2
          { b with
            board := b.board.setQueue busNumber pushed.2
            txBufferOverflow := b.txBufferOverflow + if pushed.1 then 0 else 1 })
    else (.noQueue, b)
  else
    let toPush := { toPush with returned := false, rejected := true }
    (.blocked, { b with board := b.board.pushRx (canSetChecksum toPush) })

def sendAll (fw : CanBuild) : List CANPacket → List (UInt32 × TxStatus) → TxBoard n m →
    List Fate × TxBoard n m
  | [], _, b => ([], b)
  | p :: ps, sts, b =>
    let r := canSend fw p (sts.headD (0, {})) b
    let r' := sendAll fw ps sts.tail r.2
    (r.1 :: r'.1, r'.2)

/-- `comms_can_write`, with the timer and the mailbox each packet finds. -/
def commsCanWrite (fw : CanBuild) (data : List UInt8) (sts : List (UInt32 × TxStatus))
    (b : TxBoard n m) : List Fate × TxBoard n m :=
  let w := Usb.commsCanWrite data b.board.canWriteBuffer
  let r := sendAll fw w.sent sts { b with board := { b.board with canWriteBuffer := w.buf } }
  (r.1, refreshCanTxSlotsAvailable r.2)

/-! ## The endpoint -/

/-- The core takes an OUT packet of at most 64 bytes unless EP3 answers NAK. A short packet and the
last one end the transfer, and the core sets NAK. -/
def receive (usbdata : List UInt8) (b : TxBoard n m) : TxBoard n m :=
  if b.outep3.naksts || 64 < usbdata.length then b
  else
    let last := usbdata.length < 64 || b.outep3.pktcnt ≤ 1 || b.outep3.xfrsiz ≤ usbdata.length
    { b with
      outep3 :=
        { naksts := last
          pktcnt := b.outep3.pktcnt - 1
          xfrsiz := b.outep3.xfrsiz - usbdata.length }
      rxFifo := b.rxFifo ++ .dataUpdt usbdata :: if last then [.xfrc] else [] }

/-- `usb_irqhandler` on the oldest entry of the FIFO. -/
def usbIrqhandler (fw : CanBuild) (sts : List (UInt32 × TxStatus)) (b : TxBoard n m) :
    List Fate × TxBoard n m :=
  match b.rxFifo with
  | [] => ([], b)
  | .dataUpdt usbdata :: rest =>
    commsCanWrite fw usbdata sts { b with rxFifo := rest, outep3Processing := true }
  | .xfrc :: rest =>
    ([], refreshCanTxSlotsAvailable { b with rxFifo := rest, outep3Processing := false })

/-! ## The system -/

/-- The host's OUT packets, the USB and the transmit interrupts, and what else reaches the safety
layer. Nothing is forwarded and no queue is cleared. -/
inductive Event where
  | out (usbdata : List UInt8)
  | usbIrq (sts : List (UInt32 × TxStatus))
  | txIrq (canNumber : Nat) (tsr : TxStatus)
  | safety (e : Safety.Event)

def act (fw : CanBuild) (b : TxBoard n m) : Event → List Fate × TxBoard n m
  | .out usbdata => ([], receive usbdata b)
  | .usbIrq sts => usbIrqhandler fw sts b
  | .txIrq canNumber tsr => ([], processCan fw canNumber tsr b)
  | .safety e =>
    ([], { b with board := { b.board with safety := Safety.step fw.toFirmware b.board.safety e } })

def step (fw : CanBuild) (b : TxBoard n m) (e : Event) : TxBoard n m := (act fw b e).2

/-- Every packet of the step that the hook approves is queued. -/
def Queued (fw : CanBuild) (b : TxBoard n m) (e : Event) : Prop :=
  ∀ f ∈ (act fw b e).1, f = .blocked ∨ f = .queued

/-! ## Credits -/

/-- The bytes of a packet received in part. -/
def waiting (buf : AsmBuffer) : List UInt8 := load buf.data 0 buf.ptr

/-- The packets that are complete with `usbdata`. -/
def hostPackets (buf : AsmBuffer) (usbdata : List UInt8) : List CANPacket :=
  (assembler.drain () (waiting buf ++ usbdata)).1.map toPush

/-- The buses of the packets that the hook approves, each with whether the mailbox is empty then. -/
def requests (fw : CanBuild) : List CANPacket → List (UInt32 × TxStatus) → SafetyState →
    List (Nat × Bool)
  | [], _, _ => []
  | p :: ps, sts, s =>
    let st := sts.headD (0, {})
    let r := safetyTxHook fw.toFirmware st.1 p s
    if r.1 then (p.bus.toNat, st.2.tme0) :: requests fw ps sts.tail r.2
    else requests fw ps sts.tail r.2

def stepRequests (fw : CanBuild) (b : TxBoard n m) : Event → List (Nat × Bool)
  | .usbIrq sts =>
    match b.rxFifo with
    | .dataUpdt usbdata :: _ =>
      requests fw (hostPackets b.board.canWriteBuffer usbdata) sts b.board.safety
    | _ => []
  | _ => []

def slots (b : CanBoard n m) (busNumber : Nat) : Nat := canSlotsEmpty (b.canQueues busNumber)

/-- The approved packets of the step are for buses the board has, and each finds a free cell: those
before it on its bus are fewer than the cells free before the step and the mailboxes found empty. -/
def Room (fw : CanBuild) (b : TxBoard n m) (e : Event) : Prop :=
  (∀ q ∈ stepRequests fw b e, q.1 < 3) ∧ Covered (slots b.board) (stepRequests fw b e)

/-! ## What a packet does to the queues -/

/-- The board after the oldest packet of a queue has left it. -/
def popQueue (b : CanBoard n m) (busNumber : Nat) : CanBoard n m :=
  match canPop (b.canQueues busNumber) with
  | none => b
  | some (_, q) => b.setQueue busNumber q

theorem txEcho_eq (fw : CanBuild) (canNumber : Nat) (b : CanBoard n m) :
    ∃ rx, (txEcho fw canNumber b).2 = { b with canRxQ := rx } := by
  unfold txEcho
  dsimp only
  split
  · exact ⟨_, rfl⟩
  · exact ⟨b.canRxQ, rfl⟩

theorem sendNext_eq (fw : CanBuild) (canNumber : Nat) (b : CanBoard n m) :
    ∃ mail, (sendNext fw canNumber b).2 =
      { popQueue b (fw.busLookup canNumber) with txMailbox := mail } := by
  unfold sendNext popQueue
  dsimp only
  cases canPop (b.canQueues (fw.busLookup canNumber)) with
  | none => exact ⟨b.txMailbox, rfl⟩
  | some r =>
    dsimp only
    split
    · exact ⟨_, rfl⟩
    · exact ⟨b.txMailbox, rfl⟩

/-- `process_can` takes one packet out of its queue if the mailbox is empty. -/
theorem processCan_eq (fw : CanBuild) (canNumber : Nat) (tsr : TxStatus) (b : CanBoard n m) :
    ∃ rx mail, (CanPath.processCan fw canNumber tsr b).2 =
      { if canNumber != 0xFF && tsr.tme0 then popQueue b (fw.busLookup canNumber) else b with
        canRxQ := rx
        txMailbox := mail } := by
  unfold CanPath.processCan
  split
  · have hecho : ∃ rx, (if tsr.rqcp0 && tsr.txok0 then txEcho fw canNumber b else ([], b)).2 =
        { b with canRxQ := rx } := by
      split
      · exact txEcho_eq fw canNumber b
      · exact ⟨b.canRxQ, rfl⟩
    obtain ⟨rx, hrx⟩ := hecho
    obtain ⟨mail, hmail⟩ := sendNext_eq fw canNumber { b with canRxQ := rx }
    refine ⟨rx, mail, ?_⟩
    dsimp only
    rw [hrx, hmail]
    unfold popQueue
    dsimp only
    cases canPop (b.canQueues (fw.busLookup canNumber)) <;> rfl
  · exact ⟨b.canRxQ, b.txMailbox, rfl⟩

theorem refresh_board (b : TxBoard n m) :
    (refreshCanTxSlotsAvailable b).board = b.board ∧
      (refreshCanTxSlotsAvailable b).txBufferOverflow = b.txBufferOverflow := by
  unfold refreshCanTxSlotsAvailable canTxCommsResumeUsb
  split
  · split <;> exact ⟨rfl, rfl⟩
  · exact ⟨rfl, rfl⟩

theorem processCan_board (fw : CanBuild) (canNumber : Nat) (tsr : TxStatus) (b : TxBoard n m) :
    (processCan fw canNumber tsr b).board = (CanPath.processCan fw canNumber tsr b.board).2 ∧
      (processCan fw canNumber tsr b).txBufferOverflow = b.txBufferOverflow := by
  unfold processCan
  dsimp only
  split
  · exact refresh_board _
  · exact ⟨rfl, rfl⟩

/-- The board under the endpoint is the board of the other paths. -/
theorem canSend_board (fw : CanBuild) (p : CANPacket) (st : UInt32 × TxStatus)
    (b : TxBoard n m) :
    (canSend fw p st b).2.board =
      (CanPath.canSend fw p p.bus.toNat false st.1 st.2 b.board).2 := by
  unfold canSend CanPath.canSend
  simp only [Bool.false_eq_true, if_false]
  split
  · split
    · exact (processCan_board fw _ st.2 _).1
    · rfl
  · rfl

theorem sendAll_board (fw : CanBuild) (ps : List CANPacket) (sts : List (UInt32 × TxStatus))
    (b : TxBoard n m) :
    (sendAll fw ps sts b).2.board = (CanPath.sendAll fw ps sts b.board).2 := by
  induction ps generalizing sts b with
  | nil => rfl
  | cons p ps ih =>
    have hrest := ih sts.tail (canSend fw p (sts.headD (0, {})) b).2
    rw [canSend_board] at hrest
    exact hrest

theorem commsCanWrite_board (fw : CanBuild) (data : List UInt8) (sts : List (UInt32 × TxStatus))
    (b : TxBoard n m) :
    (commsCanWrite fw data sts b).2.board = (CanPath.hostWrite fw data sts b.board).2 := by
  unfold commsCanWrite CanPath.hostWrite
  dsimp only
  rw [(refresh_board _).1, sendAll_board]

theorem slots_setQueue (b : CanBoard n m) (busNumber : Nat) (q : CanRing m) (k : Nat) :
    slots (b.setQueue busNumber q) k = if k = busNumber then q.slotsEmpty else slots b k := by
  unfold slots canSlotsEmpty CanBoard.setQueue
  dsimp only
  split <;> rfl

theorem slots_popQueue (b : CanBoard n m) (busNumber k : Nat) :
    slots b k ≤ slots (popQueue b busNumber) k := by
  unfold popQueue
  split
  · exact le_refl _
  · next p q hpop =>
    rw [slots_setQueue]
    split
    · next hk =>
      have hq : q.slotsEmpty = (b.canQueues busNumber).slotsEmpty + 1 := Ring.slotsEmpty_pop hpop
      rw [hk, hq]
      exact Nat.le_succ _
    · exact le_refl _

/-- A packet pushed is there to be popped, so a mailbox found empty frees a cell. -/
theorem slots_push_pop (hm : 1 < m) (b : CanBoard n m) (p : CANPacket) (busNumber : Nat)
    (tme : Bool) :
    slots (if tme then
        popQueue (b.setQueue busNumber (canPush (b.canQueues busNumber) p).2) busNumber
      else b.setQueue busNumber (canPush (b.canQueues busNumber) p).2) =
      spend (slots b) (busNumber, tme) := by
  have hpush : (canPush (b.canQueues busNumber) p).2.slotsEmpty = slots b busNumber - 1 :=
    Ring.slotsEmpty_push _ p
  obtain ⟨r, hpop⟩ : ∃ r, canPop (canPush (b.canQueues busNumber) p).2 = some r :=
    Ring.pop_push hm _ p
  have hpopped : r.2.slotsEmpty = slots b busNumber - 1 + 1 := by
    rw [← hpush]
    exact Ring.slotsEmpty_pop hpop
  funext k
  unfold spend
  cases tme with
  | false =>
    rw [if_neg (by simp), slots_setQueue]
    by_cases hk : k = busNumber
    · simp [hk, hpush]
    · simp [hk]
  | true =>
    have hself : (b.setQueue busNumber (canPush (b.canQueues busNumber) p).2).canQueues busNumber =
        (canPush (b.canQueues busNumber) p).2 := by simp [CanBoard.setQueue]
    rw [if_pos rfl, popQueue, hself, hpop]
    dsimp only
    rw [slots_setQueue, slots_setQueue]
    by_cases hk : k = busNumber
    · simp [hk, hpopped]
    · simp [hk]

theorem popQueue_frame (b : CanBoard n m) (busNumber : Nat) :
    (popQueue b busNumber).safety = b.safety ∧
      (popQueue b busNumber).canWriteBuffer = b.canWriteBuffer := by
  unfold popQueue
  split <;> exact ⟨rfl, rfl⟩

theorem processCan_slots (fw : CanBuild) (canNumber : Nat) (tsr : TxStatus) (b : TxBoard n m) :
    slots (processCan fw canNumber tsr b).board =
      slots (if canNumber != 0xFF && tsr.tme0 then popQueue b.board (fw.busLookup canNumber)
        else b.board) := by
  obtain ⟨rx, mail, hproc⟩ := processCan_eq fw canNumber tsr b.board
  rw [(processCan_board fw canNumber tsr b).1, hproc]
  rfl

theorem processCan_frame (fw : CanBuild) (canNumber : Nat) (tsr : TxStatus) (b : TxBoard n m) :
    (processCan fw canNumber tsr b).board.safety = b.board.safety ∧
      (processCan fw canNumber tsr b).board.canWriteBuffer = b.board.canWriteBuffer := by
  obtain ⟨rx, mail, hproc⟩ := processCan_eq fw canNumber tsr b.board
  rw [(processCan_board fw canNumber tsr b).1, hproc]
  dsimp only
  split
  · exact popQueue_frame b.board _
  · exact ⟨rfl, rfl⟩

section Packets

variable (p : CANPacket) (st : UInt32 × TxStatus) (b : TxBoard n m)

theorem canSend_frame (fw : CanBuild) :
    (canSend fw p st b).2.board.safety =
        (safetyTxHook fw.toFirmware st.1 p b.board.safety).2 ∧
      (canSend fw p st b).2.board.canWriteBuffer = b.board.canWriteBuffer := by
  unfold canSend
  dsimp only
  split
  · split
    · exact processCan_frame fw _ st.2 _
    · exact ⟨rfl, rfl⟩
  · exact ⟨rfl, rfl⟩

theorem canSend_overflow (fw : CanBuild) :
    (canSend fw p st b).2.txBufferOverflow =
      b.txBufferOverflow + if (canSend fw p st b).1 = .overflowed then 1 else 0 := by
  unfold canSend
  dsimp only
  split
  · split
    · rw [(processCan_board fw _ st.2 _).2]
      cases (canPush (b.board.canQueues p.bus.toNat) p).1 <;> simp
    · simp
  · simp

variable {p st b}

theorem canSend_blocked (fw : CanBuild)
    (h : (safetyTxHook fw.toFirmware st.1 p b.board.safety).1 = false) :
    (canSend fw p st b).1 = .blocked ∧ slots (canSend fw p st b).2.board = slots b.board := by
  unfold canSend
  dsimp only
  rw [if_neg (by simp [h])]
  exact ⟨rfl, rfl⟩

theorem canSend_noQueue (fw : CanBuild)
    (h : (safetyTxHook fw.toFirmware st.1 p b.board.safety).1 = true) (hbus : ¬ p.bus.toNat < 3) :
    (canSend fw p st b).1 = .noQueue ∧ slots (canSend fw p st b).2.board = slots b.board := by
  unfold canSend
  dsimp only
  rw [if_pos h, if_neg hbus]
  exact ⟨rfl, rfl⟩

/-- An approved packet is queued if its queue has a free cell, and takes one. -/
theorem canSend_approved (hm : 1 < m)
    (h : (safetyTxHook CanBuild.f407.toFirmware st.1 p b.board.safety).1 = true)
    (hbus : p.bus.toNat < 3) :
    (((canSend .f407 p st b).1 = .blocked ∨ (canSend .f407 p st b).1 = .queued) ↔
        0 < slots b.board p.bus.toNat) ∧
      slots (canSend .f407 p st b).2.board = spend (slots b.board) (p.bus.toNat, st.2.tme0) := by
  have hcan : CanBuild.f407.canNumLookup p.bus.toNat = p.bus.toNat := if_pos hbus
  have hback : CanBuild.f407.busLookup p.bus.toNat = p.bus.toNat := if_pos hbus
  have hpush := Ring.push_fst (b.board.canQueues p.bus.toNat) p
  have hne : (p.bus.toNat != 0xFF) = true := by
    simp only [bne_iff_ne, ne_eq]
    omega
  unfold canSend
  dsimp only
  rw [if_pos h, if_pos hbus]
  constructor
  · rw [slots, canSlotsEmpty, ← hpush]
    unfold canPush
    cases (Ring.push (b.board.canQueues p.bus.toNat) p).1 <;> simp
  · rw [processCan_slots, hcan, hback, hne, Bool.true_and]
    exact slots_push_pop hm _ p p.bus.toNat st.2.tme0

end Packets

/-! ## What a USB packet does -/

theorem sendAll_writeBuffer (fw : CanBuild) (ps : List CANPacket)
    (sts : List (UInt32 × TxStatus)) (b : TxBoard n m) :
    (sendAll fw ps sts b).2.board.canWriteBuffer = b.board.canWriteBuffer := by
  induction ps generalizing sts b with
  | nil => rfl
  | cons p ps ih => exact (ih _ _).trans (canSend_frame p _ b fw).2

/-- The overflow counter counts the packets that overflowed. -/
theorem sendAll_overflow {fw : CanBuild} {ps : List CANPacket} {sts : List (UInt32 × TxStatus)}
    {b : TxBoard n m} (h : ∀ f ∈ (sendAll fw ps sts b).1, f = .blocked ∨ f = .queued) :
    (sendAll fw ps sts b).2.txBufferOverflow = b.txBufferOverflow := by
  induction ps generalizing sts b with
  | nil => rfl
  | cons p ps ih =>
    obtain ⟨hfirst, hrest⟩ := List.forall_mem_cons.1 h
    have hone := canSend_overflow p (sts.headD (0, {})) b fw
    rcases hfirst with hfate | hfate
    · rw [hfate, if_neg (by simp)] at hone
      exact (ih hrest).trans hone
    · rw [hfate, if_neg (by simp)] at hone
      exact (ih hrest).trans hone

theorem sendAll_queued_iff (hm : 1 < m) (ps : List CANPacket) (sts : List (UInt32 × TxStatus))
    (b : TxBoard n m) :
    (∀ f ∈ (sendAll .f407 ps sts b).1, f = .blocked ∨ f = .queued) ↔
      (∀ q ∈ requests .f407 ps sts b.board.safety, q.1 < 3) ∧
        Covered (slots b.board) (requests .f407 ps sts b.board.safety) := by
  induction ps generalizing sts b with
  | nil => simp [sendAll, requests, covered_nil]
  | cons p ps ih =>
    have hsafety := (canSend_frame p (sts.headD (0, {})) b .f407).1
    have hrest := ih sts.tail (canSend .f407 p (sts.headD (0, {})) b).2
    rw [hsafety] at hrest
    simp only [sendAll, requests, List.forall_mem_cons]
    rw [hrest]
    cases hverdict : (safetyTxHook CanBuild.f407.toFirmware (sts.headD (0, {})).1 p
        b.board.safety).1 with
    | false =>
      obtain ⟨hfate, hslots⟩ := canSend_blocked .f407 hverdict
      rw [hfate, hslots]
      simp
    | true =>
      simp only [if_true, List.forall_mem_cons, covered_cons]
      by_cases hbus : p.bus.toNat < 3
      · obtain ⟨hfate, hslots⟩ := canSend_approved hm hverdict hbus
        rw [hfate, hslots]
        simp only [hbus, true_and]
        exact and_left_comm
      · have hfate := (canSend_noQueue .f407 hverdict hbus).1
        rw [hfate]
        simp [hbus]

/-- A packet approved takes one cell of its queue at most, and no other packet takes any. -/
theorem sendAll_slots (hm : 1 < m) (ps : List CANPacket) (sts : List (UInt32 × TxStatus))
    (b : TxBoard n m) (k : Nat) :
    slots b.board k ≤ slots (sendAll .f407 ps sts b).2.board k +
      asked k (requests .f407 ps sts b.board.safety) := by
  induction ps generalizing sts b with
  | nil => exact Nat.le_add_right _ _
  | cons p ps ih =>
    have hsafety := (canSend_frame p (sts.headD (0, {})) b .f407).1
    have hrest := ih sts.tail (canSend .f407 p (sts.headD (0, {})) b).2
    rw [hsafety] at hrest
    simp only [sendAll, requests]
    cases hverdict : (safetyTxHook CanBuild.f407.toFirmware (sts.headD (0, {})).1 p
        b.board.safety).1 with
    | false =>
      rw [(canSend_blocked .f407 hverdict).2] at hrest
      exact hrest
    | true =>
      rw [if_pos rfl, asked_cons]
      by_cases hbus : p.bus.toNat < 3
      · rw [(canSend_approved hm hverdict hbus).2, spend] at hrest
        dsimp only at hrest ⊢
        split at hrest
        · next hk =>
          rw [if_pos hk.symm]
          omega
        · omega
      · rw [(canSend_noQueue .f407 hverdict hbus).2] at hrest
        omega

/-! ## Steps -/

theorem waiting_of_holds {buf : AsmBuffer} {tail : List UInt8} (h : Holds buf tail) :
    waiting buf = tail := by
  rw [waiting, h.ptr]
  exact h.bytes

/-- The write buffer holds the beginning of a packet, or nothing. -/
def Assembling (b : TxBoard n m) : Prop :=
  Holds b.board.canWriteBuffer (waiting b.board.canWriteBuffer)

theorem assembling_of_holds {b : TxBoard n m} {tail : List UInt8}
    (h : Holds b.board.canWriteBuffer tail) : Assembling b := by
  rw [Assembling, waiting_of_holds h]
  exact h

theorem receive_board (usbdata : List UInt8) (b : TxBoard n m) :
    (receive usbdata b).board = b.board ∧
      (receive usbdata b).txBufferOverflow = b.txBufferOverflow := by
  unfold receive
  split <;> exact ⟨rfl, rfl⟩

section Steps

variable {b : TxBoard n m}

theorem commsCanWrite_assembling (h : Assembling b) (fw : CanBuild) (data : List UInt8)
    (sts : List (UInt32 × TxStatus)) : Assembling (commsCanWrite fw data sts b).2 := by
  have hbuf : (commsCanWrite fw data sts b).2.board.canWriteBuffer =
      (Usb.commsCanWrite data b.board.canWriteBuffer).buf := by
    unfold commsCanWrite
    dsimp only
    rw [(refresh_board _).1, sendAll_writeBuffer]
  have hholds := (commsCanWrite_takes h data).holds
  rw [← hbuf] at hholds
  exact assembling_of_holds hholds

theorem step_assembling (h : Assembling b) (fw : CanBuild) (e : Event) :
    Assembling (step fw b e) := by
  cases e with
  | out usbdata =>
    unfold Assembling
    rw [step, act, (receive_board usbdata b).1]
    exact h
  | usbIrq sts =>
    unfold step act usbIrqhandler
    dsimp only
    split
    · exact h
    · exact commsCanWrite_assembling (b := { b with rxFifo := _, outep3Processing := true })
        h fw _ sts
    · unfold Assembling
      rw [(refresh_board _).1]
      exact h
  | txIrq canNumber tsr =>
    unfold Assembling
    rw [step, act, (processCan_frame fw canNumber tsr b).2]
    exact h
  | safety e => exact h

/-- What a USB packet hands to `can_send`. -/
theorem hostPackets_eq (h : Assembling b) (usbdata : List UInt8) :
    (Usb.commsCanWrite usbdata b.board.canWriteBuffer).sent =
      hostPackets b.board.canWriteBuffer usbdata :=
  (commsCanWrite_takes h usbdata).sent

theorem queued_iff_room (hm : 1 < m) (h : Assembling b) (e : Event) :
    Queued .f407 b e ↔ Room .f407 b e := by
  cases e with
  | usbIrq sts =>
    unfold Queued Room act stepRequests usbIrqhandler
    cases hfifo : b.rxFifo with
    | nil => simp [covered_nil]
    | cons entry rest =>
      cases entry with
      | xfrc => simp [covered_nil]
      | dataUpdt usbdata =>
        dsimp only
        rw [← hostPackets_eq h usbdata]
        exact sendAll_queued_iff hm _ sts _
  | out usbdata => simp [Queued, Room, act, stepRequests, covered_nil]
  | txIrq canNumber tsr => simp [Queued, Room, act, stepRequests, covered_nil]
  | safety e => simp [Queued, Room, act, stepRequests, covered_nil]

theorem overflow_of_queued {e : Event} {fw : CanBuild} (h : Queued fw b e) :
    (step fw b e).txBufferOverflow = b.txBufferOverflow := by
  cases e with
  | out usbdata => exact (receive_board usbdata b).2
  | usbIrq sts =>
    unfold Queued act usbIrqhandler at h
    unfold step act usbIrqhandler
    cases hfifo : b.rxFifo with
    | nil => rfl
    | cons entry rest =>
      rw [hfifo] at h
      cases entry with
      | xfrc => exact (refresh_board _).2
      | dataUpdt usbdata => exact ((refresh_board _).2).trans (sendAll_overflow h)
  | txIrq canNumber tsr => exact (processCan_board fw canNumber tsr b).2
  | safety e => rfl

end Steps

/-! ## What the gate is good for -/

/-- EP3 is armed in the step. -/
def arms (b : TxBoard n m) (e : Event) : Bool :=
  b.outep3.naksts && !(step .f407 b e).outep3.naksts

theorem minSlotsFree_iff (b : CanBoard n m) (min : Nat) :
    canTxCheckMinSlotsFree b min = true ↔ ∀ k, k < 3 → min ≤ slots b k := by
  unfold canTxCheckMinSlotsFree
  simp only [Bool.and_eq_true, decide_eq_true_eq]
  constructor
  · rintro ⟨⟨h0, h1⟩, h2⟩ k hk
    obtain rfl | rfl | rfl : k = 0 ∨ k = 1 ∨ k = 2 := by omega
    · exact h0
    · exact h1
    · exact h2
  · intro h
    exact ⟨⟨h 0 (by omega), h 1 (by omega)⟩, h 2 (by omega)⟩

theorem refresh_arms {b : TxBoard n m}
    (harmed : (refreshCanTxSlotsAvailable b).outep3.naksts = false)
    (h : b.outep3.naksts = true) (k : Nat) (hk : k < 3) :
    maxCanMsgsPerUsbBulkTransfer ≤ slots b.board k := by
  unfold refreshCanTxSlotsAvailable at harmed
  split at harmed
  · next hmin => exact (minSlotsFree_iff b.board _).1 hmin k hk
  · rw [h] at harmed
    cases harmed

/-- Between `DATA_UPDT` and `XFRC` nothing arms the endpoint. -/
structure Processing (b r : TxBoard n m) : Prop where
  outep3 : r.outep3 = b.outep3
  processing : r.outep3Processing = true

section Processing

variable {b r : TxBoard n m} (h : Processing b r) (fw : CanBuild)

include h

theorem Processing.refresh : Processing b (refreshCanTxSlotsAvailable r) := by
  unfold refreshCanTxSlotsAvailable canTxCommsResumeUsb
  simp only [h.processing, Bool.not_true, Bool.false_and, Bool.false_eq_true, if_false, ite_self]
  exact h

theorem Processing.processCan (canNumber : Nat) (tsr : TxStatus) :
    Processing b (processCan fw canNumber tsr r) := by
  unfold FlowControl.processCan
  dsimp only
  split
  · exact Processing.refresh ⟨h.outep3, h.processing⟩
  · exact ⟨h.outep3, h.processing⟩

theorem Processing.canSend (p : CANPacket) (st : UInt32 × TxStatus) :
    Processing b (canSend fw p st r).2 := by
  unfold FlowControl.canSend
  dsimp only
  split
  · split
    · dsimp only
      refine Processing.processCan ?_ fw _ st.2
      exact ⟨h.outep3, h.processing⟩
    · exact ⟨h.outep3, h.processing⟩
  · exact ⟨h.outep3, h.processing⟩

omit h in
theorem Processing.sendAll (h : Processing b r) (ps : List CANPacket)
    (sts : List (UInt32 × TxStatus)) : Processing b (sendAll fw ps sts r).2 := by
  induction ps generalizing sts r with
  | nil => exact h
  | cons p ps ih =>
    unfold FlowControl.sendAll
    dsimp only
    exact ih (h.canSend fw p _) sts.tail

theorem Processing.commsCanWrite (data : List UInt8) (sts : List (UInt32 × TxStatus)) :
    Processing b (commsCanWrite fw data sts r).2 := by
  unfold FlowControl.commsCanWrite
  dsimp only
  refine Processing.refresh (Processing.sendAll fw ?_ _ sts)
  exact ⟨h.outep3, h.processing⟩

end Processing

/-- EP3 is armed only when every queue has the cells the gate asks for. -/
theorem slots_of_arms {b : TxBoard n m} {e : Event} (h : arms b e = true) (k : Nat) (hk : k < 3) :
    maxCanMsgsPerUsbBulkTransfer ≤ slots (step .f407 b e).board k := by
  rw [arms, Bool.and_eq_true, Bool.not_eq_true'] at h
  obtain ⟨hnak, harmed⟩ := h
  cases e with
  | out usbdata =>
    rw [step, act, receive, hnak, Bool.true_or, if_pos rfl, hnak] at harmed
    cases harmed
  | usbIrq sts =>
    unfold step act usbIrqhandler at harmed ⊢
    cases hfifo : b.rxFifo with
    | nil =>
      rw [hfifo] at harmed
      rw [hnak] at harmed
      cases harmed
    | cons entry rest =>
      rw [hfifo] at harmed
      cases entry with
      | xfrc =>
        dsimp only at harmed ⊢
        rw [(refresh_board _).1]
        exact refresh_arms harmed hnak k hk
      | dataUpdt usbdata =>
        have hproc : Processing b (FlowControl.commsCanWrite .f407 usbdata sts
            { b with rxFifo := rest, outep3Processing := true }).2 := by
          refine Processing.commsCanWrite ?_ .f407 usbdata sts
          exact ⟨rfl, rfl⟩
        rw [hproc.outep3, hnak] at harmed
        cases harmed
  | txIrq canNumber tsr =>
    unfold step act processCan at harmed ⊢
    dsimp only at harmed ⊢
    split at harmed
    · next hpop =>
      rw [if_pos hpop, (refresh_board _).1]
      exact refresh_arms harmed hnak k hk
    · rw [hnak] at harmed
      cases harmed
  | safety e =>
    rw [step, act, hnak] at harmed
    cases harmed

/-- No step takes a cell for anything but an approved packet. -/
theorem slots_step {b : TxBoard n m} (hm : 1 < m) (h : Assembling b) (e : Event) (k : Nat) :
    slots b.board k ≤ slots (step .f407 b e).board k + asked k (stepRequests .f407 b e) := by
  cases e with
  | out usbdata =>
    rw [step, act, (receive_board usbdata b).1]
    exact Nat.le_add_right _ _
  | usbIrq sts =>
    unfold step act stepRequests usbIrqhandler
    cases hfifo : b.rxFifo with
    | nil => exact Nat.le_add_right _ _
    | cons entry rest =>
      cases entry with
      | xfrc =>
        dsimp only
        rw [(refresh_board _).1]
        exact Nat.le_add_right _ _
      | dataUpdt usbdata =>
        have hsend := sendAll_slots hm (Usb.commsCanWrite usbdata b.board.canWriteBuffer).sent sts
          { b with
            board := { b.board with
              canWriteBuffer := (Usb.commsCanWrite usbdata b.board.canWriteBuffer).buf }
            rxFifo := rest
            outep3Processing := true } k
        dsimp only
        rw [← hostPackets_eq h usbdata]
        unfold commsCanWrite
        dsimp only
        rw [(refresh_board _).1]
        exact hsend
  | txIrq canNumber tsr =>
    rw [step, act, processCan_slots]
    split
    · exact (slots_popQueue b.board _ k).trans (Nat.le_add_right _ _)
    · exact Nat.le_add_right _ _
  | safety e => exact Nat.le_add_right _ _

/-- No more packets of one bus are approved from one arming of EP3 to the next than the gate asks
cells for, and none for another bus. -/
def WithinGate (b : TxBoard n m) (es : List Event) : Prop :=
  Run.AllSteps (Run.withHistory (step .f407) (since (stepRequests .f407) arms))
    (fun p e => ∀ q ∈ stepRequests .f407 p.1 e, q.1 < 3 ∧
      p.2 q.1 + asked q.1 (stepRequests .f407 p.1 e) ≤ maxCanMsgsPerUsbBulkTransfer)
    (b, fun _ => 0) es

theorem room_of_gate {b : TxBoard n m} (hm : 1 < m) (h : Assembling b)
    (hfree : ∀ k, k < 3 → maxCanMsgsPerUsbBulkTransfer ≤ slots b.board k) {es : List Event}
    (hes : WithinGate b es) : Run.AllSteps (step .f407) (Room .f407) b es := by
  have hkeeps : ∀ (b : TxBoard n m) (e : Event), Assembling b → Assembling (step .f407 b e) :=
    fun b e hb => step_assembling hb .f407 e
  have harms : ∀ (b : TxBoard n m) (e : Event) (k : Nat), Assembling b → k < 3 →
      arms b e = true → maxCanMsgsPerUsbBulkTransfer ≤ slots (step .f407 b e).board k :=
    fun b e k _ hk ha => slots_of_arms ha k hk
  have hslots : ∀ (b : TxBoard n m) (e : Event) (k : Nat), Assembling b → k < 3 →
      slots b.board k ≤ slots (step .f407 b e).board k + asked k (stepRequests .f407 b e) :=
    fun b e k hb _ => slots_step hm hb e k
  exact covered_of_gate hkeeps harms hslots h hfree hes

/-! ## Runs -/

/-- What the step is for the paths of the frames: a host write when a USB packet is handled. -/
def below (b : TxBoard n m) : Event → List CanPath.Event
  | .out _ => []
  | .usbIrq sts =>
    match b.rxFifo with
    | .dataUpdt usbdata :: _ => [.hostWrite usbdata sts]
    | _ => []
  | .txIrq canNumber tsr => [.txIrq canNumber tsr]
  | .safety e => [.safety e]

theorem step_board (fw : CanBuild) (b : TxBoard n m) (e : Event) :
    (step fw b e).board = Run.run (CanPath.step fw) b.board (below b e) := by
  cases e with
  | out usbdata => exact (receive_board usbdata b).1
  | usbIrq sts =>
    unfold step act below usbIrqhandler
    cases b.rxFifo with
    | nil => rfl
    | cons entry rest =>
      cases entry with
      | xfrc => exact (refresh_board _).1
      | dataUpdt usbdata => exact commsCanWrite_board fw usbdata sts _
  | txIrq canNumber tsr => exact (processCan_board fw canNumber tsr b).1
  | safety e => rfl

theorem run_board (fw : CanBuild) (b : TxBoard n m) (es : List Event) :
    (Run.run (step fw) b es).board =
      Run.run (CanPath.step fw) b.board (Run.trace (step fw) below b es).flatten := by
  induction es generalizing b with
  | nil => rfl
  | cons e es ih =>
    rw [Run.run_cons, ih, Run.trace, List.flatten_cons, Run.run_append, step_board]

/-- In every run, every packet approved is queued and the overflow counter stands still, if and only
if each USB packet handled finds room for the packets it completes. The gate sees to that as long as
no more of them are approved from one arming to the next than it asks cells for. The board under the
endpoint is the one of the other paths. -/
theorem approved_queued_iff {b : TxBoard n canTxBufferSize} (h : Assembling b)
    (es : List Event) :
    ((Run.AllSteps (step .f407) (Queued .f407) b es ∧
        Run.Always (step .f407) (fun b' => b'.txBufferOverflow = b.txBufferOverflow) b es) ↔
      Run.AllSteps (step .f407) (Room .f407) b es) ∧
    ((∀ k, k < 3 → maxCanMsgsPerUsbBulkTransfer ≤ slots b.board k) → WithinGate b es →
      Run.AllSteps (step .f407) (Room .f407) b es) ∧
    (Run.run (step .f407) b es).board =
      Run.run (CanPath.step .f407) b.board (Run.trace (step .f407) below b es).flatten := by
  have hm : 1 < canTxBufferSize := by decide
  have hkeeps : ∀ (b : TxBoard n canTxBufferSize) (e : Event), Assembling b →
      Assembling (step .f407 b e) := fun b e hb => step_assembling hb .f407 e
  have hstep : ∀ (b : TxBoard n canTxBufferSize) (e : Event), Assembling b →
      (Queued .f407 b e ↔ Room .f407 b e) := fun b e hb => queued_iff_room hm hb e
  refine ⟨?_, fun hfree hes => room_of_gate hm h hfree hes, run_board .f407 b es⟩
  rw [← Run.allSteps_congr hkeeps hstep h es]
  constructor
  · intro hall
    exact hall.1
  · intro hqueued
    refine ⟨hqueued, ?_⟩
    rintro pre ⟨post, rfl⟩
    have hpre := ((Run.allSteps_append _).1 hqueued).1
    have hcount : ∀ (b' : TxBoard n canTxBufferSize) (e : Event), Queued .f407 b' e →
        b'.txBufferOverflow = b.txBufferOverflow →
          (step .f407 b' e).txBufferOverflow = b.txBufferOverflow := by
      intro b' e hq hb'
      exact (overflow_of_queued hq).trans hb'
    exact Run.run_inv_of_steps hcount hpre rfl

/-- The board in mazda mode, with every queue empty and EP3 armed for the first time. -/
def idle : TxBoard 2048 canTxBufferSize :=
  { board := { CanPath.boot 2047 127 [] with safety := mazdaStart Firmware.f407 0 {} }
    outep3 := .armed
    rxFifo := []
    outep3Processing := false
    txBufferOverflow := 0 }

theorem idle_assembling : Assembling idle :=
  { ptr := rfl, bytes := by simp [idle, CanPath.boot, noBuffer, waiting], owed := rfl, waits := rfl }

/-- `k` USB packets of the stream of `count` such frames, each handled at once. -/
def burst (count k : Nat) : List Event :=
  (List.range k).flatMap fun i =>
    [.out ((((List.replicate count lkasIdle).flatMap packed).drop (64 * i)).take 64), .usbIrq []]

/-- Nine frames in two USB packets, the fifth cut between them; a mailbox that gets empty; and, after
the end of the transfer has armed EP3 anew, one frame more. -/
def nineAndOne : List Event :=
  burst 9 2 ++ [.txIrq 0 { tme0 := true }, .usbIrq []] ++ burst 1 1

theorem nineAndOne_queued :
    Run.AllSteps (step .f407) (Queued .f407) idle nineAndOne ∧
      Run.Always (step .f407) (fun b => b.txBufferOverflow = 0) idle nineAndOne := by
  obtain ⟨hiff, hgate, -⟩ := approved_queued_iff idle_assembling nineAndOne
  refine hiff.2 (hgate ?_ ?_)
  · decide
  · unfold WithinGate
    decide +kernel

/-- 128 frames in 28 USB packets: one transfer of 0x700 bytes, armed with 127 cells free. -/
theorem burst_overflows :
    (∀ p ∈ List.replicate 128 lkasIdle, HostPacket p) ∧
      canTxCheckMinSlotsFree idle.board maxCanMsgsPerUsbBulkTransfer = true ∧
      ((List.replicate 128 lkasIdle).flatMap packed).length = 64 * 28 ∧ 64 * 28 ≤ 0x800 ∧
      ¬ Run.Always (step .f407) (fun b => b.txBufferOverflow = 0) idle (burst 128 28) := by
  refine ⟨?_, by decide, by decide +kernel, by decide, ?_⟩
  · intro p hp
    rw [List.eq_of_mem_replicate hp]
    exact ⟨by decide, by decide⟩
  · intro h
    have hlost : (Run.run (step .f407) idle (burst 128 28)).txBufferOverflow = 1 := by
      decide +kernel
    rw [h.last] at hlost
    cases hlost

end FlowControl
end Board
end MazdaPort
