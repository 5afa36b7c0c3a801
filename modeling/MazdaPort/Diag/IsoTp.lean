import Mathlib.Data.List.Basic
import MazdaPort.Lib.Run

/-!
# MazdaPort.Diag.IsoTp

Diagnostic messages over CAN frames: `CanClient` keeps the frames of one address apart from the
rest of the bus, `IsoTpMessage` cuts a request into frames and puts the frames of a response
together. The radar is taken off the bus and put back with such requests.

A message shorter than a frame is a single frame. A longer one begins with a first frame; the other
side's flow control then says how many consecutive frames may follow, numbered modulo 16.

`consecutives_inOrder`: whatever frames come in, the consecutive frames that go out are the pieces of
the request in order, unless one under another sub-address breaks a block off.
-/

namespace MazdaPort
namespace Diag

/-! ## The client -/

structure CanData where
  address : Nat
  dat : List UInt8
  src : Nat
  deriving DecidableEq, Repr

inductive FrameType where
  | single
  | first
  | consecutive
  | flow
  deriving DecidableEq, Repr

inductive IsoTpError where
  | invalidSubAddress (got expected : UInt8)
  | singleActive
  | singleLength (rxLen : Nat)
  | firstActive
  | firstLength (rxLen : Nat)
  | canLength (len : Nat)
  | consecutiveInactive
  | consecutiveIndex
  | flowInactive
  | flowOverflow
  | flowIndicator
  | frameType (type : Nat)
  | indexError
  | structError
  deriving DecidableEq, Repr

def IsoTpError.text : IsoTpError → String
  | .invalidSubAddress got expected =>
    s!"isotp - rx: invalid sub-address: {got}, expected: {expected}"
  | .singleActive => "isotp - rx: single frame with active frame"
  | .singleLength rxLen => s!"isotp - rx: invalid single frame length: {rxLen}"
  | .firstActive => "isotp - rx: first frame with active frame"
  | .firstLength rxLen => s!"isotp - rx: invalid first frame length: {rxLen}"
  | .canLength len => s!"isotp - rx: invalid CAN frame length: {len}"
  | .consecutiveInactive => "isotp - rx: consecutive frame with no active frame"
  | .consecutiveIndex => "isotp - rx: invalid consecutive frame index"
  | .flowInactive => "isotp - rx: flow control with no active frame"
  | .flowOverflow => "isotp - rx: flow-control overflow/abort"
  | .flowIndicator => "isotp - rx: flow-control transfer state indicator invalid"
  | .frameType type => s!"isotp - rx: invalid frame type: {type}"
  | .indexError => "index out of range"
  | .structError => "ushort format requires 0 <= number <= 65535"

structure CanClient where
  txAddr : Nat
  rxAddr : Nat
  bus : Nat
  subAddr : Option UInt8
  rxSubAddr : Option UInt8
  deriving DecidableEq, Repr

/-- `CanClient.__init__`. -/
def CanClient.new (txAddr rxAddr bus : Nat) (subAddr rxSubAddr : Option UInt8) : CanClient :=
  { txAddr := txAddr
    rxAddr := rxAddr
    bus := bus
    subAddr := subAddr
    rxSubAddr := match rxSubAddr with
      | some s => some s
      | none => subAddr }

/-- `_recv_filter`. A functional address gives way to the first one that responds. -/
def CanClient.recvFilter (c : CanClient) (bus addr : Nat) : Bool × CanClient :=
  if c.txAddr = 0x7DF then
    if addr ≥ 0x7E8 ∧ addr ≤ 0x7EF then (true, { c with txAddr := addr - 8, rxAddr := addr })
    else (false, c)
  else
    let c' := if c.txAddr = 0x18DB33F1 ∧ addr ≥ 0x18DAF100 ∧ addr ≤ 0x18DAF1FF then
        { c with txAddr := 0x18DA00F1 + ((addr <<< 8) &&& 0xFF00), rxAddr := addr }
      else c
    (bus == c'.bus && addr == c'.rxAddr, c')

/-- What `_recv_buffer` makes of a frame: nothing, an exception or a message for `rx_buff`. -/
def CanClient.recvBuffer (c : CanClient) (f : CanData) :
    CanClient × Option (Except IsoTpError (List UInt8)) :=
  let r := c.recvFilter f.src f.address
  match r.1, f.dat with
  | true, b :: rest =>
    (r.2, some (match r.2.rxSubAddr with
      | none => .ok (b :: rest)
      | some s => if b ≠ s then .error (.invalidSubAddress b s) else .ok rest))
  | _, _ => (r.2, none)

/-- `_recv_buffer`, on all that `rx` returns: the messages for `rx_buff`, and what it raises. The
frames behind the one it raises at are lost. -/
def CanClient.recvFrames (c : CanClient) :
    List CanData → CanClient × List (List UInt8) × Option IsoTpError
  | [] => (c, [], none)
  | f :: fs =>
    match c.recvBuffer f with
    | (c', none) => c'.recvFrames fs
    | (c', some (.error e)) => (c', [], some e)
    | (c', some (.ok rxData)) =>
      let r := c'.recvFrames fs
      (r.1, rxData :: r.2.1, r.2.2)

/-- The frames of a `send` that nothing breaks off. -/
def CanClient.send (c : CanClient) (msgs : List (List UInt8)) : List CanData :=
  msgs.map fun msg => { address := c.txAddr, dat := c.subAddr.toList ++ msg, src := c.bus }

/-- How far a `send` came, and what its reads put into `rx_buff`. -/
structure Sending where
  client : CanClient
  sent : List CanData
  heard : List (List UInt8)
  raised : Option IsoTpError

/-- `send` from message `i` on. It reads the bus after every tenth message; `reads i` is what is there
after message `i`. -/
def CanClient.sendReading (c : CanClient) (reads : Nat → List CanData) :
    Nat → List (List UInt8) → Sending
  | _, [] => { client := c, sent := [], heard := [], raised := none }
  | i, msg :: msgs =>
    let f : CanData := { address := c.txAddr, dat := c.subAddr.toList ++ msg, src := c.bus }
    if i % 10 = 9 then
      match c.recvFrames (reads i) with
      | (c', heard, some e) => { client := c', sent := [f], heard := heard, raised := some e }
      | (c', heard, none) =>
        let r := c'.sendReading reads (i + 1) msgs
        { r with sent := f :: r.sent, heard := heard ++ r.heard }
    else
      let r := c.sendReading reads (i + 1) msgs
      { r with sent := f :: r.sent }

/-! ## The message -/

def ljust (n : Nat) (xs : List UInt8) : List UInt8 := xs ++ List.replicate (n - xs.length) 0

theorem length_ljust (n : Nat) (xs : List UInt8) : (ljust n xs).length = max n xs.length := by
  rw [ljust, List.length_append, List.length_replicate]
  omega

/-- A padded piece of a list, and the padded piece behind it. -/
theorem ljust_add (a b : Nat) (xs : List UInt8) :
    ljust (a + b) (xs.take (a + b)) = ljust a (xs.take a) ++ ljust b ((xs.drop a).take b) := by
  rcases Nat.le_total a xs.length with hle | hle
  · have hfull : ljust a (xs.take a) = xs.take a := by
      simp [ljust, hle]
    rw [hfull, List.take_add, ljust, ljust, List.append_assoc]
    congr 2
    congr 1
    simp only [List.length_append, List.length_take]
    omega
  · have hnone : xs.drop a = [] := List.drop_eq_nil_of_le hle
    rw [hnone, List.take_nil, List.take_of_length_le hle, List.take_of_length_le (by omega), ljust,
      ljust, ljust, List.append_assoc, List.nil_append, ← List.replicate_add]
    congr 2
    simp only [List.length_nil]
    omega

structure IsoTpMessage where
  canClient : CanClient
  singleFrameMode : Bool
  separationTime : UInt8
  txDat : List UInt8
  txIdx : Nat
  txDone : Bool
  rxDat : List UInt8
  rxLen : Nat
  rxIdx : Nat
  rxDone : Bool
  deriving DecidableEq, Repr

/-- What `_isotp_rx_next` leaves and sends, also where it raises. -/
structure RxStep where
  msg : IsoTpMessage
  sent : List (List UInt8)
  outcome : Except IsoTpError FrameType

namespace IsoTpMessage

def maxLen (m : IsoTpMessage) : Nat := if m.canClient.subAddr.isNone then 8 else 7

def txLen (m : IsoTpMessage) : Nat := m.txDat.length

def flowControlMsg (m : IsoTpMessage) : List UInt8 :=
  ljust m.maxLen [0x30, if m.singleFrameMode then 0x01 else 0x00, m.separationTime]

/-- `_tx_first_frame`. -/
def txFirstFrame (m : IsoTpMessage) : Except IsoTpError (IsoTpMessage × List UInt8) :=
  if m.txLen < m.maxLen then
    .ok ({ m with txDone := true }, ljust m.maxLen (UInt8.ofNat m.txLen :: m.txDat))
  else
    let head := 0x1000 ||| m.txLen
    if 65535 < head then .error .structError
    else .ok (m, ljust (m.maxLen - 2)
      ([UInt8.ofNat (head >>> 8), UInt8.ofNat head] ++ m.txDat.take (m.maxLen - 2)))

/-- `IsoTpMessage.__init__`. -/
def new (canClient : CanClient) (singleFrameMode : Bool) (separationTime : UInt8) : IsoTpMessage :=
  { canClient := canClient, singleFrameMode := singleFrameMode, separationTime := separationTime
    txDat := [], txIdx := 0, txDone := false, rxDat := [], rxLen := 0, rxIdx := 0, rxDone := false }

def reset (m : IsoTpMessage) (dat : List UInt8) : IsoTpMessage :=
  { m with txDat := dat, txIdx := 0, txDone := false, rxDat := [], rxLen := 0, rxIdx := 0
           rxDone := false }

/-- `send`. The stale data stay where they are: `recv(drain=True)` is a generator, and nothing
iterates it. -/
def send (m : IsoTpMessage) (dat : List UInt8) (setupOnly : Bool) :
    Except IsoTpError (IsoTpMessage × List CanData) :=
  match (m.reset dat).txFirstFrame with
  | .error e => .error e
  | .ok (m', msg) => .ok (m', if setupOnly then [] else m'.canClient.send [msg])

def raised (m : IsoTpMessage) (e : IsoTpError) : RxStep :=
  { msg := m, sent := [], outcome := .error e }

def rxSingle (m : IsoTpMessage) (b : UInt8) (rest : List UInt8) : RxStep :=
  if ¬ (m.rxDat = [] ∨ m.rxDone) then m.raised .singleActive
  else if b.toNat &&& 0x0F = 0 ∧ (b :: rest).length > 8 then
    let m := { m with rxLen := (rest.headD 0).toNat }
    let maxLen := if m.canClient.subAddr.isNone then 62 else 61
    if ¬ m.rxLen ≤ maxLen then m.raised (.singleLength m.rxLen)
    else
      { msg := { m with rxDat := (rest.drop 1).take m.rxLen, rxIdx := 0, rxDone := true }
        sent := []
        outcome := .ok .single }
  else
    let m := { m with rxLen := b.toNat &&& 0x0F }
    if ¬ m.rxLen < m.maxLen then m.raised (.singleLength m.rxLen)
    else
      { msg := { m with rxDat := rest.take m.rxLen, rxIdx := 0, rxDone := true }
        sent := []
        outcome := .ok .single }

def rxFirst (m : IsoTpMessage) (b : UInt8) (rest : List UInt8) : RxStep :=
  if ¬ (m.rxDat = [] ∨ m.rxDone) then m.raised .firstActive
  else
    match rest with
    | [] => m.raised .indexError
    | low :: dat =>
      let m := { m with rxLen := ((b.toNat &&& 0x0F) <<< 8) + low.toNat }
      if ¬ m.rxLen ≥ m.maxLen then m.raised (.firstLength m.rxLen)
      else if ¬ (b :: rest).length = m.maxLen then m.raised (.canLength (b :: rest).length)
      else
        { msg := { m with rxDat := dat, rxIdx := 0, rxDone := false }
          sent := [m.flowControlMsg]
          outcome := .ok .first }

def rxConsecutive (m : IsoTpMessage) (b : UInt8) (rest : List UInt8) : RxStep :=
  if m.rxDone then m.raised .consecutiveInactive
  else
    let m := { m with rxIdx := m.rxIdx + 1 }
    if ¬ m.rxIdx &&& 0xF = b.toNat &&& 0xF then m.raised .consecutiveIndex
    else
      let m := { m with rxDat := m.rxDat ++ rest.take (m.rxLen - m.rxDat.length) }
      if m.rxLen = m.rxDat.length then
        { msg := { m with rxDone := true }, sent := [], outcome := .ok .consecutive }
      else
        { msg := m
          sent := if m.singleFrameMode then [m.flowControlMsg] else []
          outcome := .ok .consecutive }

/-- The consecutive frame that carries the request from byte `i` on. -/
def consecutiveFrame (m : IsoTpMessage) (idx i : Nat) : List UInt8 :=
  ljust m.maxLen ((0x20 ||| UInt8.ofNat (idx &&& 0xF)) :: (m.txDat.drop i).take (m.maxLen - 1))

def rxFlow (m : IsoTpMessage) (b : UInt8) (rest : List UInt8) : RxStep :=
  if m.txDone then m.raised .flowInactive
  else if b = 0x32 then m.raised .flowOverflow
  else if ¬ (b = 0x30 ∨ b = 0x31) then m.raised .flowIndicator
  else if b = 0x30 then
    match rest with
    | count :: _delay :: _ =>
      -- first frame = 6 bytes, each consecutive frame = 7 bytes
      let numBytes := m.maxLen - 1
      let start := m.maxLen - 2 + m.txIdx * numBytes
      let stop := if count.toNat > 0 then start + count.toNat * numBytes else m.txLen
      let n := (stop - start + numBytes - 1) / numBytes
      { msg := { m with txIdx := m.txIdx + n, txDone := decide (stop ≥ m.txLen) }
        sent := (List.range n).map fun j =>
          m.consecutiveFrame (m.txIdx + j + 1) (start + j * numBytes)
        outcome := .ok .flow }
    | _ => m.raised .indexError
  else { msg := m, sent := [], outcome := .ok .flow }

/-- `_isotp_rx_next`. -/
def isotpRxNext (m : IsoTpMessage) (rxData : List UInt8) : RxStep :=
  match rxData with
  | [] => m.raised .indexError
  | b :: rest =>
    if b.toNat >>> 4 = 0 then m.rxSingle b rest
    else if b.toNat >>> 4 = 1 then m.rxFirst b rest
    else if b.toNat >>> 4 = 2 then m.rxConsecutive b rest
    else if b.toNat >>> 4 = 3 then m.rxFlow b rest
    else m.raised (.frameType (b.toNat >>> 4))

end IsoTpMessage

/-- What a frame on the bus does to a message, and what it makes it send, as long as no other frame
arrives meanwhile. -/
structure Reception where
  msg : IsoTpMessage
  sent : List CanData
  outcome : Option (Except IsoTpError FrameType)

def IsoTpMessage.receive (m : IsoTpMessage) (f : CanData) : Reception :=
  let r := m.canClient.recvBuffer f
  let m := { m with canClient := r.1 }
  match r.2 with
  | none => { msg := m, sent := [], outcome := none }
  | some (.error e) => { msg := m, sent := [], outcome := some (.error e) }
  | some (.ok rxData) =>
    let s := m.isotpRxNext rxData
    { msg := s.msg, sent := s.msg.canClient.send s.sent, outcome := some s.outcome }

namespace IsoTpMessage

/-! ## The request goes out in order -/

theorem maxLen_cases (m : IsoTpMessage) : m.maxLen = 8 ∨ m.maxLen = 7 := by
  unfold maxLen
  split
  · exact .inl rfl
  · exact .inr rfl

/-- The consecutive frames that the request takes. -/
def pieces (m : IsoTpMessage) : Nat := (m.txLen - (m.maxLen - 2) + (m.maxLen - 2)) / (m.maxLen - 1)

/-- The consecutive frame number `i + 1`. -/
def piece (m : IsoTpMessage) (i : Nat) : List UInt8 :=
  m.consecutiveFrame (i + 1) (m.maxLen - 2 + i * (m.maxLen - 1))

/-- What no frame changes. -/
structure SameRequest (m m' : IsoTpMessage) : Prop where
  canClient : m'.canClient = m.canClient
  mode : m'.singleFrameMode = m.singleFrameMode
  separation : m'.separationTime = m.separationTime
  txDat : m'.txDat = m.txDat

theorem SameRequest.refl (m : IsoTpMessage) : SameRequest m m := ⟨rfl, rfl, rfl, rfl⟩

theorem SameRequest.trans {m₁ m₂ m₃ : IsoTpMessage} (h : SameRequest m₁ m₂)
    (h' : SameRequest m₂ m₃) : SameRequest m₁ m₃ where
  canClient := h'.canClient.trans h.canClient
  mode := h'.mode.trans h.mode
  separation := h'.separation.trans h.separation
  txDat := h'.txDat.trans h.txDat

section Same

variable {m m' : IsoTpMessage} (h : SameRequest m m')
include h

theorem SameRequest.maxLen : m'.maxLen = m.maxLen := by
  unfold IsoTpMessage.maxLen
  rw [h.canClient]

theorem SameRequest.piece : m'.piece = m.piece := by
  funext i
  simp only [IsoTpMessage.piece, consecutiveFrame, h.maxLen, h.txDat]

theorem SameRequest.pieces : m'.pieces = m.pieces := by
  simp only [IsoTpMessage.pieces, txLen, h.maxLen, h.txDat]

theorem SameRequest.flowControlMsg : m'.flowControlMsg = m.flowControlMsg := by
  simp only [IsoTpMessage.flowControlMsg, h.maxLen, h.mode, h.separation]

end Same

/-- The request is where it was. -/
structure Resting (m m' : IsoTpMessage) : Prop extends SameRequest m m' where
  txIdx : m'.txIdx = m.txIdx
  txDone : m'.txDone = m.txDone

theorem Resting.refl (m : IsoTpMessage) : Resting m m := ⟨.refl m, rfl, rfl⟩

/-- A frame that leaves the request where it is, and is answered by flow control at most. -/
structure Idle (m : IsoTpMessage) (s : RxStep) : Prop where
  rests : Resting m s.msg
  sent : ∀ f ∈ s.sent, f = m.flowControlMsg

/-- A flow control that makes the request go on by `n` frames: by the block it asks for, or by all
that is left. -/
structure Advance (m : IsoTpMessage) (s : RxStep) (n : Nat) : Prop where
  same : SameRequest m s.msg
  waiting : m.txDone = false
  txIdx : s.msg.txIdx = m.txIdx + n
  txDone : s.msg.txDone = decide (m.pieces ≤ m.txIdx + n)
  sent : s.sent = (List.range n).map fun j => m.piece (m.txIdx + j)
  block : n ≤ 255 ∨ m.txIdx + n ≤ m.pieces

theorem raised_idle {m m' : IsoTpMessage} (h : Resting m m') (e : IsoTpError) :
    Idle m (m'.raised e) where
  rests := h
  sent := by
    intro f hf
    cases hf

variable (m : IsoTpMessage) (b : UInt8) (rest : List UInt8)

theorem rxSingle_idle : Idle m (m.rxSingle b rest) := by
  unfold rxSingle
  split
  · exact raised_idle (.refl m) _
  · split
    · dsimp only
      generalize (if m.canClient.subAddr.isNone then 62 else 61) = maxLen
      split
      · exact raised_idle (by exact ⟨⟨rfl, rfl, rfl, rfl⟩, rfl, rfl⟩) _
      · exact ⟨⟨⟨rfl, rfl, rfl, rfl⟩, rfl, rfl⟩, by simp⟩
    · dsimp only
      split
      · exact raised_idle (by exact ⟨⟨rfl, rfl, rfl, rfl⟩, rfl, rfl⟩) _
      · exact ⟨⟨⟨rfl, rfl, rfl, rfl⟩, rfl, rfl⟩, by simp⟩

theorem rxFirst_idle : Idle m (m.rxFirst b rest) := by
  unfold rxFirst
  split
  · exact raised_idle (.refl m) _
  · split
    · exact raised_idle (.refl m) _
    · dsimp only
      split
      · exact raised_idle (by exact ⟨⟨rfl, rfl, rfl, rfl⟩, rfl, rfl⟩) _
      · split
        · exact raised_idle (by exact ⟨⟨rfl, rfl, rfl, rfl⟩, rfl, rfl⟩) _
        · refine ⟨⟨⟨rfl, rfl, rfl, rfl⟩, rfl, rfl⟩, ?_⟩
          intro f hf
          exact List.mem_singleton.1 hf

theorem rxConsecutive_idle : Idle m (m.rxConsecutive b rest) := by
  unfold rxConsecutive
  split
  · exact raised_idle (.refl m) _
  · dsimp only
    split
    · exact raised_idle (by exact ⟨⟨rfl, rfl, rfl, rfl⟩, rfl, rfl⟩) _
    · split
      · exact ⟨⟨⟨rfl, rfl, rfl, rfl⟩, rfl, rfl⟩, by simp⟩
      · refine ⟨⟨⟨rfl, rfl, rfl, rfl⟩, rfl, rfl⟩, ?_⟩
        intro f hf
        split at hf
        · exact List.mem_singleton.1 hf
        · cases hf

theorem rxFlow_cases : Idle m (m.rxFlow b rest) ∨ ∃ n, Advance m (m.rxFlow b rest) n := by
  unfold rxFlow
  split
  · exact .inl (raised_idle (.refl m) _)
  next hdone =>
  split
  · exact .inl (raised_idle (.refl m) _)
  split
  · exact .inl (raised_idle (.refl m) _)
  split
  · split
    · next count _ _ =>
      right
      refine ⟨_, ⟨rfl, rfl, rfl, rfl⟩, by simpa using hdone, rfl, ?_, ?_, ?_⟩
      · have hcount := count.toNat_lt
        rcases m.maxLen_cases with hm | hm <;>
          simp only [hm, pieces] <;> split <;> simp only [decide_eq_decide] <;> omega
      · refine List.map_congr_left fun j hj => ?_
        simp only [piece]
        congr 1
        rw [Nat.add_mul, ← Nat.add_assoc]
      · have hcount := count.toNat_lt
        rcases m.maxLen_cases with hm | hm <;> simp only [hm, pieces] <;> split <;> omega
    · exact .inl (raised_idle (.refl m) _)
  · exact .inl ⟨.refl m, by simp⟩

theorem isotpRxNext_cases (rxData : List UInt8) :
    Idle m (m.isotpRxNext rxData) ∨ ∃ n, Advance m (m.isotpRxNext rxData) n := by
  cases rxData with
  | nil => exact .inl (raised_idle (.refl m) _)
  | cons b rest =>
    simp only [isotpRxNext]
    split
    · exact .inl (m.rxSingle_idle b rest)
    split
    · exact .inl (m.rxFirst_idle b rest)
    split
    · exact .inl (m.rxConsecutive_idle b rest)
    split
    · exact m.rxFlow_cases b rest
    · exact .inl (raised_idle (.refl m) _)

/-! ## The frames that are taken -/

section Taken

variable {m : IsoTpMessage} {b : UInt8} {rest : List UInt8} {n : Nat}

theorem rxSingle_ok (hready : m.rxDat = [] ∨ m.rxDone) (hn : b.toNat &&& 0x0F = n)
    (hcan : rest.length < 8) (hlen : n < m.maxLen) :
    m.rxSingle b rest =
      { msg := { m with rxDat := rest.take n, rxLen := n, rxIdx := 0, rxDone := true }
        sent := []
        outcome := .ok .single } := by
  subst hn
  have hclassic : ¬ (b.toNat &&& 0x0F = 0 ∧ (b :: rest).length > 8) := by
    rw [List.length_cons]
    omega
  unfold rxSingle
  rw [if_neg (not_not.2 hready), if_neg hclassic]
  exact if_neg (not_not.2 hlen)

theorem rxFirst_ok {low : UInt8} {dat : List UInt8} (hready : m.rxDat = [] ∨ m.rxDone)
    (hn : ((b.toNat &&& 0x0F) <<< 8) + low.toNat = n) (hlong : m.maxLen ≤ n)
    (hlen : dat.length + 2 = m.maxLen) :
    m.rxFirst b (low :: dat) =
      { msg := { m with rxDat := dat, rxLen := n, rxIdx := 0, rxDone := false }
        sent := [m.flowControlMsg]
        outcome := .ok .first } := by
  subst hn
  unfold rxFirst
  rw [if_neg (not_not.2 hready)]
  exact (if_neg (not_not.2 hlong)).trans (if_neg (not_not.2 hlen))

theorem rxConsecutive_ok {dat : List UInt8} (hactive : m.rxDone = false)
    (hidx : (m.rxIdx + 1) &&& 0xF = b.toNat &&& 0xF)
    (hdat : m.rxDat ++ rest.take (m.rxLen - m.rxDat.length) = dat) :
    m.rxConsecutive b rest =
      { msg := { m with rxDat := dat, rxIdx := m.rxIdx + 1, rxDone := decide (m.rxLen = dat.length) }
        sent := if m.rxLen = dat.length then []
          else if m.singleFrameMode then [m.flowControlMsg] else []
        outcome := .ok .consecutive } := by
  subst hdat
  unfold rxConsecutive
  rw [if_neg (by rw [hactive]; exact Bool.false_ne_true)]
  dsimp only
  rw [if_neg (not_not.2 hidx)]
  split
  · next hall =>
    rw [decide_eq_true hall]
  · next hmore =>
    rw [decide_eq_false hmore, ← hactive]
    rfl

/-- The frames that a flow control with `count` asks for. -/
def asked (m : IsoTpMessage) (count : Nat) : Nat :=
  if count > 0 then count else m.pieces - m.txIdx

theorem rxFlow_ok {count delay : UInt8} (hwait : m.txDone = false) (hless : m.txIdx < m.pieces) :
    m.rxFlow 0x30 (count :: delay :: rest) =
      { msg := { m with txIdx := m.txIdx + m.asked count.toNat
                        txDone := decide (m.pieces ≤ m.txIdx + m.asked count.toNat) }
        sent := (List.range (m.asked count.toNat)).map fun j => m.piece (m.txIdx + j)
        outcome := .ok .flow } := by
  have hcount := count.toNat_lt
  unfold rxFlow
  rw [if_neg (by rw [hwait]; exact Bool.false_ne_true), if_neg (by decide), if_neg (by decide),
    if_pos rfl]
  dsimp only
  have hasked : ((if count.toNat > 0 then
        m.maxLen - 2 + m.txIdx * (m.maxLen - 1) + count.toNat * (m.maxLen - 1) else m.txLen) -
      (m.maxLen - 2 + m.txIdx * (m.maxLen - 1)) + (m.maxLen - 1) - 1) / (m.maxLen - 1) =
      m.asked count.toNat := by
    unfold asked
    unfold pieces at hless ⊢
    rcases m.maxLen_cases with hm | hm <;> rw [hm] at hless ⊢ <;> split <;> omega
  have hcovers : (if count.toNat > 0 then
        m.maxLen - 2 + m.txIdx * (m.maxLen - 1) + count.toNat * (m.maxLen - 1) else m.txLen) ≥
      m.txLen ↔ m.pieces ≤ m.txIdx + m.asked count.toNat := by
    unfold asked
    unfold pieces at hless ⊢
    rcases m.maxLen_cases with hm | hm <;> rw [hm] at hless ⊢ <;> split <;> omega
  rw [hasked, decide_eq_decide.2 hcovers]
  congr 1
  refine List.map_congr_left fun j _ => ?_
  rw [piece, Nat.add_mul, ← Nat.add_assoc (m.maxLen - 2)]

end Taken

/-! ## Runs -/

end IsoTpMessage

/-- An address of one ECU, which no response changes. -/
def CanClient.Physical (c : CanClient) : Prop := c.txAddr ≠ 0x7DF ∧ c.txAddr ≠ 0x18DB33F1

instance (c : CanClient) : Decidable c.Physical :=
  inferInstanceAs (Decidable (c.txAddr ≠ 0x7DF ∧ c.txAddr ≠ 0x18DB33F1))

theorem CanClient.recvFilter_physical {c : CanClient} (h : c.Physical) (bus addr : Nat) :
    c.recvFilter bus addr = (bus == c.bus && addr == c.rxAddr, c) := by
  simp [recvFilter, h.1, h.2]

theorem CanClient.recvBuffer_physical {c : CanClient} (h : c.Physical) (f : CanData) :
    (c.recvBuffer f).1 = c := by
  unfold recvBuffer
  rw [recvFilter_physical h]
  dsimp only
  split <;> rfl

/-- A frame of the ECU begins with the sub-address, where there is one. -/
def CanClient.Accepts (c : CanClient) (f : CanData) : Prop :=
  f.src = c.bus → f.address = c.rxAddr → ∀ s ∈ c.rxSubAddr, ∀ b ∈ f.dat.head?, b = s

theorem CanClient.recvFrames_cons {c : CanClient} (h : c.Physical) (f : CanData)
    (fs : List CanData) :
    c.recvFrames (f :: fs) =
      match (c.recvBuffer f).2 with
      | none => c.recvFrames fs
      | some (.error e) => (c, [], some e)
      | some (.ok rxData) =>
        ((c.recvFrames fs).1, rxData :: (c.recvFrames fs).2.1, (c.recvFrames fs).2.2) := by
  have hclient : c.recvBuffer f = (c, (c.recvBuffer f).2) := Prod.ext (recvBuffer_physical h f) rfl
  rw [recvFrames, hclient]
  rcases (c.recvBuffer f).2 with _ | e | rxData <;> rfl

theorem CanClient.recvFrames_physical {c : CanClient} (h : c.Physical) (fs : List CanData) :
    (c.recvFrames fs).1 = c := by
  induction fs with
  | nil => rfl
  | cons f fs ih =>
    rw [recvFrames_cons h]
    split
    · exact ih
    · rfl
    · exact ih

theorem CanClient.recvBuffer_accepts {c : CanClient} (h : c.Physical) {f : CanData}
    (hf : c.Accepts f) (e : IsoTpError) : (c.recvBuffer f).2 ≠ some (.error e) := by
  unfold recvBuffer
  rw [recvFilter_physical h]
  cases hdat : f.dat with
  | nil => simp
  | cons b rest =>
    cases hmatch : (f.src == c.bus && f.address == c.rxAddr) with
    | false => simp
    | true =>
      simp only [Bool.and_eq_true, beq_iff_eq] at hmatch
      have hsub := hf hmatch.1 hmatch.2
      rw [hdat] at hsub
      cases hs : c.rxSubAddr with
      | none => simp [hs]
      | some s =>
        have heq : b = s := hsub s (by simp [hs]) b rfl
        simp [hs, heq]

theorem CanClient.recvFrames_accepts {c : CanClient} (h : c.Physical) {fs : List CanData}
    (hfs : ∀ f ∈ fs, c.Accepts f) : (c.recvFrames fs).2.2 = none := by
  induction fs with
  | nil => rfl
  | cons f fs ih =>
    have hok := recvBuffer_accepts h (hfs f List.mem_cons_self)
    have hrest := ih fun f' hf' => hfs f' (List.mem_cons_of_mem f hf')
    rw [recvFrames_cons h]
    split
    · exact hrest
    · next e heq => exact absurd heq (hok e)
    · exact hrest

/-- The reads of a block that raise nothing let the whole block out. -/
theorem CanClient.sendReading_accepts {c : CanClient} (h : c.Physical) {reads : Nat → List CanData}
    (hreads : ∀ i, ∀ f ∈ reads i, c.Accepts f) (msgs : List (List UInt8)) (i : Nat) :
    (c.sendReading reads i msgs).client = c ∧ (c.sendReading reads i msgs).sent = c.send msgs ∧
      (c.sendReading reads i msgs).raised = none := by
  induction msgs generalizing i with
  | nil => exact ⟨rfl, rfl, rfl⟩
  | cons msg msgs ih =>
    obtain ⟨hclient, hsent, hraised⟩ := ih (i + 1)
    have hsame := recvFrames_physical h (reads i)
    have hok := recvFrames_accepts h (hreads i)
    unfold sendReading
    dsimp only
    split
    · split
      · next heq =>
        rw [heq] at hok
        cases hok
      · next heq =>
        rw [heq] at hsame
        cases hsame
        refine ⟨hclient, ?_, hraised⟩
        rw [hsent]
        rfl
    · refine ⟨hclient, ?_, hraised⟩
      rw [hsent]
      rfl

/-- A consecutive frame, behind the sub-address. -/
def CanClient.isConsecutive (c : CanClient) (f : CanData) : Bool :=
  ((f.dat.drop c.subAddr.toList.length).headD 0).toNat >>> 4 == 2

namespace IsoTpMessage

/-- A message, what its client has read and not handed on yet, and the frames sent so far. -/
structure Conversation where
  msg : IsoTpMessage
  rxBuff : List (List UInt8)
  out : List CanData

/-- What `recv` does next: it reads the bus, or hands on the next message out of `rx_buff`, where
`reads` is what the bus has for the reads of a block. -/
inductive RecvStep where
  | read (fs : List CanData)
  | next (reads : Nat → List CanData)

def Conversation.step (c : Conversation) : RecvStep → Conversation
  | .read fs =>
    let r := c.msg.canClient.recvFrames fs
    { c with msg := { c.msg with canClient := r.1 }, rxBuff := c.rxBuff ++ r.2.1 }
  | .next reads =>
    match c.rxBuff with
    | [] => c
    | rxData :: rest =>
      let s := c.msg.isotpRxNext rxData
      let w := s.msg.canClient.sendReading reads 0 s.sent
      -- `tx_done` is set behind the block, and nothing else is
      { msg := { s.msg with canClient := w.client
                            txDone := if w.raised.isNone then s.msg.txDone else c.msg.txDone }
        rxBuff := rest ++ w.heard
        out := c.out ++ w.sent }

/-- No read of a block comes upon a frame under another sub-address. -/
def RecvStep.Accepted (c : CanClient) : RecvStep → Prop
  | .read _ => True
  | .next reads => ∀ i, ∀ f ∈ reads i, c.Accepts f

/-- The request goes on from `m` to `m'`, and the consecutive frames among `out` are its pieces. -/
structure Requested (m m' : IsoTpMessage) (out : List CanData) : Prop extends SameRequest m m' where
  sent : out.filter m.canClient.isConsecutive = m.canClient.send ((List.range m'.txIdx).map m.piece)
  done : m'.txDone = decide (m.pieces ≤ m'.txIdx)
  surplus : m'.txIdx ≤ m.pieces + 254
  length : ∀ f ∈ out, f.dat.length = 8

theorem length_piece (m : IsoTpMessage) (i : Nat) : (m.piece i).length = m.maxLen := by
  rw [piece, consecutiveFrame, length_ljust, List.length_cons, List.length_take]
  rcases m.maxLen_cases with hm | hm <;> rw [hm] <;> omega

theorem length_flowControlMsg (m : IsoTpMessage) : m.flowControlMsg.length = m.maxLen := by
  rw [flowControlMsg, length_ljust]
  rcases m.maxLen_cases with hm | hm <;> rw [hm] <;> rfl

/-- What has the length of a message fills a frame. -/
theorem length_send {m : IsoTpMessage} {msgs : List (List UInt8)}
    (h : ∀ msg ∈ msgs, msg.length = m.maxLen) : ∀ f ∈ m.canClient.send msgs, f.dat.length = 8 := by
  intro f hf
  obtain ⟨msg, hmsg, rfl⟩ := List.mem_map.1 hf
  have hlen := h msg hmsg
  unfold maxLen at hlen
  rw [List.length_append, hlen]
  cases m.canClient.subAddr <;> rfl

theorem isConsecutive_piece (m : IsoTpMessage) (i : Nat) :
    m.canClient.isConsecutive
      { address := m.canClient.txAddr, dat := m.canClient.subAddr.toList ++ m.piece i
        src := m.canClient.bus } = true := by
  have hnibble : ∀ k < 16, (0x20 ||| UInt8.ofNat k).toNat >>> 4 = 2 := by decide
  have hlow : (i + 1) &&& 0xF < 16 := Nat.lt_succ_of_le Nat.and_le_right
  simp only [CanClient.isConsecutive, List.drop_left, piece, consecutiveFrame, ljust,
    List.cons_append, List.headD_cons, hnibble _ hlow, beq_self_eq_true]

theorem isConsecutive_flowControlMsg (m : IsoTpMessage) :
    m.canClient.isConsecutive
      { address := m.canClient.txAddr, dat := m.canClient.subAddr.toList ++ m.flowControlMsg
        src := m.canClient.bus } = false := by
  simp [CanClient.isConsecutive, flowControlMsg, ljust]

section Runs

variable {m m₁ m₂ : IsoTpMessage} {out : List CanData} {s : RxStep}

theorem Requested.idle (h : Requested m m₁ out) (hs : Idle m₁ s) :
    Requested m s.msg (out ++ m.canClient.send s.sent) where
  toSameRequest := h.toSameRequest.trans hs.rests.toSameRequest
  sent := by
    have hnone : (m.canClient.send s.sent).filter m.canClient.isConsecutive = [] := by
      rw [List.filter_eq_nil_iff]
      intro f hf
      obtain ⟨msg, hmsg, rfl⟩ := List.mem_map.1 hf
      rw [hs.sent msg hmsg, h.flowControlMsg, m.isConsecutive_flowControlMsg]
      exact Bool.false_ne_true
    rw [List.filter_append, hnone, List.append_nil, hs.rests.txIdx]
    exact h.sent
  done := by
    rw [hs.rests.txDone, hs.rests.txIdx]
    exact h.done
  surplus := by
    rw [hs.rests.txIdx]
    exact h.surplus
  length := by
    intro f hf
    rcases List.mem_append.1 hf with hold | hnew
    · exact h.length f hold
    · refine length_send ?_ f hnew
      intro msg hmsg
      rw [hs.sent msg hmsg, h.flowControlMsg]
      exact m.length_flowControlMsg

theorem Requested.advance {n : Nat} (h : Requested m m₁ out) (hs : Advance m₁ s n) :
    Requested m s.msg (out ++ m.canClient.send s.sent) where
  toSameRequest := h.toSameRequest.trans hs.same
  sent := by
    have hall : (m.canClient.send s.sent).filter m.canClient.isConsecutive =
        m.canClient.send s.sent := by
      rw [List.filter_eq_self]
      intro f hf
      obtain ⟨msg, hmsg, rfl⟩ := List.mem_map.1 hf
      rw [hs.sent] at hmsg
      obtain ⟨j, -, rfl⟩ := List.mem_map.1 hmsg
      rw [h.piece]
      exact m.isConsecutive_piece (m₁.txIdx + j)
    rw [List.filter_append, hall, h.sent, hs.sent, hs.txIdx, h.piece, List.range_add,
      List.map_append, List.map_map]
    exact (List.map_append ..).symm
  done := by
    rw [hs.txDone, hs.txIdx, h.pieces]
  surplus := by
    have hwait := h.done
    rw [hs.waiting] at hwait
    have hless : m₁.txIdx < m.pieces := by simpa using hwait
    have hblock := hs.block
    rw [h.pieces] at hblock
    rw [hs.txIdx]
    omega
  length := by
    intro f hf
    rcases List.mem_append.1 hf with hold | hnew
    · exact h.length f hold
    · refine length_send ?_ f hnew
      intro msg hmsg
      rw [hs.sent] at hmsg
      obtain ⟨j, -, rfl⟩ := List.mem_map.1 hmsg
      rw [h.piece]
      exact m.length_piece (m₁.txIdx + j)

theorem requested_step {c : Conversation} {e : RecvStep} (hphys : m.canClient.Physical)
    (hread : e.Accepted m.canClient) (h : Requested m c.msg c.out) :
    Requested m (c.step e).msg (c.step e).out := by
  have hphys' : c.msg.canClient.Physical := by
    rw [h.canClient]
    exact hphys
  cases e with
  | read fs =>
    have hclient : { c.msg with canClient := (c.msg.canClient.recvFrames fs).1 } = c.msg := by
      rw [CanClient.recvFrames_physical hphys']
    simp only [Conversation.step, hclient]
    exact h
  | next reads =>
    simp only [Conversation.step]
    split
    · exact h
    · next rxData rest _ =>
      have hcases := c.msg.isotpRxNext_cases rxData
      have hsame : (c.msg.isotpRxNext rxData).msg.canClient = m.canClient := by
        rcases hcases with hidle | ⟨n, hadv⟩
        · exact hidle.rests.canClient.trans h.canClient
        · exact hadv.same.canClient.trans h.canClient
      obtain ⟨hclient, hsent, hraised⟩ :=
        CanClient.sendReading_accepts hphys hread (c.msg.isotpRxNext rxData).sent 0
      simp only [hsame, hclient, hsent, hraised, Option.isNone_none, if_true]
      have hmsg : { (c.msg.isotpRxNext rxData).msg with canClient := m.canClient } =
          (c.msg.isotpRxNext rxData).msg := by
        rw [← hsame]
      rw [hmsg]
      rcases hcases with hidle | ⟨n, hadv⟩
      · exact h.idle hidle
      · exact h.advance hadv

theorem requested_run {c : Conversation} {es : List RecvStep} (hphys : m.canClient.Physical)
    (hread : ∀ e ∈ es, e.Accepted m.canClient) (h : Requested m c.msg c.out) :
    Requested m (Run.run Conversation.step c es).msg (Run.run Conversation.step c es).out := by
  let Inv : Conversation → Prop := fun c => Requested m c.msg c.out
  have hstep : ∀ c (e : RecvStep), e.Accepted m.canClient → Inv c → Inv (c.step e) :=
    fun c e he hc => requested_step hphys he hc
  have hstart : Inv c := h
  exact Run.run_inv_of_mem hstep hstart hread

end Runs

/-! ## The whole request -/

/-- The frame that `_tx_first_frame` sends, if it sends one. -/
def firstMsg (m : IsoTpMessage) : List UInt8 :=
  if m.txLen < m.maxLen then ljust m.maxLen (UInt8.ofNat m.txLen :: m.txDat)
  else ljust (m.maxLen - 2) ([UInt8.ofNat ((0x1000 ||| m.txLen) >>> 8),
    UInt8.ofNat (0x1000 ||| m.txLen)] ++ m.txDat.take (m.maxLen - 2))

theorem txFirstFrame_cases {m m' : IsoTpMessage} {msg : List UInt8}
    (h : m.txFirstFrame = .ok (m', msg)) (hnew : m.txDone = false) :
    m' = { m with txDone := decide (m.txLen < m.maxLen) } ∧ msg = m.firstMsg := by
  unfold txFirstFrame at h
  unfold firstMsg
  split at h
  · next hlt =>
    cases h
    rw [decide_eq_true hlt, if_pos hlt]
    exact ⟨rfl, rfl⟩
  · next hlt =>
    dsimp only at h
    split at h
    · cases h
    · cases h
      rw [decide_eq_false hlt, if_neg hlt, ← hnew]
      exact ⟨rfl, rfl⟩

theorem send_cases {m m' : IsoTpMessage} {dat : List UInt8} {setupOnly : Bool} {first : List CanData}
    (h : m.send dat setupOnly = .ok (m', first)) :
    m' = { m.reset dat with txDone := decide (dat.length < m.maxLen) } ∧
      first = if setupOnly then [] else m.canClient.send [(m.reset dat).firstMsg] := by
  unfold send at h
  split at h
  · cases h
  · next hfirst =>
    cases h
    obtain ⟨rfl, rfl⟩ := txFirstFrame_cases hfirst rfl
    exact ⟨rfl, rfl⟩

theorem head_piece (m : IsoTpMessage) (i : Nat) :
    ((m.piece i).headD 0).toNat = 0x20 + (i + 1) % 16 := by
  have hadd : ∀ k < 16, (0x20 ||| UInt8.ofNat k).toNat = 0x20 + k := by decide
  have hmod : (i + 1) &&& 0xF = (i + 1) % 16 := Nat.and_two_pow_sub_one_eq_mod (i + 1) 4
  rw [piece, consecutiveFrame, hmod, ljust, List.cons_append, List.headD_cons]
  exact hadd _ (Nat.mod_lt _ (by decide))

theorem tail_piece (m : IsoTpMessage) (i : Nat) :
    (m.piece i).tail = ljust (m.maxLen - 1)
      ((m.txDat.drop (m.maxLen - 2 + i * (m.maxLen - 1))).take (m.maxLen - 1)) := by
  simp only [piece, consecutiveFrame, ljust, List.cons_append, List.tail_cons, List.length_cons]
  congr 2
  omega

/-- The pieces carry the request from the end of the first frame on. -/
theorem flatMap_piece (m : IsoTpMessage) (n : Nat) :
    ((List.range n).map m.piece).flatMap List.tail =
      ljust (n * (m.maxLen - 1)) ((m.txDat.drop (m.maxLen - 2)).take (n * (m.maxLen - 1))) := by
  induction n with
  | zero => simp [ljust]
  | succ n ih =>
    rw [List.range_succ, List.map_append, List.flatMap_append, ih, Nat.succ_mul, ljust_add,
      List.drop_drop]
    simp [tail_piece]

/-- Whatever frames come in, the consecutive frames of a long request go out in order: numbered from
1 modulo 16, carrying the request from the end of the first frame on, and behind it zeros. The
request counts as sent once they cover it, and fewer than 255 frames go beyond its end. A read in the
middle of a block may come upon frames of the ECU, but not under another sub-address. -/
theorem consecutives_inOrder {m m' : IsoTpMessage} {dat : List UInt8} {setupOnly : Bool}
    {first : List CanData} (hphys : m.canClient.Physical) (hlong : m.maxLen ≤ dat.length)
    (hsend : m.send dat setupOnly = .ok (m', first)) (rxBuff : List (List UInt8))
    {es : List RecvStep} (hread : ∀ e ∈ es, e.Accepted m.canClient) :
    let c := Run.run Conversation.step { msg := m', rxBuff := rxBuff, out := [] } es
    let n := c.msg.txIdx
    c.out.filter m.canClient.isConsecutive = m.canClient.send ((List.range n).map m'.piece) ∧
      (∀ i, ((m'.piece i).headD 0).toNat = 0x20 + (i + 1) % 16) ∧
      ((List.range n).map m'.piece).flatMap List.tail =
        ljust (n * (m.maxLen - 1)) ((dat.drop (m.maxLen - 2)).take (n * (m.maxLen - 1))) ∧
      (c.msg.txDone = true ↔ dat.length ≤ m.maxLen - 2 + n * (m.maxLen - 1)) ∧
      (255 ≤ n → m.maxLen - 2 + (n - 255) * (m.maxLen - 1) < dat.length) ∧
      ∀ f ∈ c.out, f.dat.length = 8 := by
  obtain ⟨hm', -⟩ := send_cases hsend
  have hclient : m'.canClient = m.canClient := by
    rw [hm']
    rfl
  have hmax : m'.maxLen = m.maxLen := by
    unfold maxLen
    rw [hclient]
  have hdat : m'.txDat = dat := by
    rw [hm']
    rfl
  have hidx : m'.txIdx = 0 := by
    rw [hm']
    rfl
  have hdone : m'.txDone = false := by
    rw [hm']
    exact decide_eq_false (by omega)
  have hpieces : m'.pieces = (dat.length - (m.maxLen - 2) + (m.maxLen - 2)) / (m.maxLen - 1) := by
    rw [pieces, txLen, hmax, hdat]
  have hone : 0 < m'.pieces := by
    rw [hpieces]
    rcases m.maxLen_cases with hm | hm <;> rw [hm] at hlong ⊢ <;> omega
  have hstart : Requested m' m' [] :=
    { toSameRequest := .refl m'
      sent := by
        rw [hidx]
        rfl
      done := by
        rw [hdone, hidx, decide_eq_false (by omega)]
      surplus := by
        rw [hidx]
        exact Nat.zero_le _
      length := by
        intro f hf
        cases hf }
  have hphys' : m'.canClient.Physical := by
    rw [hclient]
    exact hphys
  have hread' : ∀ e ∈ es, e.Accepted m'.canClient := by
    rw [hclient]
    exact hread
  have hrun := requested_run (c := { msg := m', rxBuff := rxBuff, out := [] }) hphys' hread' hstart
  refine ⟨by rw [← hclient]; exact hrun.sent, m'.head_piece, ?_, ?_, ?_, hrun.length⟩
  · rw [flatMap_piece, hmax, hdat]
  · rw [hrun.done, decide_eq_true_iff, hpieces]
    rcases m.maxLen_cases with hm | hm <;> rw [hm] at hlong ⊢ <;> omega
  · have hsurplus := hrun.surplus
    rw [hpieces] at hsurplus
    intro hn
    rcases m.maxLen_cases with hm | hm <;> rw [hm] at hlong hsurplus ⊢ <;> omega

/-- A client with a sub-address. -/
def cornerClient : CanClient := .new 0x764 0x76C 0 (some 0x0F) none

/-- Behind its first frame the request takes sixteen frames. -/
def longRequest : IsoTpMessage :=
  (IsoTpMessage.new cornerClient false 10).reset (List.replicate 100 0x2E)

/-- A flow control for all of the request, and what the bus has for the read after the tenth frame. -/
def oneBlock (f : CanData) : List RecvStep :=
  [.read [{ address := 0x76C, dat := [0x0F, 0x30, 0, 0], src := 0 }], .next fun _ => [f],
    .next fun _ => []]

/-- A frame of the ECU in the middle of the block, and stale data before it. -/
theorem consecutives_inOrder_corner :
    let c := Run.run Conversation.step
      { msg := longRequest, rxBuff := [[0x02, 0x7E, 0x00]], out := [] }
      (.next (fun _ => []) :: oneBlock { address := 0x76C, dat := [0x0F, 0x31, 0, 0], src := 0 })
    c.out.filter cornerClient.isConsecutive =
      cornerClient.send ((List.range c.msg.txIdx).map longRequest.piece) := by
  intro c
  have hphys : (IsoTpMessage.new cornerClient false 10).canClient.Physical := by decide
  have hlong : (IsoTpMessage.new cornerClient false 10).maxLen ≤
      (List.replicate 100 0x2E : List UInt8).length := by decide
  have hsend : (IsoTpMessage.new cornerClient false 10).send (List.replicate 100 0x2E) true =
      .ok (longRequest, []) := rfl
  refine (consecutives_inOrder hphys hlong hsend [[0x02, 0x7E, 0x00]] ?_).1
  intro e he
  simp only [oneBlock, List.mem_cons, List.not_mem_nil, or_false] at he
  rcases he with rfl | rfl | rfl | rfl
  · intro i f hf
    cases hf
  · trivial
  · intro i f hf
    rw [List.mem_singleton.1 hf]
    rintro - - s ⟨⟩ b ⟨⟩
    rfl
  · intro i f hf
    cases hf

/-- Another sub-address in the middle of the block: the last six frames never go out. -/
example :
    let c := Run.run Conversation.step { msg := longRequest, rxBuff := [], out := [] }
      (oneBlock { address := 0x76C, dat := [0x1F, 0x31, 0, 0], src := 0 })
    c.msg.txIdx = 16 ∧ c.out.length = 10 ∧ c.msg.txDone = false := by
  decide

end IsoTpMessage

end Diag
end MazdaPort
