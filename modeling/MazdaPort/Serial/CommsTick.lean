import Mathlib.Tactic.Common

/-!
# MazdaPort.Serial.CommsTick

`serial_comms_tick` (`serial_comms.h`), one pass of the device's main loop over the serial port. It
is written once, as the sequence of calls it makes to the byte layer (`serial_uart_raw.h`) and to
the `comms_*` handlers; `Proc` is the type of such sequences. What the calls do is said where they
are run: over the ring that the DMA fills (`Serial.Resync`), and over a line shared with the host
(`Serial.Link`).

Of `serial_stats` only the counter that ends the pass is kept, as its `Outcome`. The copies of a
rejected header that it also holds leave the device through control request 0xd9 only.
-/

namespace MazdaPort
namespace Serial

def serialSyncByte : UInt8 := 0x5A
def serialHack : UInt8 := 0x79
def serialNack : UInt8 := 0x1F
def serialChecksumStart : UInt8 := 0xAB
def serialHeaderSize : Nat := 7
def serialBufSize : Nat := 2048
def serialRespOverhead : Nat := 4
def serialHdrTimeoutMs : Nat := 3
def uartRxBufSize : Nat := 4096
def sizeofControlPacket : Nat := 7

def serialChecksum (data : List UInt8) : UInt8 := data.foldl (· ^^^ ·) serialChecksumStart

theorem serialChecksum_snoc (data : List UInt8) (b : UInt8) :
    serialChecksum (data ++ [b]) = serialChecksum data ^^^ b := by
  simp [serialChecksum]

/-- The checksum byte both sides append. -/
theorem serialChecksum_closed (data : List UInt8) :
    serialChecksum (data ++ [serialChecksum data]) = 0 := by
  rw [serialChecksum_snoc, UInt8.xor_self]

/-- `lo | (hi << 8)` -/
def word (lo hi : UInt8) : Nat := lo.toNat + 256 * hi.toNat

theorem word_ofNat {k : Nat} (h : k < 65536) :
    word (UInt8.ofNat k) (UInt8.ofNat (k / 256)) = k := by
  simp only [word, UInt8.toNat_ofNat']
  omega

theorem word_lt (lo hi : UInt8) : word lo hi < 65536 := by
  have hlo := lo.toNat_lt
  have hhi := hi.toNat_lt
  simp only [word]
  omega

theorem ofNat_word (lo hi : UInt8) :
    UInt8.ofNat (word lo hi) = lo ∧ UInt8.ofNat (word lo hi / 256) = hi := by
  have hlo := lo.toNat_lt
  have hhi := hi.toNat_lt
  simp only [← UInt8.toNat_inj, UInt8.toNat_ofNat', word]
  omega

/-! ## Requests -/

/-- `ControlPacket_t` -/
structure ControlPacket where
  request : UInt8
  param1 : UInt16
  param2 : UInt16
  length : UInt16
  deriving DecidableEq, Repr

/-- The packet in the first `sizeof(ControlPacket_t)` bytes of `data`. -/
def ControlPacket.ofBytes (data : List UInt8) : ControlPacket where
  request := data.getD 0 0
  param1 := UInt16.ofNat (word (data.getD 1 0) (data.getD 2 0))
  param2 := UInt16.ofNat (word (data.getD 3 0) (data.getD 4 0))
  length := UInt16.ofNat (word (data.getD 5 0) (data.getD 6 0))

def ControlPacket.bytes (req : ControlPacket) : List UInt8 :=
  [req.request, UInt8.ofNat req.param1.toNat, UInt8.ofNat (req.param1.toNat / 256),
    UInt8.ofNat req.param2.toNat, UInt8.ofNat (req.param2.toNat / 256),
    UInt8.ofNat req.length.toNat, UInt8.ofNat (req.length.toNat / 256)]

theorem ControlPacket.bytes_ofBytes {data : List UInt8} (h : sizeofControlPacket ≤ data.length) :
    (ControlPacket.ofBytes data).bytes = data.take sizeofControlPacket := by
  obtain ⟨r, a, b, c, d, e, g, rest, rfl⟩ :
      ∃ r a b c d e g rest, data = r :: a :: b :: c :: d :: e :: g :: rest := by
    match data, h with
    | r :: a :: b :: c :: d :: e :: g :: rest, _ => exact ⟨r, a, b, c, d, e, g, rest, rfl⟩
  have hfield : ∀ lo hi : UInt8, (UInt16.ofNat (word lo hi)).toNat = word lo hi := by
    intro lo hi
    rw [UInt16.toNat_ofNat', Nat.mod_eq_of_lt (word_lt lo hi)]
  simp [ControlPacket.bytes, ControlPacket.ofBytes, hfield, ofNat_word, sizeofControlPacket]

/-- The calls of `serial_comms_tick` to the handlers of the four endpoints. -/
inductive Call where
  | control (req : ControlPacket)
  | canRead (maxLen : Nat)
  | endpoint2Write (data : List UInt8)
  | canWrite (data : List UInt8)
  deriving DecidableEq, Repr

/-- What a handler is given of the payload. -/
def Call.payload : Call → List UInt8
  | .control req => req.bytes
  | .canRead _ => []
  | .endpoint2Write data => data
  | .canWrite data => data

/-- The endpoints of a handler. -/
def Call.Serves (endpoint : UInt8) : Call → Prop
  | .control _ => endpoint = 0
  | .canRead _ => endpoint = 1 ∨ endpoint = 0x81
  | .endpoint2Write _ => endpoint = 2
  | .canWrite _ => endpoint = 3

/-- How a call of a handler ends: the board is reset, the call never comes back, or it comes back
with `resp`. `sent` is what the handler has put on the port by itself. -/
inductive Answer where
  | reset
  | hangs
  | answer (sent resp : List UInt8)
  deriving DecidableEq, Repr

/-! ## The pass -/

inductive Outcome where
  | overrun
  | silent
  | dropped
  | hdrTimeout
  | hdrResync
  | mosiOversize
  | mosiTimeout
  | mosiChecksum
  | refused
  | txnOk
  | reset
  | hung
  deriving DecidableEq, Repr

/-- A sequence of calls to the byte layer and the handlers. A receive that times out gives `none`.
`hang` is a wait without end. -/
inductive Proc where
  | ret (o : Outcome)
  | avail (k : Nat → Proc)
  | flush (k : Proc)
  | mark (k : Nat → Proc)
  | recvByte (timeoutMs : Nat) (k : Option UInt8 → Proc)
  | rewindPast (mark : Nat) (k : Proc)
  | send (bytes : List UInt8) (k : Proc)
  | call (c : Call) (k : Answer → Proc)
  | hang

/-- `uart_recv_raw`, with the bytes it already has in `d`. -/
def recvRaw (timeoutMs : Nat) (k : Option (List UInt8) → Proc) : Nat → List UInt8 → Proc
  | 0, d => k (some d)
  | len + 1, d =>
    .recvByte timeoutMs fun
      | none => k none
      | some b => recvRaw timeoutMs k len (d ++ [b])

/-- `[HACK][resp_len:u16][resp data][checksum]` -/
def response (resp : List UInt8) : List UInt8 :=
  let serTx := [serialHack, UInt8.ofNat resp.length, UInt8.ofNat (resp.length / 256)] ++ resp
  serTx ++ [serialChecksum serTx]

/-- What the device sends from a call on whose handler ends so. -/
def reply : Answer → List UInt8
  | .reset => []
  | .hangs => []
  | .answer sent resp => sent ++ response resp

/-- The handler an accepted frame goes to, unless its length is wrong for the endpoint. -/
def dispatch (endpoint : UInt8) (data : List UInt8) (misoLen : Nat) : Option Call :=
  if endpoint = 0 then
    if data.length ≥ sizeofControlPacket then some (.control (ControlPacket.ofBytes data)) else none
  else if endpoint = 1 ∨ endpoint = 0x81 then
    if data.length = 0 then some (.canRead misoLen) else none
  else if endpoint = 2 then some (.endpoint2Write data)
  else if endpoint = 3 then if data.length > 0 then some (.canWrite data) else none
  else none

/-- Steps 3 and 4. After a reset, `serial_comms_init` flushes the ring. -/
def respond (endpoint : UInt8) (data : List UInt8) (misoLen : Nat) : Proc :=
  match dispatch endpoint data misoLen with
  | none => .send [serialNack] (.ret .refused)
  | some c =>
    .call c fun
      | .reset => .flush (.ret .reset)
      | .hangs => .hang
      | .answer sent resp => .send sent (.send (response resp) (.ret .txnOk))

/-- The end of step 2, with the payload and its checksum byte in `rx`. -/
def checkMosi (endpoint : UInt8) (mosiLen misoLen : Nat) : Option (List UInt8) → Proc
  | none => .ret .mosiTimeout
  | some rx =>
    if serialChecksum rx ≠ 0 then .send [serialNack] (.ret .mosiChecksum)
    else respond endpoint (rx.take mosiLen) misoLen

def clampMiso (misoLen : Nat) : Nat := min misoLen (serialBufSize - serialRespOverhead)

/-- Step 2. -/
def acceptHeader (endpoint : UInt8) (mosiLen misoLen : Nat) : Proc :=
  if mosiLen > serialBufSize - serialHeaderSize - 1 then
    .send [serialNack] (.ret .mosiOversize)
  else
    .send [serialHack] <|
      if mosiLen > 0 then
        recvRaw 25 (checkMosi endpoint mosiLen (clampMiso misoLen)) (mosiLen + 1) []
      else respond endpoint [] (clampMiso misoLen)

/-- The end of step 1, with the whole header in `hdr`. -/
def checkHeader (mark : Nat) : Option (List UInt8) → Proc
  | none => .rewindPast mark (.ret .hdrTimeout)
  | some hdr =>
    if serialChecksum hdr ≠ 0 then .rewindPast mark (.ret .hdrResync)
    else
      acceptHeader (hdr.getD 1 0) (word (hdr.getD 2 0) (hdr.getD 3 0))
        (word (hdr.getD 4 0) (hdr.getD 5 0))

def hunt (mark : Nat) : Option UInt8 → Proc
  | none => .ret .silent
  | some b =>
    if b ≠ serialSyncByte then .ret .dropped
    else recvRaw serialHdrTimeoutMs (checkHeader mark) (serialHeaderSize - 1) [b]

def serialCommsTick : Proc :=
  .avail fun n =>
    if n > uartRxBufSize * 3 / 4 then .flush (.ret .overrun)
    else .mark fun mark => .recvByte 2 (hunt mark)

/-! ## Frames -/

/-- A transaction as the host asks for it: the payload and how much it wants back. -/
structure Frame where
  endpoint : UInt8
  payload : List UInt8
  maxLen : UInt16
  deriving DecidableEq, Repr

namespace Frame

def headerFields (f : Frame) : List UInt8 :=
  [serialSyncByte, f.endpoint, UInt8.ofNat f.payload.length, UInt8.ofNat (f.payload.length / 256),
    UInt8.ofNat f.maxLen.toNat, UInt8.ofNat (f.maxLen.toNat / 256)]

def header (f : Frame) : List UInt8 := f.headerFields ++ [serialChecksum f.headerFields]

/-- The payload and its checksum byte, which an empty payload goes without. -/
def body (f : Frame) : List UInt8 :=
  if f.payload = [] then [] else f.payload ++ [serialChecksum f.payload]

def bytes (f : Frame) : List UInt8 := f.header ++ f.body

/-- What the device calls for the frame, if its payload fits the receive buffer. -/
def call (f : Frame) : Option Call := dispatch f.endpoint f.payload (clampMiso f.maxLen.toNat)

def Fits (f : Frame) : Prop := f.payload.length ≤ serialBufSize - serialHeaderSize - 1

instance (f : Frame) : Decidable f.Fits := by unfold Fits; infer_instance

theorem header_length (f : Frame) : f.header.length = serialHeaderSize := rfl

theorem header_checksum (f : Frame) : serialChecksum f.header = 0 :=
  serialChecksum_closed f.headerFields

theorem body_checksum {f : Frame} (h : f.payload ≠ []) : serialChecksum f.body = 0 := by
  rw [body, if_neg h]
  exact serialChecksum_closed f.payload

theorem body_length {f : Frame} (h : f.payload ≠ []) : f.body.length = f.payload.length + 1 := by
  rw [body, if_neg h, List.length_append]
  rfl

/-- The header of a frame opens it. -/
theorem checkHeader_header {f : Frame} (h : f.payload.length < 65536) (mark : Nat) :
    checkHeader mark (some f.header) =
      acceptHeader f.endpoint f.payload.length f.maxLen.toNat := by
  have hmosi := word_ofNat h
  have hmiso := word_ofNat f.maxLen.toNat_lt
  have hsum : ¬ serialChecksum f.header ≠ 0 := not_not.2 f.header_checksum
  simp only [checkHeader]
  rw [if_neg hsum]
  exact congr (congrArg (acceptHeader f.endpoint) hmosi) hmiso

theorem checkMosi_body {f : Frame} (h : f.payload ≠ []) (misoLen : Nat) :
    checkMosi f.endpoint f.payload.length misoLen (some f.body) =
      respond f.endpoint f.payload misoLen := by
  have hsum : ¬ serialChecksum f.body ≠ 0 := not_not.2 (body_checksum h)
  have htake : f.body.take f.payload.length = f.payload := by
    rw [body, if_neg h, List.take_left]
  simp only [checkMosi]
  rw [if_neg hsum, htake]

theorem call_control {f : Frame} {req : ControlPacket} (h : f.call = some (.control req)) :
    f.endpoint = 0 ∧ sizeofControlPacket ≤ f.payload.length ∧
      req = ControlPacket.ofBytes f.payload := by
  simp only [call, dispatch] at h
  split_ifs at h with h0 hlen <;> cases h
  exact ⟨h0, hlen, rfl⟩

theorem call_of_control {f : Frame} (h0 : f.endpoint = 0)
    (hlen : sizeofControlPacket ≤ f.payload.length) :
    f.call = some (.control (ControlPacket.ofBytes f.payload)) := by
  simp only [call, dispatch]
  rw [if_pos h0, if_pos hlen]

theorem call_canRead {f : Frame} {maxLen : Nat} (h : f.call = some (.canRead maxLen)) :
    maxLen = clampMiso f.maxLen.toNat := by
  simp only [call, dispatch] at h
  split_ifs at h <;> cases h
  rfl

theorem call_serves {f : Frame} {c : Call} (h : f.call = some c) : c.Serves f.endpoint := by
  simp only [call, dispatch] at h
  split_ifs at h with h0 hlen h1 hnil h2 h3 hpos <;> cases h <;> assumption

/-- The handler is given the payload, or the control packet in its first bytes. -/
theorem call_payload {f : Frame} {c : Call} (h : f.call = some c) :
    c.payload = if f.endpoint = 0 then f.payload.take sizeofControlPacket else f.payload := by
  simp only [call, dispatch] at h
  split_ifs at h with h0 hlen h1 hnil h2 h3 hpos <;> cases h
  · rw [if_pos h0]
    exact ControlPacket.bytes_ofBytes hlen
  · rw [if_neg h0, List.length_eq_zero_iff.1 hnil]
    rfl
  · rw [if_neg h0]
    rfl
  · rw [if_neg h0]
    rfl

end Frame

end Serial
end MazdaPort
