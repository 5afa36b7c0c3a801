import MazdaPort.Serial.CommsTick
import MazdaPort.Usb.CommsRead

/-!
# MazdaPort.Serial.ControlHandler

What the `comms_*` handlers answer: `comms_control_handler` and `comms_endpoint2_write`
(`main_comms.h`, as they are built for the board with the serial port) and `comms_can_read`.
`Device` is what they read. What else the requests do to the device is left out, since the next
request may find it in any state.

* `commsControlHandler_length`: the length of an answer by request, which no handler compares with
  what the host has asked for.
* `endpoint2_debug` and `endpoint2_som`: a write to the ring of the debug port goes out over
  USART2, which is the serial link itself; a write to the ring of the port that the F4 does not have
  never comes back.
-/

namespace MazdaPort
namespace Serial

open Usb

/-! ## The rings of `uart.h` -/

/-- `uart_ring`, as the characters between the cursors of its two sides. -/
structure UartRing (fifoSize : Nat) where
  rx : List UInt8
  tx : List UInt8
  tx_lt : tx.length < fifoSize

namespace UartRing

variable {fifoSize : Nat}

/-- The first half of `put_char`. A full ring drops its oldest character. -/
def push (q : UartRing fifoSize) (elem : UInt8) : Option (UartRing fifoSize) :=
  let tx := if q.tx.length + 1 = fifoSize then q.tx.tail else q.tx
  if h : tx.length + 1 < fifoSize then
    some { q with tx := tx ++ [elem], tx_lt := by simpa using h }
  else none

theorem push_isSome (q : UartRing fifoSize) (elem : UInt8) (h : 1 < fifoSize) :
    ∃ q', q.push elem = some q' ∧ q'.tx ≠ [] := by
  have hlt := q.tx_lt
  have hroom : (if q.tx.length + 1 = fifoSize then q.tx.tail else q.tx).length + 1 < fifoSize := by
    split
    · rw [List.length_tail]
      omega
    · omega
  exact ⟨_, dif_pos hroom, by simp⟩

/-- `uart_tx_ring`, with what it sends. `txe` says that the transmit register is empty. No interrupt
is enabled that would send the rest. -/
def uartTxRing (q : UartRing fifoSize) (txe : Bool) : UartRing fifoSize × List UInt8 :=
  match h : q.tx with
  | [] => (q, [])
  | b :: rest =>
    if txe then
      ({ q with
          tx := rest
          tx_lt := by
            have hlt := q.tx_lt
            rw [h, List.length_cons] at hlt
            omega }, [b])
    else (q, [])

def putChar (q : UartRing fifoSize) (txe : Bool) (elem : UInt8) :
    Bool × UartRing fifoSize × List UInt8 :=
  ((q.push elem).isSome, ((q.push elem).getD q).uartTxRing txe)

/-- The loop of `comms_endpoint2_write` from its call `i` of `put_char` on: what goes out, unless it
waits for ever. The only ring that can be without room has one cell, and there a `put_char` changes
nothing. -/
def putAll (txe : Nat → Bool) : Nat → List UInt8 → UartRing fifoSize → Option (List UInt8)
  | _, [], _ => some []
  | i, c :: cs, q =>
    let r := q.putChar (txe i) c
    if r.1 then (putAll txe (i + 1) cs r.2.1).map (r.2.2 ++ ·) else none

theorem putAll_isSome (txe : Nat → Bool) (i : Nat) (cs : List UInt8) (q : UartRing fifoSize)
    (h : 1 < fifoSize) : ∃ sent, putAll txe i cs q = some sent := by
  induction cs generalizing i q with
  | nil => exact ⟨[], rfl⟩
  | cons c cs ih =>
    obtain ⟨q', hq', -⟩ := q.push_isSome c h
    obtain ⟨sent, hsent⟩ := ih (i + 1) (q.putChar (txe i) c).2.1
    have hok : (q.putChar (txe i) c).1 = true := by simp [putChar, hq']
    simp only [putAll, hok, if_true, hsent]
    exact ⟨_, rfl⟩

/-- With the register empty, the oldest character of the ring goes out. -/
theorem putAll_cons {txe : Nat → Bool} {i : Nat} (htxe : txe i = true) (c : UInt8)
    (cs : List UInt8) (q : UartRing fifoSize) (h : 1 < fifoSize) :
    ∃ b sent, putAll txe i (c :: cs) q = some (b :: sent) := by
  obtain ⟨q', hq', hne⟩ := q.push_isSome c h
  obtain ⟨sent, hsent⟩ := putAll_isSome txe (i + 1) cs (q.putChar (txe i) c).2.1 h
  have hok : (q.putChar (txe i) c).1 = true := by simp [putChar, hq']
  obtain ⟨b, hb⟩ : ∃ b, (q.putChar (txe i) c).2.2 = [b] := by
    simp only [putChar, hq', Option.getD_some, htxe]
    unfold uartTxRing
    split
    · next hnil => exact absurd hnil hne
    · exact ⟨_, rfl⟩
  refine ⟨b, sent, ?_⟩
  simp only [putAll, hok, if_true, hsent, hb]
  rfl

/-- A ring of one cell takes nothing. -/
theorem putAll_one (txe : Nat → Bool) (i : Nat) (c : UInt8) (cs : List UInt8) (q : UartRing 1) :
    putAll txe i (c :: cs) q = none := by
  have hpush : q.push c = none := by
    unfold push
    exact dif_neg (by omega)
  simp [putAll, putChar, hpush]

end UartRing

/-! ## The handlers -/

def fifoSizeInt : Nat := 0x400

/-- The data the handlers answer with, as they stand when the handler copies them. The bound on
`gitversion` is a `COMPILE_TIME_ASSERT`. `txEmpty i` says whether call `i` of `put_char` finds
USART2's transmit register empty; the first one does, since `uart_send_raw` has waited until the
acknowledgement was sent. -/
structure Device (n : Nat) where
  allowDebug : Bool
  microsecondTimer : UInt32
  fanRpm : UInt16
  hwType : UInt8
  canHealth : Nat → Vector UInt8 64
  uid : Vector UInt8 12
  callRate : Nat → UInt32
  somGpio : UInt8
  deviceSerialNumber : Vector UInt8 16
  provisionChunk : Vector UInt8 32
  health : Vector UInt8 58
  signature : Vector UInt8 128
  vehicleState : Vector UInt8 27
  serialStats : Vector UInt8 48
  ep1BusySkips : UInt32
  ep1NospaceSkips : UInt32
  canRegs : Nat → Vector UInt8 48
  gitversion : List UInt8
  gitversion_le : gitversion.length ≤ 64
  uartRingDebug : UartRing fifoSizeInt
  uartRingSomDebug : UartRing 1
  txEmpty : Nat → Bool
  txEmpty_zero : txEmpty 0 = true
  canRead : Comms.CommsRead n
  arrivals : List (List Safety.CANPacket)

def healthPacketVersion : UInt8 := 16
def canPacketVersion : UInt8 := 4
def canHealthPacketVersion : UInt8 := 5
def numInterrupts : Nat := 102
def usbpacketMaxSize : Nat := 64

def bytes32 (w : UInt32) : List UInt8 :=
  [UInt8.ofNat w.toNat, UInt8.ofNat (w.toNat / 256), UInt8.ofNat (w.toNat / 65536),
    UInt8.ofNat (w.toNat / 16777216)]

def bytes16 (w : UInt16) : List UInt8 := [UInt8.ofNat w.toNat, UInt8.ofNat (w.toNat / 256)]

variable {n : Nat}

def getRingByNumber (d : Device n) : Nat → Option (Σ fifoSize, UartRing fifoSize)
  | 0 => some ⟨_, d.uartRingDebug⟩
  | 4 => some ⟨_, d.uartRingSomDebug⟩
  | _ => none

/-- The characters of a ring that have not been read, and none if there is no such ring. -/
def unreadChars (d : Device n) (number : Nat) : List UInt8 :=
  match getRingByNumber d number with
  | some ur => ur.2.rx
  | none => []

/-- `resp`, or nothing if the request resets the board. The requests that are not listed answer
with no data. -/
def commsControlHandler (d : Device n) (req : ControlPacket) : Option (List UInt8) :=
  let param1 := req.param1.toNat
  match req.request.toNat with
  | 0xa8 => some (bytes32 d.microsecondTimer)
  | 0xb2 => some (bytes16 d.fanRpm)
  | 0xc1 => some [d.hwType]
  | 0xc2 => some (if param1 < 3 then (d.canHealth param1).toList else [])
  | 0xc3 => some d.uid.toList
  | 0xc4 => some (if param1 < numInterrupts then bytes32 (d.callRate param1) else [])
  | 0xc6 => some [d.somGpio]
  | 0xd0 => some (if param1 = 1 then d.deviceSerialNumber.toList else d.provisionChunk.toList)
  | 0xd1 => if param1 = 0 ∧ d.allowDebug ∨ param1 = 1 then none else some []
  | 0xd2 => some d.health.toList
  | 0xd3 => some (d.signature.toList.take 64)
  | 0xd4 => some (d.signature.toList.drop 64)
  | 0xd5 => some d.vehicleState.toList
  | 0xd6 => some (d.gitversion.take (d.gitversion.length - 1))
  | 0xd7 => some (if param1 < 3 then (d.canRegs param1).toList else [])
  | 0xd8 => none
  | 0xd9 => some d.serialStats.toList
  | 0xda => some (bytes32 d.ep1BusySkips ++ bytes32 d.ep1NospaceSkips)
  | 0xdd => some [healthPacketVersion, canPacketVersion, canHealthPacketVersion]
  | 0xe0 =>
    some ((unreadChars d param1).take (min req.length.toNat usbpacketMaxSize))
  | _ => some []

/-- `resp_len` of a request that does not reset the board. -/
def controlReplySize (d : Device n) (req : ControlPacket) : Nat :=
  let param1 := req.param1.toNat
  match req.request.toNat with
  | 0xa8 => 4
  | 0xb2 => 2
  | 0xc1 => 1
  | 0xc2 => if param1 < 3 then 64 else 0
  | 0xc3 => 12
  | 0xc4 => if param1 < numInterrupts then 4 else 0
  | 0xc6 => 1
  | 0xd0 => if param1 = 1 then 16 else 32
  | 0xd2 => 58
  | 0xd3 => 64
  | 0xd4 => 64
  | 0xd5 => 27
  | 0xd6 => d.gitversion.length - 1
  | 0xd7 => if param1 < 3 then 48 else 0
  | 0xd9 => 48
  | 0xda => 8
  | 0xdd => 3
  | 0xe0 => min (min req.length.toNat usbpacketMaxSize) (unreadChars d param1).length
  | _ => 0

theorem commsControlHandler_length (d : Device n) (req : ControlPacket) {resp : List UInt8}
    (h : commsControlHandler d req = some resp) : resp.length = controlReplySize d req := by
  simp only [commsControlHandler] at h
  simp only [controlReplySize]
  split at h
  all_goals
    first
    | cases h
    | (split at h <;> cases h)
  all_goals simp [*, bytes32, bytes16, apply_ite List.length]

theorem controlReplySize_of_reset (d : Device n) (req : ControlPacket)
    (h : commsControlHandler d req = none) : controlReplySize d req = 0 := by
  simp only [commsControlHandler] at h
  simp only [controlReplySize]
  split at h
  all_goals
    first
    | cases h
    | (split at h <;> cases h)
  all_goals simp [*]

theorem controlReplySize_le (d : Device n) (req : ControlPacket) :
    controlReplySize d req ≤ usbpacketMaxSize := by
  have hgit := d.gitversion_le
  simp only [controlReplySize, usbpacketMaxSize]
  split <;> (try split) <;> omega

/-- `data[0]` selects the ring. -/
def commsEndpoint2Write (d : Device n) (data : List UInt8) : Answer :=
  let number := (data.getD 0 0).toNat
  match getRingByNumber d number with
  | some ur =>
    if data.length ≠ 0 ∧ (number < 2 ∨ number ≥ 4) then
      match ur.2.putAll d.txEmpty 0 data.tail with
      | some sent => .answer sent []
      | none => .hangs
    else .answer [] []
  | none => .answer [] []

/-- What a write to the debug ring puts on the link. -/
def Device.printed (d : Device n) (data : List UInt8) : List UInt8 :=
  (d.uartRingDebug.putAll d.txEmpty 0 data.tail).getD []

/-- A write of no characters, or to no ring, does nothing. -/
theorem endpoint2_quiet (d : Device n) {data : List UInt8}
    (h : 2 ≤ data.length → data.head? ≠ some 0 ∧ data.head? ≠ some 4) :
    commsEndpoint2Write d data = .answer [] [] := by
  match data, h with
  | [], _ =>
    simp only [commsEndpoint2Write]
    split <;> rfl
  | [b], _ =>
    simp only [commsEndpoint2Write]
    split
    · split <;> rfl
    · rfl
  | b :: c :: cs, h =>
    obtain ⟨h0, h4⟩ := h (by simp)
    have hne0 : b.toNat ≠ 0 := fun hb => h0 (congrArg some (UInt8.toNat_inj.1 hb))
    have hne4 : b.toNat ≠ 4 := fun hb => h4 (congrArg some (UInt8.toNat_inj.1 hb))
    have hring : getRingByNumber d b.toNat = none := by
      unfold getRingByNumber
      split
      · next hb => exact absurd hb hne0
      · next hb => exact absurd hb hne4
      · rfl
    simp [commsEndpoint2Write, hring]

theorem endpoint2_debug (d : Device n) {data : List UInt8} (hlen : 2 ≤ data.length)
    (h : data.head? = some 0) :
    commsEndpoint2Write d data = .answer (d.printed data) [] ∧ d.printed data ≠ [] := by
  match data, hlen with
  | b :: c :: cs, _ =>
    obtain rfl : b = 0 := Option.some.inj h
    obtain ⟨x, sent, hsent⟩ :=
      UartRing.putAll_cons d.txEmpty_zero c cs d.uartRingDebug (by decide)
    have hput : d.uartRingDebug.putAll d.txEmpty 0 (0 :: c :: cs).tail = some (x :: sent) := hsent
    have hprinted : d.printed (0 :: c :: cs) = x :: sent := by rw [Device.printed, hput]; rfl
    rw [hprinted]
    refine ⟨?_, List.cons_ne_nil x sent⟩
    simp [commsEndpoint2Write, getRingByNumber, hsent]

theorem endpoint2_som (d : Device n) {data : List UInt8} (hlen : 2 ≤ data.length)
    (h : data.head? = some 4) : commsEndpoint2Write d data = .hangs := by
  match data, hlen with
  | b :: c :: cs, _ =>
    obtain rfl : b = 4 := Option.some.inj h
    simp [commsEndpoint2Write, getRingByNumber, UartRing.putAll_one]

/-- What the handler behind a call answers. The write of CAN packets is answered with no data. -/
def Device.answer (d : Device n) : Call → Answer
  | .control req =>
    match commsControlHandler d req with
    | some resp => .answer [] resp
    | none => .reset
  | .canRead maxLen => .answer [] (Comms.commsCanRead maxLen d.arrivals d.canRead).data
  | .endpoint2Write data => commsEndpoint2Write d data
  | .canWrite _ => .answer [] []

end Serial
end MazdaPort
