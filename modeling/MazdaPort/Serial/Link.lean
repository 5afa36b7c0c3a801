import Mathlib.Logic.Relation
import MazdaPort.Serial.ControlHandler

/-!
# MazdaPort.Serial.Link

The host and the device on one serial line. `transfer` is `PandaSerialHandle::transfer`
(`control/pandad_serial/serial.cc`) as the sequence of its writes and reads; the device is the main
loop around `serial_comms_tick`. `Step` interleaves them byte by byte over two channels that lose
nothing and keep the order. The receive ring is the part of the line that the device has not read;
`Serial.Resync` says that the masked cursor reads it so.

A timeout is much longer than a byte, so a party gives up waiting only when the other has nothing on
its way: the host when no byte from the device is under way and the device has read all it was sent,
or hangs; the device within a frame when the host cannot go on before it hears from the device.
Between frames the device looks for a byte for 2 ms at a time, and may find none at any time.
-/

namespace MazdaPort
namespace Serial

/-! ## The host -/

/-- What `transfer` leaves with its caller: the value returned, the bytes in `rx`, and the trailing
checksum, which it reads and does not look at. -/
structure Result where
  ret : Int
  rx : List UInt8
  rck : Option UInt8

inductive Host where
  | ret (r : Result)
  | write (bytes : List UInt8) (k : Host)
  | read (k : Option UInt8 → Host)

/-- `read_exact`, with the bytes it has got in `b`. -/
def readExact (k : Option (List UInt8) → Host) : Nat → List UInt8 → Host
  | 0, b => k (some b)
  | n + 1, b =>
    .read fun
      | none => k none
      | some x => readExact k n (b ++ [x])

def failed : Result := { ret := -1, rx := [], rck := none }

def readChecksum (rlen : Nat) (rx : List UInt8) : Host :=
  .read fun rck => .ret { ret := rlen, rx := rx, rck := rck }

def readData (rlen : Nat) : Host :=
  if rlen > 0 then
    readExact (fun
      | none => .ret failed
      | some rx => readChecksum rlen rx) rlen []
  else readChecksum 0 []

def checkResponse (maxRx : Nat) : Option (List UInt8) → Host
  | none => .ret failed
  | some rhdr =>
    if rhdr.getD 0 0 ≠ serialHack then .ret failed
    else readData (min (word (rhdr.getD 1 0) (rhdr.getD 2 0)) maxRx)

def readResponse (maxRx : Nat) : Host := readExact (checkResponse maxRx) 3 []

def writeData (f : Frame) : Host :=
  if f.payload.length > 0 then
    .write f.payload (.write [serialChecksum f.payload] (readResponse f.maxLen.toNat))
  else readResponse f.maxLen.toNat

def readAck (f : Frame) : Host :=
  .read fun
    | none => .ret failed
    | some ack => if ack ≠ serialHack then .ret failed else writeData f

/-- `PandaSerialHandle::transfer`, with `endpoint`, `tx` and `max_rx` from the frame. -/
def transfer (f : Frame) : Host := .write f.header (readAck f)

/-! ## The device -/

inductive Dev where
  | idle
  | recv (timeoutMs : Nat) (k : Option UInt8 → Proc)
  | hung

/-- The device up to its next receive or the end of the pass, with its cursor at `pos` of `line`:
where it is then, its cursor, and what it has to send first. -/
def settle (answer : Call → Answer) (line : List UInt8) :
    Proc → Nat → Dev × Nat × List UInt8
  | .ret _, pos => (.idle, pos, [])
  | .avail k, pos => settle answer line (k (line.length - pos)) pos
  | .flush k, _ => settle answer line k line.length
  | .mark k, pos => settle answer line (k pos) pos
  | .recvByte t k, pos => (.recv t k, pos, [])
  | .rewindPast mark k, _ => settle answer line k (mark + 1)
  | .send bytes k, pos =>
    let r := settle answer line k pos
    (r.1, r.2.1, bytes ++ r.2.2)
  | .call c k, pos => settle answer line (k (answer c)) pos
  | .hang, pos => (.hung, pos, [])

/-! ## The line -/

/-- `line` is what the host has written and `pos` the device's cursor in it, `out` what the device
has yet to send and `up` what is on its way to the host or waits to be read. -/
structure Link where
  host : Host
  dev : Dev
  line : List UInt8
  pos : Nat
  out : List UInt8
  up : List UInt8

namespace Link

def goOn (answer : Call → Answer) (p : Proc) (pos : Nat) (c : Link) : Link :=
  let r := settle answer c.line p pos
  { c with dev := r.1, pos := r.2.1, out := r.2.2 }

/-- The host writes nothing before it hears from the device. -/
def Waits (c : Link) : Prop :=
  match c.host with
  | .ret _ => True
  | .write _ _ => False
  | .read _ => c.up = []

end Link

inductive Step (answer : Call → Answer) : Link → Link → Prop where
  | write {c : Link} {bytes : List UInt8} {k : Host} : c.host = .write bytes k →
      Step answer c { c with host := k, line := c.line ++ bytes }
  | read {c : Link} {b : UInt8} {rest : List UInt8} {k : Option UInt8 → Host} :
      c.host = .read k → c.up = b :: rest →
      Step answer c { c with host := k (some b), up := rest }
  | readTimeout {c : Link} {k : Option UInt8 → Host} :
      c.host = .read k → c.up = [] → c.out = [] → c.line.length ≤ c.pos ∨ c.dev = .hung →
      Step answer c { c with host := k none }
  | tick {c : Link} : c.dev = .idle → c.out = [] →
      Step answer c (c.goOn answer serialCommsTick c.pos)
  | recv {c : Link} {t : Nat} {k : Option UInt8 → Proc} {b : UInt8} :
      c.dev = .recv t k → c.out = [] → c.line[c.pos]? = some b →
      Step answer c (c.goOn answer (k (some b)) (c.pos + 1))
  | huntTimeout {c : Link} {k : Option UInt8 → Proc} :
      c.dev = .recv 2 k → c.out = [] → c.line.length ≤ c.pos →
      Step answer c (c.goOn answer (k none) c.pos)
  | recvTimeout {c : Link} {t : Nat} {k : Option UInt8 → Proc} :
      c.dev = .recv t k → c.out = [] → c.line.length ≤ c.pos → c.Waits →
      Step answer c (c.goOn answer (k none) c.pos)
  | emit {c : Link} {b : UInt8} {rest : List UInt8} : c.out = b :: rest →
      Step answer c { c with out := rest, up := c.up ++ [b] }

def Reaches (answer : Call → Answer) : Link → Link → Prop :=
  Relation.ReflTransGen (Step answer)

/-! ## Sessions -/

/-- A transfer, and the device as the handlers find it. `tx_len` is a `uint16_t`. -/
structure Transfer (n : Nat) where
  frame : Frame
  device : Device n
  short : frame.payload.length < 65536

variable {n : Nat}

namespace Transfer

def answer (t : Transfer n) : Call → Answer := t.device.answer

def begin (t : Transfer n) (c : Link) : Link := { c with host := transfer t.frame }

/-- A result of at least zero is the payload of the reply to this request, cut off at `max_rx`, with
the checksum of that reply. -/
def Answers (t : Transfer n) (r : Result) : Prop :=
  0 ≤ r.ret → ∃ call sent resp, t.frame.call = some call ∧ t.answer call = .answer sent resp ∧
    r.rx = resp.take t.frame.maxLen.toNat ∧ r.ret = r.rx.length ∧
    r.rck = (response resp).getLast?

end Transfer

/-- Host and device in their initial states, with nothing on the line. -/
def quietLink : Link :=
  { host := .ret failed, dev := .idle, line := [], pos := 0, out := [], up := [] }

/-- Each transfer returns, and however the two sides are interleaved, no byte is left unread or
unsent when it does, its result is that of its own request, and the same goes for the next. -/
def Lockstep : Link → List (Transfer n) → Prop
  | _, [] => True
  | c, t :: ts =>
    (∃ c' r, Reaches t.answer (t.begin c) c' ∧ c'.host = .ret r) ∧
    ∀ c' r, Reaches t.answer (t.begin c) c' → c'.host = .ret r →
      c'.up = [] ∧ c'.out = [] ∧ t.Answers r ∧ Lockstep c' ts

end Serial
end MazdaPort
