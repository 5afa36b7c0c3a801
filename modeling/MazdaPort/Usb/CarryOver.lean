import MazdaPort.Usb.Watchdogs

/-!
# MazdaPort.Usb.CarryOver

The bytes that the parse loop of `_recv_resync` leaves for the next call. The loop ends on any bytes
and in any state of the latch, and what it leaves is either shorter than a header or one candidate
whose data has not all arrived (`parseStep_none`): at most a marker, a header and 63 bytes.

`carryOver_bounded`: so no run of calls accumulates a tail, and the cap of 65536 bytes, which the
source has for a tail that grows, is never reached.
-/

namespace MazdaPort
namespace Usb

open Framing

/-! ## Where the loop stops -/

/-- `tail` is less than a header, or a plausible candidate that has not arrived in full. -/
def Incomplete (tail : List UInt8) : Prop :=
  tail.length < canpacketHeadSize ∨
    ∃ hdr, hdr ≤ 1 ∧ (hdr = 1 → tail.getD 0 0 = canSyncMarker) ∧ busOf (tail.drop hdr) ≤ 2 ∧
      tail.length < hdr + canpacketHeadSize + dataLenOf (tail.drop hdr)

theorem dataLenOf_le (h : List UInt8) : dataLenOf h ≤ 64 := Safety.dlcToLenTable_le _

theorem Incomplete.length_le {tail : List UInt8} (h : Incomplete tail) : tail.length ≤ 70 := by
  simp only [Incomplete, canpacketHeadSize] at h
  rcases h with hshort | ⟨hdr, hle, -, -, hlen⟩
  · omega
  · have hdata := dataLenOf_le (tail.drop hdr)
    omega

/-- The bound is attained: a marker, a header for 64 bytes of data, and 63 of them. -/
example : Incomplete (canSyncMarker :: 0xF0 :: List.replicate 68 0) ∧
    (canSyncMarker :: 0xF0 :: List.replicate 68 (0 : UInt8)).length = 70 := by
  refine ⟨.inr ⟨1, ?_⟩, rfl⟩
  decide

theorem candidate_none {d : Decoder} {raw : List UInt8} {hdr : Nat}
    (hfit : hdr + canpacketHeadSize ≤ raw.length) (h : candidate d raw hdr = none) :
    busOf (raw.drop hdr) ≤ 2 ∧
      raw.length < hdr + canpacketHeadSize + dataLenOf (raw.drop hdr) := by
  simp only [candidate] at h
  rw [if_neg (by omega)] at h
  split at h
  · next hlong =>
    split at h
    · next hbus => exact ⟨hbus, hlong⟩
    · cases h
  · split at h
    · cases h
    · cases h

/-- The exits of the loop: too few bytes for a header, or a candidate that is kept waiting. -/
theorem parseStep_none {d : Decoder} {raw : List UInt8} (h : parseStep d raw = none) :
    Incomplete raw := by
  unfold parseStep at h
  split at h
  · next hshort => exact .inl hshort
  · next hlen =>
    split at h
    · next hmark =>
      rw [Bool.and_eq_true, decide_eq_true_eq] at hmark
      obtain ⟨hbus, hlong⟩ := candidate_none hmark.2 h
      exact .inr ⟨1, le_refl 1, fun _ => eq_of_beq hmark.1, hbus, hlong⟩
    · split at h
      · cases h
      · obtain ⟨hbus, hlong⟩ := candidate_none (by omega) h
        refine .inr ⟨0, Nat.zero_le 1, ?_, hbus, hlong⟩
        intro h01
        cases h01

/-! ## One call -/

/-- The bytes the parse loop runs over. -/
def UsbPanda.raw (lim : Limits) (x : Inputs) (s : UsbPanda) : List UInt8 :=
  (capTail s).rx.buf ++ (drainReads lim.maxDrainReads x.bulkReads).1

theorem capTail_length (s : UsbPanda) : (capTail s).rx.buf.length ≤ 65536 := by
  unfold capTail
  split
  · exact Nat.zero_le _
  · next hshort => omega

theorem capTail_st (s : UsbPanda) : (capTail s).rx.st = s.rx.st := by
  unfold capTail
  split <;> rfl

theorem capTail_of_short {s : UsbPanda} (h : s.rx.buf.length ≤ 65536) : capTail s = s := by
  unfold capTail
  rw [if_neg (by omega)]

theorem decode_eq (lim : Limits) (x : Inputs) (s : UsbPanda) :
    decode lim x s =
      ((parser.drain s.rx.st (s.raw lim x)).1,
        { capTail s with
          rx :=
            { st := (parser.drain s.rx.st (s.raw lim x)).2.1
              buf := (parser.drain s.rx.st (s.raw lim x)).2.2 } }) := by
  have hcap := capTail_length s
  unfold decode recvResync receive
  simp only [if_neg (Nat.not_lt.2 hcap), capTail_st]
  rfl

/-- The parse loop comes to an end, and `decode` returns what it has found and left. -/
theorem decode_ends (lim : Limits) (x : Inputs) (s : UsbPanda) :
    parser.Ends s.rx.st (s.raw lim x)
      ((decode lim x s).1, (decode lim x s).2.rx.st, (decode lim x s).2.rx.buf) := by
  rw [decode_eq]
  exact parser.drain_ends s.rx.st (s.raw lim x)

theorem decode_incomplete (lim : Limits) (x : Inputs) (s : UsbPanda) :
    Incomplete (decode lim x s).2.rx.buf :=
  parseStep_none (decode_ends lim x s).waits

/-! ## Runs -/

/-- Each watchdog leaves the tail as it is or drops it. -/
def TailKept (s t : UsbPanda) : Prop := t.rx.buf = s.rx.buf ∨ t.rx.buf = []

theorem TailKept.length_le {s t : UsbPanda} (h : TailKept s t) :
    t.rx.buf.length ≤ s.rx.buf.length := by
  rcases h with heq | hnil
  · rw [heq]
  · rw [hnil]
    exact Nat.zero_le _

theorem wrongLockDetector_tail (lim : Limits) (nowLk : ℚ) (out : List Frame) (s : UsbPanda) :
    TailKept s (wrongLockDetector lim nowLk out s) := by
  unfold wrongLockDetector
  dsimp only
  split
  · split
    · split
      · exact .inr rfl
      · exact .inr rfl
    · exact .inl rfl
  · exact .inl rfl

theorem judge_tail (x : Inputs) (hwRate hostRate : ℚ) (s : UsbPanda) :
    TailKept s (judge x hwRate hostRate s) := by
  unfold judge
  dsimp only
  split
  · split
    · exact .inr rfl
    · exact .inl rfl
  · split
    · split
      · exact .inr rfl
      · exact .inl rfl
    · exact .inl rfl

theorem wedgeDetector_tail (x : Inputs) (s : UsbPanda) : TailKept s (wedgeDetector x s) := by
  unfold wedgeDetector
  dsimp only
  split
  · split
    · exact judge_tail x _ _ s
    · exact .inl rfl
  · exact .inl rfl

/-- A tail that the parse loop can have left, which the cap does not touch. -/
def Bounded (s : UsbPanda) : Prop := s.rx.buf.length ≤ 70 ∧ capTail s = s

theorem Bounded.of_length {s : UsbPanda} (h : s.rx.buf.length ≤ 70) : Bounded s :=
  ⟨h, capTail_of_short (by omega)⟩

theorem recv_drains_bounded (lim : Limits) (s : UsbPanda) (x : Inputs) :
    Bounded (recv lim s (.drains x)) := by
  have hparse := (decode_incomplete lim x s).length_le
  have hlock := (wrongLockDetector_tail lim x.nowLk (decode lim x s).1 (decode lim x s).2).length_le
  have hrate : (atDetector lim x s).rx.buf.length ≤ _ :=
    TailKept.length_le (rateCollapseWatchdog_spares x.now (decode lim x s).1 _).tail
  have hwedge := (wedgeDetector_tail x (atDetector lim x s)).length_le
  apply Bounded.of_length
  unfold recv
  refine (TailKept.length_le (stallWatchdog_spares x.now (decode lim x s).1 _).tail).trans ?_
  show (wedgeDetector x (atDetector lim x s)).rx.buf.length ≤ 70
  omega

theorem recv_bounded (lim : Limits) {s : UsbPanda} (c : Call) (h : Bounded s) :
    Bounded (recv lim s c) := by
  cases c with
  | raises =>
    show Bounded (capTail s)
    rw [h.2]
    exact h
  | drains x => exact recv_drains_bounded lim s x

theorem always_bounded (lim : Limits) {s : UsbPanda} (h : Bounded s) (cs : List Call) :
    Run.Always (recv lim) Bounded s cs := by
  intro pre _
  exact Run.run_inv (fun _ c hs => recv_bounded lim c hs) h pre

/-- For any tail and state of the latch before the call and whatever the bulk reads deliver, the
parse loop ends and leaves at most 70 bytes, of one incomplete candidate. From there on, and from
construction, every tail of every run is as short, and the cap drops none. -/
theorem carryOver_bounded (lim : Limits) :
    (∀ (s : UsbPanda) (x : Inputs),
        parser.Ends s.rx.st (s.raw lim x)
          ((decode lim x s).1, (decode lim x s).2.rx.st, (decode lim x s).2.rx.buf) ∧
        Incomplete (decode lim x s).2.rx.buf ∧ (decode lim x s).2.rx.buf.length ≤ 70 ∧
        ∀ cs, Run.Always (recv lim) Bounded (recv lim s (.drains x)) cs) ∧
      ∀ monotonic cs, Run.Always (recv lim) Bounded (.init monotonic) cs := by
  constructor
  · intro s x
    have hleft := decode_incomplete lim x s
    refine ⟨decode_ends lim x s, hleft, hleft.length_le, ?_⟩
    intro cs
    exact always_bounded lim (recv_drains_bounded lim s x) cs
  · intro monotonic cs
    have hinit : Bounded (.init monotonic) := Bounded.of_length (Nat.zero_le 70)
    exact always_bounded lim hinit cs

end Usb
end MazdaPort
