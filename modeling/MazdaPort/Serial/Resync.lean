import Mathlib.Data.Nat.Find
import MazdaPort.Lib.Capture
import MazdaPort.Serial.CommsTick

/-!
# MazdaPort.Serial.Resync

The receive path of the serial port (`serial_uart_raw.h`): the DMA fills a ring of 4096 bytes, and
`uart_recv_byte` and `uart_rx_rewind_past` move a masked cursor through it. `exec` runs a pass of
`serial_comms_tick` over it, whatever the arrival of the bytes.

`resync`: bytes with no false header among them are consumed without an answer, and the frame behind
them is dispatched once.
-/

namespace MazdaPort
namespace Serial

open Capture

/-! ## The port -/

/-- What comes in over the line. `captured i` is how many bytes the DMA has captured when the
cursors are read for the last time in call `i` of `uart_rx_avail`, `uart_recv_byte` or
`uart_flush_rx`: a receive times out if and only if the ring is empty then. -/
structure Feed where
  stream : List UInt8
  base : Nat
  old : Nat → UInt8
  captured : Nat → Nat
  captured_mono : Monotone captured
  captured_le : ∀ i, captured i ≤ stream.length

namespace Feed

variable (F : Feed)

def uartRxWr (i : Nat) : Nat := (F.base + F.captured i) % uartRxBufSize

def uartRxBuf (i j : Nat) : UInt8 :=
  cells uartRxBufSize F.base F.old F.stream (F.captured i) j

end Feed

/-- The code has `uartRxRd`. The number of bytes of the stream before that cursor, and what it was
at each call so far, are kept beside it, and whether a call of a handler never came back. -/
structure Port where
  uartRxRd : Nat
  pos : Nat
  polls : List Nat
  sent : List UInt8
  calls : List Call
  hung : Bool

namespace Port

def poll (s : Port) : Port := { s with polls := s.polls ++ [s.pos] }

def next (s : Port) : Port :=
  { s.poll with uartRxRd := (s.uartRxRd + 1) % uartRxBufSize, pos := s.pos + 1 }

def rewindPast (mark : Nat) (s : Port) : Port :=
  let rd := (mark + 1) % uartRxBufSize
  { s with uartRxRd := rd, pos := s.pos - distance uartRxBufSize rd s.uartRxRd }

end Port

section Exec

variable (F : Feed) (H : List Call → Answer)

def uartRxAvail (s : Port) : Nat :=
  distance uartRxBufSize s.uartRxRd (F.uartRxWr s.polls.length)

/-- The handlers may answer by all they have been called with. -/
def exec : Proc → Port → Outcome × Port
  | .ret o, s => (o, s)
  | .avail k, s => exec (k (uartRxAvail F s)) s.poll
  | .flush k, s =>
    exec k
      { s.poll with
        uartRxRd := F.uartRxWr s.polls.length
        pos := F.captured s.polls.length }
  | .mark k, s => exec (k s.uartRxRd) s
  | .recvByte _ k, s =>
    if uartRxAvail F s = 0 then exec (k none) s.poll
    else exec (k (some (F.uartRxBuf s.polls.length s.uartRxRd))) s.next
  | .rewindPast mark k, s => exec k (s.rewindPast mark)
  | .send bytes k, s => exec k { s with sent := s.sent ++ bytes }
  | .call c k, s => exec (k (H (s.calls ++ [c]))) { s with calls := s.calls ++ [c] }
  | .hang, s => (.hung, { s with hung := true })

def boot : Port :=
  { uartRxRd := F.base % uartRxBufSize, pos := 0, polls := [], sent := [], calls := [], hung := false }

/-- The port after that many passes of the main loop. -/
def after : Nat → Port
  | 0 => boot F
  | k + 1 => if (after k).hung then after k else (exec F H serialCommsTick (after k)).2

/-- The DMA has not gone round the ring past the cursor at any call. -/
def Unlapped (s : Port) : Prop :=
  ∀ i p, s.polls[i]? = some p → F.captured i < p + uartRxBufSize

/-- No pass finds the ring three quarters full, and none is lapped. -/
def NeverOverrun : Prop :=
  ∀ k, F.captured (after F H k).polls.length ≤
    (after F H k).pos + uartRxBufSize * 3 / 4 ∧ Unlapped F (after F H k)

/-- A pass that finds the first of the `len` bytes from `u` on finds each of the others in time. -/
def NoGap (u len : Nat) : Prop :=
  ∀ k, (after F H k).pos = u → u < F.captured ((after F H k).polls.length + 1) →
    ∀ j < len, u + j < F.captured ((after F H k).polls.length + 1 + j)

def Arrives : Prop := ∃ i, F.captured i = F.stream.length

end Exec

/-- The seven bytes a header from `u` on would be read from. -/
def window (stream : List UInt8) (u : Nat) : List UInt8 := (stream.drop u).take serialHeaderSize

def Candidate (w : List UInt8) : Prop := w.head? = some serialSyncByte ∧ serialChecksum w = 0

instance (w : List UInt8) : Decidable (Candidate w) := by
  unfold Candidate
  infer_instance

/-! ## The ring -/

/-- The cursor stands where `pos` says, among the bytes captured. -/
structure Aligned (F : Feed) (s : Port) : Prop where
  rd : s.uartRxRd = (F.base + s.pos) % uartRxBufSize
  pos_le : s.pos ≤ F.captured s.polls.length

section Ring

variable {F : Feed} {H : List Call → Answer} {s : Port}

theorem aligned_boot : Aligned F (boot F) := ⟨rfl, Nat.zero_le _⟩

theorem Aligned.poll (h : Aligned F s) : Aligned F s.poll where
  rd := h.rd
  pos_le := by
    have hmono : F.captured s.polls.length ≤ F.captured s.poll.polls.length :=
      F.captured_mono (by simp [Port.poll])
    exact Nat.le_trans h.pos_le hmono

theorem Aligned.next (h : Aligned F s) (hlt : s.pos < F.captured s.polls.length) :
    Aligned F s.next where
  rd := by
    simp only [Port.next]
    rw [h.rd, Nat.mod_add_mod, Nat.add_assoc]
  pos_le := by
    have hmono : F.captured s.polls.length ≤ F.captured s.next.polls.length :=
      F.captured_mono (by simp [Port.next, Port.poll])
    exact Nat.le_trans hlt hmono

theorem Aligned.avail (h : Aligned F s)
    (hlap : F.captured s.polls.length < s.pos + uartRxBufSize) :
    uartRxAvail F s = F.captured s.polls.length - s.pos := by
  rw [uartRxAvail, h.rd]
  exact distance_eq h.pos_le hlap

theorem Aligned.cell (h : Aligned F s) (hlt : s.pos < F.captured s.polls.length)
    (hlap : F.captured s.polls.length < s.pos + uartRxBufSize) :
    F.stream[s.pos]? = some (F.uartRxBuf s.polls.length s.uartRxRd) := by
  rw [Feed.uartRxBuf, h.rd]
  exact cells_recent hlt hlap.le (F.captured_le _)

/-- Rewinding past a mark at most a lap back puts the cursor just behind it. -/
theorem Aligned.rewindPast {m : Nat} (h : Aligned F s) (hlt : m < s.pos)
    (hlap : s.pos ≤ m + uartRxBufSize) :
    Aligned F (s.rewindPast ((F.base + m) % uartRxBufSize)) ∧
      (s.rewindPast ((F.base + m) % uartRxBufSize)).pos = m + 1 := by
  have hrd : ((F.base + m) % uartRxBufSize + 1) % uartRxBufSize =
      (F.base + (m + 1)) % uartRxBufSize := by
    rw [Nat.mod_add_mod, Nat.add_assoc]
  have hback : distance uartRxBufSize ((F.base + (m + 1)) % uartRxBufSize) s.uartRxRd =
      s.pos - (m + 1) := by
    rw [h.rd]
    exact distance_eq hlt (by omega)
  have hpos : (s.rewindPast ((F.base + m) % uartRxBufSize)).pos = m + 1 := by
    simp only [Port.rewindPast]
    rw [hrd, hback]
    omega
  refine ⟨⟨?_, ?_⟩, hpos⟩
  · rw [hpos]
    exact hrd
  · rw [hpos]
    exact Nat.le_trans hlt h.pos_le

theorem exec_polls (p : Proc) (s : Port) : s.polls <+: (exec F H p s).2.polls := by
  have hpoll : ∀ s : Port, s.polls <+: s.poll.polls := fun s => ⟨[s.pos], rfl⟩
  induction p generalizing s with
  | ret o => exact List.prefix_refl _
  | avail k ih => exact (hpoll s).trans (ih _ s.poll)
  | flush k ih =>
    exact (hpoll s).trans (ih
      { s.poll with
        uartRxRd := F.uartRxWr s.polls.length
        pos := F.captured s.polls.length })
  | mark k ih => exact ih _ s
  | recvByte t k ih =>
    simp only [exec]
    split
    · exact (hpoll s).trans (ih _ s.poll)
    · exact (hpoll s).trans (ih _ s.next)
  | rewindPast m k ih => exact ih (s.rewindPast m)
  | send bytes k ih => exact ih { s with sent := s.sent ++ bytes }
  | call c k ih =>
    exact ih (H (s.calls ++ [c])) { s with calls := s.calls ++ [c] }
  | hang => exact List.prefix_refl _

/-- What holds of the end of a pass holds of every call on the way. -/
theorem Unlapped.at_poll {s' : Port} (h : Unlapped F s') (hp : s.poll.polls <+: s'.polls) :
    F.captured s.polls.length < s.pos + uartRxBufSize := by
  obtain ⟨rest, hrest⟩ := hp
  refine h s.polls.length s.pos ?_
  rw [← hrest]
  simp [Port.poll]

theorem recvByte_lap {t : Nat} {k : Option UInt8 → Proc}
    (h : Unlapped F (exec F H (.recvByte t k) s).2) :
    F.captured s.polls.length < s.pos + uartRxBufSize := by
  refine h.at_poll ?_
  simp only [exec]
  split
  · exact exec_polls (k none) s.poll
  · exact exec_polls (k _) s.next

end Ring

/-! ## Receiving -/

/-- `s'` is `n` bytes further on than `s`, and the device has said and done nothing in between. -/
structure Ahead (F : Feed) (s : Port) (n : Nat) (s' : Port) : Prop where
  aligned : Aligned F s'
  pos : s'.pos = s.pos + n
  sent : s'.sent = s.sent
  calls : s'.calls = s.calls
  hung : s'.hung = s.hung

section Receive

variable {F : Feed} {H : List Call → Answer} {s : Port}

theorem Ahead.trans {s' s'' : Port} {m n : Nat} (h : Ahead F s m s') (h' : Ahead F s' n s'') :
    Ahead F s (m + n) s'' where
  aligned := h'.aligned
  pos := by rw [h'.pos, h.pos, Nat.add_assoc]
  sent := h'.sent.trans h.sent
  calls := h'.calls.trans h.calls
  hung := h'.hung.trans h.hung

theorem Aligned.ahead_poll (h : Aligned F s) : Ahead F s 0 s.poll :=
  ⟨h.poll, rfl, rfl, rfl, rfl⟩

theorem Aligned.ahead_next (h : Aligned F s) (hlt : s.pos < F.captured s.polls.length) :
    Ahead F s 1 s.next :=
  ⟨h.next hlt, rfl, rfl, rfl, rfl⟩

theorem exec_recvByte {t : Nat} {k : Option UInt8 → Proc} (h : Aligned F s)
    (hlap : F.captured s.polls.length < s.pos + uartRxBufSize) :
    (F.captured s.polls.length ≤ s.pos ∧
      exec F H (.recvByte t k) s = exec F H (k none) s.poll) ∨
    ∃ b, s.pos < F.captured s.polls.length ∧ F.stream[s.pos]? = some b ∧
      exec F H (.recvByte t k) s = exec F H (k (some b)) s.next := by
  have havail := h.avail hlap
  simp only [exec]
  rcases Nat.lt_or_ge s.pos (F.captured s.polls.length) with hlt | hge
  · right
    have hne : uartRxAvail F s ≠ 0 := by omega
    exact ⟨_, hlt, h.cell hlt hlap, if_neg hne⟩
  · left
    have hzero : uartRxAvail F s = 0 := by omega
    exact ⟨hge, if_pos hzero⟩

theorem take_drop_cons {l : List UInt8} {u : Nat} {b : UInt8} (h : l[u]? = some b) (n : Nat) :
    (l.drop u).take (n + 1) = b :: (l.drop (u + 1)).take n := by
  obtain ⟨hu, rfl⟩ := List.getElem?_eq_some_iff.1 h
  rw [List.drop_eq_getElem_cons hu, List.take_succ_cons]

/-- `uart_recv_raw` takes what is there, up to the first byte that is late. -/
theorem exec_recvRaw {t : Nat} {k : Option (List UInt8) → Proc} {n : Nat} {d : List UInt8}
    (h : Aligned F s) (hlap : Unlapped F (exec F H (recvRaw t k n d) s).2) :
    (∃ j < n, F.captured (s.polls.length + j) ≤ s.pos + j ∧
      ∃ s', Ahead F s j s' ∧ exec F H (recvRaw t k n d) s = exec F H (k none) s') ∨
    ∃ s', Ahead F s n s' ∧ s'.polls.length = s.polls.length + n ∧
      exec F H (recvRaw t k n d) s =
        exec F H (k (some (d ++ (F.stream.drop s.pos).take n))) s' := by
  induction n generalizing s d with
  | zero =>
    refine .inr ⟨s, ⟨h, rfl, rfl, rfl, rfl⟩, rfl, ?_⟩
    rw [List.take_zero, List.append_nil]
    rfl
  | succ n ih =>
    simp only [recvRaw] at hlap ⊢
    rcases exec_recvByte h (recvByte_lap hlap) with ⟨hlate, heq⟩ | ⟨b, hlt, hb, heq⟩
    · exact .inl ⟨0, Nat.succ_pos n, hlate, s.poll, h.ahead_poll, heq⟩
    · rw [heq] at hlap ⊢
      have hnext := h.ahead_next hlt
      have hlen : s.next.polls.length = s.polls.length + 1 := by simp [Port.next, Port.poll]
      have hpos : s.next.pos = s.pos + 1 := rfl
      rcases ih (d := d ++ [b]) hnext.aligned hlap with
        ⟨j, hj, hlate, s', hs', heq'⟩ | ⟨s', hs', hpolls, heq'⟩
      · rw [hlen, hpos] at hlate
        refine .inl ⟨j + 1, by omega, ?_, s', ?_, heq'⟩
        · rw [show s.polls.length + (j + 1) = s.polls.length + 1 + j by omega]
          omega
        · rw [Nat.add_comm]
          exact hnext.trans hs'
      · refine .inr ⟨s', ?_, by omega, ?_⟩
        · rw [Nat.add_comm]
          exact hnext.trans hs'
        · rw [heq', take_drop_cons hb, List.append_assoc]
          rfl

/-- Behind a SYNC byte at `s`: back to the byte after it if the rest of the header is late or wrong,
and on with the header otherwise. -/
theorem header_cases {s' : Port} (h : Aligned F s) (hone : Ahead F s 1 s')
    (hb : F.stream[s.pos]? = some serialSyncByte)
    (hlap : Unlapped F (exec F H (hunt s.uartRxRd (some serialSyncByte)) s').2) :
    (¬ (serialChecksum (window F.stream s.pos) = 0 ∧
        ∀ j < serialHeaderSize - 1, s'.pos + j < F.captured (s'.polls.length + j)) ∧
      Ahead F s 1 (exec F H (hunt s.uartRxRd (some serialSyncByte)) s').2) ∨
    ∃ s'', serialChecksum (window F.stream s.pos) = 0 ∧ Ahead F s serialHeaderSize s'' ∧
      s''.polls.length = s'.polls.length + (serialHeaderSize - 1) ∧
      exec F H (hunt s.uartRxRd (some serialSyncByte)) s' =
        exec F H (checkHeader s.uartRxRd (some (window F.stream s.pos))) s'' := by
  have hback : ∀ s'' m, Ahead F s (m + 1) s'' → m < serialHeaderSize →
      Ahead F s 1 (s''.rewindPast s.uartRxRd) := by
    intro s'' m hs'' hm
    simp only [serialHeaderSize] at hm
    have hp := hs''.pos
    have hlap' : s''.pos ≤ s.pos + uartRxBufSize := by
      simp only [uartRxBufSize]
      omega
    have hrew := hs''.aligned.rewindPast (m := s.pos) (by omega) hlap'
    rw [← h.rd] at hrew
    exact ⟨hrew.1, hrew.2, hs''.sent, hs''.calls, hs''.hung⟩
  have hwindow : window F.stream s.pos =
      [serialSyncByte] ++ (F.stream.drop s'.pos).take (serialHeaderSize - 1) := by
    rw [hone.pos]
    exact take_drop_cons hb 6
  have hhunt : hunt s.uartRxRd (some serialSyncByte) =
      recvRaw serialHdrTimeoutMs (checkHeader s.uartRxRd) (serialHeaderSize - 1)
        [serialSyncByte] := by
    simp only [hunt]
    exact if_neg (not_not.2 rfl)
  rw [hhunt] at hlap ⊢
  rcases exec_recvRaw hone.aligned hlap with
    ⟨j, hj, hlate, s'', hs'', heq⟩ | ⟨s'', hs'', hpolls, heq⟩
  · refine .inl ⟨fun hgood => ?_, ?_⟩
    · exact absurd (hgood.2 j hj) (by omega)
    · rw [heq]
      refine hback s'' j ?_ (by omega)
      rw [Nat.add_comm]
      exact hone.trans hs''
  · rw [← hwindow] at heq
    by_cases hsum : serialChecksum (window F.stream s.pos) = 0
    · exact .inr ⟨s'', hsum, hone.trans hs'', hpolls, heq⟩
    · refine .inl ⟨fun hgood => hsum hgood.1, ?_⟩
      rw [heq]
      simp only [checkHeader]
      rw [if_pos hsum]
      exact hback s'' 6 (hone.trans hs'') (by decide)

/-- What one pass does: it finds nothing, steps a byte on in silence, or accepts the header at the
cursor. -/
theorem tick_cases (h : Aligned F s) (hlap : Unlapped F (exec F H serialCommsTick s).2)
    (hroom : F.captured s.polls.length ≤ s.pos + uartRxBufSize * 3 / 4) :
    (F.captured (s.polls.length + 1) ≤ s.pos ∧
      Ahead F s 0 (exec F H serialCommsTick s).2) ∨
    s.pos < F.captured (s.polls.length + 1) ∧
      ((¬ (Candidate (window F.stream s.pos) ∧
          ∀ j < serialHeaderSize, s.pos + j < F.captured (s.polls.length + 1 + j)) ∧
        Ahead F s 1 (exec F H serialCommsTick s).2) ∨
      ∃ mark s', Candidate (window F.stream s.pos) ∧ Ahead F s serialHeaderSize s' ∧
        s'.polls.length = s.polls.length + 1 + serialHeaderSize ∧
        exec F H serialCommsTick s =
          exec F H (checkHeader mark (some (window F.stream s.pos))) s') := by
  have hfirst : F.captured s.polls.length < s.pos + uartRxBufSize := by
    simp only [uartRxBufSize] at hroom ⊢
    omega
  have hquiet : ¬ uartRxAvail F s > uartRxBufSize * 3 / 4 := by
    rw [h.avail hfirst]
    omega
  have hstart : exec F H serialCommsTick s =
      exec F H (.recvByte 2 (hunt s.uartRxRd)) s.poll := by
    simp only [serialCommsTick, exec]
    rw [if_neg hquiet]
    rfl
  have hlen : s.poll.polls.length = s.polls.length + 1 := by simp [Port.poll]
  have hpos : s.poll.pos = s.pos := rfl
  rw [hstart] at hlap ⊢
  rcases exec_recvByte h.poll (recvByte_lap hlap) with ⟨hlate, heq⟩ | ⟨b, hlt, hb, heq⟩
  · rw [heq]
    rw [hlen, hpos] at hlate
    exact .inl ⟨hlate, h.ahead_poll.trans h.poll.ahead_poll⟩
  right
  rw [heq] at hlap ⊢
  rw [hpos] at hb
  refine ⟨by rwa [hlen, hpos] at hlt, ?_⟩
  have hone : Ahead F s 1 s.poll.next := by
    have htwo := h.ahead_poll.trans (h.poll.ahead_next hlt)
    rwa [Nat.zero_add] at htwo
  have hhead : (window F.stream s.pos).head? = some b := by
    rw [window, serialHeaderSize, take_drop_cons hb 6, List.head?_cons]
  have hnext : s.poll.next.polls.length = s.polls.length + 2 := by simp [Port.next, Port.poll]
  by_cases hsync : b = serialSyncByte
  · subst hsync
    rcases header_cases h hone hb hlap with ⟨hbad, hs'⟩ | ⟨s', hsum, hs', hpolls, heq'⟩
    · refine .inl ⟨fun hgood => hbad ⟨hgood.1.2, fun j hj => ?_⟩, hs'⟩
      have hin := hgood.2 (j + 1) (by omega)
      rw [hone.pos, hnext, show s.polls.length + 2 + j = s.polls.length + 1 + (j + 1) by omega]
      omega
    · rw [hnext] at hpolls
      exact .inr ⟨s.uartRxRd, s', ⟨hhead, hsum⟩, hs', hpolls, heq'⟩
  · refine .inl ⟨fun hgood => hsync ?_, ?_⟩
    · exact Option.some.inj (hhead.symm.trans hgood.1.1)
    · simp only [hunt]
      rw [if_pos hsync]
      exact hone

/-! ## A frame -/

/-- The call is made at the end of the stream, and the port stays there. -/
theorem exec_respond {endpoint : UInt8} {data : List UInt8} {misoLen : Nat} {c : Call}
    (hc : dispatch endpoint data misoLen = some c) (h : Aligned F s)
    (hend : s.pos = F.stream.length) :
    let t := (exec F H (respond endpoint data misoLen) s).2
    Aligned F t ∧ t.pos = F.stream.length ∧ t.calls = s.calls ++ [c] ∧
      t.sent = s.sent ++ reply (H (s.calls ++ [c])) := by
  have hall : F.captured s.polls.length = F.stream.length :=
    Nat.le_antisymm (F.captured_le _) (hend ▸ h.pos_le)
  simp only [respond, hc, exec]
  cases H (s.calls ++ [c]) with
  | reset =>
    refine ⟨⟨rfl, F.captured_mono ?_⟩, hall, rfl, ?_⟩
    · simp [exec, Port.poll]
    · simp [exec, reply, Port.poll]
  | hangs => exact ⟨⟨h.rd, h.pos_le⟩, hend, rfl, (List.append_nil _).symm⟩
  | answer sent resp => exact ⟨⟨h.rd, h.pos_le⟩, hend, rfl, List.append_assoc ..⟩

/-- Behind the header of a frame whose bytes come in time and end the stream. -/
theorem exec_acceptHeader {f : Frame} {c : Call} (hf : f.Fits) (hc : f.call = some c)
    (h : Aligned F s) (hbody : F.stream.drop s.pos = f.body)
    (hin : ∀ j < f.body.length, s.pos + j < F.captured (s.polls.length + j))
    (hlap : Unlapped F
      (exec F H (acceptHeader f.endpoint f.payload.length f.maxLen.toNat) s).2) :
    let t := (exec F H (acceptHeader f.endpoint f.payload.length f.maxLen.toNat) s).2
    Aligned F t ∧ t.pos = F.stream.length ∧ t.calls = s.calls ++ [c] ∧
      t.sent = s.sent ++ serialHack :: reply (H (s.calls ++ [c])) := by
  have hlen : F.stream.length = s.pos + f.body.length := by
    have hle := Nat.le_trans h.pos_le (F.captured_le _)
    rw [← hbody, List.length_drop]
    omega
  have hopen : acceptHeader f.endpoint f.payload.length f.maxLen.toNat =
      .send [serialHack]
        (if f.payload.length > 0 then
          recvRaw 25 (checkMosi f.endpoint f.payload.length (clampMiso f.maxLen.toNat))
            (f.payload.length + 1) []
        else respond f.endpoint [] (clampMiso f.maxLen.toNat)) := if_neg (Nat.not_lt.2 hf)
  rw [hopen] at hlap ⊢
  simp only [exec] at hlap ⊢
  have hs : Aligned F { s with sent := s.sent ++ [serialHack] } := ⟨h.rd, h.pos_le⟩
  by_cases hnil : f.payload = []
  · have hend : s.pos = F.stream.length := by
      rw [hlen, Frame.body, if_pos hnil]
      rfl
    have hdisp : dispatch f.endpoint [] (clampMiso f.maxLen.toNat) = some c := by
      rw [← hnil]
      exact hc
    have hfin := exec_respond (H := H) hdisp hs hend
    rw [if_neg (by simp [hnil])]
    simpa using hfin
  · have hpos : f.payload.length > 0 := List.length_pos_iff.2 hnil
    have hbl := Frame.body_length hnil
    rw [if_pos hpos] at hlap ⊢
    rcases exec_recvRaw hs hlap with ⟨j, hj, hlate, _⟩ | ⟨s', hs', hpolls, heq⟩
    · exact absurd (hin j (by omega)) (Nat.not_lt.2 hlate)
    · have hgot : [] ++ (F.stream.drop s.pos).take (f.payload.length + 1) = f.body := by
        rw [hbody, ← hbl, List.take_length, List.nil_append]
      have hend : s'.pos = F.stream.length := by
        rw [hlen, hbl]
        exact hs'.pos
      have hfin := exec_respond (H := H) hc hs'.aligned hend
      rw [hs'.calls, hs'.sent] at hfin
      rw [heq]
      dsimp only
      rw [hgot, Frame.checkMosi_body hnil]
      simpa using hfin

end Receive

/-! ## Runs -/

/-- Still among the garbage, or at its end. -/
structure Skipping (F : Feed) (g : List UInt8) (s : Port) : Prop where
  aligned : Aligned F s
  pos_le : s.pos ≤ g.length
  sent : s.sent = []
  calls : s.calls = []
  going : s.hung = false

/-- The frame at the end of the stream has been answered. -/
structure Served (F : Feed) (H : List Call → Answer) (c : Call) (s : Port) :
    Prop where
  aligned : Aligned F s
  pos : s.pos = F.stream.length
  sent : s.sent = serialHack :: reply (H [c])
  calls : s.calls = [c]

section Runs

variable {F : Feed} {H : List Call → Answer} {g : List UInt8} {f : Frame}
  {c : Call} {s : Port}

theorem window_header (hstream : F.stream = g ++ f.bytes) :
    window F.stream g.length = f.header := by
  rw [hstream, window, List.drop_left, Frame.bytes, ← f.header_length, List.take_left]

theorem drop_header (hstream : F.stream = g ++ f.bytes) :
    F.stream.drop (g.length + serialHeaderSize) = f.body := by
  rw [hstream, ← List.drop_drop, List.drop_left, Frame.bytes, ← f.header_length, List.drop_left]

theorem Skipping.tick (hs : Skipping F g s) (hstream : F.stream = g ++ f.bytes)
    (hg : ∀ u < g.length, ¬ Candidate (window F.stream u)) (hf : f.Fits) (hc : f.call = some c)
    (hlap : Unlapped F (exec F H serialCommsTick s).2)
    (hroom : F.captured s.polls.length ≤ s.pos + uartRxBufSize * 3 / 4)
    (hgap : s.pos = g.length → g.length < F.captured (s.polls.length + 1) →
      ∀ j < f.bytes.length, g.length + j < F.captured (s.polls.length + 1 + j)) :
    (Skipping F g (exec F H serialCommsTick s).2 ∧
      (F.captured (s.polls.length + 1) ≤ s.pos ∨
        (exec F H serialCommsTick s).2.pos = s.pos + 1)) ∨
    (s.pos = g.length ∧ Served F H c (exec F H serialCommsTick s).2) := by
  have hbytes : f.bytes.length = serialHeaderSize + f.body.length := List.length_append
  rcases tick_cases hs.aligned hlap hroom with ⟨hlate, ht⟩ | ⟨hlt, ⟨hbad, ht⟩ | hgood⟩
  · have hpos := ht.pos
    have hle := hs.pos_le
    exact .inl ⟨⟨ht.aligned, by omega, ht.sent.trans hs.sent, ht.calls.trans hs.calls,
      ht.hung.trans hs.going⟩, .inl hlate⟩
  · -- the header of the frame is a candidate and in time, so this is not its first byte
    have hne : s.pos ≠ g.length := by
      intro hpos
      rw [hpos] at hbad hlt
      have hin := hgap hpos hlt
      rw [window_header hstream] at hbad
      exact hbad ⟨⟨rfl, f.header_checksum⟩, fun j hj => hin j (by omega)⟩
    have hpos := ht.pos
    have hle := hs.pos_le
    exact .inl ⟨⟨ht.aligned, by omega, ht.sent.trans hs.sent, ht.calls.trans hs.calls,
      ht.hung.trans hs.going⟩, .inr hpos⟩
  · obtain ⟨mark, s', hcand, hs', hpolls, heq⟩ := hgood
    have hpos : s.pos = g.length := by
      rcases Nat.lt_or_ge s.pos g.length with hin | hge
      · exact absurd hcand (hg s.pos hin)
      · exact Nat.le_antisymm hs.pos_le hge
    have hshort : f.payload.length < 65536 := by
      have hfits : f.payload.length ≤ 2040 := hf
      omega
    rw [hpos] at hlt
    have hin := hgap hpos hlt
    have hpos' : s'.pos = g.length + serialHeaderSize := by rw [hs'.pos, hpos]
    have hopen : exec F H serialCommsTick s =
        exec F H (acceptHeader f.endpoint f.payload.length f.maxLen.toNat) s' := by
      rw [heq, hpos, window_header hstream, Frame.checkHeader_header hshort]
    rw [hopen] at hlap ⊢
    have hfin := exec_acceptHeader hf hc hs'.aligned (hpos' ▸ drop_header hstream)
      (fun j hj => by
        have hj' := hin (serialHeaderSize + j) (by omega)
        rw [hpolls, hpos', Nat.add_assoc, Nat.add_assoc _ serialHeaderSize]
        exact hj') hlap
    rw [hs'.calls, hs'.sent, hs.calls, hs.sent] at hfin
    exact .inr ⟨hpos, hfin.1, hfin.2.1, hfin.2.2.2, hfin.2.2.1⟩

theorem Served.tick (hs : Served F H c s)
    (hlap : Unlapped F (exec F H serialCommsTick s).2)
    (hroom : F.captured s.polls.length ≤ s.pos + uartRxBufSize * 3 / 4) :
    Served F H c (exec F H serialCommsTick s).2 := by
  rcases tick_cases hs.aligned hlap hroom with ⟨_, ht⟩ | ⟨hlt, _⟩
  · exact ⟨ht.aligned, ht.pos.trans hs.pos, ht.sent.trans hs.sent, ht.calls.trans hs.calls⟩
  · have hle := F.captured_le (s.polls.length + 1)
    rw [← hs.pos] at hle
    exact absurd hlt (Nat.not_lt.2 hle)

theorem after_going {k : Nat} (h : (after F H k).hung = false) :
    after F H (k + 1) = (exec F H serialCommsTick (after F H k)).2 :=
  if_neg (by simp [h])

theorem le_polls_after {k : Nat} (h : (after F H k).hung = false) :
    k ≤ (after F H k).polls.length := by
  induction k with
  | zero => exact Nat.zero_le _
  | succ k ih =>
    have hgoing : (after F H k).hung = false := by
      by_contra hhung
      rw [Bool.not_eq_false] at hhung
      have hsame : after F H (k + 1) = after F H k := if_pos hhung
      rw [hsame, hhung] at h
      cases h
    have hpoll : (after F H k).poll.polls <+: (after F H (k + 1)).polls := by
      rw [after_going hgoing]
      simp only [serialCommsTick, exec]
      exact exec_polls _ (after F H k).poll
    have hlen := hpoll.length_le
    have hk := ih hgoing
    simp only [Port.poll, List.length_append, List.length_singleton] at hlen
    omega

/-- Also a port that hangs stays as it is. -/
theorem Served.after {k : Nat} (hover : NeverOverrun F H) (h : Served F H c (after F H k)) :
    Served F H c (after F H (k + 1)) := by
  cases hhung : (MazdaPort.Serial.after F H k).hung with
  | true => rwa [show MazdaPort.Serial.after F H (k + 1) = _ from if_pos hhung]
  | false =>
    have hnext := after_going hhung
    rw [hnext]
    refine h.tick ?_ (hover k).1
    rw [← hnext]
    exact (hover (k + 1)).2

section Assumptions

variable (hstream : F.stream = g ++ f.bytes)
  (hg : ∀ u < g.length, ¬ Candidate (window F.stream u)) (hf : f.Fits) (hc : f.call = some c)
  (hover : NeverOverrun F H) (hgap : NoGap F H g.length f.bytes.length)

include hstream hg hf hc hover hgap

theorem after_succ {k : Nat} (h : Skipping F g (after F H k)) :
    (Skipping F g (after F H (k + 1)) ∧
      (F.captured ((after F H k).polls.length + 1) ≤ (after F H k).pos ∨
        (after F H (k + 1)).pos = (after F H k).pos + 1)) ∨
    ((after F H k).pos = g.length ∧ Served F H c (after F H (k + 1))) := by
  have hnext := after_going h.going
  have hlap := (hover (k + 1)).2
  rw [hnext] at hlap ⊢
  exact h.tick hstream hg hf hc hlap (hover k).1 (hgap k)

theorem skipping_or_served (k : Nat) :
    Skipping F g (after F H k) ∨ Served F H c (after F H k) := by
  induction k with
  | zero => exact .inl ⟨aligned_boot, Nat.zero_le _, rfl, rfl, rfl⟩
  | succ k ih =>
    rcases ih with hskip | hdone
    · rcases after_succ hstream hg hf hc hover hgap hskip with ⟨hskip', _⟩ | ⟨_, hdone'⟩
      · exact .inl hskip'
      · exact .inr hdone'
    · exact .inr (hdone.after hover)

/-- Once everything has arrived, each pass is a byte further on. -/
theorem served_or_advanced {i : Nat} (hi : F.captured i = F.stream.length) (k : Nat) :
    Served F H c (after F H (i + k)) ∨ k ≤ (after F H (i + k)).pos := by
  induction k with
  | zero => exact .inr (Nat.zero_le _)
  | succ k ih =>
    rcases skipping_or_served hstream hg hf hc hover hgap (i + k) with hskip | hdone
    · rcases after_succ hstream hg hf hc hover hgap hskip with ⟨_, hlate | hpos⟩ | ⟨_, hdone'⟩
      · have hpolls : i ≤ (after F H (i + k)).polls.length + 1 := by
          have hle := le_polls_after hskip.going
          omega
        have hmono := F.captured_mono hpolls
        have hle := hskip.pos_le
        rw [hi, hstream, List.length_append, Frame.bytes, List.length_append,
          f.header_length, serialHeaderSize] at hmono
        omega
      · rcases ih with hdone | hadv
        · exact .inl (hdone.after hover)
        · exact .inr (by rw [← Nat.add_assoc, hpos]; omega)
      · exact .inl hdone'
    · exact .inl (hdone.after hover)

end Assumptions

/-- Whatever the arrival of the bytes, no header is seen among those before the frame, and the
frame's call is made once, with its payload (the control handler takes the packet at its start). -/
theorem resync (hstream : F.stream = g ++ f.bytes)
    (hg : ∀ u < g.length, ¬ Candidate (window F.stream u)) (hf : f.Fits) (hc : f.call = some c)
    (hover : NeverOverrun F H) (hgap : NoGap F H g.length f.bytes.length)
    (harr : Arrives F) :
    (c.Serves f.endpoint ∧
      c.payload =
        if f.endpoint = 0 then f.payload.take sizeofControlPacket else f.payload) ∧
    ∃ n, (∀ k ≤ n, (after F H k).pos ≤ g.length ∧ (after F H k).sent = [] ∧
        (after F H k).calls = []) ∧
      (after F H n).pos = g.length ∧
      ∀ k > n, (after F H k).pos = F.stream.length ∧ (after F H k).calls = [c] ∧
        (after F H k).sent = serialHack :: reply (H [c]) := by
  refine ⟨⟨Frame.call_serves hc, Frame.call_payload hc⟩, ?_⟩
  obtain ⟨i, hi⟩ := harr
  have hphase := skipping_or_served hstream hg hf hc hover hgap
  have hsome : ∃ k, Served F H c (after F H k) := by
    refine ⟨i + (g.length + 1), ?_⟩
    rcases served_or_advanced hstream hg hf hc hover hgap hi (g.length + 1) with hdone | hadv
    · exact hdone
    · rcases hphase (i + (g.length + 1)) with hskip | hdone
      · exact absurd hskip.pos_le (by omega)
      · exact hdone
  classical
  obtain ⟨n, hn⟩ : ∃ n, Nat.find hsome = n + 1 := by
    refine Nat.exists_eq_succ_of_ne_zero fun hzero => ?_
    have hboot := (Nat.find_spec hsome).calls
    rw [hzero] at hboot
    cases hboot
  have hbefore : ∀ k ≤ n, Skipping F g (after F H k) := by
    intro k hk
    rcases hphase k with hskip | hdone
    · exact hskip
    · exact absurd hdone (Nat.find_min hsome (by omega))
  have hafter : ∀ k > n, Served F H c (after F H k) := by
    intro k hk
    induction k, hk using Nat.le_induction with
    | base =>
      have hfirst := Nat.find_spec hsome
      rwa [hn] at hfirst
    | succ k _ ih => exact ih.after hover
  refine ⟨n, fun k hk => ?_, ?_, fun k hk => ?_⟩
  · have hskip := hbefore k hk
    exact ⟨hskip.pos_le, hskip.sent, hskip.calls⟩
  · rcases after_succ hstream hg hf hc hover hgap (hbefore n (Nat.le_refl n)) with
      ⟨hskip, _⟩ | ⟨hpos, _⟩
    · have hcalls := (hafter (n + 1) (Nat.lt_succ_self n)).calls
      rw [hskip.calls] at hcalls
      cases hcalls
    · exact hpos
  · have hdone := hafter k hk
    exact ⟨hdone.pos, hdone.calls, hdone.sent⟩

/-- Everything there from the start, the first byte in cell `base`. -/
def instantFeed (base : Nat) (stream : List UInt8) : Feed where
  stream := stream
  base := base
  old := fun _ => 0
  captured := fun _ => stream.length
  captured_mono := monotone_const
  captured_le := fun _ => Nat.le_refl _

section Instant

variable {base : Nat} {stream : List UInt8}

theorem instant_neverOverrun (h : stream.length ≤ 3072) :
    NeverOverrun (instantFeed base stream) H := by
  intro k
  refine ⟨Nat.le_trans h (Nat.le_add_left _ _), fun i p _ => ?_⟩
  have hcap : (instantFeed base stream).captured i = stream.length := rfl
  rw [hcap, uartRxBufSize]
  omega

theorem instant_noGap {start len : Nat} (h : start + len ≤ stream.length) :
    NoGap (instantFeed base stream) H start len := by
  intro k _ _ j hj
  exact Nat.lt_of_lt_of_le (Nat.add_lt_add_left hj start) h

theorem instant_arrives : Arrives (instantFeed base stream) := ⟨0, rfl⟩

end Instant

def threeBytes : Frame := { endpoint := 3, payload := [1, 2, 3], maxLen := 0 }

/-- Two stray SYNC bytes at the end of the ring, and a write behind them. -/
theorem resync_threeBytes :
    ∃ n, ∀ k > n,
      (after (instantFeed 4094 ([0x5A, 0x5A] ++ threeBytes.bytes)) (fun _ => .answer [] []) k).calls =
        [.canWrite [1, 2, 3]] := by
  obtain ⟨_, n, _, _, hafter⟩ :=
    resync (F := instantFeed 4094 ([0x5A, 0x5A] ++ threeBytes.bytes)) (H := fun _ => .answer [] [])
      (g := [0x5A, 0x5A]) (f := threeBytes) (c := .canWrite [1, 2, 3]) rfl (by decide) (by decide)
      (by decide) (instant_neverOverrun (by decide)) (instant_noGap (by decide)) instant_arrives
  exact ⟨n, fun k hk => (hafter k hk).2.1⟩

/-- The microsecond timer request with a byte too many. -/
def longControl : Frame :=
  { endpoint := 0, payload := [0xA8, 0, 0, 0, 0, 0, 0, 1], maxLen := 4 }

/-- The control handler never sees the eighth byte. -/
theorem longControl_truncated :
    longControl.Fits ∧
      NeverOverrun (instantFeed 0 longControl.bytes) (fun _ => .answer [] []) ∧
      NoGap (instantFeed 0 longControl.bytes) (fun _ => .answer [] []) 0 longControl.bytes.length ∧
      Arrives (instantFeed 0 longControl.bytes) ∧
      ∀ k, (after (instantFeed 0 longControl.bytes) (fun _ => .answer [] []) k).calls.map Call.payload ≠
        [longControl.payload] := by
  have hover : NeverOverrun (instantFeed 0 longControl.bytes) (fun _ => .answer [] []) :=
    instant_neverOverrun (by decide)
  have hgap : NoGap (instantFeed 0 longControl.bytes) (fun _ => .answer [] []) 0
      longControl.bytes.length := instant_noGap (by decide)
  refine ⟨by decide, hover, hgap, instant_arrives, fun k => ?_⟩
  have hphase := skipping_or_served (F := instantFeed 0 longControl.bytes) (g := [])
    (f := longControl) (c := .control (ControlPacket.ofBytes longControl.payload)) rfl
    (fun u hu => absurd hu (Nat.not_lt_zero u)) (by decide) rfl hover hgap k
  rcases hphase with hskip | hdone
  · rw [hskip.calls]
    decide
  · rw [hdone.calls]
    decide

end Runs

end Serial
end MazdaPort
