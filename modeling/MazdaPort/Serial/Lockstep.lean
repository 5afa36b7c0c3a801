import MazdaPort.Serial.Link

/-!
# MazdaPort.Serial.Lockstep

Whether host and device stay in step. `Phase` is what holds at every moment of a transfer, in any
interleaving (`Phase.step`); it says what the host ends with and what is left on the line.

`lockstep_iff`: a session stays in step if and only if, up to the first write that hangs the device,
no control transfer asks for less than its request is answered with, and no write goes to the debug
ring. The host stops reading at `max_rx`, and the rest of a longer reply is read as the answer to the
next transfer; the characters of the debug ring go out over the link ahead of the reply.
-/

namespace MazdaPort
namespace Serial

variable {n : Nat}

/-! ## What the host makes of a reply -/

/-- The host on the bytes `bs` and nothing after them: its result, and what it leaves unread. It has
none if it would write. -/
def Host.run : Host → List UInt8 → Option (Result × List UInt8)
  | .ret r, bs => some (r, bs)
  | .write _ _, _ => none
  | .read k, [] => (k none).run []
  | .read k, b :: bs => (k (some b)).run bs

theorem readExact_run {k : Option (List UInt8) → Host} {m : Nat} {b bs : List UInt8} :
    (readExact k m b).run bs =
      if m ≤ bs.length then (k (some (b ++ bs.take m))).run (bs.drop m) else (k none).run [] := by
  induction m generalizing b bs with
  | zero => simp [readExact]
  | succ m ih =>
    cases bs with
    | nil => simp [readExact, Host.run]
    | cons x bs =>
      simp only [readExact, Host.run]
      rw [ih]
      simp

theorem readData_run {rlen : Nat} {bs : List UInt8} (h : rlen < bs.length) :
    (readData rlen).run bs =
      some ({ ret := rlen, rx := bs.take rlen, rck := bs[rlen]? }, bs.drop (rlen + 1)) := by
  have hck : ∀ rx : List UInt8, (readChecksum rlen rx).run (bs.drop rlen) =
      some ({ ret := rlen, rx := rx, rck := bs[rlen]? }, bs.drop (rlen + 1)) := by
    intro rx
    rw [List.drop_eq_getElem_cons h, List.getElem?_eq_getElem h]
    rfl
  unfold readData
  split
  · rw [readExact_run, if_pos h.le]
    exact hck (bs.take rlen)
  · obtain rfl : rlen = 0 := by omega
    simpa using hck []

/-- What the host wants ends with what there is, and it goes without a checksum. -/
theorem readData_run_last {rlen : Nat} {bs : List UInt8} (h : rlen = bs.length) (hpos : 0 < rlen) :
    (readData rlen).run bs = some ({ ret := rlen, rx := bs, rck := none }, []) := by
  unfold readData
  rw [if_pos hpos, readExact_run, if_pos h.le, h, List.take_length, List.drop_length]
  rfl

theorem readData_run_late {rlen : Nat} {bs : List UInt8} (h : bs.length < rlen) :
    (readData rlen).run bs = some (failed, []) := by
  unfold readData
  rw [if_pos (by omega), readExact_run, if_neg (by omega)]
  rfl

theorem response_eq (resp : List UInt8) :
    ∃ ck, response resp =
        serialHack :: UInt8.ofNat resp.length :: UInt8.ofNat (resp.length / 256) :: (resp ++ [ck]) ∧
      (response resp).getLast? = some ck := by
  refine ⟨_, rfl, ?_⟩
  simp only [response]
  exact List.getLast?_concat

/-- A reply is read up to `max_rx` bytes of payload and one more. -/
theorem readResponse_run {resp : List UInt8} (h : resp.length < 65536) (maxRx : Nat) :
    ∃ rck left, (readResponse maxRx).run (response resp) =
        some ({ ret := (resp.take maxRx).length, rx := resp.take maxRx, rck := rck }, left) ∧
      left.length = resp.length - maxRx ∧
      (resp.length ≤ maxRx → rck = (response resp).getLast?) := by
  have hlen := word_ofNat h
  obtain ⟨ck, heq, hlast⟩ := response_eq resp
  have hlt : min resp.length maxRx < (resp ++ [ck]).length := by
    rw [List.length_append, List.length_singleton]
    omega
  have hrun := readData_run hlt
  have htake : (resp ++ [ck]).take (min resp.length maxRx) = resp.take maxRx := by
    rw [List.take_append_of_le_length (Nat.min_le_left _ _), List.take_eq_take_min (i := maxRx),
      Nat.min_comm]
  rw [htake] at hrun
  refine ⟨(resp ++ [ck])[min resp.length maxRx]?,
    (resp ++ [ck]).drop (min resp.length maxRx + 1), ?_, ?_, fun hle => ?_⟩
  · rw [readResponse, readExact_run, heq, if_pos (by simp)]
    simp only [List.nil_append, List.take_succ_cons, List.take_zero, List.drop_succ_cons,
      List.drop_zero, checkResponse, List.getD_cons_zero, List.getD_cons_succ]
    rw [if_neg (not_not.2 rfl), hlen, hrun, List.length_take, Nat.min_comm maxRx]
  · rw [List.length_drop, List.length_append, List.length_singleton]
    omega
  · rw [hlast, Nat.min_eq_left hle]
    simp

/-- An answer that is not a reply fails the transfer, and nothing of it is left. -/
theorem readResponse_run_short {bs : List UInt8} (h : bs.length < 3) (maxRx : Nat) :
    (readResponse maxRx).run bs = some (failed, []) := by
  rw [readResponse, readExact_run, if_neg (by omega)]
  rfl

/-- The characters in front of a reply without data read as the start of one that is longer than all
that comes, so that the host gives up waiting for the rest. -/
def Swallowed (sent : List UInt8) (maxRx : Nat) : Prop :=
  let bs := sent ++ response []
  bs.getD 0 0 = serialHack ∧
    sent.length + 1 < min (word (bs.getD 1 0) (bs.getD 2 0)) maxRx

/-- A reply behind other characters leaves something unread or is taken for another one. -/
theorem readResponse_run_printed {sent : List UInt8} (h : sent ≠ []) (maxRx : Nat) :
    ∃ r left, (readResponse maxRx).run (sent ++ response []) = some (r, left) ∧
      (left = [] ∧ (0 ≤ r.ret → r.rx = []) ↔ Swallowed sent maxRx) ∧
      (Swallowed sent maxRx → r = failed) := by
  have hlen : (sent ++ response []).length = sent.length + 4 := by simp [response]
  have hpos := List.length_pos_iff.2 h
  unfold Swallowed
  generalize sent ++ response [] = bs at hlen ⊢
  obtain ⟨b0, b1, b2, rest, rfl⟩ : ∃ b0 b1 b2 rest, bs = b0 :: b1 :: b2 :: rest := by
    match bs, hlen with
    | b0 :: b1 :: b2 :: rest, _ => exact ⟨b0, b1, b2, rest, rfl⟩
  have hrest : rest.length = sent.length + 1 := by simpa using hlen
  have hrun : (readResponse maxRx).run (b0 :: b1 :: b2 :: rest) =
      if b0 ≠ serialHack then some (failed, rest)
      else (readData (min (word b1 b2) maxRx)).run rest := by
    rw [readResponse, readExact_run, if_pos (by simp)]
    simp only [List.nil_append, List.take_succ_cons, List.take_zero, List.drop_succ_cons,
      List.drop_zero, checkResponse, List.getD_cons_zero, List.getD_cons_succ]
    split <;> rfl
  simp only [List.getD_cons_zero, List.getD_cons_succ]
  generalize min (word b1 b2) maxRx = rlen at hrun ⊢
  rw [hrun, ← hrest]
  by_cases hack : b0 = serialHack
  · rw [if_neg (not_not.2 hack)]
    simp only [hack, true_and]
    rcases Nat.lt_trichotomy rlen rest.length with hlt | heq | hgt
    · refine ⟨_, _, readData_run hlt, iff_of_false ?_ (by omega), fun hlate => absurd hlate (by omega)⟩
      rintro ⟨hleft, hrx⟩
      have hdrop : rest.length ≤ rlen + 1 := List.drop_eq_nil_iff.1 hleft
      have htake := hrx (Int.natCast_nonneg rlen)
      rcases List.take_eq_nil_iff.1 htake with hzero | hnil
      · omega
      · rw [hnil] at hrest
        cases hrest
    · refine ⟨_, _, readData_run_last heq (by omega), iff_of_false ?_ (by omega),
        fun hlate => absurd hlate (by omega)⟩
      rintro ⟨_, hrx⟩
      have hnil := hrx (Int.natCast_nonneg rlen)
      dsimp only at hnil
      rw [hnil] at hrest
      cases hrest
    · exact ⟨_, _, readData_run_late hgt, iff_of_true ⟨rfl, fun hret => absurd hret (by decide)⟩ hgt,
        fun _ => rfl⟩
  · rw [if_pos hack]
    refine ⟨_, _, rfl, iff_of_false ?_ fun hs => hack hs.1, fun hs => absurd hs.1 hack⟩
    rintro ⟨hnil, _⟩
    rw [hnil] at hrest
    cases hrest

/-- The frame writes characters to a ring of `uart.h`. -/
def Frame.Writes (f : Frame) (number : UInt8) : Prop :=
  f.endpoint = 2 ∧ f.Fits ∧ 2 ≤ f.payload.length ∧ f.payload.head? = some number

instance (f : Frame) (number : UInt8) : Decidable (f.Writes number) := by
  unfold Frame.Writes
  infer_instance

theorem Frame.Writes.call {f : Frame} {number : UInt8} (h : f.Writes number) :
    f.call = some (.endpoint2Write f.payload) := by
  obtain ⟨h2, -, -, -⟩ := h
  simp [Frame.call, dispatch, h2]

namespace Transfer

/-- What the device sends for the frame once it has read all of it. -/
def response (t : Transfer n) : List UInt8 :=
  match t.frame.call with
  | none => [serialNack]
  | some call => reply (t.answer call)

/-- The condition on a control transfer: `max_rx` is at least the size of what its request is
answered with. -/
def AsksEnough (t : Transfer n) : Prop :=
  t.frame.endpoint = 0 → sizeofControlPacket ≤ t.frame.payload.length → t.frame.Fits →
    controlReplySize t.device (ControlPacket.ofBytes t.frame.payload) ≤ t.frame.maxLen.toNat

/-- The condition on any transfer. -/
def InStep (t : Transfer n) : Prop :=
  t.AsksEnough ∧ (t.frame.Writes 0 →
    Swallowed (t.device.printed t.frame.payload) t.frame.maxLen.toNat)

/-- A write to the ring of the missing port: the device hangs. -/
def Hangs (t : Transfer n) : Prop := t.frame.Writes 4

instance (t : Transfer n) : Decidable t.Hangs := by
  unfold Hangs
  infer_instance

theorem Hangs.inStep {t : Transfer n} (h : t.Hangs) : t.InStep := by
  obtain ⟨h2, -, -, hhead⟩ := h
  refine ⟨fun h0 => ?_, fun hdebug => ?_⟩
  · rw [h2] at h0
    cases h0
  · obtain ⟨-, -, -, hzero⟩ := hdebug
    rw [hhead] at hzero
    cases hzero

def ending (t : Transfer n) : Option (Result × List UInt8) :=
  if t.frame.Fits then (readResponse t.frame.maxLen.toNat).run t.response else some (failed, [])

/-- How a handler can end. Only a control handler can answer with more than the host has asked
for, and only the write to a ring prints or hangs. -/
inductive Handled (t : Transfer n) : Answer → Prop where
  | reset (quiet : ∀ number, ¬ t.frame.Writes number) (asks : t.AsksEnough) : Handled t .reset
  | hangs (som : t.Hangs) : Handled t .hangs
  | prints (debug : t.frame.Writes 0) (ne : t.device.printed t.frame.payload ≠ []) :
      Handled t (.answer (t.device.printed t.frame.payload) [])
  | replies {resp : List UInt8} (quiet : ¬ t.frame.Writes 0 ∧ ¬ t.Hangs)
      (short : resp.length < 65536)
      (asks : resp.length ≤ t.frame.maxLen.toNat ↔ t.AsksEnough) : Handled t (.answer [] resp)

variable {t : Transfer n} {call : Call}

theorem handled (hfits : t.frame.Fits) (hcall : t.frame.call = some call) :
    Handled t (t.answer call) := by
  have hother : t.frame.endpoint ≠ 0 → t.AsksEnough := fun hne h0 _ _ => absurd h0 hne
  have hquiet : t.frame.endpoint ≠ 2 → ∀ number, ¬ t.frame.Writes number :=
    fun hne number h => hne h.1
  have hserves := Frame.call_serves hcall
  cases call with
  | control req =>
    obtain ⟨h0, hlen, rfl⟩ := Frame.call_control hcall
    have hne : t.frame.endpoint ≠ 2 := by
      rw [h0]
      decide
    simp only [answer, Device.answer]
    cases h : commsControlHandler t.device (ControlPacket.ofBytes t.frame.payload) with
    | none =>
      refine .reset (hquiet hne) fun _ _ _ => ?_
      rw [controlReplySize_of_reset _ _ h]
      exact Nat.zero_le _
    | some resp =>
      have hsize := commsControlHandler_length t.device _ h
      have hle := controlReplySize_le t.device (ControlPacket.ofBytes t.frame.payload)
      simp only [usbpacketMaxSize] at hle
      refine .replies ⟨hquiet hne 0, hquiet hne 4⟩ (by omega) ⟨fun hfit _ _ _ => ?_, fun hask => ?_⟩
      · rwa [hsize] at hfit
      · rw [hsize]
        exact hask h0 hlen hfits
  | canRead maxLen =>
    have hne : t.frame.endpoint ≠ 0 ∧ t.frame.endpoint ≠ 2 := by
      rcases hserves with h1 | h1 <;> rw [h1] <;> decide
    have hle := Usb.Comms.commsCanRead_length_le maxLen t.device.arrivals t.device.canRead
    have hmax : maxLen ≤ t.frame.maxLen.toNat := by
      rw [Frame.call_canRead hcall]
      exact Nat.min_le_left _ _
    have hmiso := t.frame.maxLen.toNat_lt
    exact .replies ⟨hquiet hne.2 0, hquiet hne.2 4⟩ (by omega)
      ⟨fun _ => hother hne.1, fun _ => by omega⟩
  | endpoint2Write data =>
    have h2 : t.frame.endpoint = 2 := hserves
    have hdata : data = t.frame.payload := by
      have hpay := Frame.call_payload hcall
      rw [h2] at hpay
      exact hpay
    subst hdata
    simp only [answer, Device.answer]
    by_cases hdebug : t.frame.Writes 0
    · obtain ⟨hprint, hne⟩ := endpoint2_debug t.device hdebug.2.2.1 hdebug.2.2.2
      rw [hprint]
      exact .prints hdebug hne
    · by_cases hsom : t.Hangs
      · rw [endpoint2_som t.device hsom.2.2.1 hsom.2.2.2]
        exact .hangs hsom
      · have hplain : commsEndpoint2Write t.device t.frame.payload = .answer [] [] :=
          endpoint2_quiet t.device fun hlen =>
            ⟨fun h => hdebug ⟨h2, hfits, hlen, h⟩, fun h => hsom ⟨h2, hfits, hlen, h⟩⟩
        rw [hplain]
        refine .replies ⟨hdebug, hsom⟩ (by decide) ⟨fun _ => hother ?_, fun _ => Nat.zero_le _⟩
        rw [h2]
        decide
  | canWrite data =>
    have hne : t.frame.endpoint ≠ 0 ∧ t.frame.endpoint ≠ 2 := by
      rw [show t.frame.endpoint = 3 from hserves]
      decide
    exact .replies ⟨hquiet hne.2 0, hquiet hne.2 4⟩ (by decide)
      ⟨fun _ => hother hne.1, fun _ => Nat.zero_le _⟩

theorem answers_failed : t.Answers failed := by
  intro hnonneg
  exact absurd hnonneg (by decide)

theorem ending_of_call (hfits : t.frame.Fits) (hcall : t.frame.call = some call) :
    t.ending = (readResponse t.frame.maxLen.toNat).run (reply (t.answer call)) := by
  rw [ending, if_pos hfits, response, hcall]

/-- Without a call there is a single byte to answer. -/
theorem ending_of_no_call (h : t.frame.Fits → t.frame.call = none) : t.ending = some (failed, []) := by
  unfold ending
  split
  · next hfits =>
    rw [response, h hfits]
    exact readResponse_run_short (by simp) _
  · rfl

/-- Every transfer comes to an end; it leaves nothing behind and returns what is right if and only
if it is in step. -/
theorem ending_spec (t : Transfer n) :
    ∃ r left, t.ending = some (r, left) ∧ (left = [] ∧ t.Answers r ↔ t.InStep) := by
  by_cases hcalled : t.frame.Fits ∧ ∃ call, t.frame.call = some call
  · obtain ⟨hfits, call, hcall⟩ := hcalled
    have hans : ∀ {r : Result} {sent resp : List UInt8}, t.answer call = .answer sent resp →
        t.Answers r → 0 ≤ r.ret → r.rx = resp.take t.frame.maxLen.toNat := by
      intro r sent resp h hr hret
      obtain ⟨call', sent', resp', hcall', h', hrx, -⟩ := hr hret
      rw [hcall] at hcall'
      cases hcall'
      rw [h] at h'
      cases h'
      exact hrx
    have hhandled := handled hfits hcall
    rw [ending_of_call hfits hcall]
    generalize hgen : t.answer call = a at hhandled hans ⊢
    cases hhandled with
    | reset quiet asks =>
      exact ⟨failed, [], readResponse_run_short (by simp [reply]) _,
        iff_of_true ⟨rfl, answers_failed⟩ ⟨asks, fun h => absurd h (quiet 0)⟩⟩
    | hangs som =>
      exact ⟨failed, [], readResponse_run_short (by simp [reply]) _,
        iff_of_true ⟨rfl, answers_failed⟩ som.inStep⟩
    | prints debug ne =>
      obtain ⟨r, left, hrun, hiff, hfailed⟩ := readResponse_run_printed ne t.frame.maxLen.toNat
      have hasks : t.AsksEnough := by
        intro h0
        rw [debug.1] at h0
        cases h0
      refine ⟨r, left, hrun, ⟨fun ⟨hleft, hr⟩ => ⟨hasks, fun _ => ?_⟩, fun hstep => ?_⟩⟩
      · exact hiff.1 ⟨hleft, fun hret => (hans rfl hr hret).trans List.take_nil⟩
      · have hsw := hstep.2 debug
        rw [hfailed hsw]
        exact ⟨(hiff.2 hsw).1, answers_failed⟩
    | @replies resp quiet short asks =>
      obtain ⟨rck, left, hrun, hleft, hrck⟩ := readResponse_run short t.frame.maxLen.toNat
      have hnil : left = [] ↔ resp.length ≤ t.frame.maxLen.toNat := by
        rw [← List.length_eq_zero_iff]
        omega
      refine ⟨_, left, hrun, ⟨fun h => ⟨asks.1 (hnil.1 h.1), fun h0 => absurd h0 quiet.1⟩, fun h => ?_⟩⟩
      have hl := asks.2 h.1
      exact ⟨hnil.2 hl, fun _ => ⟨call, [], resp, hcall, hgen, rfl, rfl, hrck hl⟩⟩
  · have hnone : t.frame.Fits → t.frame.call = none := by
      intro hfits
      cases hcall : t.frame.call with
      | none => rfl
      | some call => exact absurd ⟨hfits, call, hcall⟩ hcalled
    refine ⟨failed, [], ending_of_no_call hnone, iff_of_true ⟨rfl, answers_failed⟩ ⟨?_, ?_⟩⟩
    · intro h0 hlen hfits
      have hcall := Frame.call_of_control h0 hlen
      rw [hnone hfits] at hcall
      cases hcall
    · intro hdebug
      have hcall := hdebug.call
      rw [hnone hdebug.2.1] at hcall
      cases hcall

end Transfer

/-! ## The device by itself -/

/-- `n + 1` bytes are still to come behind those in `d`. -/
def receiving (t : Nat) (k : Option (List UInt8) → Proc) (m : Nat) (d : List UInt8) : Dev :=
  .recv t fun
    | none => k none
    | some b => recvRaw t k m (d ++ [b])

def receivingBody (t : Transfer n) (m : Nat) (d : List UInt8) : Dev :=
  receiving 25
    (checkMosi t.frame.endpoint t.frame.payload.length (clampMiso t.frame.maxLen.toNat)) m d

namespace Link

def Hunting (c : Link) : Prop := c.dev = .idle ∨ ∃ mark, c.dev = .recv 2 (hunt mark)

/-- The device is done with the transfer. -/
def Rests (t : Transfer n) (c : Link) : Prop := if t.Hangs then c.dev = .hung else c.Hunting

/-- The device has yet to read `bs` of what the host has written. -/
def Unread (c : Link) (bs : List UInt8) : Prop :=
  ∃ seen, c.line = seen ++ bs ∧ c.pos = seen.length

variable {c : Link} {bs : List UInt8}

theorem Unread.get (h : c.Unread bs) : c.line[c.pos]? = bs.head? := by
  obtain ⟨seen, hline, hpos⟩ := h
  rw [hline, hpos, List.getElem?_append_right (Nat.le_refl _), Nat.sub_self,
    List.head?_eq_getElem?]

theorem Unread.length (h : c.Unread bs) : c.line.length = c.pos + bs.length := by
  obtain ⟨seen, hline, hpos⟩ := h
  rw [hline, hpos, List.length_append]

theorem Hunting.not_hung (h : c.Hunting) : c.dev ≠ .hung := by
  intro hhung
  rcases h with hidle | ⟨mark, hrecv⟩
  · rw [hidle] at hhung
    cases hhung
  · rw [hrecv] at hhung
    cases hhung

theorem Unread.eq_nil (h : c.Unread bs) (hlate : c.line.length ≤ c.pos) : bs = [] := by
  have hlen := h.length
  exact List.eq_nil_of_length_eq_zero (by omega)

end Link

section Settle

variable {answer : Call → Answer} {line : List UInt8} {pos : Nat}

theorem settle_tick (h : line.length - pos ≤ 3072) :
    settle answer line serialCommsTick pos = (.recv 2 (hunt pos), pos, []) := by
  simp only [serialCommsTick, settle]
  rw [if_neg (by simp only [uartRxBufSize]; omega)]
  rfl

theorem settle_respond {t : Transfer n} (hfits : t.frame.Fits) (hend : line.length = pos) :
    settle t.answer line
        (respond t.frame.endpoint t.frame.payload (clampMiso t.frame.maxLen.toNat)) pos =
      (if t.Hangs then .hung else .idle, pos, t.response) := by
  have hquiet : t.frame.call = none → ¬ t.Hangs := by
    intro hcall hhangs
    rw [hhangs.call] at hcall
    cases hcall
  simp only [respond, Transfer.response]
  change settle t.answer line (match t.frame.call with | none => _ | some _ => _) pos = _
  cases hcall : t.frame.call with
  | none =>
    rw [if_neg (hquiet hcall)]
    rfl
  | some call =>
    have hhandled := Transfer.handled hfits hcall
    simp only [settle]
    generalize t.answer call = a at hhandled ⊢
    cases hhandled with
    | reset quiet _ =>
      have hgoes : ¬ t.Hangs := quiet 4
      rw [if_neg hgoes]
      simp [settle, reply, hend]
    | hangs som =>
      rw [if_pos som]
      rfl
    | prints debug _ =>
      have hgoes : ¬ t.Hangs := fun h => absurd (h.2.2.2.symm.trans debug.2.2.2) (by decide)
      rw [if_neg hgoes]
      simp [settle, reply]
    | replies quiet _ _ =>
      rw [if_neg quiet.2]
      simp [settle, reply]

/-- The three ways on from the header. -/
theorem settle_checkHeader {t : Transfer n} {m : Nat} (hend : line.length = pos) :
    settle t.answer line (checkHeader m (some t.frame.header)) pos =
      if t.frame.Fits then
        if t.frame.payload = [] then (.idle, pos, serialHack :: t.response)
        else
          (receivingBody t t.frame.payload.length [], pos, [serialHack])
      else (.idle, pos, [serialNack]) := by
  rw [Frame.checkHeader_header t.short, acceptHeader]
  by_cases hfits : t.frame.Fits
  · rw [if_neg (Nat.not_lt.2 hfits), if_pos hfits]
    by_cases hnil : t.frame.payload = []
    · have hrespond := settle_respond (t := t) hfits hend
      have hgoes : ¬ t.Hangs := by
        rintro ⟨-, -, hlen, -⟩
        rw [hnil] at hlen
        cases hlen
      rw [hnil, if_neg hgoes] at hrespond
      rw [if_pos hnil, if_neg (by simp [hnil])]
      simp only [settle]
      rw [hrespond]
      rfl
    · have hpos : t.frame.payload.length > 0 := List.length_pos_iff.2 hnil
      rw [if_neg hnil, if_pos hpos]
      rfl
  · rw [if_pos (Nat.not_le.1 hfits), if_neg hfits]
    rfl

theorem settle_checkMosi {t : Transfer n} (hfits : t.frame.Fits) (hne : t.frame.payload ≠ [])
    (hend : line.length = pos) :
    settle t.answer line
        (checkMosi t.frame.endpoint t.frame.payload.length (clampMiso t.frame.maxLen.toNat)
          (some t.frame.body)) pos =
      (if t.Hangs then .hung else .idle, pos, t.response) := by
  rw [Frame.checkMosi_body hne]
  exact settle_respond hfits hend

end Settle

/-! ## A transfer at any moment -/

/-- What the host has yet to write of a payload with its checksum. -/
inductive Sends (f : Frame) : Host → List UInt8 → Prop where
  | data : Sends f
      (.write f.payload (.write [serialChecksum f.payload] (readResponse f.maxLen.toNat))) f.body
  | checksum :
      Sends f (.write [serialChecksum f.payload] (readResponse f.maxLen.toNat))
        [serialChecksum f.payload]
  | done : Sends f (readResponse f.maxLen.toNat) []

/-- The device has read the header of a frame with a payload, and the host has not seen the
acknowledgement. -/
structure Acked (t : Transfer n) (c : Link) : Prop where
  fits : t.frame.Fits
  pay : t.frame.payload ≠ []
  host : c.host = readAck t.frame
  dev : c.dev = receivingBody t t.frame.payload.length []
  line : c.Unread []
  hack : c.up ++ c.out = [serialHack]

/-- Where a transfer is: the header written, on its way into the device, acknowledged; the payload
on its way; and at last the answer, of which `ending` is what the host makes. -/
inductive Phase (t : Transfer n) (c : Link) : Prop where
  | begun (host : c.host = transfer t.frame) (dev : c.Hunting) (line : c.Unread [])
      (out : c.out = []) (up : c.up = [])
  | sent (host : c.host = readAck t.frame) (dev : c.Hunting) (line : c.Unread t.frame.header)
      (out : c.out = []) (up : c.up = [])
  | header {m : Nat} {d : List UInt8} {b : UInt8} {r : List UInt8}
      (host : c.host = readAck t.frame)
      (dev : c.dev = receiving serialHdrTimeoutMs (checkHeader m) r.length d)
      (split : d ++ b :: r = t.frame.header) (line : c.Unread (b :: r))
      (out : c.out = []) (up : c.up = [])
  | acked (h : Acked t c)
  | body {d : List UInt8} {b : UInt8} {r u l : List UInt8} (fits : t.frame.Fits)
      (pay : t.frame.payload ≠ []) (host : Sends t.frame c.host l)
      (dev : c.dev = receivingBody t r.length d) (split : d ++ b :: r = t.frame.body)
      (line : c.Unread u) (later : u ++ l = b :: r) (out : c.out = []) (up : c.up = [])
  | reply {e : Result × List UInt8} (dev : c.Rests t) (line : c.Unread [])
      (host : c.host.run (c.up ++ c.out) = some e) (ending : t.ending = some e)

section Steps

variable {t : Transfer n} {c c' : Link} {bs : List UInt8}

theorem Link.Unread.write (h : c.Unread bs) (bytes : List UInt8) (k : Host) :
    Link.Unread { c with host := k, line := c.line ++ bytes } (bs ++ bytes) := by
  obtain ⟨seen, hline, hpos⟩ := h
  exact ⟨seen, by rw [hline, List.append_assoc], hpos⟩

theorem Link.Unread.next {b : UInt8} (h : c.Unread (b :: bs)) (hline : c'.line = c.line)
    (hpos : c'.pos = c.pos + 1) : c'.Unread bs := by
  obtain ⟨seen, hsplit, hseen⟩ := h
  refine ⟨seen ++ [b], ?_, ?_⟩
  · rw [hline, hsplit, List.append_assoc]
    rfl
  · rw [hpos, hseen, List.length_append]
    rfl

theorem goOn_tick {answer : Call → Answer} (h : c.Unread bs)
    (hlen : bs.length ≤ 3072) :
    c.goOn answer serialCommsTick c.pos = { c with dev := .recv 2 (hunt c.pos), out := [] } := by
  have hle := h.length
  simp only [Link.goOn]
  rw [settle_tick (by omega)]

theorem Link.Hunting.timeout {answer : Call → Answer} (h : c.Hunting) {ms : Nat}
    {k : Option UInt8 → Proc} (hdev : c.dev = .recv ms k) :
    c.goOn answer (k none) c.pos = { c with dev := .idle, out := [] } := by
  rcases h with hidle | ⟨mark, hrecv⟩
  · rw [hidle] at hdev
    cases hdev
  · rw [hrecv] at hdev
    cases hdev
    rfl

theorem begun_step (host : c.host = transfer t.frame) (dev : c.Hunting) (line : c.Unread [])
    (out : c.out = []) (up : c.up = []) (hs : Step t.answer c c') : Phase t c' := by
  cases hs with
  | write h =>
    rw [host] at h
    cases h
    exact .sent rfl dev (line.write _ _) out up
  | read h _ =>
    rw [host] at h
    cases h
  | readTimeout h _ _ _ =>
    rw [host] at h
    cases h
  | tick _ _ =>
    rw [goOn_tick line (by simp)]
    exact .begun host (.inr ⟨_, rfl⟩) line rfl up
  | recv _ _ hget =>
    rw [line.get] at hget
    cases hget
  | huntTimeout hdev _ _ =>
    rw [dev.timeout hdev]
    exact .begun host (.inl rfl) line rfl up
  | recvTimeout hdev _ _ _ =>
    rw [dev.timeout hdev]
    exact .begun host (.inl rfl) line rfl up
  | emit h =>
    rw [out] at h
    cases h

/-- The SYNC byte. -/
theorem sent_recv {mark : Nat} {b : UInt8} (host : c.host = readAck t.frame)
    (line : c.Unread t.frame.header) (up : c.up = []) (hb : c.line[c.pos]? = some b) :
    Phase t (c.goOn t.answer (hunt mark (some b)) (c.pos + 1)) := by
  rw [line.get] at hb
  obtain rfl : serialSyncByte = b := Option.some.inj hb
  exact .header (d := [serialSyncByte]) (r := t.frame.header.drop 2) host rfl rfl
    (line.next rfl rfl) rfl up

theorem sent_step (host : c.host = readAck t.frame) (dev : c.Hunting)
    (line : c.Unread t.frame.header) (out : c.out = []) (up : c.up = [])
    (hs : Step t.answer c c') : Phase t c' := by
  cases hs with
  | write h =>
    rw [host] at h
    cases h
  | read _ h =>
    rw [up] at h
    cases h
  | readTimeout _ _ _ hlate => cases line.eq_nil (hlate.resolve_right dev.not_hung)
  | tick _ _ =>
    rw [goOn_tick line (by simp [Frame.header_length, serialHeaderSize])]
    exact .sent host (.inr ⟨_, rfl⟩) line rfl up
  | recv hdev _ hget =>
    rcases dev with hidle | ⟨mark, hrecv⟩
    · rw [hidle] at hdev
      cases hdev
    · rw [hrecv] at hdev
      cases hdev
      exact sent_recv host line up hget
  | huntTimeout _ _ hlate => cases line.eq_nil hlate
  | recvTimeout _ _ hlate _ => cases line.eq_nil hlate
  | emit h =>
    rw [out] at h
    cases h

theorem writeData_of_ne {f : Frame} (h : f.payload ≠ []) :
    writeData f =
      .write f.payload (.write [serialChecksum f.payload] (readResponse f.maxLen.toNat)) :=
  if_pos (List.length_pos_iff.2 h)

theorem writeData_of_nil {f : Frame} (h : f.payload = []) :
    writeData f = readResponse f.maxLen.toNat :=
  if_neg (by simp [h])

theorem readAck_run (f : Frame) (rest : List UInt8) :
    (readAck f).run (serialHack :: rest) = (writeData f).run rest := by
  simp only [readAck, Host.run]
  rw [if_neg (not_not.2 rfl)]

theorem exists_ending (t : Transfer n) : ∃ e, t.ending = some e := by
  obtain ⟨r, left, hend, _⟩ := t.ending_spec
  exact ⟨_, hend⟩

/-- The device has read the whole frame and answers. -/
structure Answering (t : Transfer n) (c : Link) : Prop where
  dev : c.dev = if t.Hangs then .hung else .idle
  line : c.Unread []
  host : c.host.run (c.up ++ c.out) = t.ending

theorem Answering.phase (h : Answering t c) : Phase t c := by
  obtain ⟨e, he⟩ := exists_ending t
  have hrests : c.Rests t := by
    have hdev := h.dev
    unfold Link.Rests
    split at hdev
    · next hhangs => rwa [if_pos hhangs]
    · next hgoes =>
      rw [if_neg hgoes]
      exact .inl hdev
  exact .reply hrests h.line (h.host.trans he) he

theorem header_last {m : Nat} {d : List UInt8} {b : UInt8} (host : c.host = readAck t.frame)
    (split : d ++ [b] = t.frame.header) (line : c.Unread [b]) (up : c.up = []) :
    Answering t (c.goOn t.answer (checkHeader m (some (d ++ [b]))) (c.pos + 1)) ∨
      Acked t (c.goOn t.answer (checkHeader m (some (d ++ [b]))) (c.pos + 1)) := by
  have hend : c.line.length = c.pos + 1 := line.length
  have hsettle := settle_checkHeader (t := t) (m := m) hend
  rw [← split] at hsettle
  simp only [Link.goOn]
  rw [hsettle]
  by_cases hfits : t.frame.Fits
  · have hending : t.ending = (readResponse t.frame.maxLen.toNat).run t.response :=
      if_pos hfits
    rw [if_pos hfits]
    by_cases hnil : t.frame.payload = []
    · have hgoes : ¬ t.Hangs := by
        rintro ⟨-, -, hlen, -⟩
        rw [hnil] at hlen
        cases hlen
      rw [if_pos hnil]
      refine .inl ⟨(if_neg hgoes).symm, line.next rfl rfl, ?_⟩
      dsimp only
      rw [host, up, List.nil_append, readAck_run, writeData_of_nil hnil, hending]
    · rw [if_neg hnil]
      refine .inr ⟨hfits, hnil, host, rfl, line.next rfl rfl, ?_⟩
      dsimp only
      rw [up]
      rfl
  · have hgoes : ¬ t.Hangs := fun hhangs => hfits hhangs.2.1
    rw [if_neg hfits]
    refine .inl ⟨(if_neg hgoes).symm, line.next rfl rfl, ?_⟩
    dsimp only
    rw [host, up, Transfer.ending, if_neg hfits]
    rfl

/-- A byte of the header behind the first. -/
theorem header_recv {mark : Nat} {d rest : List UInt8} {b : UInt8}
    (host : c.host = readAck t.frame) (split : d ++ b :: rest = t.frame.header)
    (line : c.Unread (b :: rest)) (up : c.up = []) :
    Phase t (c.goOn t.answer
      (recvRaw serialHdrTimeoutMs (checkHeader mark) rest.length (d ++ [b])) (c.pos + 1)) := by
  cases rest with
  | cons x rest =>
    refine .header host rfl ?_ (line.next rfl rfl) rfl up
    rw [List.append_assoc]
    exact split
  | nil =>
    rcases header_last (m := mark) host split line up with hans | hack
    · exact hans.phase
    · exact .acked hack

theorem header_step {mark : Nat} {d rest : List UInt8} {b : UInt8}
    (host : c.host = readAck t.frame)
    (dev : c.dev = receiving serialHdrTimeoutMs (checkHeader mark) rest.length d)
    (split : d ++ b :: rest = t.frame.header) (line : c.Unread (b :: rest))
    (out : c.out = []) (up : c.up = []) (hs : Step t.answer c c') : Phase t c' := by
  cases hs with
  | write h =>
    rw [host] at h
    cases h
  | read _ h =>
    rw [up] at h
    cases h
  | readTimeout _ _ _ hlate =>
    rw [dev] at hlate
    cases line.eq_nil (hlate.resolve_right (by simp [receiving]))
  | tick hdev _ =>
    rw [dev] at hdev
    cases hdev
  | recv hdev _ hget =>
    rw [dev] at hdev
    cases hdev
    rw [line.get] at hget
    cases hget
    exact header_recv host split line up
  | huntTimeout _ _ hlate => cases line.eq_nil hlate
  | recvTimeout _ _ hlate _ => cases line.eq_nil hlate
  | emit h =>
    rw [out] at h
    cases h

/-- The host reads the acknowledgement and turns to the payload. -/
theorem Acked.read (h : Acked t c) {b : UInt8} {rest : List UInt8} (hup : c.up = b :: rest) :
    b = serialHack ∧ rest = [] ∧ c.out = [] := by
  have hack := h.hack
  rw [hup] at hack
  obtain ⟨hb, hrest⟩ := List.cons.inj hack
  exact ⟨hb, List.append_eq_nil_iff.1 hrest⟩

theorem body_cons {f : Frame} (h : f.payload ≠ []) :
    ∃ x rest, f.body = x :: rest ∧ rest.length = f.payload.length := by
  obtain ⟨x, rest, hcons⟩ := List.exists_cons_of_ne_nil h
  refine ⟨x, rest ++ [serialChecksum f.payload], ?_, ?_⟩
  · rw [Frame.body, if_neg h]
    generalize serialChecksum f.payload = ck
    rw [hcons]
    rfl
  · rw [hcons]
    simp

theorem acked_step (h : Acked t c) (hs : Step t.answer c c') : Phase t c' := by
  cases hs with
  | write hwr =>
    rw [h.host] at hwr
    cases hwr
  | read hrd hup =>
    obtain ⟨rfl, rfl, hout⟩ := h.read hup
    rw [h.host] at hrd
    cases hrd
    obtain ⟨x, rest, hbody, hlen⟩ := body_cons h.pay
    refine .body (d := []) (b := x) (r := rest) (l := t.frame.body) h.fits h.pay ?_ ?_
      hbody.symm h.line hbody hout rfl
    · dsimp only
      rw [if_neg (not_not.2 rfl), writeData_of_ne h.pay]
      exact .data
    · rw [hlen]
      exact h.dev
  | readTimeout _ hup hout _ =>
    have hack := h.hack
    rw [hup, hout] at hack
    cases hack
  | tick hdev _ =>
    rw [h.dev] at hdev
    cases hdev
  | recv _ _ hget =>
    rw [h.line.get] at hget
    cases hget
  | huntTimeout hdev _ _ =>
    rw [h.dev] at hdev
    cases hdev
  | recvTimeout _ hout _ hwait =>
    have hack := h.hack
    have hup : c.up = [] := by
      rw [Link.Waits, h.host] at hwait
      exact hwait
    rw [hup, hout] at hack
    cases hack
  | emit hout =>
    refine .acked ⟨h.fits, h.pay, h.host, h.dev, h.line, ?_⟩
    have hack := h.hack
    rw [hout] at hack
    rw [List.append_assoc]
    exact hack

theorem body_last {d : List UInt8} {b : UInt8} (fits : t.frame.Fits)
    (pay : t.frame.payload ≠ []) (host : c.host = readResponse t.frame.maxLen.toNat)
    (split : d ++ [b] = t.frame.body) (line : c.Unread [b]) (up : c.up = []) :
    Answering t (c.goOn t.answer
      (checkMosi t.frame.endpoint t.frame.payload.length (clampMiso t.frame.maxLen.toNat)
        (some (d ++ [b]))) (c.pos + 1)) := by
  have hend : c.line.length = c.pos + 1 := line.length
  have hsettle := settle_checkMosi (t := t) fits pay hend
  rw [← split] at hsettle
  simp only [Link.goOn]
  rw [hsettle]
  refine ⟨rfl, line.next rfl rfl, ?_⟩
  dsimp only
  rw [host, up, List.nil_append, Transfer.ending, if_pos fits]

/-- A byte of the payload or its checksum. -/
theorem body_recv {d rest unread later : List UInt8} {b : UInt8} (fits : t.frame.Fits)
    (pay : t.frame.payload ≠ []) (host : Sends t.frame c.host later)
    (split : d ++ b :: rest = t.frame.body) (line : c.Unread (b :: unread))
    (hlater : unread ++ later = rest) (up : c.up = []) :
    Phase t (c.goOn t.answer
      (recvRaw 25
        (checkMosi t.frame.endpoint t.frame.payload.length (clampMiso t.frame.maxLen.toNat))
        rest.length (d ++ [b])) (c.pos + 1)) := by
  cases rest with
  | cons x rest =>
    refine .body fits pay host rfl ?_ (line.next rfl rfl) hlater rfl up
    rw [List.append_assoc]
    exact split
  | nil =>
    obtain ⟨rfl, rfl⟩ := List.append_eq_nil_iff.1 hlater
    have hhost : c.host = readResponse t.frame.maxLen.toNat := by
      generalize c.host = h at host
      generalize hnil : ([] : List UInt8) = l at host
      cases host with
      | data => exact absurd hnil.symm (by simp [Frame.body, pay])
      | checksum => cases hnil
      | done => rfl
    exact (body_last fits pay hhost split line up).phase

theorem body_step {d rest unread later : List UInt8} {b : UInt8} (fits : t.frame.Fits)
    (pay : t.frame.payload ≠ []) (host : Sends t.frame c.host later)
    (dev : c.dev = receivingBody t rest.length d)
    (split : d ++ b :: rest = t.frame.body) (line : c.Unread unread)
    (hlater : unread ++ later = b :: rest) (out : c.out = []) (up : c.up = [])
    (hs : Step t.answer c c') : Phase t c' := by
  cases hs with
  | write h =>
    rw [h] at host
    cases host with
    | data =>
      refine .body (l := [serialChecksum t.frame.payload]) fits pay .checksum dev split
        (line.write _ _) ?_ out up
      rw [← hlater, List.append_assoc, Frame.body, if_neg pay]
    | checksum =>
      refine .body (l := []) fits pay .done dev split (line.write _ _) ?_ out up
      rw [List.append_nil]
      exact hlater
  | read _ h =>
    rw [up] at h
    cases h
  | readTimeout h _ _ hlate =>
    rw [dev] at hlate
    obtain rfl := line.eq_nil (hlate.resolve_right (by simp [receivingBody, receiving]))
    rw [h] at host
    generalize hread : Host.read _ = hst at host
    cases host with
    | data => cases hread
    | checksum => cases hread
    | done => cases hlater
  | tick hdev _ =>
    rw [dev] at hdev
    cases hdev
  | recv hdev _ hget =>
    rw [dev] at hdev
    cases hdev
    rw [line.get] at hget
    obtain ⟨unread', rfl⟩ := List.head?_eq_some_iff.1 hget
    obtain ⟨rfl, hrest⟩ := List.cons.inj hlater
    exact body_recv fits pay host split line hrest up
  | huntTimeout hdev _ _ =>
    rw [dev] at hdev
    cases hdev
  | recvTimeout _ _ hlate hwait =>
    obtain rfl := line.eq_nil hlate
    rw [Link.Waits] at hwait
    generalize c.host = hst at host hwait
    cases host with
    | data => exact hwait.elim
    | checksum => exact hwait.elim
    | done => cases hlater
  | emit h =>
    rw [out] at h
    cases h

theorem Link.Rests.hunting (h : c.Rests t) (hdev : c.dev ≠ .hung) : ¬ t.Hangs ∧ c.Hunting := by
  unfold Link.Rests at h
  split at h
  · exact absurd h hdev
  · next hgoes => exact ⟨hgoes, h⟩

theorem Link.Hunting.rests (h : c.Hunting) (hgoes : ¬ t.Hangs) : c.Rests t := by
  unfold Link.Rests
  rwa [if_neg hgoes]

theorem reply_step {e : Result × List UInt8} (dev : c.Rests t) (line : c.Unread [])
    (host : c.host.run (c.up ++ c.out) = some e) (ending : t.ending = some e)
    (hs : Step t.answer c c') : Phase t c' := by
  have htimeout : ∀ {ms k}, c.dev = .recv ms k → c.out = [] →
      Phase t (c.goOn t.answer (k none) c.pos) := by
    intro ms k hdev hout
    obtain ⟨hgoes, hhunt⟩ := dev.hunting (by simp [hdev])
    rw [hhunt.timeout hdev]
    rw [hout] at host
    exact .reply (Link.Hunting.rests (.inl rfl) hgoes) line host ending
  cases hs with
  | write h =>
    rw [h] at host
    cases host
  | read h hup =>
    rw [h, hup] at host
    exact .reply dev line host ending
  | readTimeout h hup hout _ =>
    rw [h, hup, hout] at host
    refine .reply dev line ?_ ending
    dsimp only
    rw [hup, hout]
    exact host
  | tick hdev hout =>
    obtain ⟨hgoes, -⟩ := dev.hunting (by simp [hdev])
    rw [goOn_tick line (by simp)]
    rw [hout] at host
    exact .reply (Link.Hunting.rests (.inr ⟨_, rfl⟩) hgoes) line host ending
  | recv _ _ hget =>
    rw [line.get] at hget
    cases hget
  | huntTimeout hdev hout _ => exact htimeout hdev hout
  | recvTimeout hdev hout _ _ => exact htimeout hdev hout
  | emit h =>
    refine .reply dev line ?_ ending
    dsimp only
    rw [List.append_assoc]
    rw [h] at host
    exact host

/-- Any step of either side, or a timeout, keeps the transfer in a phase. -/
theorem Phase.step (h : Phase t c) (hs : Step t.answer c c') : Phase t c' := by
  cases h with
  | begun host dev line out up => exact begun_step host dev line out up hs
  | sent host dev line out up => exact sent_step host dev line out up hs
  | header host dev split line out up => exact header_step host dev split line out up hs
  | acked h => exact acked_step h hs
  | body fits pay host dev split line hlater out up =>
    exact body_step fits pay host dev split line hlater out up hs
  | reply dev line host ending => exact reply_step dev line host ending hs

theorem Phase.reaches (h : Phase t c) (hr : Reaches t.answer c c') : Phase t c' := by
  induction hr with
  | refl => exact h
  | tail _ hs ih => exact ih.step hs

/-! ## Every transfer returns -/

/-- From here the transfer can come to its end. -/
def Returns (t : Transfer n) (c : Link) : Prop :=
  ∃ c' r, Reaches t.answer c c' ∧ c'.host = .ret r

theorem Returns.head (hs : Step t.answer c c') (h : Returns t c') : Returns t c := by
  obtain ⟨d, r, hr, hret⟩ := h
  exact ⟨d, r, Relation.ReflTransGen.head hs hr, hret⟩

theorem run_returns {e : Result × List UInt8} (hlate : c.line.length ≤ c.pos ∨ c.dev = .hung)
    (host : c.host.run (c.up ++ c.out) = some e) : Returns t c := by
  generalize hh : c.host = h at host
  induction h generalizing c with
  | ret r => exact ⟨c, r, .refl, hh⟩
  | write bytes k _ => cases host
  | read k ih =>
    cases hup : c.up with
    | cons b rest =>
      rw [hup] at host
      exact .head (.read hh hup) (ih (some b) hlate rfl host)
    | nil =>
      rw [hup] at host
      cases hout : c.out with
      | nil =>
        rw [hout] at host
        refine .head (.readTimeout hh hup hout hlate) (ih none hlate rfl ?_)
        rw [hup, hout]
        exact host
      | cons b rest =>
        rw [hout] at host
        have hread : Step t.answer { c with out := rest, up := c.up ++ [b] }
            { c with host := k (some b), out := rest, up := [] } := by
          refine .read hh ?_
          dsimp only
          rw [hup]
          rfl
        exact .head (.emit hout) (.head hread (ih (some b) hlate rfl host))

theorem Answering.returns (h : Answering t c) : Returns t c := by
  obtain ⟨e, he⟩ := exists_ending t
  exact run_returns (.inl h.line.length.le) (h.host.trans he)

theorem body_returns {d r : List UInt8} {b : UInt8} (fits : t.frame.Fits)
    (pay : t.frame.payload ≠ []) (host : c.host = readResponse t.frame.maxLen.toNat)
    (dev : c.dev = receivingBody t r.length d)
    (split : d ++ b :: r = t.frame.body) (line : c.Unread (b :: r)) (out : c.out = [])
    (up : c.up = []) : Returns t c := by
  induction r generalizing c d b with
  | nil => exact .head (.recv dev out line.get) (body_last fits pay host split line up).returns
  | cons x r ih =>
    refine .head (.recv dev out line.get) ?_
    exact ih (d := d ++ [b]) host rfl (by rw [List.append_assoc]; exact split)
      (line.next rfl rfl) rfl up

theorem Acked.returns (h : Acked t c) : Returns t c := by
  have hread : ∀ c : Link, Acked t c → c.up = [serialHack] → Returns t c := by
    intro c h hup
    obtain ⟨x, rest, hbody, hlen⟩ := body_cons h.pay
    have hout := (h.read hup).2.2
    have hwr : (if serialHack ≠ serialHack then Host.ret failed else writeData t.frame) =
        .write t.frame.payload
          (.write [serialChecksum t.frame.payload] (readResponse t.frame.maxLen.toNat)) := by
      rw [if_neg (not_not.2 rfl), writeData_of_ne h.pay]
    refine .head (.read h.host hup) (.head (.write hwr) (.head (.write rfl) ?_))
    refine body_returns (d := []) (b := x) (r := rest) h.fits h.pay rfl ?_ hbody.symm ?_ hout rfl
    · rw [hlen]
      exact h.dev
    · have hline := (h.line.write t.frame.payload c.host).write [serialChecksum t.frame.payload]
        c.host
      rw [List.nil_append] at hline
      rw [← hbody, Frame.body, if_neg h.pay]
      exact hline
  cases hup : c.up with
  | cons b rest =>
    obtain ⟨rfl, rfl, _⟩ := h.read hup
    exact hread c h hup
  | nil =>
    have hout : c.out = [serialHack] := by
      have hack := h.hack
      rwa [hup] at hack
    refine .head (.emit hout) (hread _ ⟨h.fits, h.pay, h.host, h.dev, h.line, ?_⟩ ?_)
    · dsimp only
      rw [hup]
      rfl
    · dsimp only
      rw [hup]
      rfl

theorem header_returns {mark : Nat} {d r : List UInt8} {b : UInt8}
    (host : c.host = readAck t.frame)
    (dev : c.dev = receiving serialHdrTimeoutMs (checkHeader mark) r.length d)
    (split : d ++ b :: r = t.frame.header) (line : c.Unread (b :: r))
    (out : c.out = []) (up : c.up = []) : Returns t c := by
  induction r generalizing c d b with
  | nil =>
    refine .head (.recv dev out line.get) ?_
    rcases header_last (m := mark) host split line up with hans | hack
    · exact hans.returns
    · exact hack.returns
  | cons x r ih =>
    refine .head (.recv dev out line.get) ?_
    exact ih (d := d ++ [b]) host rfl (by rw [List.append_assoc]; exact split)
      (line.next rfl rfl) rfl up

theorem sent_returns (host : c.host = readAck t.frame) (dev : c.Hunting)
    (line : c.Unread t.frame.header) (out : c.out = []) (up : c.up = []) : Returns t c := by
  have hrecv : ∀ c : Link, (∃ mark, c.dev = .recv 2 (hunt mark)) → c.host = readAck t.frame →
      c.Unread t.frame.header → c.out = [] → c.up = [] → Returns t c := by
    intro c ⟨mark, hdev⟩ host line out up
    refine .head (.recv hdev out line.get) ?_
    exact header_returns (d := [serialSyncByte]) (r := t.frame.header.drop 2) host rfl rfl
      (line.next rfl rfl) rfl up
  rcases dev with hidle | hmark
  · refine .head (.tick hidle out) ?_
    rw [goOn_tick line (by simp [Frame.header_length, serialHeaderSize])]
    exact hrecv _ ⟨_, rfl⟩ host line rfl up
  · exact hrecv c hmark host line out up

end Steps

/-! ## Sessions -/

/-- Between transfers: nothing on the line, and the device looks for a frame. -/
structure Quiet (c : Link) : Prop where
  dev : c.Hunting
  line : c.Unread []
  out : c.out = []
  up : c.up = []

section Sessions

variable {t : Transfer n} {c c' : Link}

theorem Quiet.begun (h : Quiet c) : Phase t (t.begin c) :=
  .begun rfl h.dev h.line h.out h.up

theorem Quiet.returns (h : Quiet c) : Returns t (t.begin c) := by
  refine .head (.write rfl) (sent_returns rfl h.dev ?_ h.out h.up)
  exact Link.Unread.write (c := t.begin c) h.line t.frame.header (readAck t.frame)

/-- Only in the last phase is the host done, and what is then on the line is what `ending` leaves. -/
theorem Phase.returned {r : Result} (h : Phase t c) (hret : c.host = .ret r) :
    c.Rests t ∧ c.Unread [] ∧ t.ending = some (r, c.up ++ c.out) := by
  cases h with
  | begun host _ _ _ _ =>
    rw [host] at hret
    cases hret
  | sent host _ _ _ _ =>
    rw [host] at hret
    cases hret
  | header host _ _ _ _ _ =>
    rw [host] at hret
    cases hret
  | acked h =>
    rw [h.host] at hret
    cases hret
  | body _ _ host _ _ _ _ _ _ =>
    rw [hret] at host
    generalize hst : Host.ret r = h at host
    cases host with
    | data => cases hst
    | checksum => cases hst
    | done => cases hst
  | reply dev line host ending =>
    rw [hret] at host
    exact ⟨dev, line, ending.trans host.symm⟩

/-- A transfer with a device that hangs: the host waits in vain and fails. -/
structure Unheard (t : Transfer n) (c : Link) : Prop where
  dev : c.dev = .hung
  out : c.out = []
  up : c.up = []
  host : c.host = transfer t.frame ∨ c.host.run [] = some (failed, [])

theorem Unheard.step (h : Unheard t c) (hs : Step t.answer c c') : Unheard t c' := by
  obtain ⟨dev, out, up, host⟩ := h
  cases hs with
  | write hw =>
    rcases host with hbegun | hrun
    · rw [hbegun] at hw
      cases hw
      exact ⟨dev, out, up, .inr rfl⟩
    · rw [hw] at hrun
      cases hrun
  | read _ hup =>
    rw [up] at hup
    cases hup
  | readTimeout hr _ _ _ =>
    rcases host with hbegun | hrun
    · rw [hbegun] at hr
      cases hr
    · rw [hr] at hrun
      exact ⟨dev, out, up, .inr hrun⟩
  | tick hdev _ =>
    rw [dev] at hdev
    cases hdev
  | recv hdev _ _ =>
    rw [dev] at hdev
    cases hdev
  | huntTimeout hdev _ _ =>
    rw [dev] at hdev
    cases hdev
  | recvTimeout hdev _ _ _ =>
    rw [dev] at hdev
    cases hdev
  | emit hout =>
    rw [out] at hout
    cases hout

theorem Unheard.returned {r : Result} (h : Unheard t c) (hret : c.host = .ret r) : r = failed := by
  rcases h.host with hbegun | hrun
  · rw [hbegun] at hret
    cases hret
  · rw [hret] at hrun
    cases hrun
    rfl

/-- With a device that hangs, every transfer fails and nothing is left of it. -/
theorem lockstep_of_hung (ts : List (Transfer n)) (hdev : c.dev = .hung) (hout : c.out = [])
    (hup : c.up = []) : Lockstep c ts := by
  induction ts generalizing c with
  | nil => trivial
  | cons t ts ih =>
    have hbegin : Unheard t (t.begin c) := ⟨hdev, hout, hup, .inl rfl⟩
    refine ⟨?_, fun c' r hreach hret => ?_⟩
    · refine Returns.head (.write rfl) (run_returns (.inr hdev) (e := (failed, [])) ?_)
      dsimp only [Transfer.begin]
      rw [hup, hout]
      rfl
    · have hend : Unheard t c' := by
        clear hret
        induction hreach with
        | refl => exact hbegin
        | tail _ hs ih' => exact ih'.step hs
      rw [hend.returned hret]
      exact ⟨hend.up, hend.out, t.answers_failed, ih hend.dev hend.out hend.up⟩

theorem forall_takeWhile_cons {ts : List (Transfer n)} :
    (∀ u ∈ (t :: ts).takeWhile fun u => !decide u.Hangs, u.InStep) ↔
      t.InStep ∧ (¬ t.Hangs → ∀ u ∈ ts.takeWhile fun u => !decide u.Hangs, u.InStep) := by
  by_cases hhangs : t.Hangs
  · simp [hhangs, hhangs.inStep]
  · simp [hhangs]

theorem lockstep_of_quiet {ts : List (Transfer n)} (hq : Quiet c) :
    Lockstep c ts ↔ ∀ t ∈ ts.takeWhile fun t => !decide t.Hangs, t.InStep := by
  induction ts generalizing c with
  | nil => simp [Lockstep]
  | cons t ts ih =>
    obtain ⟨r, left, hend, hspec⟩ := t.ending_spec
    -- wherever the host has returned, it has done so with `r` and `left`
    have hdone : ∀ c' r', Reaches t.answer (t.begin c) c' → c'.host = .ret r' →
        c'.Rests t ∧ c'.Unread [] ∧ r' = r ∧ c'.up ++ c'.out = left := by
      intro c' r' hreach hret
      obtain ⟨hrests, hunread, hend'⟩ := (hq.begun.reaches hreach).returned hret
      rw [hend] at hend'
      cases hend'
      exact ⟨hrests, hunread, rfl, rfl⟩
    rw [forall_takeWhile_cons, ← hspec, Lockstep]
    constructor
    · rintro ⟨⟨c', r', hreach, hret⟩, hall⟩
      obtain ⟨hup, hout, hans, hrest⟩ := hall c' r' hreach hret
      obtain ⟨hrests, hunread, rfl, hl⟩ := hdone c' r' hreach hret
      rw [hup, hout] at hl
      refine ⟨⟨hl.symm, hans⟩, fun hgoes => ?_⟩
      unfold Link.Rests at hrests
      rw [if_neg hgoes] at hrests
      exact (ih ⟨hrests, hunread, hout, hup⟩).1 hrest
    · rintro ⟨⟨hnil, hans⟩, hrest⟩
      refine ⟨hq.returns, fun c' r' hreach hret => ?_⟩
      obtain ⟨hrests, hunread, rfl, hl⟩ := hdone c' r' hreach hret
      rw [hnil] at hl
      obtain ⟨hup, hout⟩ := List.append_eq_nil_iff.1 hl
      refine ⟨hup, hout, hans, ?_⟩
      unfold Link.Rests at hrests
      split at hrests
      · exact lockstep_of_hung ts hrests hout hup
      · next hgoes => exact (ih ⟨hrests, hunread, hout, hup⟩).2 (hrest hgoes)

theorem quiet_quietLink : Quiet quietLink := ⟨.inl rfl, ⟨[], rfl, rfl⟩, rfl, rfl⟩

/-- A session of any transfers stays in step if and only if, up to the first one that hangs the
device, each control transfer asks for at least the size of what its request is answered with, and
what a write to the debug ring prints is swallowed. -/
theorem lockstep_iff (ts : List (Transfer n)) :
    Lockstep quietLink ts ↔ ∀ t ∈ ts.takeWhile fun t => !decide t.Hangs, t.InStep :=
  lockstep_of_quiet quiet_quietLink

end Sessions

/-! ## `Panda::get_serial` -/

def blankDevice : Device 1 where
  allowDebug := true
  microsecondTimer := 0
  fanRpm := 0
  hwType := 0
  canHealth := fun _ => Vector.replicate 64 0
  uid := Vector.replicate 12 0
  callRate := fun _ => 0
  somGpio := 0
  deviceSerialNumber := Vector.replicate 16 0
  provisionChunk := Vector.replicate 32 0
  health := Vector.replicate 58 0
  signature := Vector.replicate 128 0
  vehicleState := Vector.replicate 27 0
  serialStats := Vector.replicate 48 0
  ep1BusySkips := 0
  ep1NospaceSkips := 0
  canRegs := fun _ => Vector.replicate 48 0
  gitversion := []
  gitversion_le := Nat.zero_le _
  uartRingDebug := { rx := [], tx := [], tx_lt := by decide }
  uartRingSomDebug := { rx := [], tx := [], tx_lt := by decide }
  txEmpty := fun _ => true
  txEmpty_zero := rfl
  canRead := Usb.Comms.bootRead Usb.lkasPacket Nat.one_pos
  arrivals := []

/-- `control_read(0xd0, 0, 0, serial_buf, 16)`, which is answered with the provisioning chunk. -/
def getSerial : Transfer 1 where
  frame :=
    { endpoint := 0
      payload := ControlPacket.bytes { request := 0xd0, param1 := 0, param2 := 0, length := 16 }
      maxLen := 16 }
  device := blankDevice
  short := by decide

/-- It returns 16 bytes, and leaves the other half of the chunk to be read as an acknowledgement. -/
theorem getSerial_leaves :
    (∃ c r, Reaches getSerial.answer (getSerial.begin quietLink) c ∧ c.host = .ret r ∧
      r.ret = 16 ∧ (c.up ++ c.out).length = 16) ∧
    ¬ Lockstep quietLink [getSerial] := by
  constructor
  · obtain ⟨c, r, hreach, hret⟩ := Quiet.returns (t := getSerial) quiet_quietLink
    obtain ⟨_, _, hend⟩ := ((Quiet.begun quiet_quietLink).reaches hreach).returned hret
    have hval : getSerial.ending.map (fun e => (e.1.ret, e.2.length)) = some (16, 16) := by
      decide +kernel
    rw [hend] at hval
    obtain ⟨hr, hlen⟩ := Prod.mk.inj (Option.some.inj hval)
    exact ⟨c, r, hreach, hret, hr, hlen⟩
  · intro hstep
    have hall := (lockstep_of_quiet quiet_quietLink).1 hstep
    have hgoes : ¬ getSerial.Hangs := by decide
    have hask := (hall getSerial (by simp [hgoes])).1
    exact absurd (hask rfl (by decide) (by decide)) (by decide)

/-- `bulk_write(2, {0x00, 0x41})` -/
def debugWrite : Transfer 1 where
  frame := { endpoint := 2, payload := [0x00, 0x41], maxLen := 0 }
  device := blankDevice
  short := by decide

example : debugWrite.ending.map (fun e => (e.1.ret, e.2)) = some (-1, [0x00, 0xD2]) := by
  decide +kernel

end Serial
end MazdaPort
