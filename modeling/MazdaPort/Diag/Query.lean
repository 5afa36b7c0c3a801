import Mathlib.Algebra.Order.Field.Rat
import MazdaPort.Diag.Exchange
import MazdaPort.Diag.Reassembly

/-!
# MazdaPort.Diag.Query

`IsoTpParallelQuery.get_data` on one address: it sends a request, listens round by round for frames
of the address and decides by the first message that is complete. A message that says the response
is pending only moves the deadline.

`results_sound`: whatever is on the bus, a result is the rest of a message that the address has sent,
behind the response expected. `answer_found`: a message of the address is found however its frames
are dealt out to the rounds.
-/

namespace MazdaPort
namespace Diag

open IsoTpMessage

/-! ## The query -/

/-- A query of one ECU. The times are in seconds. -/
structure Query where
  txAddr : Nat
  rxAddr : Nat
  bus : Nat
  request : List (List UInt8)
  response : List (List UInt8)
  timeout : ℚ
  totalTimeout : ℚ
  responsePendingTimeout : ℚ
  startTime : ℚ

/-- One time round the loop: what `can_recv` returns, and what the clock says in between and at the
end. -/
structure Round where
  packets : List CanData
  now : ℚ
  curTime : ℚ

inductive QueryError where
  | send (e : IsoTpError)
  | indexError
  deriving DecidableEq, Repr

structure QueryState where
  msg : IsoTpMessage
  rxBuff : List (List UInt8)
  sent : List CanData
  requestCounter : Nat
  requestDone : Bool
  responseTimeout : ℚ
  results : Option (List UInt8)
  /-- `get_data` has returned, or raised. -/
  broke : Bool
  raised : Option QueryError

namespace Query

variable (c : Query)

def client : CanClient := .new c.txAddr c.rxAddr c.bus none none

/-- The frames that `rx` keeps. -/
def heard (r : Round) : List (List UInt8) :=
  (r.packets.filter fun f => f.src == c.bus && f.address == c.rxAddr && 0 < f.dat.length).map (·.dat)

/-- A complete message. -/
def answer (q : QueryState) (now : ℚ) (dat : List UInt8) : QueryState :=
  if dat.length = 0 then { q with requestDone := true }
  else
    match c.response[q.requestCounter]? with
    | none => { q with broke := true, raised := some .indexError }
    | some expected =>
      if expected.isPrefixOf dat then
        match c.request[q.requestCounter + 1]? with
        | some next =>
          match q.msg.send next false with
          | .error e => { q with broke := true, raised := some (.send e) }
          | .ok (msg, frames) =>
            { q with msg := msg, sent := q.sent ++ frames, responseTimeout := now + c.timeout
                     requestCounter := q.requestCounter + 1 }
        | none => { q with results := some (dat.drop expected.length), requestDone := true }
      else if dat[2]? = some 0x78 then
        { q with responseTimeout := now + c.responsePendingTimeout }
      else { q with requestDone := true }

/-- The body of the loop, up to the deadlines. -/
def listen (q : QueryState) (r : Round) : QueryState :=
  let v := recvLoop q.msg (q.rxBuff ++ c.heard r) false
  let q := { q with msg := v.msg, rxBuff := v.rest, sent := q.sent ++ c.client.send v.sent }
  match v.outcome with
  | .raised _ => { q with requestDone := true }
  | .none rxInProgress =>
    if rxInProgress then { q with responseTimeout := r.now + c.timeout } else q
  | .data dat => c.answer q r.now dat

def deadlines (q : QueryState) (r : Round) : QueryState :=
  let requestDone := q.requestDone || decide (r.curTime - q.responseTimeout > 0)
  { q with requestDone := requestDone
           broke := q.broke || requestDone || decide (r.curTime - c.startTime > c.totalTimeout) }

def round (q : QueryState) (r : Round) : QueryState :=
  if q.broke then q
  else
    let q' := c.listen q r
    if q'.broke then q' else c.deadlines q' r

/-- The first request goes out. -/
def start : Except QueryError QueryState :=
  match c.request with
  | [] => .error .indexError
  | first :: _ =>
    match (IsoTpMessage.new c.client false 10).send first false with
    | .error e => .error (.send e)
    | .ok (msg, frames) =>
      .ok { msg := msg, rxBuff := [], sent := frames, requestCounter := 0, requestDone := false
            responseTimeout := c.startTime + c.timeout, results := none, broke := false, raised := none }

/-! ## A result is what the address has sent -/

/-- Frames of the address carry the last response expected, and `d` behind it. -/
def Found (all : List (List UInt8)) (d : List UInt8) : Prop :=
  ∃ expected pre mid suf, c.response[c.request.length - 1]? = some expected ∧
    dataFrames all = pre ++ mid ++ suf ∧ Carries 8 mid (expected ++ d)

/-- The query waits for the response that its counter is at. -/
structure Waiting (all : List (List UInt8)) (q : QueryState) : Prop where
  client : q.msg.canClient = c.client
  counter : q.requestCounter < c.request.length
  results : q.results = none
  requestDone : q.requestDone = false
  received : ∃ gone, all = gone ++ q.rxBuff ∧ Received q.msg (dataFrames gone)

/-- What the query has come to on the frames it has heard. -/
structure Honest (all : List (List UInt8)) (q : QueryState) : Prop where
  waiting : q.broke = false → c.Waiting all q
  found : ∀ d, q.results = some d → c.Found all d

variable {c} {all : List (List UInt8)} {q : QueryState} {d : List UInt8}

theorem Found.append (h : c.Found all d) (more : List (List UInt8)) : c.Found (all ++ more) d := by
  obtain ⟨expected, pre, mid, suf, hexp, hall, hcarries⟩ := h
  refine ⟨expected, pre, mid, suf ++ dataFrames more, hexp, ?_, hcarries⟩
  rw [dataFrames_append, hall, List.append_assoc (pre ++ mid)]

theorem maxLen_client {m : IsoTpMessage} (h : m.canClient = c.client) : m.maxLen = 8 := by
  unfold maxLen
  rw [h]
  rfl

theorem recvLoop_canClient (m : IsoTpMessage) (fs : List (List UInt8)) (progress : Bool) :
    (recvLoop m fs progress).msg.canClient = m.canClient := by
  induction fs generalizing m progress with
  | nil => rfl
  | cons f fs ih =>
    have hnext : (m.isotpRxNext f).msg.canClient = m.canClient := by
      rcases m.isotpRxNext_cases f with hidle | ⟨n, hadv⟩
      · exact hidle.rests.canClient
      · exact hadv.same.canClient
    unfold recvLoop
    dsimp only
    split
    · exact hnext
    · split
      · exact hnext
      · exact (ih _ _).trans hnext

theorem honest_deadlines (r : Round) (hwait : q.requestDone = false → c.Waiting all q)
    (hfound : ∀ d, q.results = some d → c.Found all d) : c.Honest all (c.deadlines q r) where
  waiting := by
    intro hbroke
    have hdone : q.requestDone = false ∧ decide (r.curTime - q.responseTimeout > 0) = false := by
      simp only [deadlines, Bool.or_eq_false_iff] at hbroke
      exact hbroke.1.2
    have hw := hwait hdone.1
    exact { client := hw.client
            counter := hw.counter
            results := hw.results
            requestDone := by simp only [deadlines, hdone.1, hdone.2, Bool.or_self]
            received := hw.received }
  found := hfound

theorem answer_honest {gone : List (List UInt8)} {now : ℚ} (hclient : q.msg.canClient = c.client)
    (hcounter : q.requestCounter < c.request.length) (hresults : q.results = none)
    (hdone : q.requestDone = false) (hall : all = gone ++ q.rxBuff)
    (hrec : Received q.msg (dataFrames gone)) (hrx : q.msg.rxDone = true) :
    ((c.answer q now q.msg.rxDat).broke = false → (c.answer q now q.msg.rxDat).requestDone = false →
        c.Waiting all (c.answer q now q.msg.rxDat)) ∧
      ∀ d, (c.answer q now q.msg.rxDat).results = some d → c.Found all d := by
  have hnone : ∀ d, q.results = some d → c.Found all d := by
    intro d hd
    rw [hresults] at hd
    cases hd
  unfold answer
  split
  · exact ⟨fun _ h => (by cases h), hnone⟩
  next hne =>
  split
  · exact ⟨fun h => (by cases h), hnone⟩
  next expected hexp =>
  split
  · next hbegins =>
    split
    · next next hnext =>
      split
      · exact ⟨fun h => (by cases h), hnone⟩
      · next msg frames hsend =>
        obtain ⟨hmsg, -⟩ := send_cases hsend
        have hless : q.requestCounter + 1 < c.request.length :=
          (List.getElem?_eq_some_iff.1 hnext).1
        have hclient' : msg.canClient = c.client := by
          rw [hmsg]
          exact hclient
        have hidle : Received msg (dataFrames gone) := by
          rw [hmsg]
          exact .idle rfl rfl rfl rfl
        exact ⟨fun _ _ => ⟨hclient', hless, hresults, hdone, gone, hall, hidle⟩, hnone⟩
    · next hlast =>
      refine ⟨fun _ h => (by cases h), ?_⟩
      intro d hd
      have hcount : c.request.length - 1 = q.requestCounter := by
        have hle := List.getElem?_eq_none_iff.1 hlast
        omega
      have hdat : expected ++ d = q.msg.rxDat := by
        have hdrop : q.msg.rxDat.drop expected.length = d := Option.some.inj hd
        rw [← hdrop]
        exact List.prefix_iff_eq_append.1 (List.isPrefixOf_iff_prefix.1 hbegins)
      cases hrec with
      | idle _ _ _ hnot =>
        rw [hrx] at hnot
        cases hnot
      | begun _ _ _ hnot =>
        rw [hrx] at hnot
        cases hnot
      | @whole pre mid hfs hcarries _ =>
        rw [maxLen_client hclient, ← hdat] at hcarries
        refine ⟨expected, pre, mid, dataFrames q.rxBuff, ?_, ?_, hcarries⟩
        · rw [hcount]
          exact hexp
        · rw [hall, dataFrames_append, hfs]
      | stray hempty _ =>
        rw [hempty] at hne
        exact absurd rfl hne
  · split
    · exact ⟨fun _ _ => ⟨hclient, hcounter, hresults, hdone, gone, hall, hrec⟩, hnone⟩
    · exact ⟨fun _ h => (by cases h), hnone⟩

theorem listen_honest (h : c.Waiting all q) (r : Round) :
    ((c.listen q r).broke = false → (c.listen q r).requestDone = false →
        c.Waiting (all ++ c.heard r) (c.listen q r)) ∧
      ∀ d, (c.listen q r).results = some d → c.Found (all ++ c.heard r) d := by
  obtain ⟨hclient, hcounter, hresults, hdone, before, hall, hrec⟩ := h
  obtain ⟨gone, hfs, hreceived, hdata⟩ := recvLoop_received hrec (q.rxBuff ++ c.heard r) false
  have hclient' := (recvLoop_canClient q.msg (q.rxBuff ++ c.heard r) false).trans hclient
  have hall' : all ++ c.heard r =
      (before ++ gone) ++ (recvLoop q.msg (q.rxBuff ++ c.heard r) false).rest := by
    rw [hall, List.append_assoc, List.append_assoc]
    exact congrArg (before ++ ·) hfs
  have hnone : ∀ d, q.results = some d → c.Found (all ++ c.heard r) d := by
    intro d hd
    rw [hresults] at hd
    cases hd
  unfold listen
  dsimp only
  generalize recvLoop q.msg (q.rxBuff ++ c.heard r) false = v at *
  cases houtcome : v.outcome with
  | raised e => exact ⟨fun _ h => (by cases h), hnone⟩
  | none rxInProgress =>
    have hmsg : Received v.msg (dataFrames (before ++ gone)) := by
      rw [dataFrames_append]
      refine hreceived fun e he => ?_
      rw [houtcome] at he
      cases he
    dsimp only
    split
    · exact ⟨fun _ _ => ⟨hclient', hcounter, hresults, hdone, _, hall', hmsg⟩, hnone⟩
    · exact ⟨fun _ _ => ⟨hclient', hcounter, hresults, hdone, _, hall', hmsg⟩, hnone⟩
  | data dat =>
    have hmsg : Received v.msg (dataFrames (before ++ gone)) := by
      rw [dataFrames_append]
      refine hreceived fun e he => ?_
      rw [houtcome] at he
      cases he
    obtain ⟨hrx, hdat⟩ := hdata dat houtcome
    subst hdat
    exact answer_honest (q := { q with msg := v.msg, rxBuff := v.rest
                                       sent := q.sent ++ c.client.send v.sent })
      hclient' hcounter hresults hdone hall' hmsg hrx

theorem honest_round (h : c.Honest all q) (r : Round) : c.Honest (all ++ c.heard r) (c.round q r) := by
  unfold round
  split
  · next hbroke =>
    refine ⟨fun hnot => ?_, fun d hd => (h.found d hd).append _⟩
    rw [hbroke] at hnot
    cases hnot
  · next hbroke =>
    obtain ⟨hwait, hfound⟩ := listen_honest (h.waiting (by simpa using hbroke)) r
    dsimp only
    split
    · next hbroke' =>
      refine ⟨fun hnot => ?_, hfound⟩
      rw [hbroke'] at hnot
      cases hnot
    · next hbroke' => exact honest_deadlines r (hwait (by simpa using hbroke')) hfound

/-- The frames of the address in the rounds. -/
def allHeard (c : Query) (rs : List Round) : List (List UInt8) := rs.flatMap c.heard

theorem honest_run (h : c.Honest all q) (rs : List Round) :
    c.Honest (all ++ c.allHeard rs) (Run.run c.round q rs) := by
  induction rs generalizing q all with
  | nil =>
    rw [allHeard, List.flatMap_nil, List.append_nil]
    exact h
  | cons r rs ih =>
    have hrest := ih (honest_round h r)
    rw [List.append_assoc] at hrest
    exact hrest

/-- Whatever is on the bus, and whatever the clock says: a result is the rest of a message whose
frames the address has sent one behind the other, flow control apart, with the last response
expected in front of it. -/
theorem results_sound {c : Query} {q : QueryState} (hstart : c.start = .ok q) (rs : List Round)
    {d : List UInt8} (h : (Run.run c.round q rs).results = some d) : c.Found (c.allHeard rs) d := by
  have hhonest : c.Honest [] q := by
    unfold start at hstart
    split at hstart
    · cases hstart
    · next first more hreq =>
      split at hstart
      · cases hstart
      · next msg frames hsend =>
        cases hstart
        obtain ⟨hmsg, -⟩ := send_cases hsend
        refine ⟨fun _ => ⟨?_, ?_, rfl, rfl, [], rfl, ?_⟩, fun d hd => (by cases hd)⟩
        · rw [hmsg]
          rfl
        · rw [hreq]
          exact Nat.zero_lt_succ _
        · rw [hmsg]
          exact .idle rfl rfl rfl rfl
  exact (honest_run hhonest rs).found d h

end Query

/-! ## A message is found however its frames are dealt out -/

/-- `m` takes the frames without raising, is complete with the last of them and not before, and is
`m'` then. -/
inductive Completes : IsoTpMessage → List (List UInt8) → IsoTpMessage → Prop where
  | last {m m' : IsoTpMessage} {f : List UInt8} {sent : List (List UInt8)} {frameType : FrameType}
      (h : m.isotpRxNext f = { msg := m', sent := sent, outcome := .ok frameType })
      (hdone : (m'.txDone && m'.rxDone) = true) : Completes m [f] m'
  | more {m m₁ m' : IsoTpMessage} {f : List UInt8} {fs sent : List (List UInt8)}
      {frameType : FrameType}
      (h : m.isotpRxNext f = { msg := m₁, sent := sent, outcome := .ok frameType })
      (hdone : (m₁.txDone && m₁.rxDone) = false) (hrest : Completes m₁ fs m') :
      Completes m (f :: fs) m'

theorem Completes.ne_nil {m m' : IsoTpMessage} {fs : List (List UInt8)} (h : Completes m fs m') :
    fs ≠ [] := by
  cases h <;> exact List.cons_ne_nil _ _

/-- `recv` on a part of what is ahead: the message is complete, or the frames have run out. -/
theorem Completes.recvLoop {m m' : IsoTpMessage} {fs tail buff future : List (List UInt8)}
    (h : Completes m fs m') (hahead : buff ++ future = fs ++ tail) (progress : Bool) :
    ((recvLoop m buff progress).outcome = .data m'.rxDat ∧ (recvLoop m buff progress).msg = m' ∧
        (recvLoop m buff progress).rest ++ future = tail) ∨
      ∃ fs' progress', (recvLoop m buff progress).outcome = .none progress' ∧
        (recvLoop m buff progress).rest = [] ∧ future = fs' ++ tail ∧
          Completes (recvLoop m buff progress).msg fs' m' := by
  induction h generalizing buff progress with
  | @last m m' f sent frameType h hdone =>
    cases buff with
    | nil => exact .inr ⟨[f], progress, rfl, rfl, hahead, .last h hdone⟩
    | cons f' buff =>
      obtain ⟨rfl, htail⟩ := List.cons.inj hahead
      left
      rw [Diag.recvLoop, h]
      simp only [hdone, if_true]
      exact ⟨trivial, trivial, htail⟩
  | @more m m₁ m' f fs sent frameType h hdone hrest ih =>
    cases buff with
    | nil => exact .inr ⟨f :: fs, progress, rfl, rfl, hahead, .more h hdone hrest⟩
    | cons f' buff =>
      obtain ⟨rfl, htail⟩ := List.cons.inj hahead
      rw [Diag.recvLoop, h]
      simp only [hdone, Bool.false_eq_true, if_false]
      exact ih htail (frameType == .first || frameType == .consecutive)

/-- All the frames of a message, as `send` and the flow control make it send them. -/
def IsoTpMessage.allFrames (a : IsoTpMessage) : List (List UInt8) :=
  a.firstMsg :: if a.txLen < a.maxLen then [] else (List.range a.pieces).map a.piece

/-- A receiver that holds `dat`, and whose own request is out. -/
structure Holds (b m : IsoTpMessage) (dat : List UInt8) : Prop where
  rxDat : m.rxDat = dat
  rxDone : m.rxDone = true
  txDone : m.txDone = true
  canClient : m.canClient = b.canClient

section Canonical

variable {a b : IsoTpMessage}

theorem completes_pieces (hdone : b.txDone = true) (hlong : a.maxLen ≤ a.txLen) (n : Nat) {k : Nat}
    (hk : k + n + 1 = a.pieces) :
    Completes (taken b a.txDat (reach a k) k) ((List.range (n + 1)).map fun i => a.piece (k + i))
      (taken b a.txDat (reach a a.pieces) a.pieces) := by
  induction n generalizing k with
  | zero =>
    have hmore : reach a k < a.txDat.length := by
      rw [← Nat.not_le, reach_le_iff hlong]
      omega
    have hall : (taken b a.txDat (reach a (k + 1)) (k + 1)).rxDone = true :=
      decide_eq_true ((reach_le_iff hlong _).2 (by omega))
    have hlast := Completes.last (rxNext_piece b hmore) (by rw [hall]; exact Bool.and_eq_true_iff.2 ⟨hdone, rfl⟩)
    rw [← hk]
    exact hlast
  | succ n ih =>
    have hmore : reach a k < a.txDat.length := by
      rw [← Nat.not_le, reach_le_iff hlong]
      omega
    have hless : (taken b a.txDat (reach a (k + 1)) (k + 1)).rxDone = false := by
      refine decide_eq_false ?_
      rw [reach_le_iff hlong]
      omega
    have hrest := ih (show k + 1 + n + 1 = a.pieces by omega)
    have hsplit : ((List.range (n + 1 + 1)).map fun i => a.piece (k + i)) =
        a.piece k :: (List.range (n + 1)).map fun i => a.piece (k + 1 + i) := by
      rw [List.range_succ_eq_map, List.map_cons, List.map_map]
      refine congrArg (a.piece k :: ·) (List.map_congr_left fun i _ => ?_)
      simp only [Function.comp_apply]
      congr 1
      omega
    rw [hsplit]
    exact .more (rxNext_piece b hmore) (by rw [hless, Bool.and_false]) hrest

theorem completes_allFrames (hdone : b.txDone = true) (hready : b.rxDat = [] ∨ b.rxDone)
    (hmax : b.maxLen = a.maxLen) (hlen : a.txLen ≤ 4095) :
    ∃ m', Completes b a.allFrames m' ∧ Holds b m' a.txDat := by
  unfold allFrames firstMsg
  have hwhole : ∀ n k, a.txDat.length ≤ n → Holds b (taken b a.txDat n k) a.txDat := fun n k hn =>
    ⟨List.take_of_length_le hn, decide_eq_true hn, hdone, rfl⟩
  rcases Nat.lt_or_ge a.txLen a.maxLen with hshort | hlong
  · rw [if_pos hshort, if_pos hshort, ← hmax]
    have hall := hwhole a.txDat.length 0 (Nat.le_refl _)
    refine ⟨_, .last (rxNext_single b a.txDat hready (by rw [hmax]; exact hshort)) ?_, hall⟩
    rw [hall.txDone, hall.rxDone, Bool.and_self]
  · rw [if_neg (Nat.not_lt.2 hlong), if_neg (Nat.not_lt.2 hlong), ← hmax]
    have hone : 0 < a.pieces := by
      rw [← Nat.not_le, ← reach_le_iff hlong]
      unfold reach
      unfold txLen at hlong
      have hcases := a.maxLen_cases
      omega
    obtain ⟨n, hn⟩ : ∃ n, a.pieces = n + 1 := ⟨a.pieces - 1, by omega⟩
    have hreach : reach b 0 = reach a 0 := by
      unfold reach
      rw [hmax]
    have hpieces := completes_pieces hdone hlong n (show 0 + n + 1 = a.pieces by omega)
    have hfirst := rxNext_first b a.txDat hready (by rw [hmax]; exact hlong) hlen
    rw [hreach] at hfirst
    have hless : (taken b a.txDat (reach a 0) 0).rxDone = false := by
      refine decide_eq_false ?_
      rw [reach_le_iff hlong]
      omega
    refine ⟨_, .more hfirst (by rw [hless, Bool.and_false]) ?_,
      hwhole (reach a a.pieces) a.pieces ((reach_le_iff hlong _).2 (Nat.le_refl _))⟩
    rw [hn]
    simpa only [Nat.zero_add, hn] using hpieces

end Canonical

/-! ## The answers to a request -/

/-- The frames in which `peer` sends the message. -/
def messageFrames (peer : CanClient) (p : List UInt8) : List (List UInt8) :=
  ((IsoTpMessage.new peer false 0).reset p).allFrames

namespace Query

/-- A message that makes the query wait for another one. -/
def IsPending (expected p : List UInt8) : Prop :=
  p ≠ [] ∧ expected.isPrefixOf p = false ∧ p[2]? = some 0x78

/-- What a message decides, that is not pending. -/
def verdict (expected p : List UInt8) : Option (List UInt8) :=
  if expected.isPrefixOf p ∧ p ≠ [] then some (p.drop expected.length) else none

/-- The loop does not run into a deadline. -/
def InTime (c : Query) (q : QueryState) (r : Round) : Prop :=
  q.broke = true ∨
    r.curTime ≤ (c.listen q r).responseTimeout ∧ r.curTime ≤ c.startTime + c.totalTimeout

instance (c : Query) (q : QueryState) (r : Round) : Decidable (c.InTime q r) :=
  inferInstanceAs (Decidable (_ ∨ _))

/-- The query is in the middle of the message `p`, with `ps` to follow. `ahead` are the frames that
wait or are to come. -/
structure Toward (c : Query) (peer : CanClient) (p : List UInt8) (ps : List (List UInt8))
    (ahead : List (List UInt8)) (q : QueryState) : Prop where
  client : q.msg.canClient = c.client
  counter : q.requestCounter = 0
  broke : q.broke = false
  requestDone : q.requestDone = false
  results : q.results = none
  raised : q.raised = none
  current : ∃ cur m' more, Completes q.msg cur m' ∧ Holds q.msg m' p ∧
    ahead = cur ++ (ps.flatMap (messageFrames peer) ++ more)

/-- The query has come to its end with the verdict on `final`, and raised nothing. -/
def Decided (expected final : List UInt8) (q : QueryState) : Prop :=
  q.broke = true ∧ q.results = verdict expected final ∧ q.raised = none

section Answers

variable {c : Query} {peer : CanClient} {q : QueryState} {r : Round} {req expected final p : List UInt8}
  {ps future : List (List UInt8)}

/-- A message that decides. -/
theorem answer_final (hresp : c.response = [expected]) (hreq : c.request = [req])
    (hcounter : q.requestCounter = 0) (hresults : q.results = none) (hraised : q.raised = none)
    (hbroke : q.broke = false) (hfinal : ¬ IsPending expected final) (now : ℚ) :
    (c.answer q now final).results = verdict expected final ∧
      (c.answer q now final).raised = none ∧
      (c.answer q now final).requestDone = true ∧ (c.answer q now final).broke = false := by
  unfold answer verdict
  split
  · next hnil =>
    have hnone : final = [] := List.eq_nil_of_length_eq_zero hnil
    rw [if_neg (fun h => h.2 hnone)]
    exact ⟨hresults, hraised, rfl, hbroke⟩
  next hne =>
  have hne' : final ≠ [] := fun h => hne (by rw [h]; rfl)
  simp only [hcounter, hresp, hreq, List.getElem?_cons_zero, Nat.zero_add]
  by_cases hbegins : expected.isPrefixOf final = true
  · rw [if_pos hbegins, if_pos ⟨hbegins, hne'⟩]
    exact ⟨rfl, hraised, rfl, hbroke⟩
  · have hnot : ¬ final[2]? = some 0x78 := fun h => hfinal ⟨hne', Bool.eq_false_iff.2 hbegins, h⟩
    rw [if_neg hbegins, if_neg hnot, if_neg (fun h => hbegins h.1)]
    exact ⟨hresults, hraised, rfl, hbroke⟩

/-- A message that does not. -/
theorem answer_pending (hresp : c.response = [expected]) (hcounter : q.requestCounter = 0)
    (hpending : IsPending expected p) (now : ℚ) :
    c.answer q now p = { q with responseTimeout := now + c.responsePendingTimeout } := by
  obtain ⟨hne, hbegins, hcode⟩ := hpending
  have hlen : ¬ p.length = 0 := fun h => hne (List.eq_nil_of_length_eq_zero h)
  have hnot : ¬ expected.isPrefixOf p = true := by
    rw [hbegins]
    exact Bool.false_ne_true
  unfold answer
  rw [if_neg hlen]
  simp only [hcounter, hresp, List.getElem?_cons_zero]
  rw [if_neg hnot, if_pos hcode]

theorem round_of_inTime (hbroke : q.broke = false) (hlisten : (c.listen q r).broke = false)
    (htime : InTime c q r) :
    c.round q r = { c.listen q r with broke := (c.listen q r).requestDone } := by
  rcases htime with hgone | ⟨htimeout, htotal⟩
  · rw [hbroke] at hgone
    cases hgone
  · have hless : decide (r.curTime - (c.listen q r).responseTimeout > 0) = false :=
      decide_eq_false (by rw [gt_iff_lt, sub_pos]; exact not_lt.2 htimeout)
    have hless' : decide (r.curTime - c.startTime > c.totalTimeout) = false := by
      refine decide_eq_false ?_
      rw [gt_iff_lt, not_lt, sub_le_iff_le_add, add_comm]
      exact htotal
    unfold round
    rw [hbroke, if_neg Bool.false_ne_true]
    dsimp only
    rw [hlisten, if_neg Bool.false_ne_true]
    simp only [deadlines, hless, hless', hlisten, Bool.or_false, Bool.false_or]

/-- `p` and the messages `ps` behind it: pending ones up to the last, which is `final`. -/
def Script (expected final p : List UInt8) (ps : List (List UInt8)) : Prop :=
  ∃ pending, p :: ps = pending ++ [final] ∧ (∀ x ∈ pending, IsPending expected x) ∧
    ¬ IsPending expected final

theorem Script.cases (h : Script expected final p ps) :
    (p = final ∧ ps = [] ∧ ¬ IsPending expected final) ∨
      ∃ p' ps', ps = p' :: ps' ∧ IsPending expected p ∧ Script expected final p' ps' := by
  obtain ⟨pending, heq, hpending, hfinal⟩ := h
  cases pending with
  | nil =>
    obtain ⟨rfl, rfl⟩ := List.cons.inj heq
    exact .inl ⟨rfl, rfl, hfinal⟩
  | cons x pending =>
    obtain ⟨rfl, hps⟩ := List.cons.inj heq
    have hx := hpending p List.mem_cons_self
    have hrest : ∀ x ∈ pending, IsPending expected x := fun x hx =>
      hpending x (List.mem_cons_of_mem p hx)
    cases ps with
    | nil => exact absurd hps.symm (List.append_ne_nil_of_right_ne_nil _ (List.cons_ne_nil _ _))
    | cons p' ps' => exact .inr ⟨p', ps', rfl, hx, pending, hps, hrest, hfinal⟩

/-- A round takes the query to the verdict, to the next message, or uses up what there is. -/
theorem toward_round (hreq : c.request = [req]) (hresp : c.response = [expected])
    (hpeer : peer.subAddr = none) (hlen : ∀ x ∈ ps, x.length ≤ 4095)
    (hscript : Script expected final p ps) (htime : InTime c q r)
    (h : Toward c peer p ps (q.rxBuff ++ c.heard r ++ future) q) :
    Decided expected final (c.round q r) ∨
      (∃ p' ps', ps = p' :: ps' ∧ Script expected final p' ps' ∧
        Toward c peer p' ps' ((c.round q r).rxBuff ++ future) (c.round q r)) ∨
      future ≠ [] ∧ Toward c peer p ps ((c.round q r).rxBuff ++ future) (c.round q r) := by
  obtain ⟨cur, m', more, hcompletes, hholds, hahead⟩ := h.current
  have hclient' := (recvLoop_canClient q.msg (q.rxBuff ++ c.heard r) false).trans h.client
  rcases hcompletes.recvLoop hahead false with ⟨hout, hmsg, hrest⟩ |
    ⟨cur', progress', hout, hnone, hfuture, hcompletes'⟩
  · let q' : QueryState :=
      { q with
        msg := (recvLoop q.msg (q.rxBuff ++ c.heard r) false).msg
        rxBuff := (recvLoop q.msg (q.rxBuff ++ c.heard r) false).rest
        sent := q.sent ++ c.client.send (recvLoop q.msg (q.rxBuff ++ c.heard r) false).sent }
    have hlisten : c.listen q r = c.answer q' r.now p := by
      unfold listen
      dsimp only
      rw [hout, hholds.rxDat]
    rcases hscript.cases with ⟨rfl, rfl, hfinal⟩ | ⟨p', ps', rfl, hpending, hscript'⟩
    · left
      obtain ⟨hverdict, hraised, hdone, hbroke⟩ :=
        answer_final (q := q') hresp hreq h.counter h.results h.raised h.broke hfinal r.now
      rw [← hlisten] at hverdict hraised hdone hbroke
      rw [round_of_inTime h.broke hbroke htime]
      exact ⟨hdone, hverdict, hraised⟩
    · right
      left
      have hanswer := answer_pending (q := q') hresp h.counter hpending r.now
      rw [hanswer] at hlisten
      have hbroke : (c.listen q r).broke = false := by
        rw [hlisten]
        exact h.broke
      rw [round_of_inTime h.broke hbroke htime, hlisten]
      refine ⟨p', ps', rfl, hscript', hclient', h.counter, h.requestDone, h.requestDone, h.results,
        h.raised, ?_⟩
      have hmax : q'.msg.maxLen = ((IsoTpMessage.new peer false 0).reset p').maxLen := by
        rw [maxLen_client (c := c) hclient', maxLen]
        have hnone : ((IsoTpMessage.new peer false 0).reset p').canClient.subAddr = none := hpeer
        rw [hnone]
        rfl
      have hm' : q'.msg = m' := hmsg
      obtain ⟨m'', hnext, hholds'⟩ := completes_allFrames (b := q'.msg)
        (a := (IsoTpMessage.new peer false 0).reset p') (by rw [hm']; exact hholds.txDone)
        (.inr (by rw [hm']; exact hholds.rxDone)) hmax (hlen p' List.mem_cons_self)
      refine ⟨_, m'', more, hnext, hholds', ?_⟩
      rw [List.flatMap_cons, List.append_assoc] at hrest
      exact hrest
  · right
    right
    have hlisten : c.listen q r = { q with
        msg := (recvLoop q.msg (q.rxBuff ++ c.heard r) false).msg
        rxBuff := (recvLoop q.msg (q.rxBuff ++ c.heard r) false).rest
        sent := q.sent ++ c.client.send (recvLoop q.msg (q.rxBuff ++ c.heard r) false).sent
        responseTimeout := (c.listen q r).responseTimeout } := by
      unfold listen
      dsimp only
      rw [hout]
      cases progress' <;> rfl
    have hbroke : (c.listen q r).broke = false := by
      rw [hlisten]
      exact h.broke
    rw [round_of_inTime h.broke hbroke htime]
    refine ⟨?_, ?_⟩
    · rw [hfuture]
      exact List.append_ne_nil_of_left_ne_nil hcompletes'.ne_nil _
    · rw [hlisten]
      refine ⟨hclient', h.counter, h.requestDone, h.requestDone, h.results, h.raised, cur', m', more,
        hcompletes', ?_, ?_⟩
      · exact { rxDat := hholds.rxDat, rxDone := hholds.rxDone, txDone := hholds.txDone
                canClient := by rw [hholds.canClient, h.client, hclient'] }
      · rw [hnone, List.nil_append]
        exact hfuture

theorem decided_round (h : Decided expected final q) : Decided expected final (c.round q r) := by
  have hsame : c.round q r = q := if_pos h.1
  rw [hsame]
  exact h

theorem decided_run (h : Decided expected final q) (rs : List Round) :
    Decided expected final (Run.run c.round q rs) :=
  Run.run_inv (fun _ _ => decided_round) h rs

theorem Toward.append {ahead : List (List UInt8)} (h : Toward c peer p ps ahead q)
    (behind : List (List UInt8)) : Toward c peer p ps (ahead ++ behind) q := by
  obtain ⟨cur, m', more, hcompletes, hholds, hahead⟩ := h.current
  refine { h with current := ⟨cur, m', more ++ behind, hcompletes, hholds, ?_⟩ }
  rw [hahead, List.append_assoc, List.append_assoc]

/-- The rounds that hear the messages take the query to the verdict, or on the way to it. -/
theorem toward_run (hreq : c.request = [req]) (hresp : c.response = [expected])
    (hpeer : peer.subAddr = none) (rs : List Round) (htime : Run.AllSteps c.round (InTime c) q rs)
    (hlen : ∀ x ∈ ps, x.length ≤ 4095) (hscript : Script expected final p ps)
    (h : Toward c peer p ps (q.rxBuff ++ c.allHeard rs) q) :
    Decided expected final (Run.run c.round q rs) ∨
      ∃ p' ps', ps' <:+ ps ∧ Script expected final p' ps' ∧
        Toward c peer p' ps' (Run.run c.round q rs).rxBuff (Run.run c.round q rs) := by
  induction rs generalizing q p ps with
  | nil =>
    rw [allHeard, List.flatMap_nil, List.append_nil] at h
    exact .inr ⟨p, ps, List.suffix_refl ps, hscript, h⟩
  | cons r rs ih =>
    obtain ⟨hnow, hlater⟩ := htime
    have hsplit : c.allHeard (r :: rs) = c.heard r ++ c.allHeard rs := rfl
    rw [hsplit, ← List.append_assoc] at h
    rcases toward_round hreq hresp hpeer hlen hscript hnow h with hdecided |
      ⟨p', ps', rfl, hscript', hnext⟩ | ⟨-, hsame⟩
    · exact .inl (decided_run hdecided rs)
    · rcases ih hlater (fun x hx => hlen x (List.mem_cons_of_mem p' hx)) hscript' hnext with
        hdecided | ⟨p'', ps'', hsuffix, hscript'', hrest⟩
      · exact .inl hdecided
      · exact .inr ⟨p'', ps'', hsuffix.trans (List.suffix_cons p' ps'), hscript'', hrest⟩
    · exact ih hlater hlen hscript hsame

/-- Once the messages have been heard, each round takes one of them. -/
theorem decided_of_heard (hreq : c.request = [req]) (hresp : c.response = [expected])
    (hpeer : peer.subAddr = none) (rs : List Round) (htime : Run.AllSteps c.round (InTime c) q rs)
    (hlen : ∀ x ∈ ps, x.length ≤ 4095) (hscript : Script expected final p ps)
    (h : Toward c peer p ps q.rxBuff q) (hrounds : ps.length < rs.length) :
    Decided expected final (Run.run c.round q rs) := by
  induction rs generalizing q p ps with
  | nil => exact absurd hrounds (Nat.not_lt_zero _)
  | cons r rs ih =>
    obtain ⟨hnow, hlater⟩ := htime
    have hheard : Toward c peer p ps (q.rxBuff ++ c.heard r ++ []) q := by
      rw [List.append_nil]
      exact h.append (c.heard r)
    rcases toward_round hreq hresp hpeer hlen hscript hnow hheard with hdecided |
      ⟨p', ps', rfl, hscript', hnext⟩ | ⟨hne, -⟩
    · exact decided_run hdecided rs
    · rw [List.append_nil] at hnext
      exact ih hlater (fun x hx => hlen x (List.mem_cons_of_mem p' hx)) hscript' hnext
        (Nat.lt_of_succ_lt_succ hrounds)
    · exact absurd rfl hne

/-- A short request is out as soon as it is sent. -/
theorem start_cases (hreq : c.request = [req]) (hshort : req.length < 8) (hstart : c.start = .ok q) :
    q.msg.canClient = c.client ∧ q.msg.txDone = true ∧ q.msg.rxDat = [] ∧ q.rxBuff = [] ∧
      q.requestCounter = 0 ∧ q.broke = false ∧ q.requestDone = false ∧ q.results = none ∧
      q.raised = none := by
  unfold start at hstart
  rw [hreq] at hstart
  dsimp only at hstart
  split at hstart
  · cases hstart
  · next msg frames hsend =>
    cases hstart
    obtain ⟨rfl, -⟩ := send_cases hsend
    have hmax : (IsoTpMessage.new c.client false 10).maxLen = 8 := maxLen_client rfl
    have htx : decide (req.length < (IsoTpMessage.new c.client false 10).maxLen) = true := by
      rw [hmax]
      exact decide_eq_true hshort
    exact ⟨rfl, htx, rfl, rfl, rfl, rfl, rfl, rfl, rfl⟩

/-- A short request, answered with any number of messages that say the response is pending and then
with `final`. However their frames are dealt out to the rounds, and whatever else is on the bus: if
no deadline passes, the query ends with what `final` says and without an exception, a round for each
message after the last frame at the latest. -/
theorem answer_found {pending : List (List UInt8)} (hreq : c.request = [req])
    (hresp : c.response = [expected]) (hshort : req.length < 8) (hstart : c.start = .ok q)
    (hpeer : peer.subAddr = none) (hpending : ∀ x ∈ pending, IsPending expected x)
    (hfinal : ¬ IsPending expected final) (hlen : ∀ x ∈ pending ++ [final], x.length ≤ 4095)
    {rs rs' : List Round} {more : List (List UInt8)}
    (hheard : c.allHeard rs = (pending ++ [final]).flatMap (messageFrames peer) ++ more)
    (hrounds : pending.length < rs'.length)
    (htime : Run.AllSteps c.round (InTime c) q (rs ++ rs')) :
    Decided expected final (Run.run c.round q (rs ++ rs')) := by
  obtain ⟨hclient, htx, hrx, hbuff, hcounter, hbroke, hdone, hresults, hraised⟩ :=
    start_cases hreq hshort hstart
  obtain ⟨htime₁, htime₂⟩ := (Run.allSteps_append c.round).1 htime
  rw [Run.run_append]
  obtain ⟨p, ps, hmsgs⟩ : ∃ p ps, pending ++ [final] = p :: ps := by
    cases pending with
    | nil => exact ⟨final, [], rfl⟩
    | cons x pending => exact ⟨x, pending ++ [final], rfl⟩
  have hscript : Script expected final p ps := ⟨pending, hmsgs.symm, hpending, hfinal⟩
  have hcount : ps.length = pending.length := by
    have hlength := congrArg List.length hmsgs
    rw [List.length_append] at hlength
    simpa using hlength.symm
  rw [hmsgs] at hlen hheard
  have hlen' : ∀ x ∈ ps, x.length ≤ 4095 := fun x hx => hlen x (List.mem_cons_of_mem p hx)
  have hmax : q.msg.maxLen = ((IsoTpMessage.new peer false 0).reset p).maxLen := by
    rw [maxLen_client hclient, maxLen]
    have hnone : ((IsoTpMessage.new peer false 0).reset p).canClient.subAddr = none := hpeer
    rw [hnone]
    rfl
  obtain ⟨m', hcompletes, hholds⟩ := completes_allFrames (b := q.msg)
    (a := (IsoTpMessage.new peer false 0).reset p) htx (.inl hrx) hmax (hlen p List.mem_cons_self)
  have htoward : Toward c peer p ps (q.rxBuff ++ c.allHeard rs) q :=
    { client := hclient, counter := hcounter, broke := hbroke, requestDone := hdone
      results := hresults, raised := hraised
      current := by
        refine ⟨_, m', more, hcompletes, hholds, ?_⟩
        rw [hbuff, List.nil_append, hheard, List.flatMap_cons, List.append_assoc]
        rfl }
  rcases toward_run hreq hresp hpeer rs htime₁ hlen' hscript htoward with hdecided |
    ⟨p', ps', hsuffix, hscript', hrest⟩
  · exact decided_run hdecided rs'
  · have hle := hsuffix.length_le
    refine decided_of_heard hreq hresp hpeer rs' htime₂ (fun x hx => hlen' x (hsuffix.subset hx))
      hscript' hrest ?_
    omega

end Answers

/-! ## The session request to the radar -/

/-- `enter_radar_programming_session`. -/
def programmingSession : Query :=
  { txAddr := 0x764, rxAddr := 0x76C, bus := 0, request := [[0x10, 0x02]], response := [[0x50, 0x02]]
    timeout := 1 / 10, totalTimeout := 60, responsePendingTimeout := 10, startTime := 0 }

def programmingSessionSent : QueryState :=
  { msg := { (IsoTpMessage.new programmingSession.client false 10).reset [0x10, 0x02] with
               txDone := true }
    rxBuff := [], sent := [{ address := 0x764, dat := [2, 0x10, 0x02, 0, 0, 0, 0, 0], src := 0 }]
    requestCounter := 0, requestDone := false, results := none, broke := false, raised := none
    responseTimeout := programmingSession.startTime + programmingSession.timeout }

/-- The radar says the response is pending, and another frame of the bus goes by; then it accepts. -/
def acceptedLate : List Round :=
  [{ packets := [{ address := 0x76C, dat := [3, 0x7F, 0x10, 0x78, 0, 0, 0, 0], src := 0 },
        { address := 0x21B, dat := [1, 2, 3], src := 0 }], now := 1 / 100, curTime := 1 / 100 },
    { packets := [{ address := 0x76C, dat := [6, 0x50, 0x02, 0, 0x19, 0x01, 0xF4, 0], src := 0 }]
      now := 1 / 2, curTime := 1 / 2 }]

def quietRounds : List Round :=
  [{ packets := [], now := 6 / 10, curTime := 6 / 10 }, { packets := [], now := 7 / 10, curTime := 7 / 10 }]

theorem results_sound_programming :
    programmingSession.Found (programmingSession.allHeard acceptedLate) [0, 0x19, 0x01, 0xF4] :=
  results_sound (q := programmingSessionSent) rfl acceptedLate (by decide +kernel)

theorem answer_found_programming :
    Decided [0x50, 0x02] [0x50, 0x02, 0, 0x19, 0x01, 0xF4]
      (Run.run programmingSession.round programmingSessionSent (acceptedLate ++ quietRounds)) := by
  have hpending : ∀ x ∈ ([[0x7F, 0x10, 0x78]] : List (List UInt8)), IsPending [0x50, 0x02] x := by
    intro x hx
    rw [List.mem_singleton.1 hx]
    exact ⟨by decide, by decide, by decide⟩
  have hfinal : ¬ IsPending [0x50, 0x02] [0x50, 0x02, 0, 0x19, 0x01, 0xF4] := by
    rintro ⟨-, hbegins, -⟩
    cases hbegins
  have hlen : ∀ x ∈ ([[0x7F, 0x10, 0x78]] : List (List UInt8)) ++
      [[0x50, 0x02, 0, 0x19, 0x01, 0xF4]], x.length ≤ 4095 := by
    decide
  have hheard : programmingSession.allHeard acceptedLate =
      (([[0x7F, 0x10, 0x78]] : List (List UInt8)) ++ [[0x50, 0x02, 0, 0x19, 0x01, 0xF4]]).flatMap
        (messageFrames radarEnd) ++ [] := by
    decide +kernel
  have htime : Run.AllSteps programmingSession.round (InTime programmingSession)
      programmingSessionSent (acceptedLate ++ quietRounds) := by
    simp only [acceptedLate, quietRounds, List.cons_append, List.nil_append, Run.AllSteps, and_true]
    decide +kernel
  exact answer_found rfl rfl (by decide) rfl rfl hpending hfinal hlen hheard (by decide) htime

end Query

end Diag
end MazdaPort
