import MazdaPort.Board.CanPath
import MazdaPort.Lib.Ledger

/-!
# MazdaPort.Board.Gateway

What a run of the board puts on the wire, and what it tells the host of that.

`Traffic` is what one event does to the queues: the packets handed to `can_push`, those
`process_can` pops, and those pushed for the host. `Books` is the account of a function: per bus,
what was popped and what is left is what was there and what was offered, in this order.
-/

namespace MazdaPort
namespace Board
namespace Gateway

open Safety Usb Usb.Comms CanPath Ledger

variable {n m : Nat}

/-! ## Traffic -/

/-- A packet that `can_send` hands to `can_push` for the queue of a bus. -/
structure Offer where
  bus : Nat
  packet : CANPacket

/-- A packet that `process_can` pops. It is loaded into the mailbox if its checksum is right. -/
structure Departure where
  canNumber : Nat
  packet : CANPacket

/-- What a function asks of the queues, and the events it puts to the safety layer. -/
@[ext]
structure Traffic where
  offers : List Offer := []
  departures : List Departure := []
  toHost : List CANPacket := []
  safety : List Safety.Event := []

instance : Append Traffic where
  append t t' :=
    { offers := t.offers ++ t'.offers
      departures := t.departures ++ t'.departures
      toHost := t.toHost ++ t'.toHost
      safety := t.safety ++ t'.safety }

@[simp] theorem offers_append (t t' : Traffic) : (t ++ t').offers = t.offers ++ t'.offers := rfl

@[simp] theorem departures_append (t t' : Traffic) :
    (t ++ t').departures = t.departures ++ t'.departures := rfl

@[simp] theorem toHost_append (t t' : Traffic) : (t ++ t').toHost = t.toHost ++ t'.toHost := rfl

@[simp] theorem safety_append (t t' : Traffic) : (t ++ t').safety = t.safety ++ t'.safety := rfl

def echoTraffic (fw : CanBuild) (canNumber : Nat) (b : CanBoard n m) : List CANPacket :=
  let busNumber := fw.busLookup canNumber
  let toPush := (b.txMailbox (fw.cans canNumber)).toPacket true busNumber
  if fw.echoVisible busNumber toPush.addr.toNat then [canSetChecksum toPush] else []

def popTraffic (fw : CanBuild) (canNumber : Nat) (b : CanBoard n m) : List Departure :=
  match canPop (b.canQueues (fw.busLookup canNumber)) with
  | none => []
  | some (toSend, _) => [{ canNumber := canNumber, packet := toSend }]

def processTraffic (fw : CanBuild) (canNumber : Nat) (tsr : TxStatus) (b : CanBoard n m) :
    Traffic :=
  if canNumber != 0xFF && tsr.tme0 then
    { departures := popTraffic fw canNumber b
      toHost := if tsr.rqcp0 && tsr.txok0 then echoTraffic fw canNumber b else [] }
  else {}

/-- `can_send` once the hook has approved. -/
def queueTraffic (fw : CanBuild) (toPush : CANPacket) (busNumber : Nat) (tsr : TxStatus)
    (b : CanBoard n m) : Traffic :=
  if busNumber < 3 then
    { offers := [{ bus := busNumber, packet := toPush }] } ++
      processTraffic fw (fw.canNumLookup busNumber) tsr
        (b.setQueue busNumber (canPush (b.canQueues busNumber) toPush).2)
  else {}

/-- `can_send` for a packet of the host's. -/
def sendTraffic (fw : CanBuild) (toPush : CANPacket) (ts : UInt32) (tsr : TxStatus)
    (b : CanBoard n m) : Traffic :=
  { safety := [.tx ts toPush] } ++
    if (safetyTxHook fw.toFirmware ts toPush b.safety).1 then
      queueTraffic fw toPush toPush.bus.toNat tsr b
    else
      { toHost := [canSetChecksum { toPush with returned := false, rejected := true }] }

def sendAllTraffic (fw : CanBuild) : List CANPacket → List (UInt32 × TxStatus) → CanBoard n m →
    Traffic
  | [], _, _ => {}
  | p :: ps, sts, b =>
    let st := sts.headD (0, {})
    sendTraffic fw p st.1 st.2 b ++
      sendAllTraffic fw ps sts.tail (canSend fw p p.bus.toNat false st.1 st.2 b).2

def forwardTraffic (fw : CanBuild) (busNumber : Nat) (toPush : CANPacket) (stale : Vector UInt8 8)
    (tsr : TxStatus) (b : CanBoard n m) : Traffic :=
  match safetyFwdHook fw.toFirmware busNumber toPush.addr.toNat b.safety with
  | none => {}
  | some busFwdNum =>
    queueTraffic fw (canSetChecksum (forwarded toPush stale)) busFwdNum tsr b

def traffic (fw : CanBuild) (b : CanBoard n m) : CanPath.Event → Traffic
  | .rx canNumber fifo stale ts tsr =>
    let busNumber := fw.busLookup canNumber
    let toPush := canSetChecksum (fifo.toPacket false busNumber)
    forwardTraffic fw busNumber toPush stale tsr b ++
      { toHost := if fw.hostVisible busNumber toPush.addr.toNat then [toPush] else []
        safety := [.rx ts toPush] }
  | .txIrq canNumber tsr => processTraffic fw canNumber tsr b
  | .hostWrite data sts =>
    let w := commsCanWrite data b.canWriteBuffer
    sendAllTraffic fw w.sent sts { b with canWriteBuffer := w.buf }
  | .safety e => { safety := [e] }
  | .hostRead _ | .control _ _ => {}

/-! ## The account of a function -/

/-- The packets offered to the queue of bus `k`. -/
def onBus (k : Nat) (os : List Offer) : List CANPacket :=
  (os.filter fun o => o.bus = k).map Offer.packet

/-- The packets popped from the queue of bus `k`. -/
def fromBus (fw : CanBuild) (k : Nat) (ds : List Departure) : List CANPacket :=
  (ds.filter fun d => fw.busLookup d.canNumber = k).map Departure.packet

/-- The packets loaded into mailbox `i`. -/
def loaded (fw : CanBuild) (i : Nat) (ds : List Departure) : List CANPacket :=
  (ds.filter fun d => fw.cans d.canNumber = i ∧ canCheckChecksum d.packet).map Departure.packet

@[simp] theorem onBus_append (k : Nat) (os os' : List Offer) :
    onBus k (os ++ os') = onBus k os ++ onBus k os' := by
  simp [onBus]

@[simp] theorem fromBus_append (fw : CanBuild) (k : Nat) (ds ds' : List Departure) :
    fromBus fw k (ds ++ ds') = fromBus fw k ds ++ fromBus fw k ds' := by
  simp [fromBus]

@[simp] theorem loaded_append (fw : CanBuild) (i : Nat) (ds ds' : List Departure) :
    loaded fw i (ds ++ ds') = loaded fw i ds ++ loaded fw i ds' := by
  simp [loaded]

/-- The mailbox after the packets `ps` have been loaded into it. -/
def afterLoads (r : Mailbox) (ps : List CANPacket) : Mailbox :=
  ps.foldl (fun _ p => Mailbox.ofPacket p) r

/-- From `b` to `b'` with the traffic `t`, packets lost but neither reordered nor doubled. -/
structure Loose (fw : CanBuild) (b : CanBoard n m) (t : Traffic) (b' : CanBoard n m) : Prop where
  order : ∀ k, Passes List.Sublist (b.canQueues k).contents (onBus k t.offers)
    (fromBus fw k t.departures) (b'.canQueues k).contents
  mailbox : ∀ i, b'.txMailbox i = afterLoads (b.txMailbox i) (loaded fw i t.departures)
  toHost : List.Sublist b'.canRxQ.contents (b.canRxQ.contents ++ t.toHost)
  safety : b'.safety = Safety.run fw.toFirmware b.safety t.safety

/-- No packet is lost on a bus whose queue has room for what it is offered. -/
structure Books (fw : CanBuild) (b : CanBoard n m) (t : Traffic) (b' : CanBoard n m) : Prop
    extends Loose fw b t b' where
  exact : ∀ k, (onBus k t.offers).length ≤ (b.canQueues k).slotsEmpty →
    Passes (· = ·) (b.canQueues k).contents (onBus k t.offers)
      (fromBus fw k t.departures) (b'.canQueues k).contents
  slots : ∀ k, (b.canQueues k).slotsEmpty ≤
    (b'.canQueues k).slotsEmpty + (onBus k t.offers).length

section Composing

variable {fw : CanBuild} {b b₁ b₂ : CanBoard n m} {t t₁ t₂ : Traffic}

theorem Loose.none (fw : CanBuild) (b : CanBoard n m) : Loose fw b {} b where
  order _ := Passes.none appending_sublist _
  mailbox _ := rfl
  toHost := by simp
  safety := rfl

theorem Books.none (fw : CanBuild) (b : CanBoard n m) : Books fw b {} b where
  toLoose := Loose.none fw b
  exact _ _ := Passes.none appending_eq _
  slots _ := le_refl _

theorem Loose.trans (h₁ : Loose fw b t₁ b₁) (h₂ : Loose fw b₁ t₂ b₂) :
    Loose fw b (t₁ ++ t₂) b₂ where
  order k := by
    simp only [offers_append, departures_append, onBus_append, fromBus_append]
    exact (h₁.order k).trans appending_sublist (h₂.order k)
  mailbox i := by
    simp only [departures_append, loaded_append, afterLoads, List.foldl_append]
    rw [h₂.mailbox i, h₁.mailbox i]
    rfl
  toHost := by
    have hfirst : List.Sublist (b₁.canRxQ.contents ++ t₂.toHost)
        (b.canRxQ.contents ++ t₁.toHost ++ t₂.toHost) :=
      List.Sublist.append h₁.toHost (List.Sublist.refl _)
    rw [toHost_append, ← List.append_assoc]
    exact h₂.toHost.trans hfirst
  safety := by
    rw [h₂.safety, h₁.safety, safety_append]
    exact (Run.run_append _ _ _ _).symm

theorem Books.trans (h₁ : Books fw b t₁ b₁) (h₂ : Books fw b₁ t₂ b₂) :
    Books fw b (t₁ ++ t₂) b₂ where
  toLoose := h₁.toLoose.trans h₂.toLoose
  exact k hroom := by
    simp only [offers_append, departures_append, onBus_append, fromBus_append,
      List.length_append] at hroom ⊢
    have hslots := h₁.slots k
    have hfirst := h₁.exact k (by omega)
    have hsecond := h₂.exact k (by omega)
    exact hfirst.trans appending_eq hsecond
  slots k := by
    have hfirst := h₁.slots k
    have hsecond := h₂.slots k
    simp only [offers_append, onBus_append, List.length_append]
    omega

/-- A function that touches neither the transmit queues nor the mailboxes. -/
theorem Books.of_frame (hq : b₁.canQueues = b.canQueues) (hmail : b₁.txMailbox = b.txMailbox)
    {toHost : List CANPacket} {es : List Safety.Event}
    (hrx : List.Sublist b₁.canRxQ.contents (b.canRxQ.contents ++ toHost))
    (hsafety : b₁.safety = Safety.run fw.toFirmware b.safety es) :
    Books fw b { toHost := toHost, safety := es } b₁ where
  order k := by
    rw [hq]
    exact Passes.none appending_sublist _
  exact k _ := by
    rw [hq]
    exact Passes.none appending_eq _
  slots k := by
    rw [hq]
    exact Nat.le_add_right _ _
  mailbox i := by
    rw [hmail]
    rfl
  toHost := hrx
  safety := hsafety

end Composing

section Functions

variable (fw : CanBuild) (b : CanBoard n m)

theorem pushRx_sublist (p : CANPacket) :
    List.Sublist (b.pushRx p).canRxQ.contents (b.canRxQ.contents ++ [p]) := by
  have hpush : (b.pushRx p).canRxQ = (b.canRxQ.push p).2 := rfl
  rw [hpush]
  cases h : b.canRxQ.push p with
  | mk ok q =>
    cases ok with
    | true => rw [Ring.push_accepted h]
    | false =>
      rw [Ring.push_refused h]
      exact List.sublist_append_left _ _

theorem pushRx_books (p : CANPacket) : Books fw b { toHost := [p] } (b.pushRx p) := by
  refine Books.of_frame ?_ ?_ (pushRx_sublist b p) ?_
  · rfl
  · rfl
  · rfl

theorem push_books (k : Nat) (p : CANPacket) :
    Books fw b { offers := [{ bus := k, packet := p }] }
      (b.setQueue k (canPush (b.canQueues k) p).2) := by
  have hslots : (canPush (b.canQueues k) p).2.slotsEmpty = (b.canQueues k).slotsEmpty - 1 :=
    Ring.slotsEmpty_push _ p
  have hfree := Ring.push_fst (b.canQueues k) p
  have hcontents : ∀ j, j ≠ k →
      ((b.setQueue k (canPush (b.canQueues k) p).2).canQueues j) = b.canQueues j := by
    intro j hj
    simp [CanBoard.setQueue, hj]
  have hself : (b.setQueue k (canPush (b.canQueues k) p).2).canQueues k =
      (canPush (b.canQueues k) p).2 := by simp [CanBoard.setQueue]
  have hother : ∀ j, j ≠ k → onBus j [{ bus := k, packet := p }] = [] := by
    intro j hj
    simp [onBus, Ne.symm hj]
  have hown : onBus k [{ bus := k, packet := p }] = [p] := by simp [onBus]
  have hpush : ∀ ok q, (b.canQueues k).push p = (ok, q) →
      (canPush (b.canQueues k) p).2 = q := fun ok q h => congrArg Prod.snd h
  refine
    { order := ?_, exact := ?_, slots := ?_, mailbox := fun i => rfl, toHost := by simp [CanBoard.setQueue],
      safety := rfl }
  · intro j
    by_cases hj : j = k
    · subst hj
      rw [hself, hown]
      cases h : (b.canQueues j).push p with
      | mk ok q =>
        rw [hpush ok q h]
        cases ok with
        | true =>
          rw [Ring.push_accepted h]
          exact List.Sublist.refl _
        | false =>
          rw [Ring.push_refused h]
          exact List.sublist_append_left _ _
    · rw [hcontents j hj, hother j hj]
      exact Passes.none appending_sublist _
  · intro j hroom
    by_cases hj : j = k
    · subst hj
      rw [hown, List.length_singleton] at hroom
      have hok := hfree.2 hroom
      rw [hself, hown]
      cases h : (b.canQueues j).push p with
      | mk ok q =>
        rw [h] at hok
        cases hok
        rw [hpush _ q h, Ring.push_accepted h]
        rfl
    · rw [hcontents j hj, hother j hj]
      exact Passes.none appending_eq _
  · intro j
    by_cases hj : j = k
    · subst hj
      rw [hself, hown, hslots, List.length_singleton]
      omega
    · rw [hcontents j hj]
      exact Nat.le_add_right _ _

/-- A pop of the queue behind `canNumber`, and the load of its mailbox. -/
theorem sendNext_books (canNumber : Nat) :
    Books fw b { departures := popTraffic fw canNumber b } (sendNext fw canNumber b).2 := by
  unfold popTraffic sendNext
  dsimp only
  cases hpop : canPop (b.canQueues (fw.busLookup canNumber)) with
  | none => exact Books.none fw b
  | some r =>
    obtain ⟨p, q⟩ := r
    have hcontents : (b.canQueues (fw.busLookup canNumber)).contents = p :: q.contents :=
      Ring.pop_some hpop
    have hslots : q.slotsEmpty = (b.canQueues (fw.busLookup canNumber)).slotsEmpty + 1 :=
      Ring.slotsEmpty_pop hpop
    have hbook : ∀ j, Passes (· = ·) (b.canQueues j).contents []
        (fromBus fw j [{ canNumber := canNumber, packet := p }])
        ((b.setQueue (fw.busLookup canNumber) q).canQueues j).contents := by
      intro j
      by_cases hj : fw.busLookup canNumber = j
      · subst hj
        simp [Passes, fromBus, CanBoard.setQueue, hcontents]
      · have hne : j ≠ fw.busLookup canNumber := Ne.symm hj
        simp [Passes, fromBus, CanBoard.setQueue, hj, hne]
    have hroom : ∀ j, (b.canQueues j).slotsEmpty ≤
        ((b.setQueue (fw.busLookup canNumber) q).canQueues j).slotsEmpty := by
      intro j
      by_cases hj : j = fw.busLookup canNumber
      · subst hj
        simp [CanBoard.setQueue, hslots]
      · simp [CanBoard.setQueue, hj]
    have hsub : ∀ j, Passes List.Sublist (b.canQueues j).contents []
        (fromBus fw j [{ canNumber := canNumber, packet := p }])
        ((b.setQueue (fw.busLookup canNumber) q).canQueues j).contents := by
      intro j
      have heq := hbook j
      unfold Passes at heq ⊢
      rw [heq]
    dsimp only
    by_cases hsum : canCheckChecksum p
    · rw [if_pos hsum]
      refine
        { order := hsub, exact := fun j _ => hbook j, slots := hroom, mailbox := ?_,
          toHost := by simp [CanBoard.setQueue], safety := rfl }
      intro i
      by_cases hi : fw.cans canNumber = i
      · subst hi
        simp [loaded, afterLoads, hsum]
      · have hne : i ≠ fw.cans canNumber := Ne.symm hi
        simp [loaded, afterLoads, hi, hne, CanBoard.setQueue]
    · rw [if_neg hsum]
      refine
        { order := hsub, exact := fun j _ => hbook j, slots := hroom, mailbox := ?_,
          toHost := by simp [CanBoard.setQueue], safety := rfl }
      intro i
      simp [loaded, afterLoads, hsum, CanBoard.setQueue]

theorem txEcho_books (canNumber : Nat) :
    Books fw b { toHost := echoTraffic fw canNumber b } (txEcho fw canNumber b).2 := by
  unfold echoTraffic txEcho
  dsimp only
  split
  · exact pushRx_books fw b _
  · exact Books.none fw b

theorem processCan_books (canNumber : Nat) (tsr : TxStatus) :
    Books fw b (processTraffic fw canNumber tsr b) (processCan fw canNumber tsr b).2 := by
  unfold processTraffic processCan
  split
  · dsimp only
    have hecho : Books fw b
        { toHost := if tsr.rqcp0 && tsr.txok0 then echoTraffic fw canNumber b else [] }
        (if tsr.rqcp0 && tsr.txok0 then txEcho fw canNumber b else ([], b)).2 := by
      split
      · exact txEcho_books fw b canNumber
      · exact Books.none fw b
    have hqueues : (if tsr.rqcp0 && tsr.txok0 then txEcho fw canNumber b
        else ([], b)).2.canQueues = b.canQueues := by
      unfold txEcho
      split
      · dsimp only
        split <;> rfl
      · rfl
    have hpop := sendNext_books fw
      (if tsr.rqcp0 && tsr.txok0 then txEcho fw canNumber b else ([], b)).2 canNumber
    unfold popTraffic at hpop
    rw [hqueues] at hpop
    have hboth := hecho.trans hpop
    have hsplit : ({ departures := popTraffic fw canNumber b
                     toHost :=
                       if tsr.rqcp0 && tsr.txok0 then echoTraffic fw canNumber b else [] } :
          Traffic) =
        { toHost := if tsr.rqcp0 && tsr.txok0 then echoTraffic fw canNumber b else [] } ++
          { departures := popTraffic fw canNumber b } := by
      ext1 <;> simp
    rw [hsplit]
    exact hboth
  · exact Books.none fw b

theorem queue_books (toPush : CANPacket) (busNumber : Nat) (tsr : TxStatus) :
    Books fw b (queueTraffic fw toPush busNumber tsr b)
      (if busNumber < 3 then
        processCan fw (fw.canNumLookup busNumber) tsr
          (b.setQueue busNumber (canPush (b.canQueues busNumber) toPush).2)
      else ([], b)).2 := by
  unfold queueTraffic
  split
  · exact (push_books fw b busNumber toPush).trans (processCan_books fw _ _ tsr)
  · exact Books.none fw b

/-- The hook is asked, and changes the safety state only. -/
theorem hook_books (s : SafetyState) (es : List Safety.Event)
    (h : s = Safety.run fw.toFirmware b.safety es) :
    Books fw b { safety := es } { b with safety := s } := by
  refine Books.of_frame ?_ ?_ ?_ h
  · rfl
  · rfl
  · simp

theorem canSend_books (toPush : CANPacket) (ts : UInt32) (tsr : TxStatus) :
    Books fw b (sendTraffic fw toPush ts tsr b)
      (canSend fw toPush toPush.bus.toNat false ts tsr b).2 := by
  unfold sendTraffic canSend
  simp only [Bool.false_eq_true, if_false]
  have hhook := hook_books fw b (safetyTxHook fw.toFirmware ts toPush b.safety).2
    [.tx ts toPush] rfl
  refine hhook.trans ?_
  split
  · exact queue_books fw _ toPush toPush.bus.toNat tsr
  · exact pushRx_books fw _ _

theorem sendAll_books (ps : List CANPacket) (sts : List (UInt32 × TxStatus)) :
    Books fw b (sendAllTraffic fw ps sts b) (sendAll fw ps sts b).2 := by
  induction ps generalizing sts b with
  | nil => exact Books.none fw b
  | cons p ps ih =>
    have hone := canSend_books fw b p (sts.headD (0, {})).1 (sts.headD (0, {})).2
    exact hone.trans (ih _ sts.tail)

theorem forward_books (busNumber : Nat) (toPush : CANPacket) (stale : Vector UInt8 8)
    (ts : UInt32) (tsr : TxStatus) :
    Books fw b (forwardTraffic fw busNumber toPush stale tsr b)
      (forward fw busNumber toPush stale ts tsr b).2 := by
  unfold forwardTraffic forward
  cases safetyFwdHook fw.toFirmware busNumber toPush.addr.toNat b.safety with
  | none => exact Books.none fw b
  | some busFwdNum => exact queue_books fw b _ busFwdNum tsr

theorem forward_safety (busNumber : Nat) (toPush : CANPacket) (stale : Vector UInt8 8)
    (tsr : TxStatus) :
    (forwardTraffic fw busNumber toPush stale tsr b).safety = [] := by
  unfold forwardTraffic queueTraffic processTraffic
  cases safetyFwdHook fw.toFirmware busNumber toPush.addr.toNat b.safety with
  | none => rfl
  | some busFwdNum =>
    dsimp only
    split
    · split <;> rfl
    · rfl

theorem canRx_books (canNumber : Nat) (fifo : Mailbox) (stale : Vector UInt8 8) (ts : UInt32)
    (tsr : TxStatus) :
    Books fw b (traffic fw b (.rx canNumber fifo stale ts tsr))
      (canRx fw canNumber fifo stale ts tsr b).2 := by
  have hforward := forward_books fw b (fw.busLookup canNumber)
    (canSetChecksum (fifo.toPacket false (fw.busLookup canNumber))) stale ts tsr
  refine hforward.trans ?_
  refine Books.of_frame ?_ ?_ ?_ ?_
  · simp only [canRx]
    split <;> rfl
  · simp only [canRx]
    split <;> rfl
  · simp only [canRx]
    split
    · exact pushRx_sublist _ _
    · simp
  · simp only [canRx]
    split <;> rfl

theorem fillLoop_contents (maxLen k : Nat) (f : Filling n) :
    List.Sublist (fillLoop maxLen k [] f).canRxQ.contents f.canRxQ.contents := by
  induction k generalizing f with
  | zero => exact List.Sublist.refl _
  | succ k ih =>
    simp only [fillLoop, List.headD_nil, pushAll, List.tail_nil]
    split
    · split
      · exact List.Sublist.refl _
      · next p q hpop =>
        have hframe : (appendPacket maxLen p { f with arrived := f.arrived ++ [], canRxQ := q }).canRxQ =
            q := by
          unfold appendPacket
          dsimp only
          split <;> rfl
        have hpopped : f.canRxQ.contents = p :: q.contents := Ring.pop_some hpop
        have hrest := ih (appendPacket maxLen p { f with arrived := f.arrived ++ [], canRxQ := q })
        rw [hframe] at hrest
        rw [hpopped]
        exact hrest.cons p
    · exact List.Sublist.refl _

/-- The host's reads only pop. -/
theorem hostRead_contents (maxLen : Nat) :
    List.Sublist (hostRead maxLen b).2.canRxQ.contents b.canRxQ.contents := by
  have htail : (sendTail maxLen { canRxQ := b.canRxQ, canReadBuffer := b.canReadBuffer }).canRxQ =
      b.canRxQ := by
    unfold sendTail
    dsimp only
    split <;> rfl
  simp only [hostRead, Comms.commsCanRead]
  split
  · have hpopped := fillLoop_contents maxLen maxLen
      (sendTail maxLen { canRxQ := b.canRxQ, canReadBuffer := b.canReadBuffer })
    rw [htail] at hpopped
    exact hpopped
  · rw [htail]

theorem control_loose (request : UInt8) (param1 : UInt16) :
    Loose fw b {} (CanPath.commsControlHandler request param1 b) := by
  have hclear : ∀ k j, List.Sublist ((b.setQueue k (b.canQueues k).clear).canQueues j).contents
      (b.canQueues j).contents := by
    intro k j
    by_cases hj : j = k <;> simp [CanBoard.setQueue, hj]
  unfold CanPath.commsControlHandler
  split
  · exact
      { order := (Loose.none fw b).order
        mailbox := fun _ => rfl
        toHost := (Loose.none fw b).toHost
        safety := rfl }
  · split
    · split
      · exact
          { order := (Loose.none fw b).order
            mailbox := fun _ => rfl
            toHost := by simp
            safety := rfl }
      · split
        · exact
            { order := fun j => by simpa [Passes, fromBus, onBus] using hclear param1.toNat j
              mailbox := fun _ => rfl
              toHost := by simp [CanBoard.setQueue]
              safety := rfl }
        · exact Loose.none fw b
    · exact Loose.none fw b

/-- The request that empties the transmit queue of bus `k`. -/
def Clears (k : Nat) (e : CanPath.Event) : Prop :=
  ∃ param1 : UInt16, e = .control 0xf1 param1 ∧ param1 < 3 ∧ param1.toNat = k

theorem traffic_books {e : CanPath.Event} (he : ∀ request param1, e ≠ .control request param1) :
    Books fw b (traffic fw b e) (CanPath.step fw b e) := by
  cases e with
  | rx canNumber fifo stale ts tsr => exact canRx_books fw b canNumber fifo stale ts tsr
  | txIrq canNumber tsr => exact processCan_books fw b canNumber tsr
  | hostWrite data sts =>
    have hsend := sendAll_books fw
      { b with canWriteBuffer := (commsCanWrite data b.canWriteBuffer).buf }
      (commsCanWrite data b.canWriteBuffer).sent sts
    exact
      { order := hsend.order
        mailbox := hsend.mailbox
        toHost := hsend.toHost
        safety := hsend.safety
        exact := hsend.exact
        slots := hsend.slots }
  | hostRead maxLen =>
    refine Books.of_frame ?_ ?_ ?_ ?_
    · rfl
    · rfl
    · rw [List.append_nil]
      exact hostRead_contents b maxLen
    · rfl
  | control request param1 => exact absurd rfl (he request param1)
  | safety e => exact hook_books fw b (Safety.step fw.toFirmware b.safety e) [e] rfl

theorem traffic_loose (e : CanPath.Event) :
    Loose fw b (traffic fw b e) (CanPath.step fw b e) := by
  cases e with
  | control request param1 => exact control_loose fw b request param1
  | rx => exact (traffic_books fw b (by simp)).toLoose
  | txIrq => exact (traffic_books fw b (by simp)).toLoose
  | hostWrite => exact (traffic_books fw b (by simp)).toLoose
  | hostRead => exact (traffic_books fw b (by simp)).toLoose
  | safety => exact (traffic_books fw b (by simp)).toLoose

/-- The queue of bus `k` is not emptied, and has room for what the event offers it. -/
def Fits (k : Nat) (b : CanBoard n m) (e : CanPath.Event) : Prop :=
  ¬ Clears k e ∧ (onBus k (traffic fw b e).offers).length ≤ (b.canQueues k).slotsEmpty

end Functions

/-! ## Runs -/

/-- The traffic of a run. -/
def allTraffic (fw : CanBuild) : CanBoard n m → List CanPath.Event → Traffic
  | _, [] => {}
  | b, e :: es => traffic fw b e ++ allTraffic fw (CanPath.step fw b e) es

theorem allTraffic_loose (fw : CanBuild) (b : CanBoard n m) (es : List CanPath.Event) :
    Loose fw b (allTraffic fw b es) (Run.run (CanPath.step fw) b es) := by
  induction es generalizing b with
  | nil => exact Loose.none fw b
  | cons e es ih => exact (traffic_loose fw b e).trans (ih (CanPath.step fw b e))

/-- The host wrote the packet for this bus, and the hook let it pass in the state the safety layer
had come to by then. -/
def FromHost (fw : CanBuild) (s : SafetyState) (seen : List Safety.Event) (o : Offer) : Prop :=
  ∃ pre ts, pre ++ [.tx ts o.packet] <+: seen ∧ o.bus = o.packet.bus.toNat ∧
    (safetyTxHook fw.toFirmware ts o.packet (Safety.run fw.toFirmware s pre)).1 = true

/-- The packet is the copy of a frame received on another bus, which `safety_fwd_hook` sent to this
one. The frame is the next thing the safety layer saw. -/
def FromBus (fw : CanBuild) (s : SafetyState) (seen : List Safety.Event) (o : Offer) : Prop :=
  ∃ pre ts canNumber fifo stale,
    pre ++ [.rx ts (canSetChecksum (Mailbox.toPacket fifo false (fw.busLookup canNumber)))] <+: seen ∧
      safetyFwdHook fw.toFirmware (fw.busLookup canNumber)
          (Mailbox.toPacket fifo false (fw.busLookup canNumber)).addr.toNat
          (Safety.run fw.toFirmware s pre) = some o.bus ∧
        o.packet = canSetChecksum
          (forwarded (canSetChecksum (Mailbox.toPacket fifo false (fw.busLookup canNumber))) stale)

def Origin (fw : CanBuild) (s : SafetyState) (seen : List Safety.Event) (o : Offer) : Prop :=
  FromHost fw s seen o ∨ FromBus fw s seen o

section Origins

variable {fw : CanBuild} {s : SafetyState} {seen : List Safety.Event} {o : Offer}

theorem Origin.later (h : Origin fw s seen o) (more : List Safety.Event) :
    Origin fw s (seen ++ more) o := by
  have hlong : ∀ pre, pre <+: seen → pre <+: seen ++ more := fun pre hp =>
    hp.trans (List.prefix_append seen more)
  rcases h with ⟨pre, ts, hp, hbus, hhook⟩ | ⟨pre, ts, canNumber, fifo, stale, hp, hhook, hpkt⟩
  · exact .inl ⟨pre, ts, hlong _ hp, hbus, hhook⟩
  · exact .inr ⟨pre, ts, canNumber, fifo, stale, hlong _ hp, hhook, hpkt⟩

theorem Origin.after (before : List Safety.Event)
    (h : Origin fw (Safety.run fw.toFirmware s before) seen o) :
    Origin fw s (before ++ seen) o := by
  have hrun : ∀ pre, Safety.run fw.toFirmware (Safety.run fw.toFirmware s before) pre =
      Safety.run fw.toFirmware s (before ++ pre) := fun pre => (Run.run_append _ _ _ _).symm
  have hlong : ∀ pre : List Safety.Event, ∀ e, pre ++ [e] <+: seen →
      before ++ pre ++ [e] <+: before ++ seen := by
    intro pre e hp
    rw [List.append_assoc]
    exact (List.prefix_append_right_inj before).2 hp
  rcases h with ⟨pre, ts, hp, hbus, hhook⟩ | ⟨pre, ts, canNumber, fifo, stale, hp, hhook, hpkt⟩
  · rw [hrun] at hhook
    exact .inl ⟨before ++ pre, ts, hlong _ _ hp, hbus, hhook⟩
  · rw [hrun] at hhook
    exact .inr ⟨before ++ pre, ts, canNumber, fifo, stale, hlong _ _ hp, hhook, hpkt⟩

end Origins

section Provenance

variable (fw : CanBuild) (b : CanBoard n m)

theorem processTraffic_offers (canNumber : Nat) (tsr : TxStatus) :
    (processTraffic fw canNumber tsr b).offers = [] := by
  unfold processTraffic
  split <;> rfl

/-- What the hook approved is all that is offered. -/
theorem queueTraffic_offers {toPush : CANPacket} {busNumber : Nat} {tsr : TxStatus} {o : Offer}
    (h : o ∈ (queueTraffic fw toPush busNumber tsr b).offers) :
    o = { bus := busNumber, packet := toPush } := by
  unfold queueTraffic at h
  split at h
  · rw [offers_append, processTraffic_offers, List.append_nil] at h
    exact List.mem_singleton.1 h
  · cases h

theorem sendTraffic_origin (toPush : CANPacket) (ts : UInt32) (tsr : TxStatus) :
    ∀ o ∈ (sendTraffic fw toPush ts tsr b).offers,
      Origin fw b.safety (sendTraffic fw toPush ts tsr b).safety o := by
  intro o ho
  unfold sendTraffic at ho ⊢
  rw [offers_append, List.nil_append] at ho
  rw [safety_append]
  split at ho
  · next hhook =>
    rw [queueTraffic_offers fw b ho]
    have hasked : FromHost fw b.safety [.tx ts toPush]
        { bus := toPush.bus.toNat, packet := toPush } :=
      ⟨[], ts, List.prefix_refl _, rfl, hhook⟩
    exact Origin.later (.inl hasked) _
  · cases ho

theorem sendAllTraffic_origin (ps : List CANPacket) (sts : List (UInt32 × TxStatus)) :
    ∀ o ∈ (sendAllTraffic fw ps sts b).offers,
      Origin fw b.safety (sendAllTraffic fw ps sts b).safety o := by
  induction ps generalizing sts b with
  | nil =>
    intro o ho
    cases ho
  | cons p ps ih =>
    intro o ho
    simp only [sendAllTraffic, offers_append, safety_append] at ho ⊢
    rcases List.mem_append.1 ho with hfirst | hrest
    · exact (sendTraffic_origin fw b p _ _ o hfirst).later _
    · have hone := ih _ sts.tail o hrest
      rw [(canSend_books fw b p (sts.headD (0, {})).1 (sts.headD (0, {})).2).safety] at hone
      exact hone.after _

theorem traffic_origin (e : CanPath.Event) :
    ∀ o ∈ (traffic fw b e).offers, Origin fw b.safety (traffic fw b e).safety o := by
  intro o ho
  cases e with
  | rx canNumber fifo stale ts tsr =>
    simp only [traffic, offers_append, safety_append, forward_safety, List.append_nil,
      List.nil_append] at ho ⊢
    unfold forwardTraffic at ho
    split at ho
    · cases ho
    · next busFwdNum hfwd =>
      rw [queueTraffic_offers fw b ho]
      exact .inr ⟨[], ts, canNumber, fifo, stale, List.prefix_refl _, hfwd, rfl⟩
  | txIrq canNumber tsr =>
    rw [traffic, processTraffic_offers] at ho
    cases ho
  | hostWrite data sts => exact sendAllTraffic_origin fw _ _ sts o ho
  | hostRead maxLen => cases ho
  | control request param1 => cases ho
  | safety e => cases ho

theorem allTraffic_origin (es : List CanPath.Event) :
    ∀ o ∈ (allTraffic fw b es).offers, Origin fw b.safety (allTraffic fw b es).safety o := by
  induction es generalizing b with
  | nil =>
    intro o ho
    cases ho
  | cons e es ih =>
    intro o ho
    simp only [allTraffic, offers_append, safety_append] at ho ⊢
    rcases List.mem_append.1 ho with hfirst | hrest
    · exact (traffic_origin fw b e o hfirst).later _
    · have hone := ih (CanPath.step fw b e) o hrest
      rw [(traffic_loose fw b e).safety] at hone
      exact hone.after _

end Provenance

/-! ## What leaves the board -/

/-- From power-on, whatever the buses and the host do with frames of at most eight bytes: every copy
stays inside its object, the safety layer has run through the events of the traffic, and every
packet that `process_can` has taken off a queue was approved by the transmit hook, or sent across by
the forward hook, in the state the safety layer was in then. -/
theorem departures_authorised (fw : CanBuild) (n m : Nat) (statics : List Int)
    {es : List CanPath.Event} (hshort : Run.AllSteps carry ShortInput [] es) :
    let t := allTraffic fw (CanPath.boot n m statics) es
    Run.AllSteps (CanPath.step fw) (Inside fw) (CanPath.boot n m statics) es ∧
      (Run.run (CanPath.step fw) (CanPath.boot n m statics) es).safety =
        Safety.run fw.toFirmware (powerOn statics) t.safety ∧
      ∀ d ∈ t.departures, Origin fw (powerOn statics) t.safety
        { bus := fw.busLookup d.canNumber, packet := d.packet } := by
  have hbooks := allTraffic_loose fw (CanPath.boot n m statics) es
  refine ⟨((bounded_boot n m statics).run_inside_iff fw es).2 hshort, hbooks.safety, ?_⟩
  intro d hd
  have hqueue : ((CanPath.boot n m statics).canQueues (fw.busLookup d.canNumber)).contents = [] :=
    Ring.contents_empty _ _
  have horder := hbooks.order (fw.busLookup d.canNumber)
  unfold Passes at horder
  rw [hqueue, List.nil_append] at horder
  have hpopped : d.packet ∈
      fromBus fw (fw.busLookup d.canNumber) (allTraffic fw (CanPath.boot n m statics) es).departures :=
    List.mem_map.2 ⟨d, List.mem_filter.2 ⟨hd, by simp⟩, rfl⟩
  have hoffered := horder.subset (List.mem_append_left _ hpopped)
  obtain ⟨o, ho, hpacket⟩ := List.mem_map.1 hoffered
  obtain ⟨hmem, hbus⟩ := List.mem_filter.1 ho
  have hsame : o = { bus := fw.busLookup d.canNumber, packet := d.packet } := by
    cases o
    simp only [decide_eq_true_eq] at hbus hpacket
    rw [hbus, hpacket]
  rw [← hsame]
  exact allTraffic_origin fw (CanPath.boot n m statics) es o hmem

/-- Two frames of the host's, and one across to the camera. -/
def crossTraffic : List CanPath.Event :=
  [.safety (.setMode safetyMazda 0), .hostWrite (packed lkasIdle ++ packed lkasIdle) [],
    .rx 0 { ir := (0x202 : UInt32) <<< 21, dtr := 8 } (Vector.replicate 8 0) 0 { tme0 := true },
    .txIrq 0 { tme0 := true }]

theorem crossTraffic_short : Run.AllSteps carry ShortInput [] crossTraffic :=
  ⟨trivial, by decide +kernel, by decide +kernel, trivial, trivial⟩

theorem departures_authorised_crossTraffic :
    let t := allTraffic .f407 (CanPath.boot 1 1 []) crossTraffic
    (t.departures.map fun d => (d.canNumber, d.packet.addr.toNat)) = [(2, 0x202), (0, 0x243)] ∧
      ∀ d ∈ t.departures, Origin .f407 (powerOn []) t.safety
        { bus := CanBuild.f407.busLookup d.canNumber, packet := d.packet } :=
  ⟨by decide +kernel, (departures_authorised .f407 1 1 [] crossTraffic_short).2.2⟩

end Gateway
end Board
end MazdaPort
