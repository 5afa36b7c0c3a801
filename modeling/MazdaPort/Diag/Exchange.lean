import MazdaPort.Diag.IsoTp

/-!
# MazdaPort.Diag.Exchange

Two messages at the ends of a bus, one that sends and one that receives. Frames wait in order on
either side, and either side takes its next one when it comes to it.

`exchange_delivers`: whatever the order in which the two take their frames, nothing raises, what has
been received is a beginning of what was sent, and the two come to rest with all of it.
-/

namespace MazdaPort
namespace Diag

open IsoTpMessage

/-! ## A frame arrives -/

/-- What `c` sends is for `d`. -/
structure Linked (c d : CanClient) : Prop where
  bus : d.bus = c.bus
  rxAddr : d.rxAddr = c.txAddr
  rxSubAddr : d.rxSubAddr = c.subAddr
  subAddr : d.subAddr.isNone = c.subAddr.isNone
  physical : d.Physical

def CanClient.frame (c : CanClient) (msg : List UInt8) : CanData :=
  { address := c.txAddr, dat := c.subAddr.toList ++ msg, src := c.bus }

section Arrival

variable {c d : CanClient} {a b : IsoTpMessage}

theorem Linked.recvBuffer (h : Linked c d) {msg : List UInt8} (hne : msg ≠ []) :
    d.recvBuffer (c.frame msg) = (d, some (.ok msg)) := by
  obtain ⟨x, xs, rfl⟩ := List.exists_cons_of_ne_nil hne
  unfold CanClient.recvBuffer CanClient.frame
  rw [CanClient.recvFilter_physical h.physical]
  simp only [h.bus, h.rxAddr, h.rxSubAddr, beq_self_eq_true, Bool.and_self]
  cases c.subAddr with
  | none => rfl
  | some s => simp

theorem receive_frame (h : Linked a.canClient b.canClient) {msg : List UInt8} (hne : msg ≠ []) :
    b.receive (a.canClient.frame msg) =
      { msg := (b.isotpRxNext msg).msg
        sent := (b.isotpRxNext msg).msg.canClient.send (b.isotpRxNext msg).sent
        outcome := some (b.isotpRxNext msg).outcome } := by
  unfold receive
  rw [h.recvBuffer hne]

theorem Linked.maxLen (h : Linked a.canClient b.canClient) : b.maxLen = a.maxLen := by
  unfold IsoTpMessage.maxLen
  rw [h.subAddr]

end Arrival

/-! ## One frame -/

theorem toNat_ofNat_of_lt {n : Nat} (h : n < 256) : (UInt8.ofNat n).toNat = n := by
  simp [Nat.mod_eq_of_lt h]

theorem and_low (n : Nat) : n &&& 0x0F = n % 16 := Nat.and_two_pow_sub_one_eq_mod n 4

/-- A receiver that nothing has reached yet. -/
structure Fresh (b : IsoTpMessage) : Prop where
  rxDat : b.rxDat = []
  rxIdx : b.rxIdx = 0
  rxDone : b.rxDone = false

/-- `b` with the first `n` bytes of `dat`, `k` frames after the first one. -/
def taken (b : IsoTpMessage) (dat : List UInt8) (n k : Nat) : IsoTpMessage :=
  { b with rxDat := dat.take n, rxLen := dat.length, rxIdx := k
           rxDone := decide (dat.length ≤ n) }

/-- The bytes in the first `k` frames after the first one and in that. -/
def reach (m : IsoTpMessage) (k : Nat) : Nat := m.maxLen - 2 + k * (m.maxLen - 1)

section Frames

variable (b : IsoTpMessage) (dat : List UInt8)

theorem rxNext_single (h : b.rxDat = [] ∨ b.rxDone) (hshort : dat.length < b.maxLen) :
    b.isotpRxNext (ljust b.maxLen (UInt8.ofNat dat.length :: dat)) =
      { msg := taken b dat dat.length 0, sent := [], outcome := .ok .single } := by
  have hmax := b.maxLen_cases
  have hhead : (UInt8.ofNat dat.length).toNat = dat.length := toNat_ofNat_of_lt (by omega)
  have htype : dat.length >>> 4 = 0 := by
    rw [Nat.shiftRight_eq_div_pow]
    omega
  have hlow : (UInt8.ofNat dat.length).toNat &&& 0x0F = dat.length := by
    rw [hhead, and_low]
    omega
  have hcan : (dat ++ List.replicate (b.maxLen - (dat.length + 1)) 0).length < 8 := by
    rw [List.length_append, List.length_replicate]
    omega
  rw [ljust, List.cons_append, isotpRxNext, hhead, if_pos htype, List.length_cons,
    rxSingle_ok h hlow hcan hshort]
  simp [taken]

theorem rxNext_first (h : b.rxDat = [] ∨ b.rxDone) (hlong : b.maxLen ≤ dat.length) (hlen : dat.length ≤ 4095) :
    b.isotpRxNext (ljust (b.maxLen - 2)
        ([UInt8.ofNat ((0x1000 ||| dat.length) >>> 8), UInt8.ofNat (0x1000 ||| dat.length)] ++
          dat.take (b.maxLen - 2))) =
      { msg := taken b dat (reach b 0) 0, sent := [b.flowControlMsg], outcome := .ok .first } := by
  have hmax := b.maxLen_cases
  have hor : 0x1000 ||| dat.length = 4096 + dat.length := by
    have hadd := Nat.two_pow_add_eq_or_of_lt (i := 12) (b := dat.length) (by omega) 1
    simpa using hadd.symm
  have hhigh : (UInt8.ofNat ((4096 + dat.length) >>> 8)).toNat = 16 + dat.length / 256 := by
    rw [Nat.shiftRight_eq_div_pow, toNat_ofNat_of_lt (by omega)]
    omega
  have htype : (16 + dat.length / 256) >>> 4 = 1 := by
    rw [Nat.shiftRight_eq_div_pow]
    omega
  have hlow : (UInt8.ofNat (4096 + dat.length)).toNat = dat.length % 256 := by
    rw [UInt8.toNat_ofNat']
    omega
  have hannounced : ((UInt8.ofNat ((4096 + dat.length) >>> 8)).toNat &&& 0x0F) <<< 8 +
      (UInt8.ofNat (4096 + dat.length)).toNat = dat.length := by
    rw [hhigh, hlow, and_low, Nat.shiftLeft_eq]
    omega
  have htake : (dat.take (b.maxLen - 2)).length + 2 = b.maxLen := by
    rw [List.length_take]
    omega
  have hpad : ljust (b.maxLen - 2) ([UInt8.ofNat ((4096 + dat.length) >>> 8),
        UInt8.ofNat (4096 + dat.length)] ++ dat.take (b.maxLen - 2)) =
      UInt8.ofNat ((4096 + dat.length) >>> 8) :: UInt8.ofNat (4096 + dat.length) ::
        dat.take (b.maxLen - 2) := by
    have hzero : b.maxLen - 2 - ((dat.take (b.maxLen - 2)).length + 1 + 1) = 0 := by omega
    simp only [ljust, List.cons_append, List.nil_append, List.length_cons, hzero,
      List.replicate_zero, List.append_nil]
  have hmore : decide (dat.length ≤ b.maxLen - 2) = false := decide_eq_false (by omega)
  rw [hor, hpad, isotpRxNext, hhigh, htype, if_neg (by decide), if_pos rfl,
    rxFirst_ok h hannounced hlong htake]
  simp only [taken, hmore, reach, Nat.zero_mul, Nat.add_zero]

/-- A padded piece of a list, cut off where the list ends. -/
theorem take_ljust {n off : Nat} {xs : List UInt8} :
    (ljust n ((xs.drop off).take n)).take (xs.length - off) = (xs.drop off).take n := by
  have hlen : ((xs.drop off).take n).length = min n (xs.length - off) := by simp
  rcases Nat.le_total n (xs.length - off) with hle | hle
  · have hzero : n - ((xs.drop off).take n).length = 0 := by omega
    rw [ljust, hzero, List.replicate_zero, List.append_nil, List.take_of_length_le (by omega)]
  · have hall : ((xs.drop off).take n).length = xs.length - off := by omega
    rw [ljust, ← hall, List.take_left]

/-- The piece `k` in the hands of a receiver that has the ones before it. -/
theorem rxNext_piece {a : IsoTpMessage} {k : Nat} (hk : reach a k < a.txDat.length) :
    (taken b a.txDat (reach a k) k).isotpRxNext (a.piece k) =
      { msg := taken b a.txDat (reach a (k + 1)) (k + 1)
        sent := if a.txDat.length ≤ reach a (k + 1) then []
          else if b.singleFrameMode then [b.flowControlMsg] else []
        outcome := .ok .consecutive } := by
  obtain ⟨c, cs, hpiece⟩ : ∃ c cs, a.piece k = c :: cs := ⟨_, _, rfl⟩
  have hhead := a.head_piece k
  rw [hpiece, List.headD_cons] at hhead
  have htype : c.toNat >>> 4 = 2 := by
    rw [hhead, Nat.shiftRight_eq_div_pow]
    omega
  have hidx : (k + 1) &&& 0xF = c.toNat &&& 0xF := by
    rw [hhead, and_low, and_low]
    omega
  have hcs : cs = ljust (a.maxLen - 1) ((a.txDat.drop (reach a k)).take (a.maxLen - 1)) := by
    have htail := a.tail_piece k
    rw [hpiece, List.tail_cons] at htail
    exact htail
  have hlen : (a.txDat.take (reach a k)).length = reach a k := by
    rw [List.length_take]
    omega
  have hnext : reach a (k + 1) = reach a k + (a.maxLen - 1) := by
    rw [reach, reach, Nat.succ_mul, ← Nat.add_assoc]
  have hdat : a.txDat.take (reach a k) ++ cs.take (a.txDat.length - (a.txDat.take (reach a k)).length) =
      a.txDat.take (reach a (k + 1)) := by
    rw [hlen, hcs, take_ljust, hnext, List.take_add]
  have hall : a.txDat.length = (a.txDat.take (reach a (k + 1))).length ↔
      a.txDat.length ≤ reach a (k + 1) := by
    rw [List.length_take]
    omega
  have hactive : (taken b a.txDat (reach a k) k).rxDone = false := decide_eq_false (by omega)
  rw [hpiece, isotpRxNext, htype, if_neg (by decide), if_neg (by decide), if_pos rfl,
    rxConsecutive_ok hactive hidx hdat]
  simp only [taken, hall]
  rfl

/-- Flow control reaches a sender. -/
theorem rxNext_flow {a : IsoTpMessage} (hwait : a.txDone = false) (hless : a.txIdx < a.pieces) :
    let n := if b.singleFrameMode then 1 else a.pieces - a.txIdx
    a.isotpRxNext b.flowControlMsg =
      { msg := { a with txIdx := a.txIdx + n, txDone := decide (a.pieces ≤ a.txIdx + n) }
        sent := (List.range n).map fun i => a.piece (a.txIdx + i)
        outcome := .ok .flow } := by
  intro n
  have hflow : b.flowControlMsg = 0x30 :: (if b.singleFrameMode then 0x01 else 0x00) ::
      b.separationTime :: List.replicate (b.maxLen - 3) 0 := rfl
  have hasked : a.asked (if b.singleFrameMode then (0x01 : UInt8) else 0x00).toNat = n := by
    unfold asked
    cases hmode : b.singleFrameMode <;> simp [n, hmode]
  rw [hflow, isotpRxNext, if_neg (by decide), if_neg (by decide), if_neg (by decide),
    if_pos (by decide), rxFlow_ok hwait hless, hasked]

end Frames

/-! ## Two ends of a bus -/

/-- The frames that wait on either side, what has been raised, and how many frames have been taken. -/
structure Link where
  sender : IsoTpMessage
  receiver : IsoTpMessage
  toReceiver : List CanData
  toSender : List CanData
  errors : List IsoTpError
  carried : Nat

inductive Side where
  | sender
  | receiver
  deriving DecidableEq, Repr

def Reception.errors (r : Reception) : List IsoTpError :=
  match r.outcome with
  | some (.error e) => [e]
  | _ => []

namespace Link

/-- One side takes its next frame, if there is one. -/
def step (s : Link) : Side → Link
  | .sender =>
    match s.toSender with
    | [] => s
    | f :: fs =>
      let r := s.sender.receive f
      { s with sender := r.msg, toSender := fs, toReceiver := s.toReceiver ++ r.sent
               errors := s.errors ++ r.errors, carried := s.carried + 1 }
  | .receiver =>
    match s.toReceiver with
    | [] => s
    | f :: fs =>
      let r := s.receiver.receive f
      { s with receiver := r.msg, toReceiver := fs, toSender := s.toSender ++ r.sent
               errors := s.errors ++ r.errors, carried := s.carried + 1 }

def start (a b : IsoTpMessage) (first : List CanData) : Link :=
  { sender := a, receiver := b, toReceiver := first, toSender := [], errors := [], carried := 0 }

def Rests (s : Link) : Prop := s.toSender = [] ∧ s.toReceiver = []

end Link

/-- The frames of a whole exchange. -/
def exchangeFrames (a b : IsoTpMessage) : Nat :=
  if a.txLen < a.maxLen then 1
  else 1 + a.pieces + if b.singleFrameMode then a.pieces else 1

/-- `a` with `j` pieces sent. -/
def sentUpTo (a : IsoTpMessage) (j : Nat) : IsoTpMessage :=
  { a with txIdx := j, txDone := decide (a.pieces ≤ j) }

/-- The sender has sent `j` pieces and the receiver taken `k`. -/
structure Progress (a b : IsoTpMessage) (j k : Nat) (s : Link) : Prop where
  sender : s.sender = sentUpTo a j
  receiver : s.receiver = taken b a.txDat (reach a k) k
  errors : s.errors = []

/-- Where the exchange of a long message can be. -/
inductive Phase (a b : IsoTpMessage) (s : Link) : Prop where
  | asked (k : Nat) (hk : k < a.pieces) (hprog : Progress a b k k s)
      (hmode : b.singleFrameMode = false → k = 0)
      (htoSender : s.toSender = [b.canClient.frame b.flowControlMsg]) (htoReceiver : s.toReceiver = [])
      (hcarried : s.carried = 1 + k + k)
  | sending (k n : Nat) (hn : k + n + 1 ≤ a.pieces) (hprog : Progress a b (k + n + 1) k s)
      (hblock : k + n + 1 = if b.singleFrameMode then k + 1 else a.pieces) (htoSender : s.toSender = [])
      (htoReceiver : s.toReceiver =
        (List.range (n + 1)).map fun i => a.canClient.frame (a.piece (k + i)))
      (hcarried : s.carried = 1 + k + if b.singleFrameMode then k + 1 else 1)
  | done (hprog : Progress a b a.pieces a.pieces s) (htoSender : s.toSender = [])
      (htoReceiver : s.toReceiver = [])
      (hcarried : s.carried = 1 + a.pieces + if b.singleFrameMode then a.pieces else 1)

section Phases

variable {a b : IsoTpMessage} {s : Link}

theorem reach_le_iff (hlong : a.maxLen ≤ a.txLen) (k : Nat) :
    a.txDat.length ≤ reach a k ↔ a.pieces ≤ k := by
  unfold pieces reach
  unfold txLen at hlong ⊢
  rcases a.maxLen_cases with hm | hm <;> rw [hm] at hlong ⊢ <;> omega

/-- Flow control reaches the sender. -/
theorem receive_flow (hback : Linked b.canClient a.canClient) {k : Nat} (hk : k < a.pieces) :
    let n := if b.singleFrameMode then 1 else a.pieces - k
    (sentUpTo a k).receive (b.canClient.frame b.flowControlMsg) =
      { msg := sentUpTo a (k + n)
        sent := (List.range n).map fun i => a.canClient.frame (a.piece (k + i))
        outcome := some (.ok .flow) } := by
  intro n
  have hback' : Linked b.canClient (sentUpTo a k).canClient := hback
  have hwait : (sentUpTo a k).txDone = false := decide_eq_false (Nat.not_le.2 hk)
  have hless : (sentUpTo a k).txIdx < (sentUpTo a k).pieces := hk
  have hne : b.flowControlMsg ≠ [] := List.cons_ne_nil _ _
  rw [receive_frame hback' hne, rxNext_flow b hwait hless]
  have hsent : a.canClient.send ((List.range n).map fun i => a.piece (k + i)) =
      (List.range n).map fun i => a.canClient.frame (a.piece (k + i)) := by
    rw [CanClient.send, List.map_map]
    rfl
  rw [← hsent]
  rfl

/-- A piece reaches the receiver. -/
theorem receive_piece (hlink : Linked a.canClient b.canClient) (hlong : a.maxLen ≤ a.txLen) {k : Nat}
    (hk : k < a.pieces) :
    (taken b a.txDat (reach a k) k).receive (a.canClient.frame (a.piece k)) =
      { msg := taken b a.txDat (reach a (k + 1)) (k + 1)
        sent := if a.pieces ≤ k + 1 then []
          else if b.singleFrameMode then [b.canClient.frame b.flowControlMsg] else []
        outcome := some (.ok .consecutive) } := by
  have hlink' : Linked a.canClient (taken b a.txDat (reach a k) k).canClient := hlink
  have hmore : reach a k < a.txDat.length := by
    rw [← Nat.not_le, reach_le_iff hlong]
    exact Nat.not_le.2 hk
  have hne : a.piece k ≠ [] := List.cons_ne_nil _ _
  rw [receive_frame hlink' hne, rxNext_piece b hmore]
  simp only [reach_le_iff hlong]
  split
  · rfl
  · split <;> rfl

theorem Link.step_sender {f : CanData} {fs : List CanData} {r : Reception}
    (h : s.toSender = f :: fs) (hr : s.sender.receive f = r) :
    s.step .sender =
      { s with sender := r.msg, toSender := fs, toReceiver := s.toReceiver ++ r.sent
               errors := s.errors ++ r.errors, carried := s.carried + 1 } := by
  subst hr
  unfold Link.step
  rw [h]

theorem Link.step_receiver {f : CanData} {fs : List CanData} {r : Reception}
    (h : s.toReceiver = f :: fs) (hr : s.receiver.receive f = r) :
    s.step .receiver =
      { s with receiver := r.msg, toReceiver := fs, toSender := s.toSender ++ r.sent
               errors := s.errors ++ r.errors, carried := s.carried + 1 } := by
  subst hr
  unfold Link.step
  rw [h]

theorem Link.step_idle {e : Side}
    (h : match e with | .sender => s.toSender = [] | .receiver => s.toReceiver = []) :
    s.step e = s := by
  cases e with
  | sender =>
    have h' : s.toSender = [] := h
    unfold Link.step
    rw [h']
  | receiver =>
    have h' : s.toReceiver = [] := h
    unfold Link.step
    rw [h']

/-- The receiver has taken a piece and asked for the next one, or waits for what is on the way. -/
theorem phase_taken {k n : Nat} (hn : k + n + 1 ≤ a.pieces) (hprog : Progress a b (k + n + 1) (k + 1) s)
    (hblock : k + n + 1 = if b.singleFrameMode then k + 1 else a.pieces)
    (htoSender : s.toSender = if a.pieces ≤ k + 1 then []
      else if b.singleFrameMode then [b.canClient.frame b.flowControlMsg] else [])
    (htoReceiver : s.toReceiver =
      (List.range n).map fun i => a.canClient.frame (a.piece (k + 1 + i)))
    (hcarried : s.carried = 2 + k + if b.singleFrameMode then k + 1 else 1) : Phase a b s := by
  rcases Nat.lt_or_ge (k + 1) a.pieces with hmore | hall
  · rw [if_neg (Nat.not_le.2 hmore)] at htoSender
    cases hmode : b.singleFrameMode with
    | true =>
      rw [hmode] at hblock htoSender hcarried
      obtain rfl : n = 0 := by
        simp only [if_true] at hblock
        omega
      refine .asked (k + 1) hmore hprog (fun h => ?_) htoSender htoReceiver ?_
      · rw [hmode] at h
        cases h
      · simp only [if_true] at hcarried
        omega
    | false =>
      rw [hmode] at hblock htoSender hcarried
      simp only [Bool.false_eq_true, if_false] at hblock htoSender hcarried
      obtain ⟨n, rfl⟩ : ∃ i, n = i + 1 := ⟨n - 1, by omega⟩
      have hsame : k + (n + 1) + 1 = k + 1 + n + 1 := by omega
      rw [hsame] at hprog hblock hn
      refine .sending (k + 1) n hn hprog ?_ htoSender htoReceiver ?_
      · rw [hmode]
        exact hblock
      · rw [hmode, hcarried]
        simp only [Bool.false_eq_true, if_false]
        omega
  · have hlast : k + 1 = a.pieces := by omega
    obtain rfl : n = 0 := by omega
    rw [if_pos hall] at htoSender
    rw [Nat.add_zero, hlast] at hprog
    refine .done hprog htoSender htoReceiver ?_
    rw [hcarried, ← hlast]
    omega

theorem phase_step (hlink : Linked a.canClient b.canClient) (hback : Linked b.canClient a.canClient)
    (hlong : a.maxLen ≤ a.txLen) (h : Phase a b s) (e : Side) : Phase a b (s.step e) := by
  cases h with
  | asked k hk hprog hmode htoSender htoReceiver hcarried =>
    cases e with
    | receiver =>
      rw [Link.step_idle htoReceiver]
      exact .asked k hk hprog hmode htoSender htoReceiver hcarried
    | sender =>
      have hreceive := receive_flow (b := b) hback hk
      rw [← hprog.sender] at hreceive
      rw [Link.step_sender htoSender hreceive, htoReceiver, hcarried]
      cases hsingle : b.singleFrameMode with
      | true =>
        rw [hsingle] at hreceive
        refine .sending k 0 hk ⟨?_, hprog.receiver, ?_⟩ ?_ rfl ?_ ?_
        · simp
        · simp [Reception.errors, hprog.errors]
        · simp [hsingle]
        · simp
        · simp [hsingle]
          omega
      | false =>
        obtain rfl := hmode hsingle
        obtain ⟨n, hn⟩ : ∃ n, a.pieces = n + 1 := ⟨a.pieces - 1, by omega⟩
        refine .sending 0 n (by omega) ⟨?_, hprog.receiver, ?_⟩ ?_ rfl ?_ ?_
        · simp [hn]
        · simp [Reception.errors, hprog.errors]
        · simp [hsingle, hn]
        · simp [hn]
        · simp [hsingle]
  | sending k n hn hprog hblock htoSender htoReceiver hcarried =>
    cases e with
    | sender =>
      rw [Link.step_idle htoSender]
      exact .sending k n hn hprog hblock htoSender htoReceiver hcarried
    | receiver =>
      have hreceive := receive_piece (b := b) hlink hlong (show k < a.pieces by omega)
      rw [← hprog.receiver] at hreceive
      rw [List.range_succ_eq_map, List.map_cons, List.map_map] at htoReceiver
      rw [Link.step_receiver htoReceiver hreceive, htoSender]
      refine phase_taken hn ⟨hprog.sender, rfl, ?_⟩ hblock rfl ?_ ?_
      · simp [Reception.errors, hprog.errors]
      · refine List.map_congr_left fun i _ => ?_
        simp only [Function.comp_apply]
        congr 2
        omega
      · simp only [hcarried]
        omega
  | done hprog htoSender htoReceiver hcarried =>
    have hnone : s.step e = s := by
      cases e with
      | sender => exact Link.step_idle htoSender
      | receiver => exact Link.step_idle htoReceiver
    rw [hnone]
    exact .done hprog htoSender htoReceiver hcarried

end Phases

/-! ## The exchange -/

/-- What holds of an exchange of `dat` that takes `n` frames, wherever it is. -/
structure Delivering (dat : List UInt8) (n : Nat) (s : Link) : Prop where
  errors : s.errors = []
  received : s.receiver.rxDat <+: dat
  carried : s.carried ≤ n
  rests : s.Rests ↔ s.carried = n
  sent : s.Rests → s.sender.txDone = true
  whole : s.receiver.rxDone = true → s.receiver.rxDat = dat
  done : s.Rests → s.receiver.rxDone = true

section Exchanges

variable {a b : IsoTpMessage} {s : Link} {dat : List UInt8}

theorem Phase.delivering (hlong : a.maxLen ≤ a.txLen) (h : Phase a b s) :
    Delivering a.txDat (1 + a.pieces + if b.singleFrameMode then a.pieces else 1) s := by
  have hall : ∀ k, (taken b a.txDat (reach a k) k).rxDone = true →
      (taken b a.txDat (reach a k) k).rxDat = a.txDat := by
    intro k hk
    exact List.take_of_length_le (of_decide_eq_true hk)
  have hlast : a.txDat.length ≤ reach a a.pieces := (reach_le_iff hlong _).2 (Nat.le_refl _)
  cases h with
  | asked k hk hprog hmode htoSender htoReceiver hcarried =>
    have hbusy : ¬ s.Rests := by
      rintro ⟨hnone, -⟩
      rw [htoSender] at hnone
      cases hnone
    have hless : s.carried < 1 + a.pieces + if b.singleFrameMode then a.pieces else 1 := by
      cases hsingle : b.singleFrameMode with
      | true =>
        simp only [if_true]
        omega
      | false =>
        have hzero := hmode hsingle
        simp only [Bool.false_eq_true, if_false]
        omega
    refine ⟨hprog.errors, ?_, hless.le, ⟨fun h => absurd h hbusy, fun h => absurd h hless.ne⟩,
      fun h => absurd h hbusy, ?_, fun h => absurd h hbusy⟩
    · rw [hprog.receiver]
      exact List.take_prefix _ _
    · rw [hprog.receiver]
      exact hall k
  | sending k n hn hprog hblock htoSender htoReceiver hcarried =>
    have hbusy : ¬ s.Rests := by
      rintro ⟨-, hnone⟩
      rw [htoReceiver] at hnone
      simp at hnone
    have hless : s.carried < 1 + a.pieces + if b.singleFrameMode then a.pieces else 1 := by
      rw [hcarried]
      split <;> omega
    refine ⟨hprog.errors, ?_, hless.le, ⟨fun h => absurd h hbusy, fun h => absurd h hless.ne⟩,
      fun h => absurd h hbusy, ?_, fun h => absurd h hbusy⟩
    · rw [hprog.receiver]
      exact List.take_prefix _ _
    · rw [hprog.receiver]
      exact hall k
  | done hprog htoSender htoReceiver hcarried =>
    refine ⟨hprog.errors, ?_, hcarried.le, ⟨fun _ => hcarried, fun _ => ⟨htoSender, htoReceiver⟩⟩,
      fun _ => ?_, ?_, fun _ => ?_⟩
    · rw [hprog.receiver]
      exact List.take_prefix _ _
    · rw [hprog.sender]
      exact decide_eq_true (Nat.le_refl _)
    · rw [hprog.receiver]
      exact hall a.pieces
    · rw [hprog.receiver]
      exact decide_eq_true hlast

/-- The link once a message in one frame has been taken. -/
def takenWhole (a b : IsoTpMessage) (dat : List UInt8) : Link :=
  { sender := a, receiver := taken b dat dat.length 0, toReceiver := [], toSender := [], errors := []
    carried := 1 }

theorem short_run (hlink : Linked a.canClient b.canClient) (hb : Fresh b)
    (hshort : dat.length < b.maxLen) (es : List Side) :
    let first := [a.canClient.frame (ljust b.maxLen (UInt8.ofNat dat.length :: dat))]
    Run.run Link.step (Link.start a b first) es = Link.start a b first ∨
      Run.run Link.step (Link.start a b first) es = takenWhole a b dat := by
  intro first
  have hne : ljust b.maxLen (UInt8.ofNat dat.length :: dat) ≠ [] := List.cons_ne_nil _ _
  have hreceive := receive_frame hlink hne
  rw [rxNext_single b dat (.inl hb.rxDat) hshort] at hreceive
  have hfirst : (Link.start a b first).step .receiver = takenWhole a b dat := by
    have hstart : (Link.start a b first).toReceiver = first := rfl
    rw [Link.step_receiver hstart hreceive]
    rfl
  have hstep : ∀ (s : Link) (e : Side), (s = Link.start a b first ∨ s = takenWhole a b dat) →
      (s.step e = Link.start a b first ∨ s.step e = takenWhole a b dat) := by
    rintro s e (rfl | rfl)
    · cases e with
      | sender => exact .inl rfl
      | receiver => exact .inr hfirst
    · cases e with
      | sender => exact .inr rfl
      | receiver => exact .inr rfl
  exact Run.run_inv hstep (.inl rfl) es

theorem delivering_start (hb : Fresh b) {n : Nat} (hn : 0 < n) (f : CanData) :
    Delivering dat n (Link.start a b [f]) := by
  have hbusy : ¬ (Link.start a b [f]).Rests := by
    rintro ⟨-, hnone⟩
    cases hnone
  refine ⟨rfl, ?_, Nat.zero_le n, ⟨fun h => absurd h hbusy, ?_⟩, fun h => absurd h hbusy, ?_,
    fun h => absurd h hbusy⟩
  · exact hb.rxDat ▸ List.nil_prefix
  · intro hzero
    exact absurd hzero hn.ne
  · intro h
    have hfalse : b.rxDone = true := h
    rw [hb.rxDone] at hfalse
    cases hfalse

/-- A message in one frame: the frame waits, or it has been taken. -/
theorem delivering_short (hlink : Linked a.canClient b.canClient) (hb : Fresh b)
    (hdone : a.txDone = true) (hshort : dat.length < b.maxLen) (es : List Side) :
    Delivering dat 1 (Run.run Link.step
      (Link.start a b [a.canClient.frame (ljust b.maxLen (UInt8.ofNat dat.length :: dat))]) es) := by
  rcases short_run hlink hb hshort es with hs | hs
  · rw [hs]
    exact delivering_start hb Nat.one_pos _
  · rw [hs]
    have hall : dat.take dat.length = dat := List.take_length
    refine ⟨rfl, List.take_prefix _ _, Nat.le_refl 1, ⟨fun _ => rfl, fun _ => ⟨rfl, rfl⟩⟩,
      fun _ => hdone, fun _ => hall, fun _ => decide_eq_true (Nat.le_refl _)⟩

/-- A long message, from the first frame on. -/
theorem delivering_long (hlink : Linked a.canClient b.canClient)
    (hback : Linked b.canClient a.canClient) (hb : Fresh b) (hidx : a.txIdx = 0)
    (hwait : a.txDone = false) (hlong : a.maxLen ≤ a.txLen) (hlen : a.txLen ≤ 4095) (es : List Side) :
    Delivering a.txDat (1 + a.pieces + if b.singleFrameMode then a.pieces else 1)
      (Run.run Link.step (Link.start a b [a.canClient.frame (ljust (b.maxLen - 2)
        ([UInt8.ofNat ((0x1000 ||| a.txLen) >>> 8), UInt8.ofNat (0x1000 ||| a.txLen)] ++
          a.txDat.take (b.maxLen - 2)))]) es) := by
  have hne : ljust (b.maxLen - 2)
      ([UInt8.ofNat ((0x1000 ||| a.txLen) >>> 8), UInt8.ofNat (0x1000 ||| a.txLen)] ++
        a.txDat.take (b.maxLen - 2)) ≠ [] := List.cons_ne_nil _ _
  have hmax := hlink.maxLen
  have hreceive := receive_frame hlink hne
  rw [txLen, rxNext_first b a.txDat (.inl hb.rxDat) (by rw [hmax]; exact hlong) hlen] at hreceive
  have hone : 0 < a.pieces := by
    rw [← Nat.not_le, ← reach_le_iff hlong]
    unfold reach
    unfold txLen at hlong
    have hcases := a.maxLen_cases
    omega
  have hsent : sentUpTo a 0 = a := by
    unfold sentUpTo
    rw [decide_eq_false (Nat.not_le.2 hone), ← hwait, ← hidx]
  have hreach : reach b 0 = reach a 0 := by
    unfold reach
    rw [hmax]
  generalize hf : a.canClient.frame (ljust (b.maxLen - 2)
    ([UInt8.ofNat ((0x1000 ||| a.txLen) >>> 8), UInt8.ofNat (0x1000 ||| a.txLen)] ++
      a.txDat.take (b.maxLen - 2))) = f
  rw [txLen] at hf
  rw [hf] at hreceive
  have hfirst : Phase a b ((Link.start a b [f]).step .receiver) := by
    have hstart : (Link.start a b [f]).toReceiver = [f] := rfl
    rw [Link.step_receiver hstart hreceive]
    refine .asked 0 hone ⟨hsent.symm, ?_, rfl⟩ (fun _ => rfl) rfl rfl rfl
    rw [← hreach]
  have hstep : ∀ (s : Link) (e : Side), (s = Link.start a b [f] ∨ Phase a b s) →
      (s.step e = Link.start a b [f] ∨ Phase a b (s.step e)) := by
    rintro s e (rfl | hs)
    · cases e with
      | sender => exact .inl rfl
      | receiver => exact .inr hfirst
    · exact .inr (phase_step hlink hback hlong hs e)
  rcases Run.run_inv hstep (.inl rfl) es with hs | hs
  · rw [hs]
    exact delivering_start hb (by omega) f
  · exact hs.delivering hlong

/-- A message of at most 4095 bytes goes from `a₀` to `b₀`, which may have just sent a request of its
own. In whatever order the two take the frames that wait for them, nothing raises, what the receiver
has is a beginning of the message, and all of it once it counts as received. They come to rest after
exactly as many frames as the message takes, and then it is sent and received. -/
theorem exchange_delivers {a₀ b₀ a b : IsoTpMessage} {dat request : List UInt8} {setupOnly : Bool}
    {first own : List CanData} (hlink : Linked a₀.canClient b₀.canClient)
    (hback : Linked b₀.canClient a₀.canClient) (hlen : dat.length ≤ 4095)
    (ha : a₀.send dat false = .ok (a, first)) (hb : b₀.send request setupOnly = .ok (b, own))
    (es : List Side) :
    Delivering dat (exchangeFrames a b) (Run.run Link.step (Link.start a b first) es) := by
  obtain ⟨ha', hfirst⟩ := send_cases ha
  obtain ⟨hb', -⟩ := send_cases hb
  have hla : a.canClient = a₀.canClient := by rw [ha']; rfl
  have hlb : b.canClient = b₀.canClient := by rw [hb']; rfl
  have hfresh : Fresh b := by
    rw [hb']
    exact ⟨rfl, rfl, rfl⟩
  rw [← hla, ← hlb] at hlink hback
  have hmax := hlink.maxLen
  have hamax : a.maxLen = a₀.maxLen := by
    unfold maxLen
    rw [hla]
  have hdat : a.txDat = dat := by rw [ha']; rfl
  have hdone : a.txDone = decide (dat.length < a₀.maxLen) := by rw [ha']
  have hframe : first = [a.canClient.frame (a₀.reset dat).firstMsg] := by
    rw [hfirst, hla]
    rfl
  rw [hframe, exchangeFrames]
  rcases Nat.lt_or_ge dat.length a₀.maxLen with hlt | hge
  · have hmsg : (a₀.reset dat).firstMsg = ljust b.maxLen (UInt8.ofNat dat.length :: dat) := by
      rw [hmax, hamax]
      exact if_pos hlt
    rw [hmsg, if_pos (by rw [txLen, hdat, hamax]; exact hlt)]
    exact delivering_short hlink hfresh (by rw [hdone]; exact decide_eq_true hlt)
      (by rw [hmax, hamax]; exact hlt) es
  · have hmsg : (a₀.reset dat).firstMsg = ljust (b.maxLen - 2)
        ([UInt8.ofNat ((0x1000 ||| a.txLen) >>> 8), UInt8.ofNat (0x1000 ||| a.txLen)] ++
          a.txDat.take (b.maxLen - 2)) := by
      rw [hmax, hamax, txLen, hdat]
      exact if_neg (Nat.not_lt.2 hge)
    have hidx : a.txIdx = 0 := by rw [ha']; rfl
    have hlong : a.maxLen ≤ a.txLen := by
      rw [txLen, hdat, hamax]
      exact hge
    rw [hmsg, if_neg (Nat.not_lt.2 hlong)]
    have hrun := delivering_long hlink hback hfresh hidx
      (by rw [hdone]; exact decide_eq_false (Nat.not_lt.2 hge)) hlong
      (by rw [txLen, hdat]; exact hlen) es
    rw [hdat] at hrun ⊢
    exact hrun

end Exchanges

/-- The diagnostic addresses of the radar. -/
def radarClient : CanClient := .new 0x764 0x76C 0 none none

/-- The radar's end of the bus. -/
def radarEnd : CanClient := .new 0x76C 0x764 0 none none

/-- A long answer of the radar's, and the request it answers. -/
def radarAnswer : IsoTpMessage := (IsoTpMessage.new radarEnd false 0).reset (List.replicate 100 0x62)

def answered : IsoTpMessage :=
  { (IsoTpMessage.new radarClient true 10).reset [0x22, 0xF1, 0x90] with txDone := true }

theorem exchange_delivers_answer :
    Delivering (List.replicate 100 0x62) (exchangeFrames radarAnswer answered)
      (Run.run Link.step (Link.start radarAnswer answered (radarEnd.send [radarAnswer.firstMsg]))
        [.receiver, .sender, .sender, .receiver]) := by
  have hlink : Linked radarEnd radarClient := ⟨rfl, rfl, rfl, rfl, by decide⟩
  have hback : Linked radarClient radarEnd := ⟨rfl, rfl, rfl, rfl, by decide⟩
  have hlen : (List.replicate 100 (0x62 : UInt8)).length ≤ 4095 := by decide
  have ha : (IsoTpMessage.new radarEnd false 0).send (List.replicate 100 0x62) false =
      .ok (radarAnswer, radarEnd.send [radarAnswer.firstMsg]) := rfl
  have hb : (IsoTpMessage.new radarClient true 10).send [0x22, 0xF1, 0x90] true =
      .ok (answered, []) := rfl
  exact exchange_delivers hlink hback hlen ha hb [.receiver, .sender, .sender, .receiver]

end Diag
end MazdaPort
