import MazdaPort.Board.Gateway

/-!
# MazdaPort.Board.HostFeed

What the host is shown of the traffic. `can_rx_q` carries three kinds of packets: frames off the
bus, echoes of frames the board has sent, and packets of the host's that the hook refused. They
are told apart by `returned` and `rejected` only, so the two bits have to be right.

`toPacket_ofPacket`: the registers of a mailbox give back the packet that was loaded into them.
`feed_truthful`: in every run each packet of `can_rx_q` is what its two bits say.
-/

namespace MazdaPort
namespace Board
namespace Gateway

open Safety Usb CanPath Memory

variable {n m : Nat}

/-! ## A mailbox gives back what was loaded -/

/-- The address has the size its flag says. -/
def Narrow (p : CANPacket) : Prop := p.extended = false → p.addr.toNat ≤ 0x7FF

theorem byteArrayToWord_toNat (d : Vector UInt8 8) (off : Fin 5) :
    (byteArrayToWord d off).toNat = (d.toList.getD off 0).toNat +
      (d.toList.getD (off + 1) 0).toNat * 256 + (d.toList.getD (off + 2) 0).toNat * 65536 +
        (d.toList.getD (off + 3) 0).toNat * 16777216 := by
  generalize ha : d.toList.getD off 0 = a
  generalize hb : d.toList.getD (off + 1) 0 = b
  generalize hc : d.toList.getD (off + 2) 0 = c
  generalize he : d.toList.getD (off + 3) 0 = e
  have h1 := a.toNat_lt
  have h2 := b.toNat_lt
  have h3 := c.toNat_lt
  have h4 := e.toNat_lt
  have hb' : (b.toUInt32 <<< 8).toNat = b.toNat <<< 8 := by
    simp [UInt32.toNat_shiftLeft, Nat.shiftLeft_eq]
    omega
  have hc' : (c.toUInt32 <<< 16).toNat = c.toNat <<< 16 := by
    simp [UInt32.toNat_shiftLeft, Nat.shiftLeft_eq]
    omega
  have he' : (e.toUInt32 <<< 24).toNat = e.toNat <<< 24 := by
    simp [UInt32.toNat_shiftLeft, Nat.shiftLeft_eq]
    omega
  unfold byteArrayToWord
  rw [ha, hb, hc, he, UInt32.toNat_or, UInt32.toNat_or, UInt32.toNat_or, hb', hc', he',
    UInt8.toNat_toUInt32, or_shiftLeft (k := 8) (by omega), or_shiftLeft (k := 16) (by omega),
    or_shiftLeft (k := 24) (by omega)]
  rfl

theorem wordToByteArray_eq {w : UInt32} {a b c e : UInt8}
    (h : w.toNat = a.toNat + b.toNat * 256 + c.toNat * 65536 + e.toNat * 16777216) :
    wordToByteArray w = [a, b, c, e] := by
  have h1 := a.toNat_lt
  have h2 := b.toNat_lt
  have h3 := c.toNat_lt
  have h4 := e.toNat_lt
  have hbyte : ∀ (x : UInt8) (k : UInt32), k.toNat < 32 →
      w.toNat / 2 ^ k.toNat % 256 = x.toNat → (w >>> k).toUInt8 = x := by
    intro x k hk hx
    apply UInt8.toNat_inj.1
    rw [UInt32.toNat_toUInt8, UInt32.toNat_shiftRight, Nat.mod_eq_of_lt hk,
      Nat.shiftRight_eq_div_pow]
    exact hx
  have hlow : w.toUInt8 = a := by
    apply UInt8.toNat_inj.1
    rw [UInt32.toNat_toUInt8]
    omega
  have hb : (w >>> 8).toUInt8 = b := hbyte b 8 (by decide) (by
    simp only [UInt32.reduceToNat, Nat.reducePow]
    omega)
  have hc : (w >>> 16).toUInt8 = c := hbyte c 16 (by decide) (by
    simp only [UInt32.reduceToNat, Nat.reducePow]
    omega)
  have he : (w >>> 24).toUInt8 = e := hbyte e 24 (by decide) (by
    simp only [UInt32.reduceToNat, Nat.reducePow]
    omega)
  rw [wordToByteArray, hlow, hb, hc, he]

theorem toPacket_data (d : Vector UInt8 8) :
    store (Vector.replicate 8 0) 0
      (wordToByteArray (byteArrayToWord d 0) ++ wordToByteArray (byteArrayToWord d 4)) = d := by
  have hlow := wordToByteArray_eq (byteArrayToWord_toNat d 0)
  have hhigh := wordToByteArray_eq (byteArrayToWord_toNat d 4)
  have hcell : ∀ i (hi : i < 8), d.toList.getD i 0 = d[i] := by
    intro i hi
    simp [hi]
  rw [hlow, hhigh]
  apply Vector.ext
  intro i hi
  rw [getElem_store _ _ _ hi, if_pos (Nat.zero_le i), Nat.sub_zero]
  match i, hi with
  | 0, hi => exact hcell 0 hi
  | 1, hi => exact hcell 1 hi
  | 2, hi => exact hcell 2 hi
  | 3, hi => exact hcell 3 hi
  | 4, hi => exact hcell 4 hi
  | 5, hi => exact hcell 5 hi
  | 6, hi => exact hcell 6 hi
  | 7, hi => exact hcell 7 hi

theorem ofPacket_ir {p : CANPacket} (h : Narrow p) :
    (Mailbox.ofPacket p).ir.toNat =
      if p.extended then p.addr.toNat * 8 + 5 else p.addr.toNat * 2097152 + 1 := by
  have haddr := p.addr.isLt
  have hnat : (UInt32.ofNat p.addr.toNat).toNat = p.addr.toNat := by
    rw [UInt32.toNat_ofNat']
    exact Nat.mod_eq_of_lt (by omega)
  unfold Mailbox.ofPacket
  dsimp only
  cases hext : p.extended with
  | true =>
    have hshift : (UInt32.ofNat p.addr.toNat <<< 3).toNat = p.addr.toNat <<< 3 := by
      simp only [UInt32.toNat_shiftLeft, hnat, Nat.shiftLeft_eq, UInt32.reduceToNat,
        Nat.reduceMod, Nat.reducePow]
      omega
    have hide : ((1 : UInt32) <<< 2).toNat = 4 := by decide
    have hone : (1 : UInt32).toNat = 1 := rfl
    have hlow : p.addr.toNat <<< 3 ||| 4 = (p.addr.toNat * 2 + 1) <<< 2 := by
      rw [Nat.or_comm, or_shiftLeft (k := 3) (by omega), Nat.shiftLeft_eq]
      omega
    rw [if_pos rfl, if_pos rfl, if_pos rfl, UInt32.toNat_or, UInt32.toNat_or, hshift, hide, hone,
      hlow, Nat.or_comm, or_shiftLeft (k := 2) (by omega)]
    omega
  | false =>
    have hlt := h hext
    have hshift : (UInt32.ofNat p.addr.toNat <<< 21).toNat = p.addr.toNat <<< 21 := by
      simp only [UInt32.toNat_shiftLeft, hnat, Nat.shiftLeft_eq, UInt32.reduceToNat,
        Nat.reduceMod, Nat.reducePow]
      omega
    have hide : ((0 : UInt32) <<< 2).toNat = 0 := by decide
    have hone : (1 : UInt32).toNat = 1 := rfl
    rw [if_neg (by simp), if_neg (by simp), if_neg (by simp), UInt32.toNat_or, UInt32.toNat_or,
      hshift, hide, hone, Nat.or_zero, Nat.or_comm, or_shiftLeft (k := 21) (by omega)]
    omega

theorem ofPacket_extended {p : CANPacket} (h : Narrow p) :
    (((Mailbox.ofPacket p).ir >>> 2) &&& 1 != 0) = p.extended := by
  have hir := ofPacket_ir h
  have hbit : (((Mailbox.ofPacket p).ir >>> 2) &&& 1).toNat =
      (Mailbox.ofPacket p).ir.toNat / 4 % 2 := by
    simp only [UInt32.toNat_and, UInt32.toNat_shiftRight, UInt32.reduceToNat, Nat.reduceMod,
      Nat.shiftRight_eq_div_pow, Nat.reducePow, Nat.and_one_is_mod]
  have hne : (((Mailbox.ofPacket p).ir >>> 2) &&& 1 != 0) =
      decide ((((Mailbox.ofPacket p).ir >>> 2) &&& 1).toNat ≠ 0) := by
    rw [bne, Bool.eq_iff_iff, decide_eq_true_iff, Bool.not_eq_true', beq_eq_false_iff_ne, ne_eq,
      ne_eq, ← UInt32.toNat_inj]
    rfl
  rw [hne, hbit, hir]
  cases hext : p.extended with
  | true =>
    simp only [if_true, decide_eq_true_eq]
    omega
  | false =>
    simp only [Bool.false_eq_true, if_false, decide_eq_false_iff_not, not_not]
    omega

/-- `process_can` writes the registers and, when the frame has gone out, reads them again: only the
bus, the flags and the checksum are not those of the packet. -/
theorem toPacket_ofPacket {p : CANPacket} (h : Narrow p) (returned : Bool) (busNumber : Nat) :
    (Mailbox.ofPacket p).toPacket returned busNumber =
      { p with
        fd := false
        bus := BitVec.ofNat 3 busNumber
        rejected := false
        returned := returned
        checksum := 0 } := by
  have hir := ofPacket_ir h
  have hext := ofPacket_extended h
  have hdlc : (Mailbox.ofPacket p).dataLenCode = p.dataLenCode := by
    have hlt := p.dataLenCode.isLt
    have hnat : (UInt32.ofNat p.dataLenCode.toNat &&& 0xF).toNat = p.dataLenCode.toNat := by
      have hmask : (0xF : UInt32).toNat = 2 ^ 4 - 1 := rfl
      rw [UInt32.toNat_and, hmask, Nat.and_two_pow_sub_one_eq_mod, UInt32.toNat_ofNat']
      omega
    apply BitVec.eq_of_toNat_eq
    rw [Mailbox.dataLenCode, Mailbox.ofPacket, hnat, BitVec.toNat_ofNat]
    omega
  have haddr : BitVec.ofNat 29 (if p.extended then (Mailbox.ofPacket p).ir >>> 3
      else (Mailbox.ofPacket p).ir >>> 21).toNat = p.addr := by
    have hlt := p.addr.isLt
    apply BitVec.eq_of_toNat_eq
    rw [BitVec.toNat_ofNat]
    cases hp : p.extended with
    | true =>
      rw [hp, if_pos rfl] at hir
      simp only [if_true, UInt32.toNat_shiftRight, hir, UInt32.reduceToNat, Nat.reduceMod,
        Nat.shiftRight_eq_div_pow]
      omega
    | false =>
      rw [hp, if_neg (by simp)] at hir
      simp only [Bool.false_eq_true, if_false, UInt32.toNat_shiftRight, hir, UInt32.reduceToNat,
        Nat.reduceMod, Nat.shiftRight_eq_div_pow]
      omega
  unfold Mailbox.toPacket
  simp only [hext, hdlc, haddr]
  congr 1
  exact toPacket_data p.data

/-! ## The three kinds of packets -/

/-- A frame off a bus, one the filter shows. The safety layer has seen it too. -/
def Received (fw : CanBuild) (t : Traffic) (p : CANPacket) : Prop :=
  ∃ canNumber fifo ts, p = canSetChecksum (Mailbox.toPacket fifo false (fw.busLookup canNumber)) ∧
    .rx ts p ∈ t.safety ∧ fw.hostVisible (fw.busLookup canNumber) p.addr.toNat = true

/-- What was in the mailbox at some moment of the traffic, from the mailboxes `mail` on. -/
def Echoed (fw : CanBuild) (mail : Nat → Mailbox) (t : Traffic) (p : CANPacket) : Prop :=
  ∃ canNumber before, before <+: t.departures ∧
    fw.echoVisible (fw.busLookup canNumber) p.addr.toNat = true ∧
      p = canSetChecksum
        ((afterLoads (mail (fw.cans canNumber))
          (loaded fw (fw.cans canNumber) before)).toPacket true (fw.busLookup canNumber))

/-- A packet of the host's that the hook did not let pass. -/
def Refused (fw : CanBuild) (s : SafetyState) (t : Traffic) (p : CANPacket) : Prop :=
  ∃ pre ts q, pre ++ [.tx ts q] <+: t.safety ∧
    (safetyTxHook fw.toFirmware ts q (Safety.run fw.toFirmware s pre)).1 = false ∧
      p = canSetChecksum { q with returned := false, rejected := true }

def Shown (fw : CanBuild) (s : SafetyState) (mail : Nat → Mailbox) (t : Traffic) (p : CANPacket) :
    Prop :=
  Received fw t p ∨ Echoed fw mail t p ∨ Refused fw s t p

section Shown

variable {fw : CanBuild} {s : SafetyState} {mail : Nat → Mailbox} {t t' : Traffic} {p : CANPacket}

theorem Shown.later (h : Shown fw s mail t p) (more : Traffic) :
    Shown fw s mail (t ++ more) p := by
  rcases h with ⟨canNumber, fifo, ts, hp, hseen, hvis⟩ | ⟨canNumber, before, hb, hvis, hp⟩ |
    ⟨pre, ts, q, hpre, hhook, hp⟩
  · exact .inl ⟨canNumber, fifo, ts, hp, List.mem_append_left _ hseen, hvis⟩
  · exact .inr (.inl ⟨canNumber, before, hb.trans (List.prefix_append _ _), hvis, hp⟩)
  · exact .inr (.inr ⟨pre, ts, q, hpre.trans (List.prefix_append _ _), hhook, hp⟩)

theorem Shown.after (first : Traffic)
    (h : Shown fw (Safety.run fw.toFirmware s first.safety)
      (fun i => afterLoads (mail i) (loaded fw i first.departures)) t p) :
    Shown fw s mail (first ++ t) p := by
  rcases h with ⟨canNumber, fifo, ts, hp, hseen, hvis⟩ | ⟨canNumber, before, hb, hvis, hp⟩ |
    ⟨pre, ts, q, hpre, hhook, hp⟩
  · exact .inl ⟨canNumber, fifo, ts, hp, List.mem_append_right _ hseen, hvis⟩
  · refine .inr (.inl ⟨canNumber, first.departures ++ before, ?_, hvis, ?_⟩)
    · exact (List.prefix_append_right_inj _).2 hb
    · simp only [hp, loaded_append, afterLoads, List.foldl_append]
  · refine .inr (.inr ⟨first.safety ++ pre, ts, q, ?_, ?_, hp⟩)
    · rw [List.append_assoc]
      exact (List.prefix_append_right_inj _).2 hpre
    · have hrun : Safety.run fw.toFirmware s (first.safety ++ pre) =
          Safety.run fw.toFirmware (Safety.run fw.toFirmware s first.safety) pre :=
        Run.run_append _ _ _ _
      rw [hrun]
      exact hhook

end Shown

section Feed

variable (fw : CanBuild) (b : CanBoard n m)

theorem processTraffic_shown (canNumber : Nat) (tsr : TxStatus) (s : SafetyState) :
    ∀ p ∈ (processTraffic fw canNumber tsr b).toHost,
      Shown fw s b.txMailbox (processTraffic fw canNumber tsr b) p := by
  intro p hp
  unfold processTraffic at hp
  split at hp
  · dsimp only at hp
    split at hp
    · unfold echoTraffic at hp
      dsimp only at hp
      split at hp
      · next hvis =>
        rw [List.mem_singleton.1 hp]
        exact .inr (.inl ⟨canNumber, [], List.nil_prefix, hvis, rfl⟩)
      · cases hp
    · cases hp
  · cases hp

theorem queueTraffic_shown (toPush : CANPacket) (busNumber : Nat) (tsr : TxStatus)
    (s : SafetyState) :
    ∀ p ∈ (queueTraffic fw toPush busNumber tsr b).toHost,
      Shown fw s b.txMailbox (queueTraffic fw toPush busNumber tsr b) p := by
  intro p hp
  unfold queueTraffic at hp ⊢
  split
  · next hbus =>
    rw [if_pos hbus, toHost_append, List.nil_append] at hp
    have hshown := processTraffic_shown fw
      (b.setQueue busNumber (Comms.canPush (b.canQueues busNumber) toPush).2)
      (fw.canNumLookup busNumber) tsr s p hp
    exact Shown.after { offers := [{ bus := busNumber, packet := toPush }] } hshown
  · next hbus =>
    rw [if_neg hbus] at hp
    cases hp

theorem sendTraffic_shown (toPush : CANPacket) (ts : UInt32) (tsr : TxStatus) :
    ∀ p ∈ (sendTraffic fw toPush ts tsr b).toHost,
      Shown fw b.safety b.txMailbox (sendTraffic fw toPush ts tsr b) p := by
  intro p hp
  unfold sendTraffic at hp ⊢
  rw [toHost_append, List.nil_append] at hp
  split
  · next hhook =>
    rw [if_pos hhook] at hp
    exact Shown.after { safety := [.tx ts toPush] }
      (queueTraffic_shown fw b toPush toPush.bus.toNat tsr _ p hp)
  · next hhook =>
    rw [if_neg hhook] at hp
    rw [List.mem_singleton.1 hp]
    exact .inr (.inr ⟨[], ts, toPush, List.prefix_refl _, Bool.eq_false_iff.2 hhook, rfl⟩)

theorem sendAllTraffic_shown (ps : List CANPacket) (sts : List (UInt32 × TxStatus)) :
    ∀ p ∈ (sendAllTraffic fw ps sts b).toHost,
      Shown fw b.safety b.txMailbox (sendAllTraffic fw ps sts b) p := by
  induction ps generalizing sts b with
  | nil =>
    intro p hp
    cases hp
  | cons q ps ih =>
    intro p hp
    simp only [sendAllTraffic, toHost_append] at hp ⊢
    have hbooks := canSend_books fw b q (sts.headD (0, {})).1 (sts.headD (0, {})).2
    rcases List.mem_append.1 hp with hfirst | hrest
    · exact (sendTraffic_shown fw b q _ _ p hfirst).later _
    · have hone := ih _ sts.tail p hrest
      rw [hbooks.safety, funext hbooks.mailbox] at hone
      exact hone.after _

theorem forwardTraffic_shown (busNumber : Nat) (toPush : CANPacket) (stale : Vector UInt8 8)
    (tsr : TxStatus) :
    ∀ p ∈ (forwardTraffic fw busNumber toPush stale tsr b).toHost,
      Shown fw b.safety b.txMailbox (forwardTraffic fw busNumber toPush stale tsr b) p := by
  intro p hp
  unfold forwardTraffic at hp ⊢
  split
  · next hfwd =>
    rw [hfwd] at hp
    cases hp
  · next busFwdNum hfwd =>
    rw [hfwd] at hp
    exact queueTraffic_shown fw b _ busFwdNum tsr _ p hp

theorem traffic_shown (e : CanPath.Event) :
    ∀ p ∈ (traffic fw b e).toHost, Shown fw b.safety b.txMailbox (traffic fw b e) p := by
  intro p hp
  cases e with
  | rx canNumber fifo stale ts tsr =>
    simp only [traffic, toHost_append] at hp ⊢
    rcases List.mem_append.1 hp with hecho | hframe
    · exact (forwardTraffic_shown fw b _ _ stale tsr p hecho).later _
    · split at hframe
      · next hvis =>
        rw [List.mem_singleton.1 hframe]
        refine .inl ⟨canNumber, fifo, ts, rfl, ?_, hvis⟩
        rw [safety_append]
        exact List.mem_append_right _ List.mem_cons_self
      · cases hframe
  | txIrq canNumber tsr => exact processTraffic_shown fw b canNumber tsr _ p hp
  | hostWrite data sts => exact sendAllTraffic_shown fw _ _ sts p hp
  | hostRead maxLen => cases hp
  | control request param1 => cases hp
  | safety e => cases hp

theorem allTraffic_shown (es : List CanPath.Event) :
    ∀ p ∈ (allTraffic fw b es).toHost, Shown fw b.safety b.txMailbox (allTraffic fw b es) p := by
  induction es generalizing b with
  | nil =>
    intro p hp
    cases hp
  | cons e es ih =>
    intro p hp
    simp only [allTraffic, toHost_append] at hp ⊢
    have hbooks := traffic_loose fw b e
    rcases List.mem_append.1 hp with hfirst | hrest
    · exact (traffic_shown fw b e p hfirst).later _
    · have hone := ih (CanPath.step fw b e) p hrest
      rw [hbooks.safety, funext hbooks.mailbox] at hone
      exact hone.after _

end Feed

/-! ## What the two bits say -/

theorem afterLoads_eq (r : Mailbox) (ps : List CANPacket) :
    afterLoads r ps = (ps.getLast?.map Mailbox.ofPacket).getD r := by
  rcases List.eq_nil_or_concat ps with rfl | ⟨qs, q, rfl⟩
  · rfl
  · simp [afterLoads]

/-- `q`, as the echo of it names it. -/
def echoOf (busNumber : Nat) (q : CANPacket) : CANPacket :=
  canSetChecksum
    { q with
      fd := false
      bus := BitVec.ofNat 3 busNumber
      rejected := false
      returned := true
      checksum := 0 }

/-- From power-on, with frames of at most eight bytes: every copy stays inside its object, and every
packet that waits for the host has a right checksum. One without `returned` and `rejected` is a frame
off the bus; one with `returned` names the last packet loaded into the mailbox when it was made, bit
for bit if its address has the size its flag says, or the registers as they were at the start; one
with `rejected` is a packet the hook refused. -/
theorem feed_truthful (fw : CanBuild) (n m : Nat) (statics : List Int) {es : List CanPath.Event}
    (hshort : Run.AllSteps carry ShortInput [] es) :
    let t := allTraffic fw (CanPath.boot n m statics) es
    Run.AllSteps (CanPath.step fw) (Inside fw) (CanPath.boot n m statics) es ∧
    ∀ p ∈ (Run.run (CanPath.step fw) (CanPath.boot n m statics) es).canRxQ.contents,
      canCheckChecksum p = true ∧
        (p.returned = false → p.rejected = false → Received fw t p) ∧
        (p.returned = true → ∃ canNumber before, before <+: t.departures ∧
          match (loaded fw (fw.cans canNumber) before).getLast? with
          | none => p = canSetChecksum (Mailbox.toPacket {} true (fw.busLookup canNumber))
          | some q => Narrow q → p = echoOf (fw.busLookup canNumber) q) ∧
        (p.rejected = true → Refused fw (powerOn statics) t p) := by
  intro t
  refine ⟨((bounded_boot n m statics).run_inside_iff fw es).2 hshort, fun p hp => ?_⟩
  have hbooks := allTraffic_loose fw (CanPath.boot n m statics) es
  have hempty : (CanPath.boot n m statics).canRxQ.contents = [] := Ring.contents_empty _ _
  have hsub := hbooks.toHost
  rw [hempty, List.nil_append] at hsub
  have hshown := allTraffic_shown fw (CanPath.boot n m statics) es p (hsub.subset hp)
  rcases hshown with ⟨canNumber, fifo, ts, heq, hseen, hvis⟩ | ⟨canNumber, before, hb, hvis, heq⟩ |
    ⟨pre, ts, q, hpre, hhook, heq⟩
  · have hflags : p.returned = false ∧ p.rejected = false := by
      rw [heq]
      exact ⟨rfl, rfl⟩
    refine ⟨by rw [heq]; exact canSetChecksum_valid _, ?_, ?_, ?_⟩
    · intro _ _
      exact ⟨canNumber, fifo, ts, heq, hseen, hvis⟩
    · intro hret
      rw [hflags.1] at hret
      cases hret
    · intro hrej
      rw [hflags.2] at hrej
      cases hrej
  · have hflags : p.returned = true ∧ p.rejected = false := by
      rw [heq]
      exact ⟨rfl, rfl⟩
    refine ⟨by rw [heq]; exact canSetChecksum_valid _, ?_, ?_, ?_⟩
    · intro hret
      rw [hflags.1] at hret
      cases hret
    · intro _
      refine ⟨canNumber, before, hb, ?_⟩
      rw [afterLoads_eq] at heq
      cases hlast : (loaded fw (fw.cans canNumber) before).getLast? with
      | none =>
        rw [hlast] at heq
        exact heq
      | some q =>
        rw [hlast] at heq
        intro hnarrow
        rw [heq, Option.map_some, Option.getD_some, toPacket_ofPacket hnarrow]
        rfl
    · intro hrej
      rw [hflags.2] at hrej
      cases hrej
  · have hflags : p.returned = false ∧ p.rejected = true := by
      rw [heq]
      exact ⟨rfl, rfl⟩
    refine ⟨by rw [heq]; exact canSetChecksum_valid _, ?_, ?_, ?_⟩
    · intro _ hrej
      rw [hflags.2] at hrej
      cases hrej
    · intro hret
      rw [hflags.1] at hret
      cases hret
    · intro _
      exact ⟨pre, ts, q, hpre, hhook, heq⟩

/-- A steering frame that asks for torque, between two that do not, and the echo of the first. -/
def refusedBetween : List CanPath.Event :=
  [.safety (.setMode safetyMazda 0),
    .hostWrite (packed lkasIdle ++ packed lkasPacket ++ packed lkasIdle) [(0, { tme0 := true })],
    .txIrq 0 { tme0 := true, rqcp0 := true, txok0 := true }]

theorem refusedBetween_short : Run.AllSteps carry ShortInput [] refusedBetween :=
  ⟨trivial, by decide +kernel, trivial, trivial⟩

def refusedSteering : CANPacket := canSetChecksum { lkasPacket with rejected := true }

/-- The one in between waits for the host as refused. -/
theorem feed_truthful_steering :
    Refused .f407 (powerOn []) (allTraffic .f407 (CanPath.boot 2 2 []) refusedBetween)
      refusedSteering :=
  ((feed_truthful .f407 2 2 [] refusedBetween_short).2 refusedSteering (by decide +kernel)).2.2.2 rfl

end Gateway
end Board
end MazdaPort
