import MazdaPort.Lib.Framing
import MazdaPort.Usb.Wire

/-!
# MazdaPort.Usb.Resync

`UsbPanda._recv_resync`, the host's decoder: the drain loop over bulk reads, the cap on the
carry-over and the parse loop, which takes marked and unmarked packets until the first marked one
latches `_marked`. The watchdogs that follow the parse loop decode nothing; they are in
`Usb.Watchdogs`.

`recv_lossless_iff`: on a marked stream, cut in any way, exactly the packets come out and no byte is
dropped if and only if no call ends six bytes into a packet. With six bytes of a packet left, the
parse loop runs (`i + _HEAD <= n`) but does not see the marker (`i + 1 + _HEAD <= n` fails), and
slides past it.
-/

namespace MazdaPort
namespace Usb

open Safety Framing

/-! ## Parse loop -/

/-- A frame as the host sees it: `tag` is the bus, plus 192 if rejected, else 128 if returned. -/
structure Frame where
  addr : Nat
  data : List UInt8
  tag : Nat
  deriving DecidableEq, Repr

structure Decoder where
  marked : Bool := false
  resyncBytes : Nat := 0
  deriving DecidableEq, Repr

/-- `i = start + 1; self.resync_bytes += 1` -/
def slide (d : Decoder) : Decoder × Option Frame × Nat :=
  ({ d with resyncBytes := d.resyncBytes + 1 }, none, 1)

def busOf (h : List UInt8) : Nat := ((h.getD 0 0).toNat >>> 1) % 8

def dataLenOf (h : List UInt8) : Nat := dlcToLenTable.getD ((h.getD 0 0).toNat >>> 4) 0

def packetOk (h : List UInt8) : Bool :=
  decide (busOf h ≤ 2) &&
    decide (wordOf h >>> 3 ≤ if (wordOf h).testBit 2 then 0x1FFFFFFF else 0x7FF) &&
    calculateChecksum (h.take (canpacketHeadSize + dataLenOf h)) == 0

def frameOf (h : List UInt8) : Frame :=
  { addr := wordOf h >>> 3
    data := (h.drop canpacketHeadSize).take (dataLenOf h)
    tag :=
      busOf h +
        if (wordOf h).testBit 0 then 192 else if (wordOf h).testBit 1 then 128 else 0 }

/-- The loop body from the header on, which starts `hdr` bytes after the candidate. -/
def candidate (d : Decoder) (raw : List UInt8) (hdr : Nat) :
    Option (Decoder × Option Frame × Nat) :=
  let h := raw.drop hdr
  if hdr + canpacketHeadSize > raw.length then none
  else if hdr + canpacketHeadSize + dataLenOf h > raw.length then
    -- a packet split across two transfers is kept if its header is plausible
    if busOf h ≤ 2 then none else some (slide d)
  else if packetOk h then
    some ({ d with marked := d.marked || hdr != 0 }, some (frameOf h),
      hdr + canpacketHeadSize + dataLenOf h)
  else some (slide d)

/-- One iteration of the parse loop on the bytes from `i` on; `none` ends it. -/
def parseStep (d : Decoder) (raw : List UInt8) : Option (Decoder × Option Frame × Nat) :=
  if canpacketHeadSize > raw.length then none
  else if raw.getD 0 0 == canSyncMarker && decide (1 + canpacketHeadSize ≤ raw.length) then
    candidate d raw 1
  else if d.marked then some (slide d)
  else candidate d raw 0

/-- A candidate that is not kept waiting either slides by a byte or is a whole packet. -/
theorem candidate_some {d : Decoder} {raw : List UInt8} {hdr : Nat}
    {r : Decoder × Option Frame × Nat} (h : candidate d raw hdr = some r) :
    r = slide d ∨ (r.1.resyncBytes = d.resyncBytes ∧ canpacketHeadSize ≤ r.2.2 ∧
      r.2.2 ≤ raw.length) := by
  simp only [candidate] at h
  split at h
  · cases h
  · split at h
    · split at h
      · cases h
      · exact .inl (Option.some.inj h).symm
    · split at h
      · next hfit _ =>
        cases h
        refine .inr ⟨rfl, ?_, ?_⟩
        · dsimp only
          omega
        · dsimp only
          omega
      · exact .inl (Option.some.inj h).symm

theorem parseStep_some {d : Decoder} {raw : List UInt8} {r : Decoder × Option Frame × Nat}
    (h : parseStep d raw = some r) :
    canpacketHeadSize ≤ raw.length ∧
      (r = slide d ∨ (r.1.resyncBytes = d.resyncBytes ∧ canpacketHeadSize ≤ r.2.2 ∧
        r.2.2 ≤ raw.length)) := by
  unfold parseStep at h
  split at h
  · cases h
  · next hlen =>
    refine ⟨by omega, ?_⟩
    split at h
    · exact candidate_some h
    · split at h
      · exact .inl (Option.some.inj h).symm
      · exact candidate_some h

theorem parseStep_pos (d : Decoder) (raw : List UInt8) (r : Decoder × Option Frame × Nat)
    (h : parseStep d raw = some r) : 0 < r.2.2 ∧ r.2.2 ≤ raw.length := by
  obtain ⟨hlen, hslide | ⟨_, hlo, hhi⟩⟩ := parseStep_some h
  · rw [hslide]
    simp only [canpacketHeadSize] at hlen
    simp only [slide]
    omega
  · simp only [canpacketHeadSize] at hlo
    omega

def parser : Scanner Decoder UInt8 Frame := { scan := parseStep, pos := parseStep_pos }

theorem parseStep_resyncBytes {d : Decoder} {raw : List UInt8}
    {r : Decoder × Option Frame × Nat} (h : parseStep d raw = some r) :
    d.resyncBytes ≤ r.1.resyncBytes := by
  obtain ⟨_, hslide | ⟨heq, _⟩⟩ := parseStep_some h
  · rw [hslide]
    exact Nat.le_succ _
  · exact Nat.le_of_eq heq.symm

/-! ## The head of a packet -/

section Head

variable (p : CANPacket) (rest : List UInt8)

theorem busOf_header : busOf (header p ++ rest) = p.bus.toNat := by
  have hbus := p.bus.isLt
  have hfd := Bool.toNat_le p.fd
  have hhead : busOf (header p ++ rest) = ((UInt8.ofNat (headByte p)).toNat >>> 1) % 8 := rfl
  rw [hhead, headByte_toNat, Nat.shiftRight_eq_div_pow]
  unfold headByte
  omega

theorem dataLenOf_header : dataLenOf (header p ++ rest) = p.getLen := by
  have hhead : dataLenOf (header p ++ rest) =
      dlcToLenTable.getD ((UInt8.ofNat (headByte p)).toNat >>> 4) 0 := rfl
  rw [hhead, headByte_toNat, headByte_dlc]
  rfl

end Head

def toFrame (p : CANPacket) : Frame :=
  { addr := p.addr.toNat
    data := p.data.toList.take p.getLen
    tag := p.bus.toNat + if p.rejected then 192 else if p.returned then 128 else 0 }

theorem parseStep_torn (p : CANPacket) (d : Decoder) :
    parseStep d ((framed p).take 6) = some (slide d) := by
  obtain ⟨xs, hxs, hlen⟩ : ∃ xs, (framed p).take 6 = canSyncMarker :: xs ∧ xs.length = 5 := by
    refine ⟨(header p).take 5, ?_, rfl⟩
    rw [framed, packed_eq]
    rfl
  have hlen6 : (canSyncMarker :: xs).length = 6 := by rw [List.length_cons, hlen]
  have hmark : decide (1 + canpacketHeadSize ≤ (canSyncMarker :: xs).length) = false := by
    rw [hlen6]
    rfl
  rw [hxs]
  unfold parseStep
  rw [if_neg (by rw [hlen6, canpacketHeadSize]; omega), hmark, Bool.and_false, if_neg (by simp)]
  cases d.marked with
  | true => rfl
  | false =>
    -- read as an unmarked header, the marker names bus 5
    have hbus : busOf (canSyncMarker :: xs) = 5 := by simp [busOf, canSyncMarker]
    have hdata : dataLenOf (canSyncMarker :: xs) = 16 := by
      simp [dataLenOf, canSyncMarker, dlcToLenTable]
    unfold candidate
    simp only [List.drop_zero, hbus, hdata, hlen6]
    rfl

section Packet

variable {p : CANPacket} (hp : WellFormed p) (rest : List UInt8)

theorem packed_append (p : CANPacket) (rest : List UInt8) :
    packed p ++ rest = header p ++ (p.data.toList.take p.getLen ++ rest) := by
  rw [packed_eq, List.append_assoc]

include hp

theorem WellFormed.data_length : (p.data.toList.take p.getLen).length = p.getLen := by
  have hlen := hp.len
  rw [List.length_take, hp.getLen]
  simp
  omega

theorem packetOk_packed : packetOk (packed p ++ rest) = true := by
  obtain ⟨haddr, _, _, hext⟩ := headWord_fields p
  have hcheck : calculateChecksum ((packed p ++ rest).take
      (canpacketHeadSize + dataLenOf (packed p ++ rest))) = 0 := by
    have hlen : canpacketHeadSize + dataLenOf (packed p ++ rest) = (packed p).length := by
      rw [packed_append, dataLenOf_header, hp.packed_length, hp.getLen]
      rfl
    rw [hlen, List.take_left]
    exact eq_of_beq hp.checksum
  have hrange : p.addr.toNat ≤ if p.extended then 0x1FFFFFFF else 0x7FF := by
    cases he : p.extended with
    | true =>
      have hlt := p.addr.isLt
      simp only [if_true]
      omega
    | false => simpa using hp.addr he
  unfold packetOk
  rw [hcheck, packed_append, busOf_header, wordOf_header, haddr, hext]
  simp [hp.bus, hrange]

theorem frameOf_packed : frameOf (packed p ++ rest) = toFrame p := by
  obtain ⟨haddr, hrej, hret, _⟩ := headWord_fields p
  have hhead : (header p).length = canpacketHeadSize := rfl
  unfold frameOf toFrame
  rw [packed_append, busOf_header, wordOf_header, dataLenOf_header, haddr, hrej, hret, ← hhead,
    List.drop_left]
  have hdata : (p.data.toList.take p.getLen ++ rest).take p.getLen =
      p.data.toList.take p.getLen := by
    have htake : (p.data.toList.take p.getLen ++ rest).take
        (p.data.toList.take p.getLen).length = p.data.toList.take p.getLen := List.take_left
    rwa [hp.data_length] at htake
  rw [hdata]

theorem framed_length : (framed p).length = 7 + p.dataLenCode.toNat := by
  rw [framed, List.length_cons, hp.packed_length]
  omega

theorem parseStep_whole (d : Decoder) :
    parseStep d (framed p ++ rest) =
      some ({ d with marked := true }, some (toFrame p), (framed p).length) := by
  have hlen : (framed p ++ rest).length = 7 + p.dataLenCode.toNat + rest.length := by
    rw [List.length_append, framed_length hp]
  have hdrop : (framed p ++ rest).drop 1 = packed p ++ rest := rfl
  have hdata : dataLenOf (packed p ++ rest) = p.dataLenCode.toNat := by
    rw [packed_append, dataLenOf_header, hp.getLen]
  have hfirst : ((framed p ++ rest).getD 0 0 == canSyncMarker) = true := rfl
  have hmark : decide (1 + canpacketHeadSize ≤ (framed p ++ rest).length) = true := by
    rw [hlen, decide_eq_true_eq, canpacketHeadSize]
    omega
  unfold parseStep
  rw [if_neg (by rw [hlen, canpacketHeadSize]; omega), hfirst, hmark, Bool.and_self, if_pos rfl]
  unfold candidate
  simp only [hdrop, hdata]
  rw [if_neg (by rw [hlen, canpacketHeadSize]; omega),
    if_neg (by rw [hlen, canpacketHeadSize]; omega), if_pos (packetOk_packed hp rest),
    frameOf_packed hp, framed_length hp]
  simp [canpacketHeadSize]

theorem parseStep_partly (d : Decoder) {m : Nat} (hm : m < (framed p).length) (hne : m ≠ 6) :
    parseStep d ((framed p).take m) = none := by
  have hflen := framed_length hp
  have hlen : ((framed p).take m).length = m := by
    rw [List.length_take]
    omega
  unfold parseStep
  rcases Nat.lt_or_ge m 6 with hlt | hge
  · rw [if_pos (by rw [hlen, canpacketHeadSize]; omega)]
  · obtain ⟨k, rfl⟩ : ∃ k, m = 1 + (6 + k) := ⟨m - 7, by omega⟩
    have hdrop : ((framed p).take (1 + (6 + k))).drop 1 =
        header p ++ (p.data.toList.take p.getLen).take k := by
      have hhead : (header p).length = 6 := rfl
      rw [framed, Nat.add_comm 1, List.take_succ_cons, packed_eq, ← hhead,
        List.take_length_add_append]
      rfl
    have hfirst : (((framed p).take (1 + (6 + k))).getD 0 0 == canSyncMarker) = true := by
      rw [framed, Nat.add_comm 1, List.take_succ_cons]
      rfl
    have hmark : decide (1 + canpacketHeadSize ≤ ((framed p).take (1 + (6 + k))).length) =
        true := by
      rw [hlen, decide_eq_true_eq, canpacketHeadSize]
      omega
    rw [if_neg (by rw [hlen, canpacketHeadSize]; omega), hfirst, hmark, Bool.and_self, if_pos rfl]
    unfold candidate
    simp only [hdrop, dataLenOf_header, busOf_header, hp.getLen]
    rw [if_neg (by rw [hlen, canpacketHeadSize]; omega),
      if_pos (by rw [hlen, canpacketHeadSize]; omega), if_pos hp.bus]

end Packet

/-- The parse loop on marked packets: whole ones come out, partial ones wait, and one cut after six
bytes costs a byte. -/
theorem parser_frames :
    Frames parser (fun p : WirePacket => framed p.1) (fun p => toFrame p.1)
      (fun d => d.resyncBytes = 0) canpacketHeadSize where
  tear_pos := by decide
  tear_lt p := by
    have hlen := framed_length p.2
    rw [canpacketHeadSize]
    omega
  whole d p rest hd := ⟨{ d with marked := true }, hd, parseStep_whole p.2 rest d⟩
  partly d p m _ hm hne := parseStep_partly p.2 d hm hne
  torn d p _ := ⟨slide d, parseStep_torn p.1 d, Nat.succ_ne_zero _⟩
  spoilt d raw r hd hr := by
    have hle := parseStep_resyncBytes hr
    omega

/-! ## Calls -/

/-- The drain loop: up to `maxReads` bulk reads, until one comes back short. A read of an empty
queue returns nothing. -/
def drainReads : Nat → List (List UInt8) → List UInt8 × List (List UInt8)
  | 0, reads => ([], reads)
  | _, [] => ([], [])
  | k + 1, b :: reads =>
    if b.isEmpty then ([], reads)
    else if b.length < 16384 then (b, reads)
    else
      let r := drainReads k reads
      (b ++ r.1, r.2)

/-- `_recv_resync` up to the watchdogs, given what the bulk reads will return. -/
def recvResync (maxReads : Nat) (r : Receiver Decoder UInt8) (reads : List (List UInt8)) :
    List Frame × Receiver Decoder UInt8 × List (List UInt8) :=
  let chunk := drainReads maxReads reads
  let d := receive parser 65536 r chunk.1
  (d.1, d.2, chunk.2)

def recvCalls (maxReads : Nat) : Nat → Receiver Decoder UInt8 → List (List UInt8) →
    List Frame × Receiver Decoder UInt8
  | 0, r, _ => ([], r)
  | n + 1, r, reads =>
    let c := recvResync maxReads r reads
    let d := recvCalls maxReads n c.2.1 c.2.2
    (c.1 ++ d.1, d.2)

def fresh : Receiver Decoder UInt8 := { st := {}, buf := [] }

def callChunks (maxReads : Nat) : Nat → List (List UInt8) → List (List UInt8) × List (List UInt8)
  | 0, reads => ([], reads)
  | n + 1, reads =>
    let c := drainReads maxReads reads
    let d := callChunks maxReads n c.2
    (c.1 :: d.1, d.2)

theorem drainReads_flatten (maxReads : Nat) (reads : List (List UInt8)) :
    (drainReads maxReads reads).1 ++ (drainReads maxReads reads).2.flatten = reads.flatten := by
  induction reads generalizing maxReads with
  | nil => cases maxReads <;> rfl
  | cons b reads ih =>
    cases maxReads with
    | zero => rfl
    | succ k =>
      simp only [drainReads]
      split
      · next hempty => simp [List.isEmpty_iff.1 hempty]
      · split
        · rfl
        · rw [List.append_assoc, ih k, List.flatten_cons]

theorem callChunks_flatten (maxReads n : Nat) (reads : List (List UInt8)) :
    (callChunks maxReads n reads).1.flatten ++ (callChunks maxReads n reads).2.flatten =
      reads.flatten := by
  induction n generalizing reads with
  | zero => rfl
  | succ n ih =>
    simp only [callChunks, List.flatten_cons, List.append_assoc]
    rw [ih, drainReads_flatten]

theorem recvCalls_eq (maxReads n : Nat) (r : Receiver Decoder UInt8) (reads : List (List UInt8)) :
    recvCalls maxReads n r reads = receiveAll parser 65536 r (callChunks maxReads n reads).1 := by
  induction n generalizing r reads with
  | zero => rfl
  | succ n ih =>
    simp only [recvCalls, recvResync, callChunks, receiveAll]
    rw [ih]

/-- A marked stream `ps`, read and delivered in any way by `n` calls: exactly its packets are
returned, with no byte dropped, if and only if no call ends six bytes into a packet. -/
theorem recv_lossless_iff (maxReads n : Nat) {ps : List WirePacket} {reads : List (List UInt8)}
    (hstream : reads.flatten = ps.flatMap fun p => framed p.1)
    (hall : (callChunks maxReads n reads).2.flatten = []) :
    ((recvCalls maxReads n fresh reads).1 = ps.map (fun p => toFrame p.1) ∧
        (recvCalls maxReads n fresh reads).2.st.resyncBytes = 0) ↔
      Untorn (fun p : WirePacket => framed p.1) 6 0 ps (callChunks maxReads n reads).1 := by
  have hflat := callChunks_flatten maxReads n reads
  rw [hall, List.append_nil, hstream] at hflat
  have hlimit : ∀ p : WirePacket, (framed p.1).length ≤ 65536 := by
    intro p
    have hlen := framed_length p.2
    have hdlc := p.2.len
    omega
  rw [recvCalls_eq]
  exact parser_frames.receiveAll_iff hlimit rfl hflat

def enginePacket : WirePacket :=
  ⟨canSetChecksum (.eightBytes 0 0x202 (Vector.replicate 8 0)),
    ⟨by decide, fun _ => by decide, by decide, canSetChecksum_valid _⟩⟩

/-- A packet with no data. -/
def emptyPacket : WirePacket :=
  ⟨canSetChecksum { CANPacket.eightBytes 2 0x440 (Vector.replicate 8 0) with dataLenCode := 0 },
    ⟨by decide, fun _ => by decide, by decide, canSetChecksum_valid _⟩⟩

/-- Three packets in three calls, the first ending five bytes into the second packet and the next one
nine bytes into the third. -/
def cutReads : List (List UInt8) :=
  [framed enginePacket.1 ++ (framed emptyPacket.1).take 5,
    (framed emptyPacket.1).drop 5 ++ (framed enginePacket.1).take 9,
    (framed enginePacket.1).drop 9]

theorem recv_lossless_iff_engine :
    (recvCalls 8 3 fresh cutReads).1 =
        [enginePacket, emptyPacket, enginePacket].map (fun p => toFrame p.1) ∧
      (recvCalls 8 3 fresh cutReads).2.st.resyncBytes = 0 := by
  have huncut : ∀ pre ∈ (callChunks 8 3 cutReads).1.inits,
      ∀ qs ∈ [enginePacket, emptyPacket, enginePacket].inits, qs.isEmpty = false →
        0 + pre.flatten.length ≠ (qs.dropLast.flatMap fun p => framed p.1).length + 6 := by
    decide +kernel
  refine (recv_lossless_iff 8 3 (by decide +kernel) (by decide +kernel)).2 ?_
  intro pre hpre qs p hqs
  have hlast := huncut pre ((List.mem_inits pre _).2 hpre) (qs ++ [p]) ((List.mem_inits _ _).2 hqs)
    (by simp)
  rwa [List.dropLast_concat] at hlast

/-- Two packets, the first call ending six bytes into the second: it is never returned. -/
theorem torn_packet_lost :
    (framed enginePacket.1 ++ (framed enginePacket.1).take 6) ++ (framed enginePacket.1).drop 6 =
        [enginePacket, enginePacket].flatMap (fun p => framed p.1) ∧
      (recvCalls 8 2 fresh [framed enginePacket.1 ++ (framed enginePacket.1).take 6,
        (framed enginePacket.1).drop 6]).1 = [toFrame enginePacket.1] ∧
      (recvCalls 8 2 fresh [framed enginePacket.1 ++ (framed enginePacket.1).take 6,
        (framed enginePacket.1).drop 6]).2.st.resyncBytes ≠ 0 := by
  decide +kernel

end Usb
end MazdaPort
