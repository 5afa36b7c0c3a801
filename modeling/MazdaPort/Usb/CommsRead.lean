import MazdaPort.Lib.Memory
import MazdaPort.Lib.Ring
import MazdaPort.Lib.Run
import MazdaPort.Usb.Wire

/-!
# MazdaPort.Usb.CommsRead

`comms_can_read` (`can_comms.h`) over the ring `can_rx_q` and the overflow buffer
`can_read_buffer`, as the code has them. The ring is filled from interrupts, so packets may also
arrive within a call, before any of its `can_pop`s.

`readInv_run`: over any run the bytes returned, followed by those in the buffer, are the framed
packets popped so far, in queue order (`commsCanRead_lossless`, which adds what a short read means).

Lengths are `Nat`: a call returns at most what the ring and the buffer hold, so `pos + pckt_len`
never reaches 2^32.
-/

namespace MazdaPort
namespace Usb
namespace Comms

open Safety Memory

/-! ## The queue -/

abbrev CanRing (n : Nat) : Type := Ring CANPacket n

variable {n : Nat}

def canPop (q : CanRing n) : Option (CANPacket × CanRing n) := q.pop

def canPush (q : CanRing n) (elem : CANPacket) : Bool × CanRing n := q.push elem

/-- `can_push` of each packet in turn, and those that found room. -/
def pushAll (q : CanRing n) : List CANPacket → List CANPacket × CanRing n
  | [] => ([], q)
  | p :: ps =>
    let r := pushAll (canPush q p).2 ps
    (if (canPush q p).1 then p :: r.1 else r.1, r.2)

theorem pushAll_contents (q : CanRing n) (ps : List CANPacket) :
    (pushAll q ps).2.contents = q.contents ++ (pushAll q ps).1 := by
  induction ps generalizing q with
  | nil => simp [pushAll]
  | cons p ps ih =>
    simp only [pushAll]
    rw [ih]
    cases hpush : canPush q p with
    | mk ok q' =>
      cases ok with
      | true =>
        have hc : q'.contents = q.contents ++ [p] := Ring.push_accepted hpush
        simp [hc]
      | false =>
        have hq : q' = q := Ring.push_refused hpush
        simp [hq]

theorem pushAll_subset (q : CanRing n) (ps : List CANPacket) :
    ∀ p ∈ (pushAll q ps).1, p ∈ ps := by
  induction ps generalizing q with
  | nil => exact fun p hp => hp
  | cons a ps ih =>
    intro p hp
    simp only [pushAll] at hp
    split at hp
    · rcases List.mem_cons.1 hp with rfl | hrest
      · exact List.mem_cons_self
      · exact List.mem_cons_of_mem a (ih _ p hrest)
    · exact List.mem_cons_of_mem a (ih _ p hp)

/-! ## The function -/

structure CommsRead (n : Nat) where
  canRxQ : CanRing n
  canReadBuffer : AsmBuffer

/-- A call under way: the bytes in `data`, of which there are `pos`, the packets popped, those that
have arrived, and the copies made. -/
structure Filling (n : Nat) where
  data : List UInt8
  popped : List CANPacket
  arrived : List CANPacket
  copies : List Access
  canRxQ : CanRing n
  canReadBuffer : AsmBuffer

def readBufferCopy (off len : Nat) : Access := { size := 72, off := off, len := len }

/-- The copy of a popped packet into `framed`, behind the marker. -/
def framedCopies (p : CANPacket) : List Access :=
  [{ size := sizeofCANPacket, off := 0, len := canpacketHeadSize + p.getLen },
    { size := 1 + sizeofCANPacket, off := 1, len := canpacketHeadSize + p.getLen }]

/-- The loop body, once a packet has been popped. -/
def appendPacket (maxLen : Nat) (p : CANPacket) (f : Filling n) : Filling n :=
  let pos := f.data.length
  let pcktLen := 1 + canpacketHeadSize + p.getLen
  if pos + pcktLen ≤ maxLen then
    { f with
      data := f.data ++ framed p
      popped := f.popped ++ [p]
      copies := f.copies ++ framedCopies p }
  else
    let ptr := f.canReadBuffer.ptr + (pcktLen - (maxLen - pos))
    { f with
      data := f.data ++ (framed p).take (maxLen - pos)
      popped := f.popped ++ [p]
      copies := f.copies ++ framedCopies p ++ [readBufferCopy 0 ptr]
      canReadBuffer :=
        { f.canReadBuffer with
          ptr := ptr
          data := store f.canReadBuffer.data 0 (((framed p).drop (maxLen - pos)).take ptr) } }

/-- The filling loop. The packets of the head of `arrivals` come before its next `can_pop`. Every
turn returns a byte, so `maxLen` turns are enough. -/
def fillLoop (maxLen : Nat) : Nat → List (List CANPacket) → Filling n → Filling n
  | 0, _, f => f
  | k + 1, arrivals, f =>
    if f.data.length < maxLen then
      let a := pushAll f.canRxQ (arrivals.headD [])
      let f' := { f with canRxQ := a.2, arrived := f.arrived ++ a.1 }
      match canPop f'.canRxQ with
      | none => f'
      | some (p, q) => fillLoop maxLen k arrivals.tail (appendPacket maxLen p { f' with canRxQ := q })
    else f

/-- The tail of the previous packet, as far as there is room for it. -/
def sendTail (maxLen : Nat) (s : CommsRead n) : Filling n :=
  let buf := s.canReadBuffer
  if buf.ptr > 0 then
    let overflowLen := min maxLen buf.ptr
    { data := load buf.data 0 overflowLen
      popped := []
      arrived := []
      copies := [readBufferCopy 0 overflowLen, readBufferCopy overflowLen (buf.ptr - overflowLen)]
      canRxQ := s.canRxQ
      canReadBuffer :=
        { buf with
          data := copyWithin 4 buf.data 0 overflowLen (buf.ptr - overflowLen)
          ptr := buf.ptr - overflowLen } }
  else
    { data := [], popped := [], arrived := [], copies := [], canRxQ := s.canRxQ
      canReadBuffer := buf }

def commsCanRead (maxLen : Nat) (arrivals : List (List CANPacket)) (s : CommsRead n) : Filling n :=
  let f := sendTail maxLen s
  if f.canReadBuffer.ptr = 0 then fillLoop maxLen maxLen arrivals f else f

/-! ## One call -/

def held (buf : AsmBuffer) : List UInt8 := load buf.data 0 buf.ptr

/-- A call that began with the bytes `d0` in the buffer and the packets `c0` in the queue. -/
structure FillInv (maxLen : Nat) (d0 : List UInt8) (c0 : List CANPacket) (f : Filling n) :
    Prop where
  bytes : f.data ++ held f.canReadBuffer = d0 ++ f.popped.flatMap framed
  order : f.popped ++ f.canRxQ.contents = c0 ++ f.arrived
  room : f.data.length ≤ maxLen
  ptr : f.canReadBuffer.ptr ≤ 14
  full : f.canReadBuffer.ptr = 0 ∨ f.data.length = maxLen
  short : ∀ p ∈ f.canRxQ.contents, Short p
  copies : ∀ a ∈ f.copies, a.Inside

theorem framed_length_of_short {p : CANPacket} (h : Short p) :
    (framed p).length = 7 + p.dataLenCode.toNat := by
  rw [framed, List.length_cons, packed_length_of_short h]
  omega

theorem framedCopies_inside {p : CANPacket} (h : Short p) : ∀ a ∈ framedCopies p, a.Inside := by
  have hlen : p.dataLenCode.toNat ≤ 8 := h
  have hget := getLen_of_short h
  intro a ha
  simp only [framedCopies, List.mem_cons, List.not_mem_nil, or_false] at ha
  rcases ha with rfl | rfl <;>
    simp only [Access.Inside, canpacketHeadSize, sizeofCANPacket] <;> omega

section Call

variable {maxLen : Nat} {d0 : List UInt8} {c0 : List CANPacket} {f : Filling n}

theorem FillInv.ptr_zero (h : FillInv maxLen d0 c0 f) (hlt : f.data.length < maxLen) :
    f.canReadBuffer.ptr = 0 := by
  rcases h.full with hzero | hfull
  · exact hzero
  · omega

theorem FillInv.arrive (h : FillInv maxLen d0 c0 f) {ps : List CANPacket}
    (hps : ∀ p ∈ ps, Short p) :
    FillInv maxLen d0 c0
      { f with
        canRxQ := (pushAll f.canRxQ ps).2
        arrived := f.arrived ++ (pushAll f.canRxQ ps).1 } where
  bytes := h.bytes
  order := by
    rw [pushAll_contents, ← List.append_assoc, ← List.append_assoc, h.order]
  room := h.room
  ptr := h.ptr
  full := h.full
  short := by
    intro p hp
    rw [pushAll_contents] at hp
    rcases List.mem_append.1 hp with hold | hnew
    · exact h.short p hold
    · exact hps p (pushAll_subset _ _ p hnew)
  copies := h.copies

/-- What the loop body does to a call whose buffer is empty: as much of the framed packet as there
is room for goes out, and the rest waits. -/
structure Appends (maxLen : Nat) (p : CANPacket) (f f' : Filling n) : Prop where
  data : f'.data = f.data ++ (framed p).take (maxLen - f.data.length)
  held : held f'.canReadBuffer = (framed p).drop (maxLen - f.data.length)
  ptr : f'.canReadBuffer.ptr = (framed p).length - (maxLen - f.data.length)
  popped : f'.popped = f.popped ++ [p]
  arrived : f'.arrived = f.arrived
  canRxQ : f'.canRxQ = f.canRxQ
  copies : ∀ a ∈ f'.copies, a ∈ f.copies ∨ a.Inside

theorem appendPacket_appends {p : CANPacket} (hp : Short p) {f : Filling n}
    (hzero : f.canReadBuffer.ptr = 0) (hlt : f.data.length < maxLen) :
    Appends maxLen p f (appendPacket maxLen p f) := by
  have hcode : p.dataLenCode.toNat ≤ 8 := hp
  have hget := getLen_of_short hp
  have hlen := framed_length_of_short hp
  have hcopies : ∀ a ∈ f.copies ++ framedCopies p, a ∈ f.copies ∨ a.Inside := by
    intro a ha
    rcases List.mem_append.1 ha with hold | hnew
    · exact .inl hold
    · exact .inr (framedCopies_inside hp a hnew)
  unfold appendPacket
  dsimp only
  split
  · next hfits =>
    have hle : (framed p).length ≤ maxLen - f.data.length := by
      rw [hlen, ← hget]
      simp only [canpacketHeadSize] at hfits
      omega
    exact
      { data := by rw [List.take_of_length_le hle]
        held := by
          rw [List.drop_eq_nil_of_le hle]
          simp [Comms.held, hzero]
        ptr := by
          dsimp only
          omega
        popped := rfl
        arrived := rfl
        canRxQ := rfl
        copies := hcopies }
  · next hover =>
    have hrem : f.canReadBuffer.ptr +
        (1 + canpacketHeadSize + p.getLen - (maxLen - f.data.length)) =
        (framed p).length - (maxLen - f.data.length) := by
      rw [hlen, hzero, hget, canpacketHeadSize]
      omega
    have hrest : ((framed p).drop (maxLen - f.data.length)).length =
        (framed p).length - (maxLen - f.data.length) := List.length_drop
    have hsmall : (framed p).length - (maxLen - f.data.length) ≤ 72 := by omega
    rw [hrem]
    exact
      { data := rfl
        held := by
          simp only [Comms.held]
          rw [← hrest, List.take_length]
          exact load_store_zero _ (by omega)
        ptr := rfl
        popped := rfl
        arrived := rfl
        canRxQ := rfl
        copies := by
          intro a ha
          rcases List.mem_append.1 ha with hold | hnew
          · exact hcopies a hold
          · right
            have ha' : a = readBufferCopy 0 ((framed p).length - (maxLen - f.data.length)) :=
              List.mem_singleton.1 hnew
            rw [ha']
            simp only [readBufferCopy, Access.Inside]
            omega }

theorem FillInv.append (h : FillInv maxLen d0 c0 f) (hlt : f.data.length < maxLen)
    {p : CANPacket} {q : CanRing n} (hq : f.canRxQ.contents = p :: q.contents) :
    FillInv maxLen d0 c0 (appendPacket maxLen p { f with canRxQ := q }) := by
  have hp : Short p := h.short p (by rw [hq]; exact List.mem_cons_self)
  have hcode : p.dataLenCode.toNat ≤ 8 := hp
  have hlen := framed_length_of_short hp
  have hzero := h.ptr_zero hlt
  have happ : Appends maxLen p { f with canRxQ := q }
      (appendPacket maxLen p { f with canRxQ := q }) := appendPacket_appends hp hzero hlt
  generalize appendPacket maxLen p { f with canRxQ := q } = f' at happ ⊢
  have hdata : f.data = d0 ++ f.popped.flatMap framed := by
    have hbytes := h.bytes
    rw [held, hzero, load_zero_len, List.append_nil] at hbytes
    exact hbytes
  exact
    { bytes := by
        rw [happ.data, happ.held, happ.popped, List.append_assoc, List.take_append_drop, hdata]
        simp
      order := by
        rw [happ.popped, happ.canRxQ, happ.arrived, ← h.order, hq, List.append_assoc]
        rfl
      room := by
        rw [happ.data, List.length_append, List.length_take]
        dsimp only
        omega
      ptr := by
        rw [happ.ptr]
        dsimp only
        omega
      full := by
        rw [happ.ptr, happ.data, List.length_append, List.length_take]
        dsimp only
        omega
      short := by
        intro p' hp'
        rw [happ.canRxQ] at hp'
        exact h.short p' (by rw [hq]; exact List.mem_cons_of_mem p hp')
      copies := by
        intro a ha
        rcases happ.copies a ha with hold | hin
        · exact h.copies a hold
        · exact hin }

theorem appendPacket_length_lt (p : CANPacket) (f : Filling n) (hlt : f.data.length < maxLen) :
    f.data.length < (appendPacket maxLen p f).data.length := by
  have hpos : 0 < (framed p).length := by
    rw [framed, List.length_cons]
    omega
  unfold appendPacket
  dsimp only
  split
  · simp only [List.length_append]
    omega
  · simp only [List.length_append, List.length_take]
    omega

theorem appendPacket_length_le (p : CANPacket) (h : f.data.length ≤ maxLen) :
    (appendPacket maxLen p f).data.length ≤ maxLen := by
  have hframed : (framed p).length ≤ 1 + canpacketHeadSize + p.getLen := by
    have htake : (packed p).length ≤ canpacketHeadSize + p.getLen := List.length_take_le _ _
    rw [framed, List.length_cons]
    omega
  unfold appendPacket
  dsimp only
  split
  · simp only [List.length_append]
    omega
  · simp only [List.length_append, List.length_take]
    omega

theorem fillLoop_length_le {k : Nat} {arrivals : List (List CANPacket)}
    (h : f.data.length ≤ maxLen) : (fillLoop maxLen k arrivals f).data.length ≤ maxLen := by
  induction k generalizing arrivals f with
  | zero => exact h
  | succ k ih =>
    simp only [fillLoop]
    split
    · split
      · exact h
      · exact ih (appendPacket_length_le _ h)
    · exact h

/-- Whatever state it finds, a call returns no more than it is asked for. -/
theorem commsCanRead_length_le (maxLen : Nat) (arrivals : List (List CANPacket))
    (s : CommsRead n) : (commsCanRead maxLen arrivals s).data.length ≤ maxLen := by
  have htail : (sendTail maxLen s).data.length ≤ maxLen := by
    unfold sendTail
    dsimp only
    split
    · exact Nat.le_trans (List.length_take_le _ _) (Nat.min_le_left _ _)
    · exact Nat.zero_le _
  unfold commsCanRead
  dsimp only
  split
  · exact fillLoop_length_le htail
  · exact htail

/-- The loop ends with the queue empty or `maxLen` bytes in `data`. -/
theorem fillLoop_inv {k : Nat} {arrivals : List (List CANPacket)}
    (harr : ∀ ps ∈ arrivals, ∀ p ∈ ps, Short p) (h : FillInv maxLen d0 c0 f)
    (hk : maxLen - f.data.length ≤ k) :
    FillInv maxLen d0 c0 (fillLoop maxLen k arrivals f) ∧
      ((fillLoop maxLen k arrivals f).data.length < maxLen →
        (fillLoop maxLen k arrivals f).canRxQ.contents = []) := by
  induction k generalizing f arrivals with
  | zero =>
    refine ⟨h, fun hlt => ?_⟩
    simp only [fillLoop] at hlt
    omega
  | succ k ih =>
    have hhead : ∀ p ∈ arrivals.headD [], Short p := by
      cases arrivals with
      | nil => simp
      | cons ps rest => exact harr ps List.mem_cons_self
    have htail : ∀ ps ∈ arrivals.tail, ∀ p ∈ ps, Short p := fun ps hps =>
      harr ps (List.mem_of_mem_tail hps)
    unfold fillLoop
    split
    · next hlt =>
      have harrive := h.arrive hhead
      dsimp only
      split
      · next hpop => exact ⟨harrive, fun _ => Ring.pop_none hpop⟩
      · next p q hpop =>
        have happend := harrive.append hlt (Ring.pop_some hpop)
        refine ih htail happend ?_
        have hgrow := appendPacket_length_lt p
          { f with
            canRxQ := q
            arrived := f.arrived ++ (pushAll f.canRxQ (arrivals.headD [])).1 } hlt
        dsimp only at hgrow ⊢
        omega
    · next hfull =>
      exact ⟨h, fun hlt => absurd hlt hfull⟩

/-- What the first part of a call does with the tail of the previous packet. -/
structure SendsTail (maxLen : Nat) (s : CommsRead n) (f : Filling n) : Prop where
  data : f.data = (held s.canReadBuffer).take maxLen
  held : held f.canReadBuffer = (held s.canReadBuffer).drop maxLen
  ptr : f.canReadBuffer.ptr = s.canReadBuffer.ptr - maxLen
  popped : f.popped = []
  arrived : f.arrived = []
  canRxQ : f.canRxQ = s.canRxQ
  copies : ∀ a ∈ f.copies, a.Inside

theorem held_length {buf : AsmBuffer} (h : buf.ptr ≤ 14) : (held buf).length = buf.ptr :=
  load_length _ (by omega)

theorem sendTail_sends {s : CommsRead n} (hptr : s.canReadBuffer.ptr ≤ 14) :
    SendsTail maxLen s (sendTail maxLen s) := by
  have hheld := held_length hptr
  unfold sendTail
  dsimp only
  split
  · generalize hov : min maxLen s.canReadBuffer.ptr = overflowLen
    generalize hleft : s.canReadBuffer.ptr - overflowLen = left
    have hsum : overflowLen + left = s.canReadBuffer.ptr := by omega
    have hfirst : (load s.canReadBuffer.data 0 overflowLen).length = overflowLen :=
      load_length _ (by omega)
    have hsecond : (load s.canReadBuffer.data overflowLen left).length = left :=
      load_length _ (by omega)
    have hsplit : held s.canReadBuffer = load s.canReadBuffer.data 0 overflowLen ++
        load s.canReadBuffer.data overflowLen left := by
      have hadd := load_add s.canReadBuffer.data 0 overflowLen left
      rw [hsum, Nat.zero_add] at hadd
      exact hadd
    have hcopy := copyWithin_eq 4 s.canReadBuffer.data (Nat.zero_le overflowLen)
      (show overflowLen + left ≤ 72 by omega)
    have hdown : load (copyWithin 4 s.canReadBuffer.data 0 overflowLen left) 0 left =
        load s.canReadBuffer.data overflowLen left := by
      have hstore : load (store s.canReadBuffer.data 0
          (load s.canReadBuffer.data overflowLen left)) 0
            (load s.canReadBuffer.data overflowLen left).length =
          load s.canReadBuffer.data overflowLen left := load_store_zero _ (by omega)
      rw [hsecond] at hstore
      rw [hcopy]
      exact hstore
    -- cutting at `maxLen` or at the end of what is held is the same
    have hcut : (held s.canReadBuffer).take maxLen = load s.canReadBuffer.data 0 overflowLen ∧
        (held s.canReadBuffer).drop maxLen = load s.canReadBuffer.data overflowLen left := by
      rcases Nat.le_total maxLen s.canReadBuffer.ptr with hle | hge
      · have hm : maxLen = (load s.canReadBuffer.data 0 overflowLen).length := by omega
        rw [hsplit, hm, List.take_left, List.drop_left]
        exact ⟨rfl, rfl⟩
      · have hnil : load s.canReadBuffer.data overflowLen left = [] := by
          rw [← List.length_eq_zero_iff, hsecond]
          omega
        rw [List.take_of_length_le (by omega), List.drop_eq_nil_of_le (by omega), hsplit, hnil,
          List.append_nil]
        exact ⟨rfl, rfl⟩
    exact
      { data := hcut.1.symm
        held := hdown.trans hcut.2.symm
        ptr := by
          dsimp only
          omega
        popped := rfl
        arrived := rfl
        canRxQ := rfl
        copies := by
          intro a ha
          simp only [List.mem_cons, List.not_mem_nil, or_false] at ha
          rcases ha with rfl | rfl <;> simp only [readBufferCopy, Access.Inside] <;> omega }
  · next hzero =>
    have hnil : held s.canReadBuffer = [] := by
      rw [← List.length_eq_zero_iff, hheld]
      omega
    exact
      { data := by simp [hnil]
        held := by simp [hnil]
        ptr := by
          dsimp only
          omega
        popped := rfl
        arrived := rfl
        canRxQ := rfl
        copies := by simp }

theorem sendTail_inv {s : CommsRead n} (hptr : s.canReadBuffer.ptr ≤ 14)
    (hshort : ∀ p ∈ s.canRxQ.contents, Short p) :
    FillInv maxLen (held s.canReadBuffer) s.canRxQ.contents (sendTail maxLen s) := by
  have hheld := held_length hptr
  have hsends : SendsTail maxLen s (sendTail maxLen s) := sendTail_sends hptr
  exact
    { bytes := by
        rw [hsends.data, hsends.held, hsends.popped, List.take_append_drop]
        simp
      order := by rw [hsends.popped, hsends.arrived, hsends.canRxQ, List.append_nil, List.nil_append]
      room := by
        rw [hsends.data, List.length_take]
        omega
      ptr := by
        rw [hsends.ptr]
        omega
      full := by
        rw [hsends.ptr, hsends.data, List.length_take]
        omega
      short := by
        rw [hsends.canRxQ]
        exact hshort
      copies := hsends.copies }

/-- The one spec of a call: what it returns and leaves behind is what was there and what it popped,
and a short read leaves nothing. -/
theorem commsCanRead_inv (maxLen : Nat) {s : CommsRead n} (hptr : s.canReadBuffer.ptr ≤ 14)
    (hshort : ∀ p ∈ s.canRxQ.contents, Short p) {arrivals : List (List CANPacket)}
    (harr : ∀ ps ∈ arrivals, ∀ p ∈ ps, Short p) :
    FillInv maxLen (held s.canReadBuffer) s.canRxQ.contents (commsCanRead maxLen arrivals s) ∧
      ((commsCanRead maxLen arrivals s).data.length < maxLen →
        (commsCanRead maxLen arrivals s).canRxQ.contents = [] ∧
          (commsCanRead maxLen arrivals s).canReadBuffer.ptr = 0) := by
  have hstart : FillInv maxLen (held s.canReadBuffer) s.canRxQ.contents (sendTail maxLen s) :=
    sendTail_inv hptr hshort
  unfold commsCanRead
  dsimp only
  split
  · obtain ⟨hinv, hempty⟩ := fillLoop_inv harr hstart (Nat.sub_le _ _)
    exact ⟨hinv, fun hlt => ⟨hempty hlt, hinv.ptr_zero hlt⟩⟩
  · next hpos =>
    refine ⟨hstart, fun hlt => ?_⟩
    exact absurd (hstart.ptr_zero hlt) hpos

end Call

/-! ## Runs -/

inductive Event where
  | push (elem : CANPacket)
  | read (maxLen : Nat) (arrivals : List (List CANPacket))

def step (s : CommsRead n) : Event → CommsRead n
  | .push elem => { s with canRxQ := (canPush s.canRxQ elem).2 }
  | .read maxLen arrivals =>
    let r := commsCanRead maxLen arrivals s
    { canRxQ := r.canRxQ, canReadBuffer := r.canReadBuffer }

/-- The packets that have found room in the queue, those popped from it, and the bytes returned. -/
structure Account where
  queued : List CANPacket := []
  popped : List CANPacket := []
  returned : List UInt8 := []

def note (s : CommsRead n) (a : Account) : Event → Account
  | .push elem =>
    { a with queued := if (canPush s.canRxQ elem).1 then a.queued ++ [elem] else a.queued }
  | .read maxLen arrivals =>
    let r := commsCanRead maxLen arrivals s
    { queued := a.queued ++ r.arrived
      popped := a.popped ++ r.popped
      returned := a.returned ++ r.data }

abbrev run (s : CommsRead n) (es : List Event) : CommsRead n × Account :=
  Run.run (Run.withHistory step note) (s, {}) es

/-- Every packet the event brings has at most eight bytes. -/
def Event.Short : Event → Prop
  | .push elem => Usb.Short elem
  | .read _ arrivals => ∀ ps ∈ arrivals, ∀ p ∈ ps, Usb.Short p

structure ReadInv (s : CommsRead n) (a : Account) : Prop where
  bytes : a.returned ++ held s.canReadBuffer = a.popped.flatMap framed
  order : a.popped ++ s.canRxQ.contents = a.queued
  ptr : s.canReadBuffer.ptr ≤ 14
  short : ∀ p ∈ s.canRxQ.contents, Short p

theorem readInv_step {s : CommsRead n} {a : Account} {e : Event} (he : e.Short)
    (h : ReadInv s a) : ReadInv (step s e) (note s a e) := by
  cases e with
  | push elem =>
    have helem : Short elem := he
    cases hpush : canPush s.canRxQ elem with
    | mk ok q =>
      cases ok with
      | true =>
        have hc : q.contents = s.canRxQ.contents ++ [elem] := Ring.push_accepted hpush
        exact
          { bytes := h.bytes
            order := by simp [step, note, hpush, hc, ← h.order]
            ptr := h.ptr
            short := by
              intro p hp
              simp only [step, hpush, hc] at hp
              rcases List.mem_append.1 hp with hold | hnew
              · exact h.short p hold
              · rw [List.mem_singleton.1 hnew]
                exact helem }
      | false =>
        have hq : q = s.canRxQ := Ring.push_refused hpush
        exact
          { bytes := h.bytes
            order := by simp [step, note, hpush, hq, h.order]
            ptr := h.ptr
            short := by
              simp only [step, hpush, hq]
              exact h.short }
  | read maxLen arrivals =>
    obtain ⟨hcall, _⟩ := commsCanRead_inv maxLen h.ptr h.short he
    exact
      { bytes := by
          simp only [step, note, List.append_assoc, List.flatMap_append]
          rw [hcall.bytes, ← List.append_assoc, h.bytes]
        order := by
          simp only [step, note, List.append_assoc]
          rw [hcall.order, ← List.append_assoc, h.order]
        ptr := hcall.ptr
        short := hcall.short }

theorem readInv_run {s : CommsRead n} (hptr : s.canReadBuffer.ptr = 0)
    (hempty : s.canRxQ.wPtr = s.canRxQ.rPtr) {es : List Event} (hes : ∀ e ∈ es, e.Short) :
    ReadInv (run s es).1 (run s es).2 := by
  have hnil : s.canRxQ.contents = [] := Ring.contents_eq_nil.2 hempty
  have hstart : ReadInv s {} :=
    { bytes := by simp [held, hptr]
      order := by simp [hnil]
      ptr := by omega
      short := by simp [hnil] }
  have hstep : ∀ (p : CommsRead n × Account) (e : Event), e.Short → ReadInv p.1 p.2 →
      ReadInv (Run.withHistory step note p e).1 (Run.withHistory step note p e).2 :=
    fun p e he hp => readInv_step he hp
  exact Run.run_inv_of_mem hstep hstart hes

/-- The queue and the buffer as they start, with cells that hold `p`. -/
def bootRead (p : CANPacket) (h : 0 < n) : CommsRead n :=
  { canRxQ := Ring.empty p h
    canReadBuffer := { ptr := 0, tailSize := 0, data := Vector.replicate 72 0 } }

/-- Whatever packets are pushed and whatever lengths are read: the bytes returned and those held
are the packets popped, the queue holds the others in order, and in every state reached a read
returns no more than it is asked for, and less only if it leaves nothing. -/
theorem commsCanRead_lossless {s : CommsRead n} (hptr : s.canReadBuffer.ptr = 0)
    (hempty : s.canRxQ.wPtr = s.canRxQ.rPtr) {es : List Event} (hes : ∀ e ∈ es, e.Short) :
    (run s es).2.returned ++ held (run s es).1.canReadBuffer =
        (run s es).2.popped.flatMap framed ∧
      (run s es).2.popped ++ (run s es).1.canRxQ.contents = (run s es).2.queued ∧
      (run s es).1.canReadBuffer.ptr ≤ 14 ∧
      ∀ maxLen arrivals, (Event.read maxLen arrivals).Short →
        (commsCanRead maxLen arrivals (run s es).1).data.length ≤ maxLen ∧
          ((commsCanRead maxLen arrivals (run s es).1).data.length < maxLen →
            (step (run s es).1 (.read maxLen arrivals)).canRxQ.wPtr =
                (step (run s es).1 (.read maxLen arrivals)).canRxQ.rPtr ∧
              (step (run s es).1 (.read maxLen arrivals)).canReadBuffer.ptr = 0) := by
  have h := readInv_run hptr hempty hes
  refine ⟨h.bytes, h.order, h.ptr, fun maxLen arrivals harr => ?_⟩
  obtain ⟨hcall, hshort⟩ := commsCanRead_inv maxLen h.ptr h.short harr
  refine ⟨hcall.room, fun hlt => ?_⟩
  obtain ⟨hnil, hzero⟩ := hshort hlt
  exact ⟨Ring.contents_eq_nil.1 hnil, hzero⟩

/-- A packet, ten of its bytes read while another one arrives, and the rest of both. -/
def pushReadRead : List Event :=
  [.push lkasPacket, .read 10 [[lkasPacket]], .push lkasPacket, .read 64 []]

theorem commsCanRead_lossless_lkas :
    let s : CommsRead 4 := bootRead lkasPacket (Nat.zero_lt_succ 3)
    (run s pushReadRead).2.returned ++ held (run s pushReadRead).1.canReadBuffer =
        (run s pushReadRead).2.popped.flatMap framed ∧
      (run s pushReadRead).2.popped ++ (run s pushReadRead).1.canRxQ.contents =
        (run s pushReadRead).2.queued ∧
      (run s pushReadRead).1.canReadBuffer.ptr ≤ 14 ∧
      ∀ maxLen arrivals, (Event.read maxLen arrivals).Short →
        (commsCanRead maxLen arrivals (run s pushReadRead).1).data.length ≤ maxLen ∧
          ((commsCanRead maxLen arrivals (run s pushReadRead).1).data.length < maxLen →
            (step (run s pushReadRead).1 (.read maxLen arrivals)).canRxQ.wPtr =
                (step (run s pushReadRead).1 (.read maxLen arrivals)).canRxQ.rPtr ∧
              (step (run s pushReadRead).1 (.read maxLen arrivals)).canReadBuffer.ptr = 0) :=
  commsCanRead_lossless rfl rfl (by
    intro e he
    have hp : Short lkasPacket := by decide
    simp only [pushReadRead, List.mem_cons, List.not_mem_nil, or_false] at he
    rcases he with rfl | rfl | rfl | rfl <;> simp [Event.Short, hp])

end Comms
end Usb
end MazdaPort
