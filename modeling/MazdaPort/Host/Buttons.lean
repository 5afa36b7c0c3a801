import MazdaPort.Safety.Authority

/-!
# MazdaPort.Host.Buttons

Two readers of CRZ_BTNS under alpha longitudinal. The panda's receive hook acts on every frame, with
cancel winning. The host decodes every frame into `cs_can.buttons` and looks at it once per
`carState` sample: `carstate_thread` raises `buttonEnable` when RES has been pressed or SET_M
released since the sample before.

`buttonEnable_iff`: over any traffic and any sampling, the two agree at every sample exactly when
at every sample the change the host sees is there among the frames since the last CAN_OFF, and none
is there that it does not see.
-/

namespace MazdaPort
namespace Host

open Safety

/-! ## The host -/

structure Buttons where
  setP : Bool := false
  setM : Bool := false
  res : Bool := false
  off : Bool := false
  deriving DecidableEq, Repr

/-- `bit` of `dashcam.py`. -/
def bit (d : List UInt8) (s : Nat) : Bool := ((d.getD (s / 8) 0).toNat >>> (s % 8)) &&& 1 != 0

/-- The CRZ_BTNS branch of `CarStateFromCAN.update`. -/
def decodeButtons (msg : CANPacket) : Buttons :=
  let d := msg.data.toList
  { setP := bit d 4, setM := bit d 5, res := bit d 2, off := bit d 0 }

/-- `bit` and `GET_BIT` are the same formula. -/
theorem bit_data (msg : CANPacket) (b : Fin 64) : bit msg.data.toList b.val = msg.getBit b := by
  have hlen : b.val / 8 < msg.data.toList.length := by
    rw [Vector.length_toList]
    omega
  have hget : msg.data.toList.getD (b.val / 8) 0 = msg.data.get ⟨b.val / 8, by omega⟩ := by
    rw [List.getD_eq_getElem?_getD, List.getElem?_eq_getElem hlen, Option.getD_some]
    exact Vector.getElem_toList _
  rw [bit, hget]
  rfl

theorem decodeButtons_eq (msg : CANPacket) :
    decodeButtons msg =
      { setP := msg.getBit 4, setM := msg.getBit 5, res := msg.getBit 2, off := msg.getBit 0 } := by
  rw [← bit_data, ← bit_data, ← bit_data, ← bit_data]
  rfl

/-- `can_thread` passes on what comes from bus 0, and `update` takes eight bytes only. -/
def canUpdate (msg : CANPacket) (buttons : Buttons) : Buttons :=
  if msg.bus.toNat == 0 && msg.getLen == 8 && msg.addr.toNat == mazdaCrzBtns then
    decodeButtons msg
  else buttons

inductive Key where
  | res
  | setM
  | off
  deriving DecidableEq, Repr

def Buttons.get (b : Buttons) : Key → Bool
  | .res => b.res
  | .setM => b.setM
  | .off => b.off

/-- `_events`: the keys that have changed, with what they are now. -/
def buttonEvents (prev now : Buttons) : List (Key × Bool) :=
  ([.res, .setM, .off].filter fun k => now.get k != prev.get k).map fun k => (k, now.get k)

/-- RESUME on press, SET on release. -/
def buttonEnable (pcmCruise : Bool) (events : List (Key × Bool)) : Bool :=
  !pcmCruise && events.any fun e => (e.1 == .res && e.2) || (e.1 == .setM && !e.2)

/-- What `carstate_thread` reads and keeps: `cs_can.buttons` and `btn_state`. -/
structure Shim where
  buttons : Buttons := {}
  btnState : Buttons := {}
  deriving DecidableEq, Repr

/-- The `buttonEnable` of the next sample. Under alpha longitudinal `pcmCruise` is false. -/
def Shim.published (h : Shim) : Bool := buttonEnable false (buttonEvents h.btnState h.buttons)

/-- RES is clear in `a` and set in `b`, or SET_M is set in `a` and clear in `b`. -/
def shows (a b : Buttons) : Bool := (!a.res && b.res) || (a.setM && !b.setM)

theorem buttonEnable_eq (prev now : Buttons) :
    buttonEnable false (buttonEvents prev now) = shows prev now := by
  obtain ⟨p1, p2, p3, p4⟩ := prev
  obtain ⟨n1, n2, n3, n4⟩ := now
  revert p1 p2 p3 p4 n1 n2 n3 n4
  decide

/-! ## Both readers -/

inductive Event where
  | rx (ts : UInt32) (msg : CANPacket)
  | tx (ts : UInt32) (msg : CANPacket)
  | tick (ts : UInt32) (heartbeatEngaged : Bool)
  | sample

structure Car where
  panda : SafetyState
  host : Shim := {}

def step (fw : Firmware) (c : Car) : Event → Car
  | .rx ts msg =>
    { panda := Safety.step fw c.panda (.rx ts msg)
      host := { c.host with buttons := canUpdate msg c.host.buttons } }
  | .tx ts msg => { c with panda := Safety.step fw c.panda (.tx ts msg) }
  | .tick ts heartbeatEngaged =>
    { c with panda := Safety.step fw c.panda (.tick ts heartbeatEngaged) }
  | .sample => { c with host := { c.host with btnState := c.host.buttons } }

/-- The start of a stay under alpha longitudinal, with the host started anew. -/
def start (fw : Firmware) (s : SafetyState) : Car := { panda := mazdaStart fw 1 s }

/-- What the CRZ_BTNS branch makes of an authority that was absent at the sample before: granted
by a frame since then, and not taken away by a later one. -/
def noteGrant (fw : Firmware) (c : Car) (granted : Bool) : Event → Bool
  | .rx ts msg =>
    if (rxVerdict fw ts msg c.panda).accepted && msg.addr.toNat == mazdaCrzBtns then
      (rxCrzBtns msg { c.panda.toVars with controlsAllowed := granted }).controlsAllowed
    else granted
  | .sample => false
  | _ => granted

/-- The host asks for engagement at a sample exactly when the panda has granted it. -/
def Agrees (p : Car × Bool) : Event → Prop
  | .sample => p.1.host.published = p.2
  | _ => True

/-! ## What comes in -/

def isButtonFrame (msg : CANPacket) : Bool :=
  msg.addr.toNat == mazdaCrzBtns && msg.bus.toNat == 0 && msg.getLen == 8

/-- The buttons at the sample before, and in the frames since. -/
structure Group where
  before : Buttons := {}
  frames : List Buttons := []

def Group.now (g : Group) : Buttons := g.frames.getLastD g.before

def group (g : Group) : Event → Group
  | .rx _ msg =>
    if isButtonFrame msg then { g with frames := g.frames ++ [decodeButtons msg] } else g
  | .sample => { before := g.now }
  | _ => g

/-- The frames from the last one with CAN_OFF on, or all of them after the sample before. -/
def Group.sinceOff (g : Group) : List Buttons :=
  g.frames.foldl (fun trail b => if b.off then [b] else trail ++ [b]) [g.before]

/-- Some frame and a later one show RES pressed or SET_M released. -/
def Pressed (trail : List Buttons) : Prop :=
  ∃ a b, [a, b].Sublist trail ∧ shows a b = true

/-- The samples show a press exactly when the frames since the last CAN_OFF do. -/
def Faithful (g : Group) : Event → Prop
  | .sample => shows g.before g.now = true ↔ Pressed g.sinceOff
  | _ => True

theorem pressed_singleton (b : Buttons) : ¬ Pressed [b] := by
  rintro ⟨x, y, hsub, _⟩
  have hlen := hsub.length_le
  simp at hlen

theorem pressed_iff (trail : List Buttons) :
    Pressed trail ↔ ¬ trail.Pairwise fun a b => shows a b = false := by
  rw [List.pairwise_iff_forall_sublist]
  constructor
  · rintro ⟨a, b, hsub, hshows⟩ hnone
    rw [hnone hsub] at hshows
    cases hshows
  · intro hsome
    by_contra hnone
    refine hsome fun {a b} hsub => ?_
    by_contra hshows
    exact hnone ⟨a, b, hsub, by simpa using hshows⟩

/-- A change between a frame and a later one shows between two that follow each other. -/
theorem shows_split {a b c : Buttons} (h : shows a c = true) :
    shows a b = true ∨ shows b c = true := by
  obtain ⟨a1, a2, a3, a4⟩ := a
  obtain ⟨b1, b2, b3, b4⟩ := b
  obtain ⟨c1, c2, c3, c4⟩ := c
  simp only [shows] at h ⊢
  cases a2 <;> cases a3 <;> cases b2 <;> cases b3 <;> cases c2 <;> cases c3 <;> simp_all

/-- With one more frame, only the step from the last one has to be looked at. -/
theorem pressed_snoc (init : List Buttons) (last b : Buttons) :
    Pressed (init ++ [last] ++ [b]) ↔ Pressed (init ++ [last]) ∨ shows last b = true := by
  rw [pressed_iff, pressed_iff, List.pairwise_append]
  constructor
  · intro hsome
    by_contra hnone
    rw [not_or, not_not] at hnone
    obtain ⟨hpairs, hlast⟩ := hnone
    refine hsome ⟨hpairs, List.pairwise_singleton _ b, fun a ha c hc => ?_⟩
    rw [List.mem_singleton.1 hc]
    rcases List.mem_append.1 ha with hinit | hend
    · by_contra hshows
      have hearlier : shows a last = false :=
        (List.pairwise_append.1 hpairs).2.2 a hinit last (List.mem_singleton_self last)
      rcases shows_split (b := last) (by simpa using hshows) with h | h
      · rw [hearlier] at h
        cases h
      · exact hlast h
    · rw [List.mem_singleton.1 hend]
      simpa using hlast
  · rintro (hearlier | hlast) ⟨hpairs, _, hcross⟩
    · exact hearlier hpairs
    · have hlast' := hcross last (List.mem_append_right _ (List.mem_singleton_self last)) b
        (List.mem_singleton_self b)
      rw [hlast] at hlast'
      cases hlast'

/-! ## The invariant -/

/-- Panda, host and what has come in, at any time: the latches are the buttons of the last frame,
and the grant is what the frames since the last CAN_OFF show. -/
structure Follows (fw : Firmware) (p : Car × Bool) (g : Group) : Prop where
  mode : MazdaMode fw true p.1.panda
  res : p.1.panda.mazdaResPrev = g.now.res
  setM : p.1.panda.mazdaSetMPrev = g.now.setM
  buttons : p.1.host.buttons = g.now
  btnState : p.1.host.btnState = g.before
  granted : p.2 = true ↔ Pressed g.sinceOff
  trail : ∃ init, g.sinceOff = init ++ [g.now]

theorem isButtonFrame_iff {fw : Firmware} {s : SafetyState} (h : MazdaMode fw true s)
    (ts : UInt32) (msg : CANPacket) :
    ((rxVerdict fw ts msg s).accepted && msg.addr.toNat == mazdaCrzBtns) = isButtonFrame msg := by
  rw [Bool.eq_iff_iff]
  simp only [isButtonFrame, Bool.and_eq_true, beq_iff_eq, accepted_iff h]
  constructor
  · rintro ⟨⟨_, hbus, hlen⟩, haddr⟩
    exact ⟨⟨haddr, hbus⟩, hlen⟩
  · rintro ⟨⟨haddr, hbus⟩, hlen⟩
    exact ⟨⟨by rw [haddr]; decide, hbus, hlen⟩, haddr⟩

/-- The latches move with the button frames alone. -/
theorem latches_rx {fw : Firmware} {s : SafetyState} (h : MazdaMode fw true s) (ts : UInt32)
    (msg : CANPacket) :
    (Safety.step fw s (.rx ts msg)).mazdaResPrev =
        (if isButtonFrame msg then msg.getBit 2 else s.mazdaResPrev) ∧
      (Safety.step fw s (.rx ts msg)).mazdaSetMPrev =
        (if isButtonFrame msg then msg.getBit 5 else s.mazdaSetMPrev) := by
  have hl : s.mazdaLongitudinal = true := h.longitudinal
  have hstep : (Safety.step fw s (.rx ts msg)).toVars = rxVars fw ts msg s := rfl
  rw [hstep, ← isButtonFrame_iff h ts msg]
  rcases rxVars_long_cases h ts msg with ⟨ha, hb, hv⟩ | ⟨ha, hp, hv⟩ | ⟨hne, m, g, d, hv⟩
  · rw [hv, genericRxChecks_eq, rxCrzBtns_eq hl hb]
    simp [ha, hb]
  · have hnot : (msg.addr.toNat == mazdaCrzBtns) = false := by
      rw [hp]
      decide
    rw [hv, genericRxChecks_eq, rxPedals_eq hl hp]
    simp [hnot]
  · have hnot : ((rxVerdict fw ts msg s).accepted && msg.addr.toNat == mazdaCrzBtns) = false := by
      by_contra hyes
      simp only [Bool.not_eq_false, Bool.and_eq_true, beq_iff_eq] at hyes
      exact (hne hyes.1).1 hyes.2
    rw [hv, genericRxChecks_eq, hnot]
    exact ⟨rfl, rfl⟩

theorem canUpdate_eq (msg : CANPacket) (buttons : Buttons) :
    canUpdate msg buttons = if isButtonFrame msg then decodeButtons msg else buttons := by
  have hguard : (msg.bus.toNat == 0 && msg.getLen == 8 && msg.addr.toNat == mazdaCrzBtns) =
      isButtonFrame msg := by
    rw [Bool.eq_iff_iff]
    simp only [isButtonFrame, Bool.and_eq_true]
    exact ⟨fun h => ⟨⟨h.2, h.1.1⟩, h.1.2⟩, fun h => ⟨⟨h.1.2, h.2⟩, h.1.1⟩⟩
  rw [canUpdate, hguard]

theorem sinceOff_snoc (g : Group) (b : Buttons) :
    Group.sinceOff { g with frames := g.frames ++ [b] } =
      if b.off then [b] else g.sinceOff ++ [b] := by
  simp only [Group.sinceOff, List.foldl_append, List.foldl_cons, List.foldl_nil]

theorem now_snoc (g : Group) (b : Buttons) :
    Group.now { g with frames := g.frames ++ [b] } = b := by
  simp [Group.now]

section Step

variable {fw : Firmware} {p : Car × Bool} {g : Group}

/-- A button frame: the branch of the panda's hook is one step of the search for a press. -/
theorem Follows.button (h : Follows fw p g) {ts : UInt32} {msg : CANPacket}
    (hb : isButtonFrame msg = true) :
    Follows fw (Run.withHistory (step fw) (noteGrant fw) p (.rx ts msg))
      { g with frames := g.frames ++ [decodeButtons msg] } := by
  obtain ⟨hres, hset⟩ := latches_rx h.mode ts msg
  have hl : p.1.panda.mazdaLongitudinal = true := h.mode.longitudinal
  have haddr : msg.addr.toNat = mazdaCrzBtns := by
    simp only [isButtonFrame, Bool.and_eq_true, beq_iff_eq] at hb
    exact hb.1.1
  have hgrant : noteGrant fw p.1 p.2 (.rx ts msg) =
      ((p.2 || shows g.now (decodeButtons msg)) && !(decodeButtons msg).off) := by
    simp only [noteGrant, isButtonFrame_iff h.mode, hb, if_true]
    have hbranch := @rxCrzBtns_eq { p.1.panda.toVars with controlsAllowed := p.2 } msg hl haddr
    rw [hbranch]
    simp only [buttonArms, buttonCancels, shows, decodeButtons_eq, h.res, h.setM, Bool.and_comm]
  have hmode : MazdaMode fw true (Safety.step fw p.1.panda (.rx ts msg)) :=
    step_mazdaMode h.mode rfl
  obtain ⟨init, hinit⟩ := h.trail
  rw [hb] at hres hset
  exact
    { mode := hmode
      res := by
        rw [now_snoc, decodeButtons_eq]
        exact hres
      setM := by
        rw [now_snoc, decodeButtons_eq]
        exact hset
      buttons := by
        rw [now_snoc]
        simp only [Run.withHistory, step, canUpdate_eq, hb, if_true]
      btnState := h.btnState
      granted := by
        rw [sinceOff_snoc]
        simp only [Run.withHistory, hgrant]
        cases (decodeButtons msg).off with
        | true => simp [pressed_singleton]
        | false =>
          have hpressed := h.granted
          rw [hinit] at hpressed
          simp only [Bool.false_eq_true, if_false, hinit]
          rw [pressed_snoc, ← hpressed]
          simp
      trail := by
        rw [sinceOff_snoc, now_snoc]
        cases (decodeButtons msg).off with
        | true => exact ⟨[], rfl⟩
        | false => exact ⟨g.sinceOff, rfl⟩ }

/-- A step of the panda that leaves the latches alone. -/
theorem Follows.keep (h : Follows fw p g) {s : SafetyState} (hmode : MazdaMode fw true s)
    (hres : s.mazdaResPrev = p.1.panda.mazdaResPrev)
    (hset : s.mazdaSetMPrev = p.1.panda.mazdaSetMPrev) :
    Follows fw ({ p.1 with panda := s }, p.2) g :=
  { mode := hmode
    res := hres.trans h.res
    setM := hset.trans h.setM
    buttons := h.buttons
    btnState := h.btnState
    granted := h.granted
    trail := h.trail }

theorem follows_step (h : Follows fw p g) (e : Event) :
    Follows fw (Run.withHistory (step fw) (noteGrant fw) p e) (group g e) := by
  cases e with
  | rx ts msg =>
    cases hb : isButtonFrame msg with
    | true =>
      simp only [group, hb, if_true]
      exact h.button hb
    | false =>
      obtain ⟨hres, hset⟩ := latches_rx h.mode ts msg
      rw [hb] at hres hset
      have hnext : Run.withHistory (step fw) (noteGrant fw) p (.rx ts msg) =
          ({ p.1 with panda := Safety.step fw p.1.panda (.rx ts msg) }, p.2) := by
        simp [Run.withHistory, step, noteGrant, isButtonFrame_iff h.mode, canUpdate_eq, hb]
      have hsame : group g (.rx ts msg) = g := by
        simp [group, hb]
      rw [hnext, hsame]
      exact h.keep (step_mazdaMode h.mode rfl) hres hset
  | tx ts msg =>
    obtain ⟨st, hst⟩ := step_tx_mazda fw h.mode.hooks ts msg
    exact h.keep (step_mazdaMode h.mode rfl) (by rw [hst]) (by rw [hst])
  | tick ts hb =>
    obtain ⟨n, b, ht⟩ := step_tick_eq fw ts hb p.1.panda
    exact h.keep (step_mazdaMode h.mode rfl) (by rw [ht]) (by rw [ht])
  | sample =>
    exact
      { mode := h.mode
        res := h.res
        setM := h.setM
        buttons := h.buttons
        btnState := h.buttons
        granted := by
          simp only [Run.withHistory, noteGrant, Bool.false_eq_true, false_iff]
          exact pressed_singleton _
        trail := ⟨[], rfl⟩ }

theorem Follows.agrees_iff (h : Follows fw p g) (e : Event) : Agrees p e ↔ Faithful g e := by
  cases e with
  | sample =>
    simp only [Agrees, Faithful, Shim.published, buttonEnable_eq, h.buttons, h.btnState]
    rw [← h.granted, Bool.eq_iff_iff]
  | _ => exact Iff.rfl

end Step

theorem follows_start (fw : Firmware) (s : SafetyState) : Follows fw (start fw s, false) {} where
  mode := mazdaStart_mode fw 1 s
  res := by
    simp only [start, mazdaStart_eq]
    rfl
  setM := by
    simp only [start, mazdaStart_eq]
    rfl
  buttons := rfl
  btnState := rfl
  granted := by
    simp only [Bool.false_eq_true, false_iff]
    exact pressed_singleton _
  trail := ⟨[], rfl⟩

/-- Host and panda arm together at every sample of a run if and only if at every sample of it RES
went from clear to set, or SET_M from set to clear, since the sample before exactly when they did
so between two frames since then or since the last CAN_OFF. -/
theorem buttonEnable_iff (fw : Firmware) (s : SafetyState) (es : List Event) :
    Run.AllSteps (Run.withHistory (step fw) (noteGrant fw)) Agrees (start fw s, false) es ↔
      Run.AllSteps group Faithful {} es := by
  have hok : ∀ (p : Car × Bool) (g : Group) (e : Event), Follows fw p g →
      (Agrees p e ↔ Faithful g e) := fun _ _ e h => h.agrees_iff e
  have hstep : ∀ (p : Car × Bool) (g : Group) (e : Event), Follows fw p g → Agrees p e →
      Follows fw (Run.withHistory (step fw) (noteGrant fw) p e) (group g e) :=
    fun _ _ e h _ => follows_step h e
  exact Run.allSteps_iff hok hstep (follows_start fw s) es

def setPress : CANPacket := .eightBytes 0 0x09d #v[0x20, 0, 0, 0, 0, 0, 0, 0]

def setReleaseCancel : CANPacket := .eightBytes 0 0x09d #v[0x01, 0, 0, 0, 0, 0, 0, 0]

/-- SET_M held at a sample, and released in a frame that also has CAN_OFF: the host asks for
engagement, the panda has refused it. -/
theorem setRelease_with_cancel :
    ¬ Run.AllSteps (Run.withHistory (step .f407) (noteGrant .f407)) Agrees (start .f407 {}, false)
      [.rx 0 setPress, .sample, .rx 0 setReleaseCancel, .sample] := by
  rintro ⟨_, _, _, hagrees, _⟩
  simp only [Agrees] at hagrees
  exact absurd hagrees (by decide)

end Host
end MazdaPort
