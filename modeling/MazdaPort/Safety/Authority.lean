import MazdaPort.Safety.TxGate

/-!
# MazdaPort.Safety.Authority

Who grants `controls_allowed`, and who withdraws it.

* `authority_from_button`: under alpha longitudinal only a press or release on CRZ_BTNS grants it.
* `mainOn_iff_armsWithMain`: it implies that MRCC main is on in exactly the runs where no button
  frame arms while main is off.
* `brake_moving_not_allowed`: braking while moving excludes it, in every mode of every build.
-/

namespace MazdaPort
namespace Safety

/-! ## One reception under alpha longitudinal -/

/-- What one reception does to the mode's variables: it is a CRZ_BTNS frame, a PEDALS frame, or it
leaves everything the authority is decided on alone but for the generic checks. -/
theorem rxVars_long_cases {fw : Firmware} {s : SafetyState} (h : MazdaMode fw true s)
    (ts : UInt32) (msg : CANPacket) :
    ((rxVerdict fw ts msg s).accepted = true ∧ msg.addr.toNat = mazdaCrzBtns ∧
        rxVars fw ts msg s = genericRxChecks (rxCrzBtns msg s.toVars)) ∨
      ((rxVerdict fw ts msg s).accepted = true ∧ msg.addr.toNat = mazdaPedals ∧
        rxVars fw ts msg s = genericRxChecks (rxPedals msg s.toVars)) ∨
      (((rxVerdict fw ts msg s).accepted = true →
          msg.addr.toNat ≠ mazdaCrzBtns ∧ msg.addr.toNat ≠ mazdaPedals) ∧
        ∃ moving gas driver, rxVars fw ts msg s = genericRxChecks
          { s.toVars with vehicleMoving := moving, gasPressed := gas, torqueDriver := driver }) := by
  rw [rxVars_mazda h]
  by_cases ha : (rxVerdict fw ts msg s).accepted = true
  · rw [if_pos ha]
    obtain ⟨_, hbus, _⟩ := (accepted_iff h ts msg).1 ha
    rcases mazdaRxHook_long h.longitudinal fw.build msg hbus with
      ⟨haddr, he⟩ | ⟨haddr, he⟩ | ⟨hb, hp, moving, gas, driver, he⟩
    · exact .inl ⟨ha, haddr, by rw [he]⟩
    · exact .inr (.inl ⟨ha, haddr, by rw [he]⟩)
    · exact .inr (.inr ⟨fun _ => ⟨hb, hp⟩, moving, gas, driver, by rw [he]⟩)
  · rw [if_neg ha]
    refine .inr (.inr ⟨fun hacc => absurd hacc ha, ?_⟩)
    exact ⟨s.vehicleMoving, s.gasPressed, s.torqueDriver, rfl⟩

theorem rxCrzBtns_eq {v : Vars} {msg : CANPacket} (hl : v.mazdaLongitudinal = true)
    (ha : msg.addr.toNat = mazdaCrzBtns) :
    rxCrzBtns msg v =
      { v with
        controlsAllowed := (v.controlsAllowed || buttonArms msg v) && !buttonCancels msg
        mazdaResPrev := msg.getBit 2
        mazdaSetMPrev := msg.getBit 5 } := by
  simp only [rxCrzBtns, ha, hl, beq_self_eq_true, Bool.and_self, if_true, Vars.revoke_eq,
    Vars.grant_eq]

theorem rxPedals_eq {v : Vars} {msg : CANPacket} (hl : v.mazdaLongitudinal = true)
    (ha : msg.addr.toNat = mazdaPedals) :
    rxPedals msg v =
      { v with
        accMainOn := pedalsAccArmed msg
        controlsAllowed := v.controlsAllowed && pedalsAccArmed msg
        cruiseEngagedPrev := msg.getBit 3
        brakePressed := msg.data[0] &&& 0x10 != 0 } := by
  simp only [rxPedals, ha, hl, beq_self_eq_true, if_true, Vars.revoke_eq, Bool.not_not]

/-! ## History -/

def noteAccepted (fw : Firmware) (addr : Nat) (s : SafetyState) (last : Option CANPacket) :
    Event → Option CANPacket
  | .rx ts msg =>
    if (rxVerdict fw ts msg s).accepted && msg.addr.toNat == addr then some msg else last
  | _ => last

/-- The last frame with address `addr` that the layer accepted in the run. -/
def lastAccepted (fw : Firmware) (addr : Nat) (s : SafetyState) (es : List Event) :
    Option CANPacket :=
  (Run.run (Run.withHistory (step fw) (noteAccepted fw addr)) (s, none) es).2

theorem noteAccepted_pos {fw : Firmware} {addr : Nat} {s : SafetyState} {last : Option CANPacket}
    {ts : UInt32} {msg : CANPacket} (h : (rxVerdict fw ts msg s).accepted = true)
    (ha : msg.addr.toNat = addr) : noteAccepted fw addr s last (.rx ts msg) = some msg := by
  simp [noteAccepted, h, ha]

theorem noteAccepted_neg {fw : Firmware} {addr : Nat} {s : SafetyState} {last : Option CANPacket}
    {ts : UInt32} {msg : CANPacket}
    (h : (rxVerdict fw ts msg s).accepted = true → msg.addr.toNat ≠ addr) :
    noteAccepted fw addr s last (.rx ts msg) = last := by
  by_cases ha : (rxVerdict fw ts msg s).accepted = true
  · simp [noteAccepted, h ha]
  · simp [noteAccepted, ha]

theorem lastAccepted_inv {fw : Firmware} {addr : Nat}
    {Inv : SafetyState → Option CANPacket → Prop}
    (hstep : ∀ s last e, e.keepsMode = true → Inv s last →
      Inv (step fw s e) (noteAccepted fw addr s last e))
    {s : SafetyState} (h : Inv s none) {es : List Event} (hes : ∀ e ∈ es, e.keepsMode = true) :
    Inv (run fw s es) (lastAccepted fw addr s es) := by
  have hpair : ∀ (p : SafetyState × Option CANPacket) (e : Event), e.keepsMode = true →
      Inv p.1 p.2 → Inv (Run.withHistory (step fw) (noteAccepted fw addr) p e).1
        (Run.withHistory (step fw) (noteAccepted fw addr) p e).2 :=
    fun p e he hp => hstep p.1 p.2 e he hp
  have hrun := Run.run_inv_of_mem hpair (show Inv (s, (none : Option CANPacket)).1 none from h) hes
  rwa [Run.run_withHistory_fst] at hrun

def lastBit (b : Fin 64) (last : Option CANPacket) : Bool := last.elim false fun m => m.getBit b

structure ButtonHistory (fw : Firmware) (s : SafetyState) (last : Option CANPacket) : Prop where
  mode : MazdaMode fw true s
  res : s.mazdaResPrev = lastBit 2 last
  setM : s.mazdaSetMPrev = lastBit 5 last

theorem buttonHistory_step {fw : Firmware} {s : SafetyState} {last : Option CANPacket} {e : Event}
    (he : e.keepsMode = true) (h : ButtonHistory fw s last) :
    ButtonHistory fw (step fw s e) (noteAccepted fw mazdaCrzBtns s last e) := by
  have hmode := step_mazdaMode h.mode he
  cases e with
  | rx ts msg =>
    have hl : s.mazdaLongitudinal = true := h.mode.longitudinal
    have hstep : (step fw s (.rx ts msg)).toVars = rxVars fw ts msg s := rfl
    rcases rxVars_long_cases h.mode ts msg with ⟨ha, hb, hv⟩ | ⟨ha, hp, hv⟩ | ⟨hne, m, g, d, hv⟩
    · rw [genericRxChecks_eq, rxCrzBtns_eq hl hb] at hv
      rw [noteAccepted_pos ha hb]
      exact ⟨hmode, by rw [hstep, hv]; rfl, by rw [hstep, hv]; rfl⟩
    · have hn : noteAccepted fw mazdaCrzBtns s last (.rx ts msg) = last := by
        apply noteAccepted_neg
        intro _
        rw [hp]
        decide
      rw [genericRxChecks_eq, rxPedals_eq hl hp] at hv
      rw [hn]
      exact ⟨hmode, by rw [hstep, hv]; exact h.res, by rw [hstep, hv]; exact h.setM⟩
    · rw [genericRxChecks_eq] at hv
      rw [noteAccepted_neg fun ha => (hne ha).1]
      exact ⟨hmode, by rw [hstep, hv]; exact h.res, by rw [hstep, hv]; exact h.setM⟩
  | tx ts msg =>
    obtain ⟨st, hst⟩ := step_tx_mazda fw h.mode.hooks ts msg
    exact ⟨hmode, by rw [hst]; exact h.res, by rw [hst]; exact h.setM⟩
  | tick ts hb =>
    obtain ⟨n, b, ht⟩ := step_tick_eq fw ts hb s
    exact ⟨hmode, by rw [ht]; exact h.res, by rw [ht]; exact h.setM⟩
  | setMode mode param => cases he

theorem buttonHistory_run (fw : Firmware) (s : SafetyState) {es : List Event}
    (hes : ∀ e ∈ es, e.keepsMode = true) :
    ButtonHistory fw (run fw (mazdaStart fw 1 s) es)
      (lastAccepted fw mazdaCrzBtns (mazdaStart fw 1 s) es) := by
  have h0 : ButtonHistory fw (mazdaStart fw 1 s) none := by
    refine ⟨mazdaStart_mode fw 1 s, ?_, ?_⟩ <;> rw [mazdaStart_eq] <;> rfl
  exact lastAccepted_inv (fun s last e he h => buttonHistory_step he h) h0 hes

/-! ## Only the button grants authority -/

theorem genericAllowed_le {v : Vars} (h : genericAllowed v = true) : v.controlsAllowed = true := by
  simp only [genericAllowed, Bool.and_eq_true] at h
  exact h.1.1.1

theorem authority_from_button (fw : Firmware) (s : SafetyState) {es : List Event} {e : Event}
    (hes : ∀ e' ∈ es, e'.keepsMode = true) (he : e.keepsMode = true)
    (hoff : (run fw (mazdaStart fw 1 s) es).controlsAllowed = false)
    (hon : (step fw (run fw (mazdaStart fw 1 s) es) e).controlsAllowed = true) :
    ∃ ts msg, e = .rx ts msg ∧
      (rxVerdict fw ts msg (run fw (mazdaStart fw 1 s) es)).accepted = true ∧
      msg.addr.toNat = mazdaCrzBtns ∧ msg.bus.toNat = 0 ∧ msg.getLen = 8 ∧
      msg.getBit 0 = false ∧
      ((msg.getBit 2 = true ∧
          lastBit 2 (lastAccepted fw mazdaCrzBtns (mazdaStart fw 1 s) es) = false) ∨
        (msg.getBit 5 = false ∧
          lastBit 5 (lastAccepted fw mazdaCrzBtns (mazdaStart fw 1 s) es) = true)) := by
  have hist := buttonHistory_run fw s hes
  generalize run fw (mazdaStart fw 1 s) es = r at hist hoff hon ⊢
  generalize lastAccepted fw mazdaCrzBtns (mazdaStart fw 1 s) es = last at hist ⊢
  have hl : r.mazdaLongitudinal = true := hist.mode.longitudinal
  cases e with
  | rx ts msg =>
    have hstep : (step fw r (.rx ts msg)).toVars = rxVars fw ts msg r := rfl
    rw [hstep] at hon
    rcases rxVars_long_cases hist.mode ts msg with ⟨ha, hb, hv⟩ | ⟨_, hp, hv⟩ | ⟨_, m, g, d, hv⟩
    · obtain ⟨_, hbus, hlen⟩ := (accepted_iff hist.mode ts msg).1 ha
      rw [hv, genericRxChecks_eq] at hon
      have hgrant := genericAllowed_le hon
      rw [rxCrzBtns_eq hl hb] at hgrant
      simp only [hoff, Bool.false_or, Bool.and_eq_true, Bool.not_eq_true'] at hgrant
      obtain ⟨harms, hcancel⟩ := hgrant
      refine ⟨ts, msg, rfl, ha, hb, hbus, hlen, hcancel, ?_⟩
      rw [← hist.res, ← hist.setM]
      simpa [buttonArms] using harms
    · rw [hv, genericRxChecks_eq] at hon
      have hgrant := genericAllowed_le hon
      rw [rxPedals_eq hl hp] at hgrant
      simp [hoff] at hgrant
    · rw [hv, genericRxChecks_eq] at hon
      have hgrant := genericAllowed_le hon
      simp [hoff] at hgrant
  | tx ts msg =>
    obtain ⟨st, hst⟩ := step_tx_mazda fw hist.mode.hooks ts msg
    rw [hst] at hon
    simp [hoff] at hon
  | tick ts hb =>
    obtain ⟨n, b, ht⟩ := step_tick_eq fw ts hb r
    rw [ht] at hon
    simp [hoff] at hon
  | setMode mode param => cases he

theorem authority_from_res_press :
    ∃ ts msg, Event.rx 0 resPress = .rx ts msg ∧
      (rxVerdict Firmware.f407 ts msg
        (run Firmware.f407 (mazdaStart Firmware.f407 1 {}) [])).accepted = true ∧
      msg.addr.toNat = mazdaCrzBtns ∧ msg.bus.toNat = 0 ∧ msg.getLen = 8 ∧
      msg.getBit 0 = false ∧
      ((msg.getBit 2 = true ∧
          lastBit 2 (lastAccepted Firmware.f407 mazdaCrzBtns
            (mazdaStart Firmware.f407 1 {}) []) = false) ∨
        (msg.getBit 5 = false ∧
          lastBit 5 (lastAccepted Firmware.f407 mazdaCrzBtns
            (mazdaStart Firmware.f407 1 {}) []) = true)) :=
  authority_from_button Firmware.f407 {} (fun _ h => nomatch h) (by decide) (by decide) (by decide)

/-! ## MRCC main and the authority -/

def MainOn (s : SafetyState) : Prop := s.controlsAllowed = true → s.accMainOn = true

/-- No CRZ_BTNS frame arms while main is off, unless the brake takes the authority back at once. -/
def ArmsWithMain (s : SafetyState) : Event → Prop
  | .rx _ msg =>
    msg.addr.toNat = mazdaCrzBtns → msg.bus.toNat = 0 → msg.getLen = 8 →
      buttonArms msg s.toVars = true → buttonCancels msg = false →
      s.accMainOn = true ∨ (s.brakePressed = true ∧ s.vehicleMoving = true)
  | _ => True

/-- The inputs of the generic checks between two steps. -/
structure QuietInputs (s : SafetyState) : Prop where
  brake : s.brakePressedPrev = s.brakePressed
  regen : s.regenBraking = false
  steeringDisengage : s.steeringDisengage = false

theorem quietInputs_step {fw : Firmware} {long : Bool} {s : SafetyState}
    (hmode : MazdaMode fw long s) {e : Event} (he : e.keepsMode = true) (h : QuietInputs s) :
    QuietInputs (step fw s e) := by
  cases e with
  | rx ts msg =>
    have hstep : (step fw s (.rx ts msg)).toVars = rxVars fw ts msg s := rfl
    obtain ⟨_, _, hregen, hsd⟩ := rxVars_frame hmode ts msg
    refine ⟨?_, ?_, ?_⟩
    · rw [hstep, rxVars, genericRxChecks_eq]
    · rw [hstep, hregen, h.regen]
    · rw [hstep, hsd, h.steeringDisengage]
  | tx ts msg =>
    obtain ⟨st, hst⟩ := step_tx_mazda fw hmode.hooks ts msg
    rw [hst]
    exact ⟨h.brake, h.regen, h.steeringDisengage⟩
  | tick ts hb =>
    obtain ⟨n, b, ht⟩ := step_tick_eq fw ts hb s
    rw [ht]
    exact ⟨h.brake, h.regen, h.steeringDisengage⟩
  | setMode mode param => cases he

theorem quietInputs_start (fw : Firmware) (param : UInt16) (s : SafetyState) :
    QuietInputs (mazdaStart fw param s) := by
  rw [mazdaStart_eq]
  exact ⟨rfl, rfl, rfl⟩

/-- A stay under alpha longitudinal, with the inputs of the generic checks between two steps. -/
structure LongStay (fw : Firmware) (s : SafetyState) : Prop extends QuietInputs s where
  mode : MazdaMode fw true s

theorem longStay_step {fw : Firmware} {s : SafetyState} {e : Event} (he : e.keepsMode = true)
    (h : LongStay fw s) : LongStay fw (step fw s e) where
  toQuietInputs := quietInputs_step h.mode he h.toQuietInputs
  mode := step_mazdaMode h.mode he

theorem longStay_start (fw : Firmware) (s : SafetyState) : LongStay fw (mazdaStart fw 1 s) where
  toQuietInputs := quietInputs_start fw 1 s
  mode := mazdaStart_mode fw 1 s

theorem crzBtns_allowed {fw : Firmware} {s : SafetyState} (h : LongStay fw s) {msg : CANPacket}
    (hb : msg.addr.toNat = mazdaCrzBtns) :
    (genericRxChecks (rxCrzBtns msg s.toVars)).controlsAllowed =
      ((s.controlsAllowed || buttonArms msg s.toVars) && !buttonCancels msg &&
        !(s.brakePressed && s.vehicleMoving)) := by
  have hl : s.mazdaLongitudinal = true := h.mode.longitudinal
  rw [genericRxChecks_eq, rxCrzBtns_eq hl hb]
  simp only [genericAllowed, h.regen, h.steeringDisengage, h.brake, Bool.false_and,
    Bool.not_false, Bool.and_true]
  cases s.brakePressed <;> simp

theorem mainOn_crzBtns {fw : Firmware} {s : SafetyState} {ts : UInt32} {msg : CANPacket}
    (h : LongStay fw s) (hp : MainOn s) (ha : (rxVerdict fw ts msg s).accepted = true)
    (hb : msg.addr.toNat = mazdaCrzBtns)
    (hv : rxVars fw ts msg s = genericRxChecks (rxCrzBtns msg s.toVars)) :
    ((rxVars fw ts msg s).controlsAllowed = true → (rxVars fw ts msg s).accMainOn = true) ↔
      ArmsWithMain s (.rx ts msg) := by
  have hl : s.mazdaLongitudinal = true := h.mode.longitudinal
  obtain ⟨_, hbus, hlen⟩ := (accepted_iff h.mode ts msg).1 ha
  have hmain : (genericRxChecks (rxCrzBtns msg s.toVars)).accMainOn = s.accMainOn := by
    rw [genericRxChecks_eq, rxCrzBtns_eq hl hb]
  rw [hv, crzBtns_allowed h hb, hmain]
  constructor
  · intro himp _ _ _ harms hcancel
    by_cases hbrake : (s.brakePressed && s.vehicleMoving) = true
    · right
      simpa using hbrake
    · left
      apply himp
      simp [harms, hcancel, hbrake]
  · intro harm hc
    simp only [Bool.and_eq_true, Bool.or_eq_true, Bool.not_eq_true'] at hc
    obtain ⟨⟨hc | harms, hcancel⟩, hbrake⟩ := hc
    · exact hp hc
    · rcases harm hb hbus hlen harms hcancel with hon | ⟨hbr, hmv⟩
      · exact hon
      · simp [hbr, hmv] at hbrake

/-- A PEDALS frame withdraws the authority with main, and nothing else it does arms. -/
theorem mainOn_pedals {fw : Firmware} {s : SafetyState} {ts : UInt32} {msg : CANPacket}
    (hl : s.mazdaLongitudinal = true) (hped : msg.addr.toNat = mazdaPedals)
    (hv : rxVars fw ts msg s = genericRxChecks (rxPedals msg s.toVars)) :
    ((rxVars fw ts msg s).controlsAllowed = true → (rxVars fw ts msg s).accMainOn = true) ↔
      ArmsWithMain s (.rx ts msg) := by
  rw [hv, genericRxChecks_eq, rxPedals_eq hl hped]
  constructor
  · intro _ hbtns
    rw [hped] at hbtns
    exact absurd hbtns (by decide)
  · intro _ hc
    have hc' := genericAllowed_le hc
    simp only [Bool.and_eq_true] at hc'
    exact hc'.2

theorem mainOn_step {fw : Firmware} {s : SafetyState} {e : Event} (he : e.keepsMode = true)
    (h : LongStay fw s) (hp : MainOn s) : MainOn (step fw s e) ↔ ArmsWithMain s e := by
  cases e with
  | rx ts msg =>
    have hstep : (step fw s (.rx ts msg)).toVars = rxVars fw ts msg s := rfl
    unfold MainOn
    rw [hstep]
    rcases rxVars_long_cases h.mode ts msg with ⟨ha, hb, hv⟩ | ⟨_, hped, hv⟩ | ⟨hne, m, g, d, hv⟩
    · exact mainOn_crzBtns h hp ha hb hv
    · exact mainOn_pedals h.mode.longitudinal hped hv
    · rw [hv, genericRxChecks_eq]
      constructor
      · intro _ hbtns hbus hlen
        have hacc : (rxVerdict fw ts msg s).accepted = true := by
          rw [accepted_iff h.mode, hbtns]
          exact ⟨by decide, hbus, hlen⟩
        exact absurd hbtns (hne hacc).1
      · intro _ hc
        have hc' := genericAllowed_le hc
        exact hp hc'
  | tx ts msg =>
    obtain ⟨st, hst⟩ := step_tx_mazda fw h.mode.hooks ts msg
    rw [hst]
    exact ⟨fun _ => trivial, fun _ => hp⟩
  | tick ts hb =>
    obtain ⟨n, b, ht⟩ := step_tick_eq fw ts hb s
    rw [ht]
    refine ⟨fun _ => trivial, fun _ hc => hp ?_⟩
    simp only [Bool.and_eq_true] at hc
    exact hc.1
  | setMode mode param => cases he

/-- MRCC main as the last accepted PEDALS frame reported it, off while there is none. -/
def reportedMain (last : Option CANPacket) : Bool := last.elim false pedalsAccArmed

structure MainHistory (fw : Firmware) (s : SafetyState) (last : Option CANPacket) : Prop where
  mode : MazdaMode fw true s
  main : s.accMainOn = reportedMain last

theorem mainHistory_step {fw : Firmware} {s : SafetyState} {last : Option CANPacket} {e : Event}
    (he : e.keepsMode = true) (h : MainHistory fw s last) :
    MainHistory fw (step fw s e) (noteAccepted fw mazdaPedals s last e) := by
  obtain ⟨hmode, hmain⟩ := h
  refine ⟨step_mazdaMode hmode he, ?_⟩
  have hl : s.mazdaLongitudinal = true := hmode.longitudinal
  cases e with
  | rx ts msg =>
    have hstep : (step fw s (.rx ts msg)).toVars = rxVars fw ts msg s := rfl
    rw [hstep]
    rcases rxVars_long_cases hmode ts msg with ⟨ha, hb, hv⟩ | ⟨ha, hp, hv⟩ | ⟨hne, m, g, d, hv⟩
    · have hn : noteAccepted fw mazdaPedals s last (.rx ts msg) = last := by
        apply noteAccepted_neg
        intro _
        rw [hb]
        decide
      rw [hv, genericRxChecks_eq, rxCrzBtns_eq hl hb, hn]
      exact hmain
    · rw [hv, genericRxChecks_eq, rxPedals_eq hl hp, noteAccepted_pos ha hp]
      rfl
    · rw [hv, genericRxChecks_eq, noteAccepted_neg fun ha => (hne ha).2]
      exact hmain
  | tx ts msg =>
    obtain ⟨st, hst⟩ := step_tx_mazda fw hmode.hooks ts msg
    rw [hst]
    exact hmain
  | tick ts hb =>
    obtain ⟨n, b, ht⟩ := step_tick_eq fw ts hb s
    rw [ht]
    exact hmain
  | setMode mode param => cases he

/-- `acc_main_on` is main as the car reported it last, and control implies it in every state of a
run exactly when every step of the run arms with main on. -/
theorem mainOn_iff_armsWithMain (fw : Firmware) (s : SafetyState) {es : List Event}
    (hes : ∀ e ∈ es, e.keepsMode = true) :
    (∀ pre, pre <+: es → (run fw (mazdaStart fw 1 s) pre).accMainOn =
        reportedMain (lastAccepted fw mazdaPedals (mazdaStart fw 1 s) pre)) ∧
      (Run.Always (step fw) MainOn (mazdaStart fw 1 s) es ↔
        Run.AllSteps (step fw) ArmsWithMain (mazdaStart fw 1 s) es) := by
  constructor
  · intro pre hpre
    have h0 : MainHistory fw (mazdaStart fw 1 s) none :=
      ⟨mazdaStart_mode fw 1 s, by rw [mazdaStart_eq]; rfl⟩
    have hpre' : ∀ e ∈ pre, e.keepsMode = true := fun e he => hes e (hpre.subset he)
    exact (lastAccepted_inv (fun _ _ _ he h => mainHistory_step he h) h0 hpre').main
  · have hp : MainOn (mazdaStart fw 1 s) := by
      intro hc
      rw [mazdaStart_eq] at hc
      cases hc
    have hInv : ∀ s e, e.keepsMode = true → LongStay fw s → LongStay fw (step fw s e) :=
      fun _ _ he h => longStay_step he h
    exact Run.always_iff_steps hInv (fun _ _ he h hp => mainOn_step he h hp)
      (longStay_start fw s) hp hes

theorem mainOn_iff_armsWithMain_res :
    (∀ pre, pre <+: [Event.rx 0 resPress] →
        (run Firmware.f407 (mazdaStart Firmware.f407 1 {}) pre).accMainOn =
          reportedMain (lastAccepted Firmware.f407 mazdaPedals
            (mazdaStart Firmware.f407 1 {}) pre)) ∧
      (Run.Always (step Firmware.f407) MainOn (mazdaStart Firmware.f407 1 {})
          [Event.rx 0 resPress] ↔
        Run.AllSteps (step Firmware.f407) ArmsWithMain (mazdaStart Firmware.f407 1 {})
          [Event.rx 0 resPress]) :=
  mainOn_iff_armsWithMain Firmware.f407 {} (by decide)

/-- RES pressed before the car has reported main: control is allowed while main is off. -/
theorem resPress_before_main :
    ¬ Run.Always (step Firmware.f407) MainOn (mazdaStart Firmware.f407 1 {})
      [Event.rx 0 resPress] := by
  intro h
  have hon : (run Firmware.f407 (mazdaStart Firmware.f407 1 {})
      [Event.rx 0 resPress]).controlsAllowed = true := by decide
  have hmain : (run Firmware.f407 (mazdaStart Firmware.f407 1 {})
      [Event.rx 0 resPress]).accMainOn = false := by decide
  rw [h.last hon] at hmain
  cases hmain

/-! ## Braking while moving -/

def powerOn (otherStatics : List Int) : SafetyState := { otherStatics := otherStatics }

/-- What `safety.h` relies on in the modes of other cars: their init hook does not report a brake,
and their transmit hook neither moves the vehicle state nor grants authority. -/
structure OtherModesKeep (fw : Firmware) : Prop where
  init : ∀ mode hooks, fw.otherModes mode = some hooks → ∀ param v,
    v.brakePressed = false → (hooks.init param v).2.brakePressed = false
  tx : ∀ mode hooks, fw.otherModes mode = some hooks → ∀ ts msg v,
    (hooks.tx ts msg v).2.brakePressed = v.brakePressed ∧
      (hooks.tx ts msg v).2.vehicleMoving = v.vehicleMoving ∧
      ((hooks.tx ts msg v).2.controlsAllowed = true → v.controlsAllowed = true)

def BrakeSafe (v : Vars) : Prop :=
  v.brakePressed = true → v.vehicleMoving = true → v.controlsAllowed = false

theorem genericRxChecks_brakeSafe (v : Vars) : BrakeSafe (genericRxChecks v) := by
  rw [genericRxChecks_eq]
  intro hb hm
  have hb' : v.brakePressed = true := hb
  have hm' : v.vehicleMoving = true := hm
  simp [genericAllowed, hb', hm']

/-- Under the hooks of `SAFETY_MAZDA` the transmit table is one of Mazda's, or empty after a change
to a mode that is not registered. -/
def MazdaTable (fw : Firmware) (s : SafetyState) : Prop :=
  s.currentHooks = .mazda → s.currentSafetyMode = safetyMazda ∧
    (s.currentSafetyConfig.txMsgs = mazdaTxTable fw.build s.mazdaLongitudinal ∨
      s.currentSafetyConfig.txMsgs = [])

theorem crzCtrl_long {fw : Firmware} {s : SafetyState} {msg : CANPacket}
    (h : s.currentSafetyMode = safetyMazda ∧
      (s.currentSafetyConfig.txMsgs = mazdaTxTable fw.build s.mazdaLongitudinal ∨
        s.currentSafetyConfig.txMsgs = []))
    (hb : msg.bus.toNat = mazdaMain) (ha : msg.addr.toNat = mazdaCrzCtrl)
    (hw : txWhitelisted msg s = true) : s.mazdaLongitudinal = true := by
  obtain ⟨hmode, htable⟩ := h
  have h1 : (safetyMazda == safetyAlloutput) = false := by decide
  have h2 : (safetyMazda == safetyElm327) = false := by decide
  simp only [txWhitelisted, hmode, h1, h2, Bool.or_false] at hw
  rcases htable with ht | ht
  · by_contra hl
    rw [ht, List.any_eq_true] at hw
    obtain ⟨m, hmem, hadm⟩ := hw
    simp only [mazdaTxTable, hl, if_false, mazdaTxMsgs] at hmem
    simp only [CanMsg.admits, ha, hb, Bool.and_eq_true, beq_iff_eq] at hadm
    have haddr : m.addr ≠ mazdaCrzCtrl := by
      simp only [List.mem_cons, List.not_mem_nil, or_false] at hmem
      rcases hmem with rfl | rfl | rfl <;> simp [mazdaLkas, mazdaCrzBtns, mazdaLkasHud, mazdaCrzCtrl]
    exact haddr hadm.1.1.symm
  · rw [ht] at hw
    simp at hw

/-- What holds between any two steps of any run, in every mode. -/
structure RunInv (fw : Firmware) (s : SafetyState) : Prop where
  brake : BrakeSafe s.toVars
  table : MazdaTable fw s

theorem registry_mazda {fw : Firmware} {mode : UInt16} (h : fw.registry mode = some .mazda) :
    mode = safetyMazda := by
  unfold Firmware.registry at h
  split at h
  · cases h
  · split at h
    · next hm => exact eq_of_beq hm
    · split at h <;> cases h

theorem runInv_setMode {fw : Firmware} (hfw : OtherModesKeep fw) {s : SafetyState}
    (h : RunInv fw s) (mode param : UInt16) : RunInv fw (step fw s (.setMode mode param)) := by
  by_cases hmode : mode = safetyMazda
  · have hstart : step fw s (.setMode mode param) = mazdaStart fw param s := by
      rw [hmode]
      rfl
    rw [hstart, mazdaStart_eq]
    refine ⟨fun hb => ?_, fun _ => ⟨rfl, .inl rfl⟩⟩
    cases hb
  · have hreset : s.toVars.reset.brakePressed = false := rfl
    simp only [step, setSafetyHooks]
    cases hr : fw.registry mode with
    | none =>
      refine ⟨fun hb => ?_, fun hm => ⟨(h.table hm).1, .inr rfl⟩⟩
      cases hb
    | some id =>
      cases id with
      | nooutput =>
        refine ⟨fun hb => ?_, fun hm => by cases hm⟩
        cases hb
      | mazda => exact absurd (registry_mazda hr) hmode
      | other mode' =>
        refine ⟨fun hb => ?_, fun hm => by cases hm⟩
        exfalso
        cases ho : fw.otherModes mode' with
        | none => simp [Firmware.hooks, ho, nooutputHooks, hreset] at hb
        | some hooks =>
          have hinit := hfw.init mode' hooks ho param s.toVars.reset hreset
          simp [Firmware.hooks, ho, hinit] at hb

theorem rxVars_mazdaLongitudinal {fw : Firmware} {s : SafetyState} (h : s.currentHooks = .mazda)
    (ts : UInt32) (msg : CANPacket) :
    (rxVars fw ts msg s).mazdaLongitudinal = s.mazdaLongitudinal := by
  have hrevoke : ∀ c, (s.toVars.revoke c).mazdaLongitudinal = s.mazdaLongitudinal := by
    intro c
    rw [Vars.revoke_eq]
  rw [rxVars, genericRxChecks_eq, h]
  split
  · exact (mazdaRxHook_frame fw.build msg _).mazdaLongitudinal.trans (hrevoke _)
  · exact hrevoke _

theorem hooks_tx_keep {fw : Firmware} (hfw : OtherModesKeep fw) (id : HooksId) (ts : UInt32)
    (msg : CANPacket) (v : Vars) :
    ((fw.hooks id).tx ts msg v).2.brakePressed = v.brakePressed ∧
      ((fw.hooks id).tx ts msg v).2.vehicleMoving = v.vehicleMoving ∧
      (((fw.hooks id).tx ts msg v).2.controlsAllowed = true → v.controlsAllowed = true) := by
  cases id with
  | nooutput => exact ⟨rfl, rfl, fun h => h⟩
  | mazda =>
    obtain ⟨st, hst⟩ := mazdaTxHook_vars ts msg v
    simp only [Firmware.hooks, mazdaHooks]
    rw [hst]
    exact ⟨rfl, rfl, fun h => h⟩
  | other mode =>
    cases ho : fw.otherModes mode with
    | none => simp [Firmware.hooks, ho, nooutputHooks]
    | some hooks => simpa [Firmware.hooks, ho] using hfw.tx mode hooks ho ts msg v

theorem runInv_step {fw : Firmware} (hfw : OtherModesKeep fw) (s : SafetyState) (e : Event)
    (h : RunInv fw s) : RunInv fw (step fw s e) := by
  cases e with
  | rx ts msg =>
    have hstep : (step fw s (.rx ts msg)).toVars = rxVars fw ts msg s := rfl
    refine ⟨?_, fun hm => ?_⟩
    · rw [hstep]
      exact genericRxChecks_brakeSafe _
    · have hm' : s.currentHooks = .mazda := hm
      rw [hstep, rxVars_mazdaLongitudinal hm']
      exact h.table hm'
  | tx ts msg =>
    obtain ⟨hb, hv, hc⟩ := hooks_tx_keep hfw s.currentHooks ts msg s.toVars
    refine ⟨?_, fun hm => ?_⟩
    · simp only [step, safetyTxHook]
      split
      · intro hb' hv'
        rw [hb] at hb'
        rw [hv] at hv'
        have hoff := h.brake hb' hv'
        by_contra hon
        have hon' := hc (by simpa using hon)
        rw [hoff] at hon'
        cases hon'
      · exact h.brake
    · have hm' : s.currentHooks = .mazda := by
        rw [← (tx_sameMode fw ts msg s).currentHooks]
        exact hm
      obtain ⟨st, hst⟩ := step_tx_mazda fw hm' ts msg
      rw [hst]
      exact h.table hm'
  | tick ts hb =>
    obtain ⟨n, b, ht⟩ := step_tick_eq fw ts hb s
    rw [ht]
    refine ⟨fun hb' hv' => ?_, h.table⟩
    have hoff : s.controlsAllowed = false := h.brake hb' hv'
    simp [hoff]
  | setMode mode param => exact runInv_setMode hfw h mode param

/-- In every state of every run, braking while moving excludes authority, and with it every
non-zero torque and every CRZ_ACTIVE on the main bus. -/
theorem brake_moving_not_allowed {fw : Firmware} (hfw : OtherModesKeep fw) (statics : List Int)
    (es : List Event) (hb : (run fw (powerOn statics) es).brakePressed = true)
    (hv : (run fw (powerOn statics) es).vehicleMoving = true) :
    (run fw (powerOn statics) es).controlsAllowed = false ∧
      ((run fw (powerOn statics) es).currentHooks = .mazda →
        ∀ ts msg, msg.bus.toNat = 0 →
          (safetyTxHook fw ts msg (run fw (powerOn statics) es)).1 = true →
          (msg.addr.toNat = mazdaLkas → lkasTorque msg = 0) ∧
            (msg.addr.toNat = mazdaCrzCtrl → crzActive msg = false)) := by
  have h0 : RunInv fw (powerOn statics) := by
    refine ⟨fun hb => ?_, fun hm => ?_⟩
    · cases hb
    · cases hm
  have h : RunInv fw (run fw (powerOn statics) es) := Run.run_inv (runInv_step hfw) h0 es
  generalize Run.run (step fw) (powerOn statics) es = r at h hb hv ⊢
  have hoff := h.brake hb hv
  refine ⟨hoff, fun hm ts msg hbus htx => ⟨fun ha => ?_, fun ha => ?_⟩⟩
  · by_contra ht
    rw [approved_lkas hm hbus htx ha ht] at hoff
    cases hoff
  · by_contra hc
    have hl := crzCtrl_long (h.table hm) hbus ha (safetyTxHook_approved.1 htx).1
    rw [approved_crzCtrl hm hl hbus htx ha (by simpa using hc)] at hoff
    cases hoff

theorem f407_otherModesKeep : OtherModesKeep Firmware.f407 :=
  ⟨fun _ _ h => (nomatch h), fun _ _ h => (nomatch h)⟩

def brakeWhileMoving : List Event :=
  [.setMode safetyMazda 1, .rx 0 (.eightBytes 0 0x202 #v[0, 0, 1, 0, 0, 0, 0, 0]),
    .rx 0 (.eightBytes 0 0x165 #v[0x10, 0, 0, 0, 0, 0, 0, 0])]

theorem brake_moving_not_allowed_f407 :
    (run Firmware.f407 (powerOn []) brakeWhileMoving).controlsAllowed = false ∧
      ((run Firmware.f407 (powerOn []) brakeWhileMoving).currentHooks = .mazda →
        ∀ ts msg, msg.bus.toNat = 0 →
          (safetyTxHook Firmware.f407 ts msg
            (run Firmware.f407 (powerOn []) brakeWhileMoving)).1 = true →
          (msg.addr.toNat = mazdaLkas → lkasTorque msg = 0) ∧
            (msg.addr.toNat = mazdaCrzCtrl → crzActive msg = false)) :=
  brake_moving_not_allowed f407_otherModesKeep [] brakeWhileMoving (by decide) (by decide)

end Safety
end MazdaPort
