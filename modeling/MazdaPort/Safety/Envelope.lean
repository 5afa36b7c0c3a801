import MazdaPort.Safety.TxGate

/-!
# MazdaPort.Safety.Envelope

The torques on the wire over a whole run. `desired_torque_last` is written before the verdict and
reset after it, and moves even when the relay latch blocks the frame, so it is not the last torque
on the wire. What holds between two approved torques is `Follows`: it is the last one approved or
zero, unless the relay latch blocks everything until the next mode change.
-/

namespace MazdaPort
namespace Safety

/-- The events of a stay in `SAFETY_MAZDA`, mode changes into it included. -/
def Event.staysMazda : Event → Bool
  | .setMode mode _ => mode == safetyMazda
  | _ => true

def sentTorque (fw : Firmware) (s : SafetyState) : Event → Option Int
  | .tx ts msg =>
    if (safetyTxHook fw ts msg s).1 && msg.addr.toNat == mazdaLkas then some (lkasTorque msg)
    else none
  | _ => none

/-- `steer_torque_cmd_checks` rejects a frame or is called without authority, or the mode is set. -/
def Interrupts (s : SafetyState) : Event → Prop
  | .tx ts msg =>
    msg.addr.toNat = mazdaLkas ∧ msg.bus.toNat = 0 ∧ msg.getLen = 8 ∧
      ((steerTorqueCmdChecks ts (lkasTorque msg) (-1) mazdaSteeringLimits s.toVars).1 = true ∨
        s.controlsAllowed = false)
  | .setMode _ _ => True
  | _ => False

/-! ## One transmit attempt -/

/-- The only 0x243 entry of the transmit table is on the main bus, with 8 bytes. -/
theorem whitelisted_lkas {fw : Firmware} {long : Bool} {s : SafetyState}
    (h : MazdaMode fw long s) {msg : CANPacket} (ha : msg.addr.toNat = mazdaLkas) :
    txWhitelisted msg s = true ↔ msg.bus.toNat = 0 ∧ msg.getLen = 8 := by
  rw [whitelisted_mazda h, List.any_eq_true]
  constructor
  · rintro ⟨m, hmem, hadm⟩
    have hentry : ∀ (b : Build) (l : Bool), ∀ m ∈ mazdaTxTable b l,
        m.addr = mazdaLkas → m.bus = 0 ∧ m.len = 8 := by
      rintro ⟨nucleo, mads, brake⟩ l
      cases nucleo <;> cases mads <;> cases brake <;> cases l <;> decide
    simp only [CanMsg.admits, ha, Bool.and_eq_true, beq_iff_eq] at hadm
    obtain ⟨⟨haddr, hbus⟩, hlen⟩ := hadm
    obtain ⟨hb, hl⟩ := hentry fw.build long m hmem haddr.symm
    exact ⟨hbus.trans hb, hlen.trans hl⟩
  · rintro ⟨hbus, hlen⟩
    refine ⟨{ addr := mazdaLkas, bus := 0, len := 8, checkRelay := true }, ?_, ?_⟩
    · cases long <;> simp [mazdaTxTable, mazdaLongTxMsgs, mazdaTxMsgs]
    · simp [CanMsg.admits, ha, hbus, hlen]

theorem safetyTxHook_lkas {fw : Firmware} {long : Bool} {s : SafetyState}
    (h : MazdaMode fw long s) {msg : CANPacket} (ha : msg.addr.toNat = mazdaLkas)
    (hbus : msg.bus.toNat = 0) (hlen : msg.getLen = 8) (ts : UInt32) :
    safetyTxHook fw ts msg s =
      (!s.relayMalfunction &&
          !(steerTorqueCmdChecks ts (lkasTorque msg) (-1) mazdaSteeringLimits s.toVars).1,
        { s with toVars :=
            (steerTorqueCmdChecks ts (lkasTorque msg) (-1) mazdaSteeringLimits s.toVars).2 }) := by
  have hrefused : ∀ v, mazdaTxRefused msg v = false := by
    intro v
    simp [mazdaTxRefused, ha, mazdaLkas, mazdaCrzInfo, mazdaCrzCtrl, mazdaRadarUds, mazdaCrzBtns]
  unfold safetyTxHook
  rw [if_pos ((whitelisted_lkas h ha).2 ⟨hbus, hlen⟩)]
  simp [h.hooks, Firmware.hooks, mazdaHooks, mazdaTxHook, hbus, mazdaMain, ha, hrefused]

theorem tx_other {fw : Firmware} {long : Bool} {s : SafetyState} (h : MazdaMode fw long s)
    {msg : CANPacket}
    (hne : ¬(msg.addr.toNat = mazdaLkas ∧ msg.bus.toNat = 0 ∧ msg.getLen = 8)) (ts : UInt32) :
    (step fw s (.tx ts msg)).steer = s.steer ∧ sentTorque fw s (.tx ts msg) = none := by
  by_cases ha : msg.addr.toNat = mazdaLkas
  · have hw : ¬ txWhitelisted msg s = true := by
      rw [whitelisted_lkas h ha]
      exact fun hbl => hne ⟨ha, hbl⟩
    have htx : safetyTxHook fw ts msg s = (false, s) := by
      unfold safetyTxHook
      rw [if_neg hw]
    simp [step, sentTorque, htx]
  · refine ⟨?_, by simp [sentTorque, ha]⟩
    simp only [step, safetyTxHook]
    split
    · simp only [h.hooks, Firmware.hooks, mazdaHooks, mazdaTxHook]
      split
      · simp [ha]
      · rfl
    · rfl

/-! ## What is remembered between two torques -/

/-- The steering memory holds `c` or zero, unless the relay latch is on. -/
structure Follows (fw : Firmware) (c : Int) (s : SafetyState) : Prop where
  mode : ∃ long, MazdaMode fw long s
  last : s.relayMalfunction = true ∨ s.steer.desiredTorqueLast = c ∨ s.steer.desiredTorqueLast = 0

theorem Follows.weaken {fw : Firmware} {s : SafetyState} (h : Follows fw 0 s) (c : Int) :
    Follows fw c s := by
  refine ⟨h.mode, ?_⟩
  rcases h.last with hr | h0 | h0
  · exact .inl hr
  · exact .inr (.inr h0)
  · exact .inr (.inr h0)

theorem follows_mazdaStart (fw : Firmware) (param : UInt16) (s : SafetyState) :
    Follows fw 0 (mazdaStart fw param s) := by
  refine ⟨⟨_, mazdaStart_mode fw param s⟩, .inr (.inl ?_)⟩
  rw [mazdaStart_eq]

theorem tx_lkas_last {fw : Firmware} {long : Bool} {s : SafetyState} (h : MazdaMode fw long s)
    {msg : CANPacket} (ha : msg.addr.toNat = mazdaLkas) (hbus : msg.bus.toNat = 0)
    (hlen : msg.getLen = 8) (ts : UInt32) :
    (step fw s (.tx ts msg)).steer.desiredTorqueLast =
      if (steerTorqueCmdChecks ts (lkasTorque msg) (-1) mazdaSteeringLimits s.toVars).1 ||
        !s.controlsAllowed then 0 else lkasTorque msg := by
  simp only [step, safetyTxHook_lkas h ha hbus hlen, steerTorqueCmdChecks]
  exact steerTorqueChecks_last ..

theorem follows_step {fw : Firmware} {c : Int} {s : SafetyState} {e : Event}
    (he : e.staysMazda = true) (hquiet : sentTorque fw s e = none) (h : Follows fw c s) :
    Follows fw c (step fw s e) := by
  obtain ⟨⟨long, hmode⟩, hlast⟩ := h
  cases e with
  | rx ts msg =>
    refine ⟨⟨long, step_mazdaMode hmode rfl⟩, ?_⟩
    have hsteer : (step fw s (.rx ts msg)).steer = s.steer := (rxVars_frame hmode ts msg).1
    have hrelay : (step fw s (.rx ts msg)).relayMalfunction =
        (s.relayMalfunction || stockEcuDetected msg s) := rfl
    rw [hsteer, hrelay]
    rcases hlast with hr | hlast
    · left
      simp [hr]
    · exact .inr hlast
  | tx ts msg =>
    refine ⟨⟨long, step_mazdaMode hmode rfl⟩, ?_⟩
    obtain ⟨st, hst⟩ := step_tx_mazda fw hmode.hooks ts msg
    have hrelay : (step fw s (.tx ts msg)).relayMalfunction = s.relayMalfunction := by rw [hst]
    rw [hrelay]
    by_cases hlkas : msg.addr.toNat = mazdaLkas ∧ msg.bus.toNat = 0 ∧ msg.getLen = 8
    · obtain ⟨ha, hbus, hlen⟩ := hlkas
      by_cases hr : s.relayMalfunction = true
      · exact .inl hr
      · right; right
        have hviol : (steerTorqueCmdChecks ts (lkasTorque msg) (-1) mazdaSteeringLimits
            s.toVars).1 = true := by
          by_contra hpass
          simp [sentTorque, safetyTxHook_lkas hmode ha hbus hlen, ha, hr, hpass] at hquiet
        rw [tx_lkas_last hmode ha hbus hlen, hviol]
        rfl
    · rw [(tx_other hmode hlkas ts).1]
      exact hlast
  | tick ts hb =>
    refine ⟨⟨long, step_mazdaMode hmode rfl⟩, ?_⟩
    obtain ⟨n, b, ht⟩ := step_tick_eq fw ts hb s
    rw [ht]
    exact hlast
  | setMode mode param =>
    have hm : mode = safetyMazda := by simpa [Event.staysMazda] using he
    rw [hm]
    exact (follows_mazdaStart fw param s).weaken c

theorem follows_interrupt {fw : Firmware} {c : Int} {s : SafetyState} {e : Event}
    (he : e.staysMazda = true) (hint : Interrupts s e) (h : Follows fw c s) :
    Follows fw 0 (step fw s e) := by
  obtain ⟨⟨long, hmode⟩, _⟩ := h
  cases e with
  | rx ts msg => cases hint
  | tx ts msg =>
    obtain ⟨ha, hbus, hlen, hcause⟩ := hint
    refine ⟨⟨long, step_mazdaMode hmode rfl⟩, .inr (.inl ?_)⟩
    rw [tx_lkas_last hmode ha hbus hlen]
    rcases hcause with hviol | hoff
    · simp [hviol]
    · simp [hoff]
  | tick ts hb => cases hint
  | setMode mode param =>
    have hm : mode = safetyMazda := by simpa [Event.staysMazda] using he
    rw [hm]
    exact follows_mazdaStart fw param s

theorem follows_sent {fw : Firmware} {c a : Int} {s : SafetyState} {e : Event}
    (hsent : sentTorque fw s e = some a) (h : Follows fw c s) : Follows fw a (step fw s e) := by
  obtain ⟨⟨long, hmode⟩, _⟩ := h
  cases e with
  | tx ts msg =>
    refine ⟨⟨long, step_mazdaMode hmode rfl⟩, ?_⟩
    by_cases hlkas : msg.addr.toNat = mazdaLkas ∧ msg.bus.toNat = 0 ∧ msg.getLen = 8
    · obtain ⟨ha, hbus, hlen⟩ := hlkas
      right
      rw [tx_lkas_last hmode ha hbus hlen]
      split
      · exact .inr rfl
      · left
        simp only [sentTorque] at hsent
        split at hsent
        · exact Option.some.inj hsent
        · cases hsent
    · rw [(tx_other hmode hlkas ts).2] at hsent
      cases hsent
  | rx ts msg => cases hsent
  | tick ts hb => cases hsent
  | setMode mode param => cases hsent

theorem follows_run (fw : Firmware) (param : UInt16) (s : SafetyState) {es : List Event}
    (hes : ∀ e ∈ es, e.staysMazda = true) :
    ∃ c, Follows fw c (run fw (mazdaStart fw param s) es) := by
  have hstep : ∀ r e, e.staysMazda = true → (∃ c, Follows fw c r) →
      ∃ c, Follows fw c (step fw r e) := by
    rintro r e he ⟨c, hc⟩
    cases hs : sentTorque fw r e with
    | none => exact ⟨c, follows_step he hs hc⟩
    | some a => exact ⟨a, follows_sent hs hc⟩
  have h0 : ∃ c, Follows fw c (mazdaStart fw param s) := ⟨0, follows_mazdaStart fw param s⟩
  exact Run.run_inv_of_mem hstep h0 hes

theorem sent_bounds {fw : Firmware} {c b : Int} {s : SafetyState} {e : Event}
    (hsent : sentTorque fw s e = some b) (h : Follows fw c s) :
    b.natAbs ≤ 2047 ∧ b ≤ max c 0 + 80 ∧ min c 0 - 80 ≤ b := by
  obtain ⟨⟨long, hmode⟩, hlast⟩ := h
  cases e with
  | tx ts msg =>
    by_cases hlkas : msg.addr.toNat = mazdaLkas ∧ msg.bus.toNat = 0 ∧ msg.getLen = 8
    · obtain ⟨ha, hbus, hlen⟩ := hlkas
      simp only [sentTorque, safetyTxHook_lkas hmode ha hbus hlen] at hsent
      split at hsent
      · next hok =>
        have hb : lkasTorque msg = b := Option.some.inj hsent
        simp only [Bool.and_eq_true, Bool.not_eq_true'] at hok
        obtain ⟨⟨hrelay, hpass⟩, _⟩ := hok
        rw [hb] at hpass
        cases hallowed : s.controlsAllowed with
        | false =>
          simp only [steerTorqueCmdChecks, hallowed] at hpass
          have h0 := steerTorqueChecks_notAllowed hpass
          subst h0
          omega
        | true =>
          simp only [steerTorqueCmdChecks, hallowed] at hpass
          have hlim := steerTorqueChecks_pass hpass
          simp only [mazdaSteeringLimits] at hlim
          rcases hlast with hr | hc | h0
          · rw [hrelay] at hr
            cases hr
          · omega
          · omega
      · cases hsent
    · rw [(tx_other hmode hlkas ts).2] at hsent
      cases hsent
  | rx ts msg => cases hsent
  | tick ts hb => cases hsent
  | setMode mode param => cases hsent

/-- The torques of a stay in `SAFETY_MAZDA`. `a` and `b` are sent one after the other, with no
torque sent by `mid`. -/
theorem torque_envelope (fw : Firmware) (param : UInt16) (s : SafetyState) {pre mid : List Event}
    {e f : Event} {a b : Int} (hpre : ∀ x ∈ pre, x.staysMazda = true)
    (hmid : ∀ x ∈ mid, x.staysMazda = true)
    (ha : sentTorque fw (run fw (mazdaStart fw param s) pre) e = some a)
    (hquiet : Run.AllSteps (step fw) (fun r x => sentTorque fw r x = none)
      (run fw (mazdaStart fw param s) (pre ++ [e])) mid)
    (hb : sentTorque fw (run fw (mazdaStart fw param s) (pre ++ e :: mid)) f = some b) :
    (b.natAbs ≤ 2047 ∧ b ≤ max a 0 + 80 ∧ min a 0 - 80 ≤ b) ∧
      (Run.SomeStep (step fw) Interrupts (run fw (mazdaStart fw param s) (pre ++ [e])) mid →
        b.natAbs ≤ 80) := by
  have hsplit : pre ++ e :: mid = (pre ++ [e]) ++ mid := by simp
  have hrun : run fw (mazdaStart fw param s) (pre ++ [e]) =
      step fw (run fw (mazdaStart fw param s) pre) e := Run.run_snoc ..
  rw [hsplit, run, Run.run_append, ← run, ← run, hrun] at hb
  rw [hrun] at hquiet
  rw [hrun]
  obtain ⟨c, hc⟩ := follows_run fw param s hpre
  generalize run fw (mazdaStart fw param s) pre = r at ha hb hquiet hc ⊢
  have hfirst : Follows fw a (step fw r e) := follows_sent ha hc
  have hok := hquiet.and_mem hmid
  have hkeep : ∀ d r x, x.staysMazda = true ∧ sentTorque fw r x = none →
      Follows fw d r → Follows fw d (step fw r x) := fun _ _ _ hx h => follows_step hx.1 hx.2 h
  refine ⟨sent_bounds hb (Run.run_inv_of_steps (hkeep a) hok hfirst), fun hint => ?_⟩
  have hzero : Follows fw 0 (run fw (step fw r e) mid) :=
    Run.run_inv_of_someStep (hkeep a) (hkeep 0)
      (fun _ _ hx hev h => follows_interrupt hx.1 hev h) hok hfirst hint
  have hbounds := sent_bounds hb hzero
  omega

def lkasFrame (torque : Int) : CANPacket :=
  .eightBytes 0 0x243
    #v[(UInt8.ofNat ((torque + 2048).toNat / 256)), UInt8.ofNat ((torque + 2048).toNat % 256),
      0, 0, 0, 0, 0, 0]

theorem lkasTorque_lkasFrame {t : Int} (hlo : -2048 ≤ t) (hhi : t ≤ 2047) :
    lkasTorque (lkasFrame t) = t := by
  obtain ⟨n, hn⟩ : ∃ n, (t + 2048).toNat = n := ⟨_, rfl⟩
  have hlt : n < 4096 := by omega
  have hhigh : ((UInt8.ofNat (n / 256)) &&& 0x0F).toNat = n / 256 := by
    rw [UInt8.toNat_and, UInt8.toNat_ofNat']
    have hmod : n / 256 % 2 ^ 8 = n / 256 := Nat.mod_eq_of_lt (by omega)
    have hmask : (0x0F : UInt8).toNat = 2 ^ 4 - 1 := by decide
    rw [hmod, hmask, Nat.and_two_pow_sub_one_eq_mod]
    exact Nat.mod_eq_of_lt (by omega)
  have hlow : (UInt8.ofNat (n % 256)).toNat = n % 256 := by
    rw [UInt8.toNat_ofNat']
    exact Nat.mod_eq_of_lt (by omega)
  have hword : ((((UInt8.ofNat (n / 256)) &&& 0x0F).toNat <<< 8) |||
      (UInt8.ofNat (n % 256)).toNat) = n := by
    rw [hhigh, hlow, ← Nat.shiftLeft_add_eq_or_of_lt (by omega), Nat.shiftLeft_eq]
    omega
  have hdecode : lkasTorque (lkasFrame t) =
      (((((UInt8.ofNat (n / 256)) &&& 0x0F).toNat <<< 8) |||
        (UInt8.ofNat (n % 256)).toNat : Nat) : Int) - 2048 := by
    subst hn
    rfl
  rw [hdecode, hword]
  omega

/-- Authority from RES, a torque of 80, one of 2000 that is rejected, and 80 again. -/
theorem torque_envelope_rejected :
    ((80 : Int).natAbs ≤ 2047 ∧ (80 : Int) ≤ max 80 0 + 80 ∧ min 80 0 - 80 ≤ (80 : Int)) ∧
      (Run.SomeStep (step Firmware.f407) Interrupts
          (run Firmware.f407 (mazdaStart Firmware.f407 1 {})
            ([.rx 0 (.eightBytes 0 0x09d #v[4, 0, 0, 0, 0, 0, 0, 0])] ++ [.tx 0 (lkasFrame 80)]))
          [.tx 0 (lkasFrame 2000)] → (80 : Int).natAbs ≤ 80) :=
  torque_envelope Firmware.f407 1 {} (f := .tx 0 (lkasFrame 80)) (by decide) (by decide)
    (by decide) ⟨by decide, trivial⟩ (by decide)

end Safety
end MazdaPort
