import MazdaPort.Steering.Limiter

/-!
# MazdaPort.Steering.Stream

`tx_thread` of `dashcam_web.py`, the sender of 0x243, in a loop with the firmware's steering checks.
Each frame the host limits its torque against its own `apply_last`, polls the panda's health every
`pollPeriod` frames, and falls back to zero when a poll shows a rejected frame, a foreign safety
mode or a closed gate. The firmware checks against its own `desired_torque_last`.

`lkas_stream`: with both sides at the same torque no frame is ever rejected, and from any other
state the first poll past the start brings them together. The poll that notices a rejection
compares a 32-bit counter, so the counter must not wrap before that poll:
`full_torque_and_wrap_rejected` is the run where it does.

`tx_thread` reads the driver's torque, the model's torque and the health another thread may have
refreshed; they are the inputs of a frame. Its statistics (peaks, rates, resync counts) decide
nothing and are left out, as are the heartbeat and the other bytes of the frame.
-/

namespace MazdaPort
namespace Steering

open Safety

/-! ## Host -/

structure Health where
  safetyTxBlocked : UInt32
  controlsAllowed : Bool
  safetyMode : UInt16
  safetyParam : UInt16

/-- The part of `tx_state` that decides the torque, with `health_state["v"]`. -/
structure TxState where
  applyLast : Int := 0
  blockedLast : Nat := 0
  safetyParam : UInt16
  health : Option Health := none

/-- What one frame depends on besides the two states. `refreshed` says that `can_thread` has read
the health since the last frame. -/
structure FrameInput where
  latActive : Bool
  torqueNorm : Rat
  hostDriver : UInt8
  pandaDriver : List UInt8
  controlsAllowed : Bool
  refreshed : Bool
  ts : UInt32

/-- Python's `round`: to the nearest integer, ties to the even one. -/
def pyRound (q : Rat) : Int :=
  let f := q.floor
  if q - f < 1 / 2 then f
  else if q - f > 1 / 2 then f + 1
  else if f % 2 = 0 then f
  else f + 1

def newTorque (i : FrameInput) : Int :=
  if i.latActive then pyRound (i.torqueNorm * mazdaParams.steerMax) else 0

def pollPeriod (lkasHz : Rat) : Nat := max 1 (lkasHz / 10).floor.toNat

def pollHealth (h : Health) (applyTorque : Int) (tx : TxState) : Int × Bool × TxState :=
  let tx := { tx with health := some h }
  let remode := h.safetyMode != safetyMazda || h.safetyParam != tx.safetyParam
  let r := if remode then (0, { tx with applyLast := 0 }) else (applyTorque, tx)
  let blocked := h.safetyTxBlocked.toNat
  let r := if blocked > r.2.blockedLast then (0, { r.2 with applyLast := 0 }) else r
  (r.1, remode, { r.2 with blockedLast := blocked })

/-- "never ramp down into a closed gate" -/
def zeroWhileClosed (applyTorque : Int) (tx : TxState) : Int × TxState :=
  match tx.health with
  | some h => if !h.controlsAllowed then (0, { tx with applyLast := 0 }) else (applyTorque, tx)
  | none => (applyTorque, tx)

/-! ## Firmware -/

/-- The panda, as far as the stream of 0x243 depends on it. -/
structure Gate where
  vars : Vars
  safetyMode : UInt16
  safetyParam : UInt16
  safetyTxBlocked : UInt32

def Gate.health (g : Gate) : Health :=
  { safetyTxBlocked := g.safetyTxBlocked
    controlsAllowed := g.vars.controlsAllowed
    safetyMode := g.safetyMode
    safetyParam := g.safetyParam }

def Gate.observe (i : FrameInput) (g : Gate) : Gate :=
  { g with
    vars :=
      { g.vars with
        controlsAllowed := i.controlsAllowed
        torqueDriver :=
          i.pandaDriver.foldl (fun s b => updateSample s (driverSample b)) g.vars.torqueDriver } }

def Gate.setMode (b : Build) (param : UInt16) (g : Gate) : Gate :=
  { g with
    vars := (mazdaInit b param g.vars.reset).2
    safetyMode := safetyMazda
    safetyParam := param }

/-- `can_send` of one 0x243: whether the frame goes out, and `safety_tx_blocked` if not. -/
def Gate.send (ts : UInt32) (torque : Int) (g : Gate) : Bool × Gate :=
  let r := steerTorqueCmdChecks ts torque (-1) mazdaSteeringLimits g.vars
  (!r.1,
    { g with
      vars := r.2
      safetyTxBlocked := if r.1 then g.safetyTxBlocked + 1 else g.safetyTxBlocked })

/-- `Gate.send` is `safety_tx_hook` on a message with the torque. -/
theorem send_safetyTxHook {fw : Firmware} {long : Bool} {st : SafetyState}
    (h : MazdaMode fw long st) (hr : st.relayMalfunction = false) {g : Gate}
    (hg : st.toVars = g.vars) (ts : UInt32) {msg : CANPacket} (haddr : msg.addr.toNat = mazdaLkas)
    (hbus : msg.bus.toNat = 0) (hlen : msg.getLen = 8) :
    (safetyTxHook fw ts msg st).1 = (g.send ts (lkasTorque msg)).1 ∧
      (safetyTxHook fw ts msg st).2.toVars = (g.send ts (lkasTorque msg)).2.vars := by
  rw [safetyTxHook_lkas h haddr hbus hlen ts]
  simp [Gate.send, ← hg, hr]

/-! ## One frame -/

structure Loop where
  tx : TxState
  ctr : Nat := 0
  gate : Gate

def txFrame (b : Build) (lkasHz : Rat) (i : FrameInput) (s : Loop) : Bool × Loop :=
  let gate := s.gate.observe i
  let tx := if i.refreshed then { s.tx with health := some gate.health } else s.tx
  let applyTorque :=
    applyDriverSteerTorqueLimits (newTorque i) tx.applyLast (driverSample i.hostDriver) mazdaParams
  let tx := { tx with applyLast := applyTorque }
  let p :=
    if s.ctr % pollPeriod lkasHz = 0 then pollHealth gate.health applyTorque tx
    else (applyTorque, false, tx)
  let gate := if p.2.1 then gate.setMode b p.2.2.safetyParam else gate
  let z := zeroWhileClosed p.1 p.2.2
  let r := gate.send i.ts z.1
  (r.1, { tx := z.2, ctr := s.ctr + 1, gate := r.2 })

abbrev stream (b : Build) (lkasHz : Rat) (s : Loop) (is : List FrameInput) : Loop :=
  Run.run (fun s i => (txFrame b lkasHz i s).2) s is

/-- The panda is in the mode the host wants, and the numbers are in range. -/
structure Ready (s : Loop) : Prop where
  mode : s.gate.safetyMode = safetyMazda
  param : s.gate.safetyParam = s.tx.safetyParam
  driver : DriverBounds s.gate.vars.torqueDriver
  reach : InReach s.tx.applyLast

def Synced (s : Loop) : Prop := s.tx.applyLast = s.gate.vars.steer.desiredTorqueLast

theorem observe_driver (i : FrameInput) (g : Gate) (h : DriverBounds g.vars.torqueDriver) :
    DriverBounds (g.observe i).vars.torqueDriver := by
  have hfold : ∀ (bs : List UInt8) (d : Sample), DriverBounds d →
      DriverBounds (bs.foldl (fun s b => updateSample s (driverSample b)) d) := by
    intro bs
    induction bs with
    | nil => exact fun d hd => hd
    | cons b bs ih => exact fun d _ => ih _ (updateSample_bounds d b)
  exact hfold i.pandaDriver g.vars.torqueDriver h

theorem zeroWhileClosed_eq (tx : TxState) {a : Int} (happ : tx.applyLast = a) :
    ∃ t, (t = a ∨ t = 0) ∧ zeroWhileClosed a tx = (t, { tx with applyLast := t }) := by
  obtain ⟨applyLast, blockedLast, safetyParam, health⟩ := tx
  have happ' : applyLast = a := happ
  subst happ'
  cases health with
  | none => exact ⟨applyLast, .inl rfl, rfl⟩
  | some h =>
    cases hc : h.controlsAllowed with
    | false => exact ⟨0, .inr rfl, by simp [zeroWhileClosed, hc]⟩
    | true => exact ⟨applyLast, .inl rfl, by simp [zeroWhileClosed, hc]⟩

theorem pollHealth_eq (h : Health) (tx : TxState) (hmode : h.safetyMode = safetyMazda)
    (hparam : h.safetyParam = tx.safetyParam) :
    ∃ t, (t = tx.applyLast ∨ t = 0) ∧ (tx.blockedLast < h.safetyTxBlocked.toNat → t = 0) ∧
      pollHealth h tx.applyLast tx =
        (t, false,
          { tx with
            applyLast := t
            blockedLast := h.safetyTxBlocked.toNat
            health := some h }) := by
  simp only [pollHealth, hmode, hparam, bne_self_eq_false, Bool.or_self, if_false,
    Bool.false_eq_true]
  by_cases hrise : h.safetyTxBlocked.toNat > tx.blockedLast
  · rw [if_pos hrise]
    exact ⟨0, .inr rfl, fun _ => rfl, rfl⟩
  · rw [if_neg hrise]
    exact ⟨tx.applyLast, .inl rfl, fun hlt => absurd hlt hrise, rfl⟩

/-- A frame in numbers: the host sends a limited torque and remembers it, and it sends zero when
it polls and finds the counter risen. -/
theorem txFrame_eq (b : Build) (lkasHz : Rat) (i : FrameInput) {s : Loop} (hs : Ready s) :
    ∃ t h, Limited s.tx.applyLast t ∧
      (s.ctr % pollPeriod lkasHz = 0 → s.tx.blockedLast < s.gate.safetyTxBlocked.toNat → t = 0) ∧
      txFrame b lkasHz i s =
        (((s.gate.observe i).send i.ts t).1,
          { tx :=
              { s.tx with
                applyLast := t
                blockedLast :=
                  if s.ctr % pollPeriod lkasHz = 0 then s.gate.safetyTxBlocked.toNat
                  else s.tx.blockedLast
                health := h }
            ctr := s.ctr + 1
            gate := ((s.gate.observe i).send i.ts t).2 }) := by
  obtain ⟨a, ha, hlim⟩ : ∃ a, applyDriverSteerTorqueLimits (newTorque i) s.tx.applyLast
      (driverSample i.hostDriver) mazdaParams = a ∧ Limited s.tx.applyLast a :=
    ⟨_, rfl, limiter_limited _ _ _⟩
  obtain ⟨h0, htx⟩ : ∃ h0, (if i.refreshed then
      { s.tx with health := some (s.gate.observe i).health } else s.tx) =
        { s.tx with health := h0 } := by
    cases i.refreshed with
    | true => exact ⟨_, rfl⟩
    | false => exact ⟨s.tx.health, rfl⟩
  have hlim' : ∀ t u, Limited s.tx.applyLast t → u = t ∨ u = 0 → Limited s.tx.applyLast u := by
    rintro t u ht (rfl | rfl)
    · exact ht
    · exact limited_zero _
  unfold txFrame
  simp only [htx, ha]
  by_cases hpoll : s.ctr % pollPeriod lkasHz = 0
  · obtain ⟨t1, ht1, hrise, hp⟩ := pollHealth_eq (s.gate.observe i).health
      { s.tx with health := h0, applyLast := a } hs.mode hs.param
    obtain ⟨t2, ht2, hz⟩ := zeroWhileClosed_eq
      { s.tx with
        applyLast := t1
        blockedLast := (s.gate.observe i).health.safetyTxBlocked.toNat
        health := some (s.gate.observe i).health } (a := t1) rfl
    refine ⟨t2, some (s.gate.observe i).health, ?_, ?_, ?_⟩
    · exact hlim' t1 t2 (hlim' a t1 hlim ht1) ht2
    · intro _ hlt
      have h1 : t1 = 0 := hrise hlt
      rcases ht2 with h2 | h2
      · exact h2.trans h1
      · exact h2
    · simp only [if_pos hpoll, hp, hz, if_false, Bool.false_eq_true]
      rfl
  · obtain ⟨t, ht, hz⟩ := zeroWhileClosed_eq { s.tx with health := h0, applyLast := a } (a := a) rfl
    refine ⟨t, h0, hlim' a t hlim ht, fun hp => absurd hp hpoll, ?_⟩
    simp only [if_neg hpoll, hz, if_false, Bool.false_eq_true]

/-- The firmware's hook, in the mode the host wants, decides on the messages with the frame's
torque. -/
theorem frame_safetyTxHook (b : Build) (lkasHz : Rat) (i : FrameInput) {s : Loop} (hs : Ready s)
    {fw : Firmware} {long : Bool} {st : SafetyState} (h : MazdaMode fw long st)
    (hr : st.relayMalfunction = false) (hvars : st.toVars = (s.gate.observe i).vars)
    {msg : CANPacket} (haddr : msg.addr.toNat = mazdaLkas) (hbus : msg.bus.toNat = 0)
    (hlen : msg.getLen = 8) (htorque : lkasTorque msg = (txFrame b lkasHz i s).2.tx.applyLast) :
    (safetyTxHook fw i.ts msg st).1 = (txFrame b lkasHz i s).1 ∧
      (safetyTxHook fw i.ts msg st).2.toVars = (txFrame b lkasHz i s).2.gate.vars := by
  obtain ⟨t, h', _, _, he⟩ := txFrame_eq b lkasHz i hs
  have hsend := send_safetyTxHook h hr hvars i.ts haddr hbus hlen
  rw [he] at htorque ⊢
  have ht : lkasTorque msg = t := htorque
  rw [ht] at hsend
  exact hsend

/-- The torque of a frame fits its 12 bits. -/
theorem frame_torque (b : Build) (lkasHz : Rat) (i : FrameInput) {s : Loop} (hs : Ready s) :
    -2048 ≤ (txFrame b lkasHz i s).2.tx.applyLast ∧
      (txFrame b lkasHz i s).2.tx.applyLast ≤ 2047 := by
  obtain ⟨t, h, hlim, _, he⟩ := txFrame_eq b lkasHz i hs
  obtain ⟨hlo, hhi⟩ := hlim.inReach hs.reach
  rw [he]
  constructor
  · exact le_trans (by decide) hlo
  · exact le_trans hhi (by decide)

/-! ## What one frame does to the agreement of the two sides -/

section Frame

variable (b : Build) (lkasHz : Rat) {i : FrameInput} {s : Loop}

theorem ready_frame (i : FrameInput) (hs : Ready s) : Ready (txFrame b lkasHz i s).2 := by
  obtain ⟨t, h, hlim, _, he⟩ := txFrame_eq b lkasHz i hs
  rw [he]
  exact ⟨hs.mode, hs.param, observe_driver i s.gate hs.driver, hlim.inReach hs.reach⟩

theorem frame_ctr (i : FrameInput) (hs : Ready s) : (txFrame b lkasHz i s).2.ctr = s.ctr + 1 := by
  obtain ⟨t, h, _, _, he⟩ := txFrame_eq b lkasHz i hs
  rw [he]

theorem accepted_synced (hs : Ready s) (ha : i.controlsAllowed = true)
    (hacc : (txFrame b lkasHz i s).1 = true) : Synced (txFrame b lkasHz i s).2 := by
  obtain ⟨t, h, _, _, he⟩ := txFrame_eq b lkasHz i hs
  rw [he] at hacc ⊢
  have hpass : (steerTorqueCmdChecks i.ts t (-1) mazdaSteeringLimits
      (s.gate.observe i).vars).1 = false := by simpa [Gate.send] using hacc
  have hlast := steerTorqueCmdChecks_last i.ts t (v := (s.gate.observe i).vars) ha
  rw [hpass] at hlast
  exact hlast.symm

theorem synced_accepted (hs : Ready s) (ha : i.controlsAllowed = true) (hsync : Synced s) :
    (txFrame b lkasHz i s).1 = true := by
  obtain ⟨t, h, hlim, _, he⟩ := txFrame_eq b lkasHz i hs
  have hreach : InReach (s.gate.observe i).vars.steer.desiredTorqueLast := hsync ▸ hs.reach
  have hlim' : Limited (s.gate.observe i).vars.steer.desiredTorqueLast t := hsync ▸ hlim
  have hpass := limited_accepted i.ts ha (observe_driver i s.gate hs.driver) hreach hlim'
  rw [he]
  simp [Gate.send, hpass]

theorem rejected_frame (hs : Ready s) (ha : i.controlsAllowed = true)
    (hrej : (txFrame b lkasHz i s).1 = false) :
    (s.ctr % pollPeriod lkasHz = 0 → s.gate.safetyTxBlocked.toNat ≤ s.tx.blockedLast) ∧
      (txFrame b lkasHz i s).2.gate.safetyTxBlocked = s.gate.safetyTxBlocked + 1 ∧
      (txFrame b lkasHz i s).2.tx.blockedLast =
        if s.ctr % pollPeriod lkasHz = 0 then s.gate.safetyTxBlocked.toNat
        else s.tx.blockedLast := by
  obtain ⟨t, h, _, hzero, he⟩ := txFrame_eq b lkasHz i hs
  rw [he] at hrej ⊢
  have hviol : (steerTorqueCmdChecks i.ts t (-1) mazdaSteeringLimits
      (s.gate.observe i).vars).1 = true := by simpa [Gate.send] using hrej
  refine ⟨fun hpoll => ?_, ?_, rfl⟩
  · by_contra hrise
    have ht : t = 0 := hzero hpoll (by omega)
    rw [ht, zero_accepted _ ha (observe_driver i s.gate hs.driver)] at hviol
    cases hviol
  · simp only [Gate.send, hviol, if_true]
    rfl

end Frame

/-! ## The stream -/

structure Behind (lkasHz : Rat) (s0 s : Loop) : Prop where
  start : s.ctr = s0.ctr → s.tx.blockedLast ≤ s.gate.safetyTxBlocked.toNat
  later : s0.ctr < s.ctr → s.tx.blockedLast < s.gate.safetyTxBlocked.toNat
  unpolled : ∀ n, s0.ctr < n → n < s.ctr → n % pollPeriod lkasHz ≠ 0
  count : s.gate.safetyTxBlocked.toNat + s0.ctr ≤ s0.gate.safetyTxBlocked.toNat + s.ctr

/-- Either the two sides agree, or every frame so far was rejected. -/
structure Recovering (lkasHz : Rat) (s0 s : Loop) : Prop where
  ready : Ready s
  ctr : s0.ctr ≤ s.ctr
  sides : Synced s ∨ Behind lkasHz s0 s

theorem pollPeriod_pos (lkasHz : Rat) : 0 < pollPeriod lkasHz := by
  unfold pollPeriod
  omega

theorem exists_poll (lkasHz : Rat) (c : Nat) :
    ∃ n, c < n ∧ n ≤ c + pollPeriod lkasHz ∧ n % pollPeriod lkasHz = 0 := by
  have hp := pollPeriod_pos lkasHz
  refine ⟨(c / pollPeriod lkasHz + 1) * pollPeriod lkasHz, ?_, ?_, Nat.mul_mod_left _ _⟩
  · have h := Nat.lt_div_mul_add hp (a := c)
    rw [Nat.add_mul]
    omega
  · have h := Nat.div_mul_le_self c (pollPeriod lkasHz)
    rw [Nat.add_mul]
    omega

theorem Recovering.rejected_early {b : Build} {lkasHz : Rat} {s0 s : Loop} {i : FrameInput}
    (h : Recovering lkasHz s0 s) (ha : i.controlsAllowed = true)
    (hrej : (txFrame b lkasHz i s).1 = false) : s.ctr < s0.ctr + pollPeriod lkasHz := by
  rcases h.sides with hsync | hbehind
  · rw [synced_accepted b lkasHz h.ready ha hsync] at hrej
    cases hrej
  · by_contra hge
    obtain ⟨n, hlo, hhi, hpoll⟩ := exists_poll lkasHz s0.ctr
    have hle : n ≤ s.ctr := by omega
    rcases Nat.lt_or_ge n s.ctr with hlt | heq
    · exact hbehind.unpolled n hlo hlt hpoll
    · have hn : n = s.ctr := by omega
      rw [hn] at hpoll
      have hblocked := (rejected_frame b lkasHz h.ready ha hrej).1 hpoll
      have hlater := hbehind.later (by omega)
      omega

theorem recovering_step {b : Build} {lkasHz : Rat} {s0 s : Loop} {i : FrameInput}
    (hwrap : s0.gate.safetyTxBlocked.toNat + pollPeriod lkasHz < 2 ^ 32)
    (h : Recovering lkasHz s0 s) (ha : i.controlsAllowed = true) :
    Recovering lkasHz s0 (txFrame b lkasHz i s).2 := by
  have hctr := frame_ctr b lkasHz i h.ready
  have hle := h.ctr
  refine ⟨ready_frame b lkasHz i h.ready, by omega, ?_⟩
  cases hres : (txFrame b lkasHz i s).1 with
  | true => exact .inl (accepted_synced b lkasHz h.ready ha hres)
  | false =>
    right
    have hearly := h.rejected_early ha hres
    rcases h.sides with hsync | hbehind
    · rw [synced_accepted b lkasHz h.ready ha hsync] at hres
      cases hres
    · obtain ⟨hpoll, hcount, hlast⟩ := rejected_frame b lkasHz h.ready ha hres
      have hbound := hbehind.count
      have hnext : (txFrame b lkasHz i s).2.gate.safetyTxBlocked.toNat =
          s.gate.safetyTxBlocked.toNat + 1 := by
        rw [hcount, UInt32.toNat_add]
        exact Nat.mod_eq_of_lt (by simp; omega)
      have hbehindLast : (txFrame b lkasHz i s).2.tx.blockedLast ≤
          s.gate.safetyTxBlocked.toNat := by
        rw [hlast]
        split
        · exact le_refl _
        · rcases Nat.eq_or_lt_of_le hle with heq | hlt
          · exact hbehind.start heq.symm
          · exact Nat.le_of_lt (hbehind.later hlt)
      refine ⟨by omega, by omega, ?_, by omega⟩
      intro n hlo hhi hn
      rcases Nat.lt_or_ge n s.ctr with hlt | hge
      · exact hbehind.unpolled n hlo hlt hn
      · have hns : n = s.ctr := by omega
        rw [hns] at hn hlo
        have hle' := hpoll hn
        have hlt' := hbehind.later hlo
        omega

theorem stream_recovering {b : Build} {lkasHz : Rat} {s : Loop} (hs : Ready s)
    (hblocked : s.tx.blockedLast ≤ s.gate.safetyTxBlocked.toNat)
    (hwrap : s.gate.safetyTxBlocked.toNat + pollPeriod lkasHz < 2 ^ 32) {is : List FrameInput}
    (hallowed : ∀ i ∈ is, i.controlsAllowed = true) :
    Recovering lkasHz s (stream b lkasHz s is) := by
  have h0 : Recovering lkasHz s s := by
    refine ⟨hs, le_refl _, .inr ⟨fun _ => hblocked, ?_, ?_, by omega⟩⟩
    · intro hlt
      omega
    · intro n hlo hhi
      omega
  have hstep : ∀ r i, i.controlsAllowed = true → Recovering lkasHz s r →
      Recovering lkasHz s (txFrame b lkasHz i r).2 := fun _ _ ha h => recovering_step hwrap h ha
  exact Run.run_inv_of_mem hstep h0 hallowed

theorem stream_synced (b : Build) (lkasHz : Rat) {s : Loop} (hs : Ready s) (hsync : Synced s)
    {is : List FrameInput} (hallowed : ∀ i ∈ is, i.controlsAllowed = true) :
    Ready (stream b lkasHz s is) ∧ Synced (stream b lkasHz s is) := by
  have hstep : ∀ r i, i.controlsAllowed = true → Ready r ∧ Synced r →
      Ready (txFrame b lkasHz i r).2 ∧ Synced (txFrame b lkasHz i r).2 := by
    rintro r i ha ⟨hr, hsy⟩
    have hsent := synced_accepted b lkasHz hr ha hsy
    exact ⟨ready_frame b lkasHz i hr, accepted_synced b lkasHz hr ha hsent⟩
  exact Run.run_inv_of_mem hstep ⟨hs, hsync⟩ hallowed

theorem stream_ctr (b : Build) (lkasHz : Rat) {s : Loop} (hs : Ready s) (is : List FrameInput) :
    (stream b lkasHz s is).ctr = s.ctr + is.length := by
  induction is generalizing s with
  | nil => rfl
  | cons i is ih =>
    have h := ih (ready_frame b lkasHz i hs)
    rw [stream, Run.run_cons, ← stream, h, frame_ctr b lkasHz i hs, List.length_cons]
    omega

/-- `safety_tx_hook` decides on the frame in 0x243, for the firmware whose variables `Gate` has. -/
def Decided (b : Build) (lkasHz : Rat) (s : Loop) (i : FrameInput) : Prop :=
  ∀ fw long st, MazdaMode fw long st → st.relayMalfunction = false →
    st.toVars = (s.gate.observe i).vars →
      (safetyTxHook fw i.ts (lkasFrame (txFrame b lkasHz i s).2.tx.applyLast) st).1 =
          (txFrame b lkasHz i s).1 ∧
        (safetyTxHook fw i.ts (lkasFrame (txFrame b lkasHz i s).2.tx.applyLast) st).2.toVars =
          (txFrame b lkasHz i s).2.gate.vars

theorem frame_decided (b : Build) (lkasHz : Rat) {s : Loop} (hs : Ready s) (i : FrameInput) :
    Decided b lkasHz s i := by
  intro fw long st hmode hrelay hvars
  obtain ⟨hlo, hhi⟩ := frame_torque b lkasHz i hs
  exact frame_safetyTxHook b lkasHz i hs hmode hrelay hvars rfl rfl rfl
    (lkasTorque_lkasFrame hlo hhi)

theorem Recovering.synced_of_poll {lkasHz : Rat} {s0 s : Loop} (h : Recovering lkasHz s0 s) {n : Nat}
    (hlo : s0.ctr < n) (hhi : n < s.ctr) (hpoll : n % pollPeriod lkasHz = 0) : Synced s := by
  rcases h.sides with hsync | hbehind
  · exact hsync
  · exact absurd hpoll (hbehind.unpolled n hlo hhi)

/-- While controls stay allowed: in agreement no frame is rejected. From any other state, as long
as the counter does not wrap within a poll period, every rejected frame is among the first
`pollPeriod` ones, and the two sides agree after every frame that polls but the first one, and from
then on. -/
theorem lkas_stream (b : Build) (lkasHz : Rat) {s : Loop} (hs : Ready s) {is : List FrameInput}
    (hallowed : ∀ i ∈ is, i.controlsAllowed = true) :
    (∀ pre i, pre ++ [i] <+: is → Decided b lkasHz (stream b lkasHz s pre) i) ∧
      (Synced s → ∀ pre i, pre ++ [i] <+: is →
        (txFrame b lkasHz i (stream b lkasHz s pre)).1 = true) ∧
      (s.tx.blockedLast ≤ s.gate.safetyTxBlocked.toNat →
        s.gate.safetyTxBlocked.toNat + pollPeriod lkasHz < 2 ^ 32 →
        (∀ pre i, pre ++ [i] <+: is →
            (txFrame b lkasHz i (stream b lkasHz s pre)).1 = false →
            pre.length < pollPeriod lkasHz) ∧
          (∀ pre i rest, pre ≠ [] → pre ++ i :: rest <+: is →
            (stream b lkasHz s pre).ctr % pollPeriod lkasHz = 0 →
              Synced (stream b lkasHz s (pre ++ i :: rest))) ∧
          ∀ pre, pre <+: is → pollPeriod lkasHz < pre.length →
            Synced (stream b lkasHz s pre)) := by
  have hpre : ∀ {pre : List FrameInput}, pre <+: is → ∀ i ∈ pre, i.controlsAllowed = true :=
    fun hp i hi => hallowed i (hp.subset hi)
  have hsplit : ∀ {pre : List FrameInput} {i : FrameInput}, pre ++ [i] <+: is →
      pre <+: is ∧ i.controlsAllowed = true := by
    intro pre i hp
    exact ⟨(List.prefix_append pre [i]).trans hp, hpre hp i (by simp)⟩
  refine ⟨?_, ?_, ?_⟩
  · intro pre i _
    exact frame_decided b lkasHz (Run.run_inv (fun _ i h => ready_frame b lkasHz i h) hs pre) i
  · intro hsync pre i hp
    obtain ⟨hp', ha⟩ := hsplit hp
    obtain ⟨hready, hsync'⟩ := stream_synced b lkasHz hs hsync (hpre hp')
    exact synced_accepted b lkasHz hready ha hsync'
  · intro hblocked hwrap
    refine ⟨?_, ?_, ?_⟩
    · intro pre i hp hrej
      obtain ⟨hp', ha⟩ := hsplit hp
      have hrec := stream_recovering (b := b) hs hblocked hwrap (hpre hp')
      have hearly := hrec.rejected_early ha hrej
      have hctr := stream_ctr b lkasHz hs pre
      omega
    · intro pre i rest hne hp hpoll
      have hrec := stream_recovering (b := b) hs hblocked hwrap (hpre hp)
      have hctr := stream_ctr b lkasHz hs pre
      have hctr' := stream_ctr b lkasHz hs (pre ++ i :: rest)
      have hpos := List.length_pos_iff.2 hne
      rw [List.length_append, List.length_cons] at hctr'
      exact hrec.synced_of_poll (by omega) (by omega) hpoll
    · intro pre hp hlen
      have hrec := stream_recovering (b := b) hs hblocked hwrap (hpre hp)
      have hctr := stream_ctr b lkasHz hs pre
      obtain ⟨n, hlo, hhi, hpoll⟩ := exists_poll lkasHz s.ctr
      exact hrec.synced_of_poll hlo (by omega) hpoll

def gateAt (last : Int) (blocked : UInt32) : Gate :=
  { vars :=
      { controlsAllowed := true
        steer := { desiredTorqueLast := last }
        torqueDriver := { values := .replicate 6 (-127), min := -127, max := -127 } }
    safetyMode := safetyMazda
    safetyParam := 0
    safetyTxBlocked := blocked }

/-- The host at full torque to one side, the firmware at full torque to the other. -/
def apart : Loop :=
  { tx := { applyLast := 800, safetyParam := 0 }, gate := gateAt (-800) 0 }

def pushInput : FrameInput :=
  { latActive := true, torqueNorm := 1, hostDriver := 127, pandaDriver := [130],
    controlsAllowed := true, refreshed := false, ts := 0 }

/-- The first frame is rejected, and at most the next two; the fourth polls, and from then on the
sides agree. -/
theorem lkas_stream_apart :
    (txFrame Build.f407 30 pushInput apart).1 = false ∧
      (∀ pre i, pre ++ [i] <+: List.replicate 6 pushInput →
        (txFrame Build.f407 30 i (stream Build.f407 30 apart pre)).1 = false →
          pre.length < pollPeriod 30) ∧
      Synced (stream Build.f407 30 apart (List.replicate 3 pushInput ++ [pushInput])) := by
  have hready : Ready apart := ⟨rfl, rfl, ⟨by decide, by decide⟩, ⟨by decide, by decide⟩⟩
  have hallowed : ∀ i ∈ List.replicate 6 pushInput, i.controlsAllowed = true := by
    simp [pushInput]
  obtain ⟨-, -, hrec⟩ := lkas_stream Build.f407 30 hready hallowed
  obtain ⟨hearly, hpoll, -⟩ := hrec (by decide) (by decide +kernel)
  have hsync := hpoll (List.replicate 3 pushInput) pushInput [] (by simp)
    ⟨List.replicate 2 pushInput, rfl⟩ (by decide +kernel)
  exact ⟨by decide +kernel, hearly, hsync⟩

def idleInput : FrameInput :=
  { latActive := false, torqueNorm := 0, hostDriver := 127, pandaDriver := [0],
    controlsAllowed := true, refreshed := false, ts := 0 }

/-- Both sides at full torque: the host comes down by 25, the driver's torque asks the firmware
for 50. -/
def fullSync : Loop :=
  { tx := { applyLast := 2047, safetyParam := 0 }, gate := gateAt 2047 0 }

def wrapStart : Loop :=
  { tx := { applyLast := 800, blockedLast := 4294967295, safetyParam := 0 }
    gate := gateAt (-800) 4294967295 }

/-- Out of reach of the limiter, agreement does not protect a frame; and when the counter wraps,
the poll between two rejected frames does not notice the first. -/
theorem full_torque_and_wrap_rejected :
    (Synced fullSync ∧ (txFrame Build.f407 10 idleInput fullSync).1 = false) ∧
      wrapStart.tx.blockedLast ≤ wrapStart.gate.safetyTxBlocked.toNat ∧
      pollPeriod 10 = 1 ∧
      (txFrame Build.f407 10 idleInput wrapStart).1 = false ∧
      (txFrame Build.f407 10 idleInput (stream Build.f407 10 wrapStart [idleInput])).1 = false := by
  refine ⟨⟨rfl, ?_⟩, by decide, ?_, ?_, ?_⟩ <;> decide +kernel

end Steering
end MazdaPort
