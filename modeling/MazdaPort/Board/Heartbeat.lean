import MazdaPort.Safety.Forward

/-!
# MazdaPort.Board.Heartbeat

The board around the safety layer: `set_safety_mode` and the 1 Hz part of `tick_handler`
(`main.c`), and the control requests that touch what these read (`comms_control_handler` in
`main_comms.h`).

The heartbeat counter is cleared by the host's 0xf3 and by entering a car's mode, the heartbeat test
is switched off by 0xf8, and the mode is changed by 0xdc, by a change of the harness and by the
test itself. `heartbeat_loss`: five ticks in a row without a heartbeat and without a mode change
from outside end every car's mode, and nothing of the host's is sent until the next 0xdc.
-/

namespace MazdaPort
namespace Board

open Safety

/-! ## The board -/

/-- A firmware build of a board; `bootStatics` is the memory of other cars' modes after a reset. -/
structure BoardBuild extends Firmware where
  allowDebug : Bool := false
  bootStatics : List Int := []

def BoardBuild.f407 : BoardBuild := { build := Build.f407 }

structure Panda where
  safety : SafetyState
  heartbeatCounter : UInt32 := 0
  heartbeatLost : Bool := false
  heartbeatDisabled : Bool := false
  heartbeatEngaged : Bool := false
  controlsAllowedCountdown : UInt32 := 0
  sirenCountdown : UInt32 := 0
  canSilent : Bool := true
  powerSave : Bool := false
  safetyTxBlocked : UInt32 := 0
  safetyRxInvalid : UInt32 := 0
  deriving DecidableEq, Repr

abbrev Panda.mode (p : Panda) : UInt16 := p.safety.currentSafetyMode

def isCarSafetyMode (mode : UInt16) : Bool :=
  mode != safetySilent && mode != safetyNooutput && mode != safetyAlloutput &&
    mode != safetyElm327

/-! ## set_safety_mode -/

/-- The `switch` of `set_safety_mode`: `SAFETY_SILENT` and `SAFETY_NOOUTPUT` keep the heartbeat's
count, every other mode starts it anew. -/
def enterMode (mode : UInt16) (p : Panda) : Panda :=
  if mode == safetySilent then { p with canSilent := true }
  else if mode == safetyNooutput then { p with canSilent := false }
  else { p with heartbeatCounter := 0, heartbeatLost := false, canSilent := false }

def setSafetyMode (fw : BoardBuild) (mode param : UInt16) (p : Panda) : Panda :=
  let r := setSafetyHooks fw.toFirmware mode param p.safety
  let failed := r.1 == -1
  let modeCopy := if failed then safetySilent else mode
  let s := if failed then (setSafetyHooks fw.toFirmware safetySilent 0 r.2).2 else r.2
  enterMode modeCopy { p with safety := s, safetyTxBlocked := 0, safetyRxInvalid := 0 }

/-- What `main` does after a reset. -/
def boot (fw : BoardBuild) : Panda :=
  setSafetyMode fw (if fw.build.pandaNucleo then safetyNooutput else safetySilent) 0
    { safety := powerOn fw.bootStatics }

/-! ## The 1 Hz tick -/

def heartbeatIgnitionCntOn : UInt32 := 5
def heartbeatIgnitionCntOff : UInt32 := 2

/-- The count is capped, and a car's mode switches the test on again. -/
def countHeartbeat (p : Panda) : Panda :=
  { p with
    heartbeatCounter :=
      if p.heartbeatCounter < 0xFFFFFFFF then p.heartbeatCounter + 1 else p.heartbeatCounter
    heartbeatDisabled := p.heartbeatDisabled && !isCarSafetyMode p.mode }

def countdowns (p : Panda) : Panda :=
  { p with
    sirenCountdown := if p.sirenCountdown > 0 then p.sirenCountdown - 1 else p.sirenCountdown
    controlsAllowedCountdown :=
      if p.safety.controlsAllowed || p.heartbeatEngaged then 5
      else if p.controlsAllowedCountdown > 0 then p.controlsAllowedCountdown - 1
      else p.controlsAllowedCountdown }

/-- The heartbeat has been gone for too long. -/
def heartbeatGone (fw : BoardBuild) (started : Bool) (p : Panda) : Panda :=
  let siren := p.controlsAllowedCountdown > 0
  let p :=
    { p with
      sirenCountdown := if siren then 3 else p.sirenCountdown
      controlsAllowedCountdown := if siren then 0 else p.controlsAllowedCountdown
      heartbeatLost := p.heartbeatLost || isCarSafetyMode p.mode
      heartbeatEngaged := false }
  if fw.build.pandaNucleo then
    let p := if p.mode != safetyNooutput then setSafetyMode fw safetyNooutput 0 p else p
    { p with powerSave := p.powerSave || !started }
  else
    let p := if p.mode != safetySilent then setSafetyMode fw safetySilent 0 p else p
    { p with powerSave := true }

def heartbeatDue (started : Bool) (p : Panda) : Bool :=
  !p.heartbeatDisabled &&
    p.heartbeatCounter ≥ (if started then heartbeatIgnitionCntOn else heartbeatIgnitionCntOff)

/-- Authority that the host does not claim for three ticks is withdrawn. -/
def checkEngaged (p : Panda) : Panda :=
  { p with safety := heartbeatCheck p.heartbeatEngaged p.safety }

def checkHeartbeat (fw : BoardBuild) (started : Bool) (p : Panda) : Panda :=
  if heartbeatDue started p then heartbeatGone fw started p else p

def endTick (ts : UInt32) (p : Panda) : Panda :=
  { p with
    safety := safetyTick ts { p.safety with safetyModeCnt := p.safety.safetyModeCnt + 1 } }

/-- `tick_handler` once a second. `started` is the ignition, from the harness or from CAN. -/
def tick1Hz (fw : BoardBuild) (started : Bool) (ts : UInt32) (p : Panda) : Panda :=
  endTick ts (checkHeartbeat fw started (checkEngaged (countdowns (countHeartbeat p))))

/-! ## Control requests -/

def resetRequested (fw : BoardBuild) (request : UInt8) (param1 : UInt16) : Bool :=
  request == 0xd8 || (request == 0xd1 && (param1 == 1 || (param1 == 0 && fw.allowDebug)))

/-- The requests that touch the mode, the heartbeat or power saving; no other one does. -/
def commsControlHandler (fw : BoardBuild) (request : UInt8) (param1 param2 : UInt16)
    (p : Panda) : Panda :=
  if request == 0xdc then setSafetyMode fw param1 param2 p
  else if request == 0xf3 then
    { p with
      heartbeatCounter := 0
      heartbeatLost := false
      heartbeatDisabled := false
      heartbeatEngaged := param1 == 1 }
  else if request == 0xf8 then
    if !isCarSafetyMode p.mode then { p with heartbeatDisabled := true } else p
  else if request == 0xe7 then
    if param1 == 0 || param1 == 1 then { p with powerSave := param1 == 1 } else p
  else if resetRequested fw request param1 then boot fw
  else p

/-! ## The system -/

/-- A pass of `tick_handler` is a `harnessChange`, if the harness has changed, and then every
eighth time a `tick`. -/
inductive Event where
  | tick (started : Bool) (ts : UInt32)
  | harnessChange
  | control (request : UInt8) (param1 param2 : UInt16)
  | rx (ts : UInt32) (msg : CANPacket)
  | tx (ts : UInt32) (msg : CANPacket)
  deriving DecidableEq, Repr

def step (fw : BoardBuild) (p : Panda) : Event → Panda
  | .tick started ts => tick1Hz fw started ts p
  | .harnessChange => setSafetyMode fw p.mode p.safety.currentSafetyParam p
  | .control request param1 param2 => commsControlHandler fw request param1 param2 p
  | .rx ts msg =>
    let r := safetyRxHook fw.toFirmware ts msg p.safety
    { p with
      safety := r.2
      safetyRxInvalid := if r.1 then p.safetyRxInvalid else p.safetyRxInvalid + 1 }
  | .tx ts msg =>
    let r := safetyTxHook fw.toFirmware ts msg p.safety
    { p with
      safety := r.2
      safetyTxBlocked := if r.1 then p.safetyTxBlocked else p.safetyTxBlocked + 1 }

abbrev run (fw : BoardBuild) (p : Panda) (es : List Event) : Panda := Run.run (step fw) p es

def Event.setsMode : Event → Bool
  | .control request _ _ => request == 0xdc
  | _ => false

/-- Neither a heartbeat nor a call of `set_safety_mode` from outside the tick. -/
def Event.quiet : Event → Bool
  | .harnessChange => false
  | .control request _ _ => request != 0xdc && request != 0xf3
  | _ => true

def Event.isTick : Event → Bool
  | .tick _ _ => true
  | _ => false

def ticks (es : List Event) : Nat := es.countP Event.isTick

/-! ## The idle mode -/

/-- The mode in which the host can send nothing. -/
structure Idle (p : Panda) : Prop where
  mode : p.mode = safetyNooutput
  hooks : p.safety.currentHooks = .nooutput

theorem isCarSafetyMode_nooutput : isCarSafetyMode safetyNooutput = false := by decide

theorem Idle.not_car {p : Panda} (h : Idle p) : isCarSafetyMode p.mode = false := by
  rw [h.mode]
  exact isCarSafetyMode_nooutput

theorem Idle.refuses {fw : BoardBuild} {p : Panda} (h : Idle p) (ts : UInt32)
    (msg : CANPacket) : (safetyTxHook fw.toFirmware ts msg p.safety).1 = false :=
  nooutput_refuses h.hooks ts msg

theorem enterMode_safety (mode : UInt16) (p : Panda) :
    (enterMode mode p).safety = p.safety := by
  unfold enterMode
  split
  · rfl
  · split <;> rfl

theorem setSafetyMode_nooutput (fw : BoardBuild) (param : UInt16) (p : Panda) :
    Idle (setSafetyMode fw safetyNooutput param p) := by
  have hreg : fw.registry safetyNooutput = some .nooutput := by
    simp [Firmware.registry]
  refine ⟨?_, ?_⟩ <;>
    simp [setSafetyMode, Panda.mode, enterMode_safety, setSafetyHooks, hreg]

theorem heartbeatDue_checkEngaged (started : Bool) (p : Panda) :
    heartbeatDue started (checkEngaged (countdowns p)) = heartbeatDue started p := rfl

theorem checkEngaged_mode (p : Panda) : (checkEngaged p).mode = p.mode ∧
    (checkEngaged p).safety.currentHooks = p.safety.currentHooks := by
  obtain ⟨n, b, hb⟩ := heartbeatCheck_eq p.heartbeatEngaged p.safety
  simp [checkEngaged, Panda.mode, hb]

/-- Any other tick keeps the mode and its hooks, and the count it has reached. -/
theorem tick1Hz_notDue (fw : BoardBuild) {started : Bool} (ts : UInt32) {p : Panda}
    (hdue : heartbeatDue started (countHeartbeat p) = false) :
    (tick1Hz fw started ts p).mode = p.mode ∧
      (tick1Hz fw started ts p).safety.currentHooks = p.safety.currentHooks ∧
      (tick1Hz fw started ts p).heartbeatCounter = (countHeartbeat p).heartbeatCounter := by
  obtain ⟨hm, hh⟩ := checkEngaged_mode (countdowns (countHeartbeat p))
  unfold tick1Hz checkHeartbeat
  rw [heartbeatDue_checkEngaged, if_neg (by simp [hdue])]
  exact ⟨hm, hh, rfl⟩

theorem Event.quiet.setsMode {e : Event} (he : e.quiet = true) : e.setsMode = false := by
  cases e with
  | control request param1 param2 =>
    simp only [Event.quiet, Bool.and_eq_true] at he
    simpa [Event.setsMode] using he.1
  | _ => rfl

/-! ## Counting -/

theorem countHeartbeat_le {p : Panda} {k : Nat} (hk : k ≤ 4)
    (h : k ≤ p.heartbeatCounter.toNat) :
    k + 1 ≤ (countHeartbeat p).heartbeatCounter.toNat := by
  have hmax : (0xFFFFFFFF : UInt32).toNat = 4294967295 := rfl
  have hone : (1 : UInt32).toNat = 1 := rfl
  simp only [countHeartbeat, UInt32.lt_iff_toNat_lt, hmax]
  split
  · rw [UInt32.toNat_add, hone, Nat.mod_eq_of_lt (by omega)]
    omega
  · omega

/-- In a car's mode the test is on, whatever 0xf8 has done before. -/
theorem heartbeatDue_car {started : Bool} {p : Panda} (hcar : isCarSafetyMode p.mode = true)
    (h : 5 ≤ (countHeartbeat p).heartbeatCounter.toNat) :
    heartbeatDue started (countHeartbeat p) = true := by
  have henabled : (countHeartbeat p).heartbeatDisabled = false := by
    simp [countHeartbeat, hcar]
  have hon : heartbeatIgnitionCntOn.toNat = 5 := rfl
  have hoff : heartbeatIgnitionCntOff.toNat = 2 := rfl
  simp only [heartbeatDue, henabled, Bool.not_false, Bool.true_and, decide_eq_true_eq, ge_iff_le,
    UInt32.le_iff_toNat_le]
  split
  · rw [hon]
    exact h
  · rw [hoff]
    omega

theorem car_ne_nooutput {p : Panda} (hcar : isCarSafetyMode p.mode = true) :
    p.mode = safetyNooutput → p.safety.currentHooks = .nooutput := by
  intro hm
  rw [hm, isCarSafetyMode_nooutput] at hcar
  cases hcar

/-- After `k` quiet ticks from a car's mode: the board is idle, or still in a car's mode with at
least `k` ticks counted, and then `k` is below the limit. -/
def Waning (k : Nat) (p : Panda) : Prop :=
  Idle p ∨ (isCarSafetyMode p.mode = true ∧ k ≤ 4 ∧ k ≤ p.heartbeatCounter.toNat)

/-! ## Runs on this board -/

section Nucleo

variable {fw : BoardBuild} (hn : fw.build.pandaNucleo = true)

include hn

theorem boot_idle : Idle (boot fw) := by
  unfold boot
  rw [if_pos hn]
  exact setSafetyMode_nooutput fw 0 _

/-- On this build a lost heartbeat ends in `SAFETY_NOOUTPUT`, whatever the mode was. -/
theorem heartbeatGone_cases (started : Bool) (p : Panda) :
    Idle (heartbeatGone fw started p) ∨
      (p.mode = safetyNooutput ∧ (heartbeatGone fw started p).mode = safetyNooutput ∧
        (heartbeatGone fw started p).safety.currentHooks = p.safety.currentHooks) := by
  simp only [heartbeatGone]
  rw [if_pos hn]
  by_cases hm : p.safety.currentSafetyMode = safetyNooutput
  · rw [if_neg (by simp [Panda.mode, hm])]
    exact .inr ⟨hm, hm, rfl⟩
  · rw [if_pos (by simp [Panda.mode, hm])]
    obtain ⟨hmode, hhooks⟩ := setSafetyMode_nooutput fw 0
      { p with
        sirenCountdown := if p.controlsAllowedCountdown > 0 then 3 else p.sirenCountdown
        controlsAllowedCountdown :=
          if p.controlsAllowedCountdown > 0 then 0 else p.controlsAllowedCountdown
        heartbeatLost := p.heartbeatLost || isCarSafetyMode p.mode
        heartbeatEngaged := false }
    exact .inl ⟨hmode, hhooks⟩

/-- A tick that finds the heartbeat gone ends in the idle mode. -/
theorem tick1Hz_due {started : Bool} (ts : UInt32) {p : Panda}
    (hdue : heartbeatDue started (countHeartbeat p) = true) :
    (tick1Hz fw started ts p).mode = safetyNooutput ∧
      ((p.mode = safetyNooutput → p.safety.currentHooks = .nooutput) →
        Idle (tick1Hz fw started ts p)) := by
  obtain ⟨hm, hh⟩ := checkEngaged_mode (countdowns (countHeartbeat p))
  unfold tick1Hz checkHeartbeat
  rw [heartbeatDue_checkEngaged, if_pos hdue]
  rcases heartbeatGone_cases hn started (checkEngaged (countdowns (countHeartbeat p))) with
    hidle | ⟨hpre, hmode, hhooks⟩
  · exact ⟨hidle.mode, fun _ => ⟨hidle.mode, hidle.hooks⟩⟩
  · refine ⟨hmode, fun h => ⟨hmode, ?_⟩⟩
    rw [hm] at hpre
    exact (hhooks.trans hh).trans (h hpre)

/-- Only `set_safety_mode` from outside the tick leaves the idle mode. -/
theorem idle_step {e : Event} (he : e.setsMode = false) {p : Panda} (h : Idle p) :
    Idle (step fw p e) := by
  cases e with
  | tick started ts =>
    cases hdue : heartbeatDue started (countHeartbeat p) with
    | true => exact (tick1Hz_due hn ts hdue).2 fun _ => h.hooks
    | false =>
      obtain ⟨hm, hh, _⟩ := tick1Hz_notDue fw ts hdue
      exact ⟨hm.trans h.mode, hh.trans h.hooks⟩
  | harnessChange =>
    simp only [step, h.mode]
    exact setSafetyMode_nooutput fw _ p
  | control request param1 param2 =>
    have hdc : (request == 0xdc) = false := he
    simp only [step, commsControlHandler, hdc]
    split
    · next hfalse => cases hfalse
    · split
      · exact ⟨h.mode, h.hooks⟩
      · split
        · split <;> exact ⟨h.mode, h.hooks⟩
        · split
          · split <;> exact ⟨h.mode, h.hooks⟩
          · split
            · exact boot_idle hn
            · exact h
  | rx ts msg => exact ⟨h.mode, h.hooks⟩
  | tx ts msg =>
    have hsame := tx_sameMode fw.toFirmware ts msg p.safety
    exact ⟨hsame.currentSafetyMode.trans h.mode, hsame.currentHooks.trans h.hooks⟩

theorem idle_run {es : List Event} (hes : ∀ e ∈ es, e.setsMode = false) {p : Panda}
    (h : Idle p) : Idle (run fw p es) :=
  Run.run_inv_of_mem (fun _ _ he hp => idle_step hn he hp) h hes

/-- A quiet event that is not a tick keeps the mode and the count, or resets the board. -/
theorem quiet_step {e : Event} (he : e.quiet = true) (ht : e.isTick = false) (p : Panda) :
    Idle (step fw p e) ∨
      ((step fw p e).mode = p.mode ∧ (step fw p e).heartbeatCounter = p.heartbeatCounter) := by
  cases e with
  | tick started ts => cases ht
  | harnessChange => cases he
  | control request param1 param2 =>
    simp only [Event.quiet, Bool.and_eq_true, bne_iff_ne, ne_eq] at he
    simp only [step, commsControlHandler]
    rw [if_neg (by simp [he.1]), if_neg (by simp [he.2])]
    split
    · right
      split <;> exact ⟨rfl, rfl⟩
    · split
      · right
        split <;> exact ⟨rfl, rfl⟩
      · split
        · exact .inl (boot_idle hn)
        · exact .inr ⟨rfl, rfl⟩
  | rx ts msg => exact .inr ⟨rfl, rfl⟩
  | tx ts msg =>
    right
    exact ⟨(tx_sameMode fw.toFirmware ts msg p.safety).currentSafetyMode, rfl⟩

/-! ## Five ticks -/

theorem waning_step {e : Event} (he : e.quiet = true) {k : Nat} {p : Panda} (h : Waning k p) :
    Waning (k + if e.isTick then 1 else 0) (step fw p e) := by
  rcases h with hidle | ⟨hcar, hk, hcount⟩
  · exact .inl (idle_step hn (Event.quiet.setsMode he) hidle)
  · cases ht : e.isTick with
    | false =>
      rcases quiet_step hn he ht p with hidle | ⟨hm, hc⟩
      · exact .inl hidle
      · right
        rw [hm, hc]
        exact ⟨hcar, hk, hcount⟩
    | true =>
      cases e with
      | tick started ts =>
        have hcount' := countHeartbeat_le hk hcount
        cases hdue : heartbeatDue started (countHeartbeat p) with
        | true => exact .inl ((tick1Hz_due hn ts hdue).2 (car_ne_nooutput hcar))
        | false =>
          obtain ⟨hm, _, hc⟩ := tick1Hz_notDue fw ts hdue
          right
          simp only [step, hm, hc, if_true]
          refine ⟨hcar, ?_, hcount'⟩
          by_contra hk5
          have hfires := @heartbeatDue_car started _ hcar (by omega)
          rw [hdue] at hfires
          cases hfires
      | _ => cases ht

theorem waning_run {es : List Event} (hes : ∀ e ∈ es, e.quiet = true) {k : Nat} {p : Panda}
    (h : Waning k p) : Waning (k + ticks es) (run fw p es) := by
  induction es generalizing k p with
  | nil => exact h
  | cons e es ih =>
    have hstep := waning_step hn (hes e List.mem_cons_self) h
    have hrun := ih (fun e' he' => hes e' (List.mem_cons_of_mem e he')) hstep
    have hticks : k + ticks (e :: es) = k + (if e.isTick then 1 else 0) + ticks es := by
      simp only [ticks, List.countP_cons]
      omega
    rw [hticks]
    exact hrun

/-- No quiet event enters a car's mode. -/
theorem not_car_step {e : Event} (he : e.quiet = true) {p : Panda}
    (h : isCarSafetyMode p.mode = false) : isCarSafetyMode (step fw p e).mode = false := by
  cases ht : e.isTick with
  | false =>
    rcases quiet_step hn he ht p with hidle | ⟨hm, _⟩
    · exact hidle.not_car
    · rw [hm]
      exact h
  | true =>
    cases e with
    | tick started ts =>
      cases hdue : heartbeatDue started (countHeartbeat p) with
      | true =>
        rw [step, (tick1Hz_due hn ts hdue).1]
        exact isCarSafetyMode_nooutput
      | false =>
        rw [step, (tick1Hz_notDue fw ts hdue).1]
        exact h
    | _ => cases ht

theorem not_car_run {es : List Event} (hes : ∀ e ∈ es, e.quiet = true) {p : Panda}
    (h : isCarSafetyMode p.mode = false) : isCarSafetyMode (run fw p es).mode = false := by
  induction es generalizing p with
  | nil => exact h
  | cons e es ih =>
    have hstep : isCarSafetyMode (step fw p e).mode = false :=
      not_car_step hn (hes e List.mem_cons_self) h
    exact ih (fun e' he' => hes e' (List.mem_cons_of_mem e he')) hstep

theorem idle_of_ticks {es : List Event} (hes : ∀ e ∈ es, e.quiet = true)
    (h5 : 5 ≤ ticks es) {p : Panda} (hcar : isCarSafetyMode p.mode = true) :
    Idle (run fw p es) := by
  have hstart : Waning 0 p := .inr ⟨hcar, Nat.zero_le 4, Nat.zero_le _⟩
  rcases waning_run hn hes hstart with hidle | ⟨_, hk, _⟩
  · exact hidle
  · omega

end Nucleo

/-- Five ticks after one another with nothing but quiet events between them: no car's mode is left,
and one that was there has become `SAFETY_NOOUTPUT`, from which only a 0xdc leads on. -/
theorem heartbeat_loss {fw : BoardBuild} (hn : fw.build.pandaNucleo = true) (past : List Event)
    {es : List Event} (hes : ∀ e ∈ es, e.quiet = true) (h5 : 5 ≤ ticks es) :
    isCarSafetyMode (run fw (run fw (boot fw) past) es).mode = false ∧
      ∀ pre, pre <+: es → isCarSafetyMode (run fw (run fw (boot fw) past) pre).mode = true →
        (run fw (run fw (boot fw) past) es).mode = safetyNooutput ∧
          ∀ later, (∀ e ∈ later, e.setsMode = false) → ∀ ts msg,
            (safetyTxHook fw.toFirmware ts msg
              (run fw (run fw (run fw (boot fw) past) es) later).safety).1 = false := by
  generalize run fw (boot fw) past = p
  have hidle : isCarSafetyMode p.mode = true → Idle (run fw p es) :=
    idle_of_ticks hn hes h5
  constructor
  · cases hcar : isCarSafetyMode p.mode with
    | true => exact (hidle hcar).not_car
    | false => exact not_car_run hn hes hcar
  · intro pre hpre hcarPre
    have hquiet : ∀ e ∈ pre, e.quiet = true := fun e he => hes e (hpre.subset he)
    have hcar : isCarSafetyMode p.mode = true := by
      by_contra hnot
      rw [not_car_run hn hquiet (by simpa using hnot)] at hcarPre
      cases hcarPre
    refine ⟨(hidle hcar).mode, fun later hlater ts msg => ?_⟩
    exact (idle_run hn hlater (hidle hcar)).refuses ts msg

def silentHost : List Event :=
  [.tick true 0, .control 0xf8 0 0, .tick true 1, .tick true 2, .tick true 3, .tick true 4]

theorem heartbeat_loss_silentHost :
    isCarSafetyMode (run .f407 (run .f407 (boot .f407) [.control 0xf8 0 0, .control 0xdc 13 1])
        silentHost).mode = false ∧
      ∀ pre, pre <+: silentHost →
        isCarSafetyMode (run .f407 (run .f407 (boot .f407)
          [.control 0xf8 0 0, .control 0xdc 13 1]) pre).mode = true →
        (run .f407 (run .f407 (boot .f407) [.control 0xf8 0 0, .control 0xdc 13 1])
            silentHost).mode = safetyNooutput ∧
          ∀ later, (∀ e ∈ later, e.setsMode = false) → ∀ ts msg,
            (safetyTxHook BoardBuild.f407.toFirmware ts msg
              (run .f407 (run .f407 (run .f407 (boot .f407)
                [.control 0xf8 0 0, .control 0xdc 13 1]) silentHost) later).safety).1 = false :=
  @heartbeat_loss .f407 rfl [.control 0xf8 0 0, .control 0xdc 13 1] silentHost (by decide)
    (by decide)

end Board
end MazdaPort
