import MazdaPort.Safety.Mazda

/-!
# MazdaPort.Safety.Hooks

`safety.h`: reception with its validity checks, the transmit and forward decisions, the 1 Hz tick
and the mode change, over any set of safety modes. `SAFETY_SILENT`, `SAFETY_NOOUTPUT` and
`SAFETY_MAZDA` are the modes modelled in full; the modes of other cars are a field of `Firmware`.
-/

namespace MazdaPort
namespace Safety

/-! ## Modes -/

def safetySilent : UInt16 := 0
def safetyElm327 : UInt16 := 3
def safetyMazda : UInt16 := 13
def safetyAlloutput : UInt16 := 17
def safetyNooutput : UInt16 := 19

/-- A firmware build: its flags and the registered modes of other cars. -/
structure Firmware where
  build : Build
  otherModes : UInt16 → Option SafetyHooks := fun _ => none

def Firmware.f407 : Firmware := { build := Build.f407 }

def nooutputHooks (b : Build) : SafetyHooks :=
  { init := fun _ v => ({ disableForwarding := !b.pandaNucleo }, v)
    rx := fun _ _ v => v
    tx := fun _ _ v => (false, v) }

def Firmware.hooks (fw : Firmware) : HooksId → SafetyHooks
  | .nooutput => nooutputHooks fw.build
  | .mazda => mazdaHooks fw.build
  | .other mode => (fw.otherModes mode).getD (nooutputHooks fw.build)

/-- `safety_hook_registry`: `none` for a mode no build registers. -/
def Firmware.registry (fw : Firmware) (mode : UInt16) : Option HooksId :=
  if mode == safetySilent || mode == safetyNooutput then some .nooutput
  else if mode == safetyMazda then some .mazda
  else if (fw.otherModes mode).isSome then some (.other mode)
  else none

/-! ## Receive checks -/

/-- The first loop body of `get_addr_check_index`: the alternative seen first is remembered. -/
def RxCheck.observe (msg : CANPacket) (c : RxCheck) : RxCheck :=
  if c.status.msgSeen then c
  else
    match (c.msg.takeWhile fun m => m.addr != 0).findIdx? fun m => m.admits msg with
    | some j => { c with status := { c.status with index := j, msgSeen := true } }
    | none => c

/-- `get_addr_check_index`: `none` stands for -1. -/
def getAddrCheckIndex (msg : CANPacket) : List RxCheck → List RxCheck × Option Nat
  | [] => ([], none)
  | c :: cs =>
    let c := c.observe msg
    if c.status.msgSeen && c.current.admits msg then (c :: cs, some 0)
    else
      let r := getAddrCheckIndex msg cs
      (c :: r.1, r.2.map (· + 1))

def maxWrongCounters : Int := 5

def updateCounter (counter : UInt8) (c : RxCheck) : RxCheck :=
  let expected := (c.status.lastCounter.toNat + 1) % (c.current.maxCounter.toNat + 1)
  let wrong := c.status.wrongCounters + if expected == counter.toNat then -1 else 1
  { c with
    status :=
      { c.status with
        wrongCounters := max 0 (min wrong maxWrongCounters)
        lastCounter := counter } }

def checksumCheck (hooks : SafetyHooks) (msg : CANPacket) (c : RxCheck) : RxCheck :=
  let valid :=
    match hooks.getChecksum, hooks.computeChecksum with
    | some get, some compute =>
      if !c.current.ignoreChecksum then compute msg == get msg else c.current.ignoreChecksum
    | _, _ => c.current.ignoreChecksum
  { c with status := { c.status with validChecksum := valid } }

def counterCheck (hooks : SafetyHooks) (msg : CANPacket) (c : RxCheck) : RxCheck :=
  match hooks.getCounter, decide (c.current.maxCounter > 0) with
  | some get, true => updateCounter (get msg) c
  | _, _ =>
    let wrong := if c.current.ignoreCounter then 0 else maxWrongCounters
    { c with status := { c.status with wrongCounters := wrong } }

def qualityFlagCheck (hooks : SafetyHooks) (msg : CANPacket) (c : RxCheck) : RxCheck :=
  let valid :=
    match hooks.getQualityFlagValid with
    | some get => if !c.current.ignoreQualityFlag then get msg else c.current.ignoreQualityFlag
    | none => c.current.ignoreQualityFlag
  { c with status := { c.status with validQualityFlag := valid } }

def updateAddrTimestamp (ts : UInt32) (c : RxCheck) : RxCheck :=
  { c with status := { c.status with lastTimestamp := ts } }

def updateRxStatus (hooks : SafetyHooks) (ts : UInt32) (msg : CANPacket) (c : RxCheck) :
    RxCheck :=
  qualityFlagCheck hooks msg (counterCheck hooks msg (checksumCheck hooks msg
    (updateAddrTimestamp ts c)))

def RxCheck.valid (c : RxCheck) : Bool :=
  c.status.validChecksum && c.status.validQualityFlag && c.status.wrongCounters < maxWrongCounters

def rxMsgSafetyCheck (hooks : SafetyHooks) (ts : UInt32) (msg : CANPacket)
    (rxChecks : List RxCheck) : List RxCheck × Bool :=
  match getAddrCheckIndex msg rxChecks with
  | (cs, none) => (cs, true)
  | (cs, some i) =>
    let cs := cs.modify i (updateRxStatus hooks ts msg)
    (cs, (cs[i]?.map RxCheck.valid).getD true)

/-! ## Receive hook -/

def genericRxChecks (v : Vars) : Vars :=
  let v := { v with gasPressedPrev := v.gasPressed }
  let v := v.revoke (v.brakePressed && (!v.brakePressedPrev || v.vehicleMoving))
  let v := { v with brakePressedPrev := v.brakePressed }
  let v := v.revoke (v.regenBraking && (!v.regenBrakingPrev || v.vehicleMoving))
  let v := { v with regenBrakingPrev := v.regenBraking }
  let v := v.revoke (v.steeringDisengage && !v.steeringDisengagePrev)
  { v with steeringDisengagePrev := v.steeringDisengage }

def genericAllowed (v : Vars) : Bool :=
  v.controlsAllowed && !(v.brakePressed && (!v.brakePressedPrev || v.vehicleMoving)) &&
    !(v.regenBraking && (!v.regenBrakingPrev || v.vehicleMoving)) &&
    !(v.steeringDisengage && !v.steeringDisengagePrev)

theorem genericRxChecks_eq (v : Vars) :
    genericRxChecks v =
      { v with
        controlsAllowed := genericAllowed v
        gasPressedPrev := v.gasPressed
        brakePressedPrev := v.brakePressed
        regenBrakingPrev := v.regenBraking
        steeringDisengagePrev := v.steeringDisengage } := by
  simp only [genericRxChecks, genericAllowed, Vars.revoke_eq]

/-- `stock_ecu_check`: whether this frame latches `relay_malfunction`. -/
def stockEcuDetected (msg : CANPacket) (s : SafetyState) : Bool :=
  s.safetyModeCnt > 1 &&
    s.currentSafetyConfig.txMsgs.any fun m =>
      m.checkRelay && m.addr == msg.addr.toNat && m.bus == msg.bus.toNat

/-- The outcome of the checks `safety_rx_hook` makes before it calls the mode's own hook. -/
structure RxVerdict where
  checks : List RxCheck
  valid : Bool
  accepted : Bool

/-- The validity and whitelist tests of `safety_rx_hook`, which looks the address up twice. -/
def rxVerdict (fw : Firmware) (ts : UInt32) (msg : CANPacket) (s : SafetyState) : RxVerdict :=
  let r := rxMsgSafetyCheck (fw.hooks s.currentHooks) ts msg s.currentSafetyConfig.rxChecks
  let w := getAddrCheckIndex msg r.1
  { checks := w.1, valid := r.2, accepted := r.2 && w.2.isSome }

def rxVars (fw : Firmware) (ts : UInt32) (msg : CANPacket) (s : SafetyState) : Vars :=
  let verdict := rxVerdict fw ts msg s
  let v := s.toVars.revoke (!verdict.valid)
  let v := if verdict.accepted then (fw.hooks s.currentHooks).rx ts msg v else v
  genericRxChecks v

def safetyRxHook (fw : Firmware) (ts : UInt32) (msg : CANPacket) (s : SafetyState) :
    Bool × SafetyState :=
  let verdict := rxVerdict fw ts msg s
  let v := rxVars fw ts msg s
  (verdict.valid,
    { s with
      toVars := v
      relayMalfunction := s.relayMalfunction || stockEcuDetected msg s
      heartbeatEngagedMismatches :=
        if v.controlsAllowed && !s.controlsAllowed then 0 else s.heartbeatEngagedMismatches
      currentSafetyConfig := { s.currentSafetyConfig with rxChecks := verdict.checks } })

/-! ## Transmit and forward hooks -/

/-- `tx_msg_safety_check`, with the two modes that transmit outside any table. -/
def txWhitelisted (msg : CANPacket) (s : SafetyState) : Bool :=
  s.currentSafetyConfig.txMsgs.any (fun m => m.admits msg) ||
    s.currentSafetyMode == safetyAlloutput || s.currentSafetyMode == safetyElm327

def safetyTxHook (fw : Firmware) (ts : UInt32) (msg : CANPacket) (s : SafetyState) :
    Bool × SafetyState :=
  if txWhitelisted msg s then
    let r := (fw.hooks s.currentHooks).tx ts msg s.toVars
    (!s.relayMalfunction && r.1, { s with toVars := r.2 })
  else (false, s)

/-- `get_fwd_bus`: `none` stands for -1. -/
def getFwdBus (busNum : Nat) : Option Nat :=
  if busNum == 0 then some 2 else if busNum == 2 then some 0 else none

def safetyFwdHook (fw : Firmware) (busNum addr : Nat) (s : SafetyState) : Option Nat :=
  let destination := getFwdBus busNum
  let blocked := s.relayMalfunction || s.currentSafetyConfig.disableForwarding
  let blocked :=
    blocked || s.currentSafetyConfig.txMsgs.any fun m =>
      m.checkRelay && !m.disableStaticBlocking && m.addr == addr && destination == some m.bus
  let blocked :=
    blocked || match (fw.hooks s.currentHooks).fwd with
      | some fwd => fwd busNum addr s.toVars
      | none => false
  if blocked then none else destination

/-! ## Tick -/

def lagThreshold (c : RxCheck) : Nat := max (1000000 / c.current.frequency * 10) 1000000

def tickRxCheck (ts : UInt32) (c : RxCheck) : RxCheck :=
  { c with
    status :=
      { c.status with
        lagging := (ts - c.status.lastTimestamp).toNat > lagThreshold c } }

def tickInvalid (ts : UInt32) (rxChecks : List RxCheck) : Bool :=
  (rxChecks.map (tickRxCheck ts)).any fun c => c.status.lagging || !c.valid

def safetyTick (ts : UInt32) (s : SafetyState) : SafetyState :=
  let cs := s.currentSafetyConfig.rxChecks.map (tickRxCheck ts)
  let invalid := tickInvalid ts s.currentSafetyConfig.rxChecks
  { s with
    controlsAllowed := s.controlsAllowed && !invalid
    safetyRxChecksInvalid := invalid
    currentSafetyConfig := { s.currentSafetyConfig with rxChecks := cs } }

/-- The heartbeat test of the 1 Hz `tick_handler`: authority the host does not claim for three
ticks is withdrawn. -/
def heartbeatCheck (heartbeatEngaged : Bool) (s : SafetyState) : SafetyState :=
  if s.controlsAllowed && !heartbeatEngaged then
    let n := s.heartbeatEngagedMismatches + 1
    { s with
      heartbeatEngagedMismatches := n
      controlsAllowed := s.controlsAllowed && !decide (n ≥ 3) }
  else { s with heartbeatEngagedMismatches := 0 }

def tickHandler (ts : UInt32) (heartbeatEngaged : Bool) (s : SafetyState) : SafetyState :=
  let s := heartbeatCheck heartbeatEngaged s
  safetyTick ts { s with safetyModeCnt := s.safetyModeCnt + 1 }

/-! ## Mode change -/

/-- What `set_safety_hooks` resets before it looks the mode up. The statics of the modes survive,
Mazda's among them. -/
def Vars.reset (v : Vars) : Vars :=
  { mazdaLongitudinal := v.mazdaLongitudinal
    mazdaResPrev := v.mazdaResPrev
    mazdaSetMPrev := v.mazdaSetMPrev
    otherStatics := v.otherStatics }

/-- `set_safety_hooks`: the status it returns, and the state. A mode that is not registered leaves
`current_hooks` and the mode in place with empty tables. -/
def setSafetyHooks (fw : Firmware) (mode param : UInt16) (s : SafetyState) : Int × SafetyState :=
  let s :=
    { s with
      toVars := s.toVars.reset
      safetyModeCnt := 0
      relayMalfunction := false
      safetyRxChecksInvalid := false
      currentSafetyConfig := {} }
  match fw.registry mode with
  | none => (-1, s)
  | some id =>
    let r := (fw.hooks id).init param s.toVars
    (0,
      { s with
        toVars := r.2
        currentHooks := id
        currentSafetyMode := mode
        currentSafetyParam := param
        currentSafetyConfig :=
          { r.1 with rxChecks := r.1.rxChecks.map fun c => { c with status := {} } } })

end Safety
end MazdaPort
