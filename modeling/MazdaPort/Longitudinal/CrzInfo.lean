import MazdaPort.Can.Signal
import MazdaPort.Safety.TxGate
import MazdaPort.Steering.Stream

/-!
# MazdaPort.Longitudinal.CrzInfo

CRZ_INFO as `car/mazda/longitudinal.py` builds it in the radar's place. While `long_active` is
false the base is the radar's own last frame with ACC_ACTIVE clear, if one was observed, and the
standby template if not.

The transmit hook lets that frame through without authority only when its ACCEL_CMD is the idle
sentinel. `idleFrame_accepted_iff`: it does so, whatever has been observed, exactly when the last
observed frame with ACC_ACTIVE clear carries the sentinel. `set_observed_crz_info` does not look
at ACCEL_CMD.
-/

namespace MazdaPort
namespace Longitudinal

open Bits Can Safety
open Steering (pyRound)

/-! ## Signals of CRZ_INFO -/

def accelCmd : Signal := .ofDbc 17 13 false 1 (-4096)

def accActive : Signal := .ofDbc 33 1 false 1 0

def accSetAllowed : Signal := .ofDbc 34 1 false 1 0

def crzEnded : Signal := .ofDbc 36 1 false 1 0

def stoppingMaybe : Signal := .ofDbc 42 1 false 1 0

def ctr1 : Signal := .ofDbc 51 4 false 1 0

def stoppingMaybe2 : Signal := .ofDbc 52 1 false 1 0

def resumeUnlatchingMaybe : Signal := .ofDbc 54 1 false 1 0

def crzInfoStandbyTemplate : List UInt8 := [0x01, 0xff, 0xe3, 0xff, 0xc0, 0x80, 0x00, 0x00]

def crzInfoTemplate : List UInt8 := [0x01, 0xff, 0xe2, 0x00, 0x06, 0x80, 0x00, 0x00]

def patchSignal (raw : List UInt8) (sig : Signal) (value : Rat) : List UInt8 :=
  let encoded := pyRound ((value - sig.offset) / sig.factor)
  let encoded := if encoded < 0 then 2 ^ sig.size + encoded else encoded
  setValue raw sig encoded

def computeInvertedSumChecksum (raw : List UInt8) (checksumIndex : Nat) : Nat :=
  let others := (List.range raw.length).filter fun i => i != checksumIndex
  (0xFF - ((others.map fun i => (raw.getD i 0).toNat).sum &&& 0xFF)) &&& 0xFF

def updateCrzInfoChecksum (raw : List UInt8) (bias : Nat) : List UInt8 :=
  raw.set 7 (UInt8.ofNat ((computeInvertedSumChecksum raw 7 + bias) &&& 0xFF))

/-! ## ACCEL_CMD -/

def clip (value lower upper : Rat) : Rat := min (max value lower) upper

/-- The loop of `_interp_scale`, over the breakpoints with their values. -/
def interpSegment (vEgo : Rat) : List (Rat × Rat) → Option Rat
  | (x0, y0) :: (x1, y1) :: rest =>
    if vEgo ≤ x1 then some (y0 + (y1 - y0) * ((vEgo - x0) / (x1 - x0)))
    else interpSegment vEgo ((x1, y1) :: rest)
  | _ => none

def interpScale (vEgo : Rat) (bp values : List Rat) : Rat :=
  if vEgo ≤ bp.headD 0 then values.headD 0
  else if vEgo ≥ bp.getLastD 0 then values.getLastD 0
  else (interpSegment vEgo (bp.zip values)).getD (values.getLastD 0)

def accelScaleUpBp : List Rat := [0, 42 / 10, 111 / 10, 222 / 10]

def accelScaleUpV : List Rat := [1000, 1000, 950, 800]

def accelScaleDownBp : List Rat := [0, 14 / 10, 56 / 10, 222 / 10]

def accelScaleDownV : List Rat := [1200, 1000, 925, 950]

def accelToAccelCmd (accel vEgo : Rat) : Int :=
  let scale :=
    if accel ≥ 0 then interpScale vEgo accelScaleUpBp accelScaleUpV
    else interpScale vEgo accelScaleDownBp accelScaleDownV
  pyRound (clip (accel * scale) (-2000) 2000)

/-! ## The radar's frames and ours -/

/-- `_OBSERVED_CRZ_INFO`. -/
abbrev Observed := Bool → Option (List UInt8)

def observedKey (raw : List UInt8) : Bool := ((raw.getD 4 0).toNat >>> 1) &&& 1 != 0

def setObservedCrzInfo (observed : Observed) (raw : List UInt8) : Observed :=
  if raw.length ≥ 8 then Function.update observed (observedKey raw) (some raw) else observed

/-- `_OBSERVED_CRZ_INFO.get(False) or CRZ_INFO_STANDBY_TEMPLATE`. -/
def idleBase (observed : Observed) : List UInt8 :=
  match observed false with
  | some raw => if raw.isEmpty then crzInfoStandbyTemplate else raw
  | none => crzInfoStandbyTemplate

def ofBool (b : Bool) : Rat := if b then 1 else 0

def buildCrzInfo (observed : Observed) (accel : Rat) (counter : Int) (longActive holdRequest : Bool)
    (vEgo : Rat) (holdLatched setAllowed resumeUnlatching : Bool) : List UInt8 :=
  if !longActive then
    let raw := patchSignal (idleBase observed) ctr1 (counter % 16 : Int)
    updateCrzInfoChecksum raw 0
  else
    let stoppingActive := holdRequest && !holdLatched
    let raw := patchSignal crzInfoTemplate accelCmd (accelToAccelCmd accel vEgo)
    let raw := patchSignal raw accActive (ofBool longActive)
    let raw := patchSignal raw accSetAllowed (ofBool setAllowed)
    let raw := patchSignal raw crzEnded 0
    let raw := patchSignal raw stoppingMaybe (ofBool stoppingActive)
    let raw := patchSignal raw stoppingMaybe2 (ofBool stoppingActive)
    let raw := patchSignal raw resumeUnlatchingMaybe (ofBool resumeUnlatching)
    let raw := patchSignal raw ctr1 (counter % 16 : Int)
    updateCrzInfoChecksum raw (if stoppingActive then 0x04 else 0)

/-- The frame on bus 0 with these eight bytes. -/
def crzInfoPacket (raw : List UInt8) : CANPacket :=
  .eightBytes 0 0x21b (Vector.ofFn fun i => raw.getD i.val 0)

/-! ## The idle frame -/

/-- `mazda_tx_hook` reads ACCEL_CMD in three bytes. -/
theorem crzInfoAccel_congr {raw raw' : List UInt8} (h2 : raw.getD 2 0 = raw'.getD 2 0)
    (h3 : raw.getD 3 0 = raw'.getD 3 0) (h4 : raw.getD 4 0 = raw'.getD 4 0) :
    crzInfoAccel (crzInfoPacket raw) = crzInfoAccel (crzInfoPacket raw') := by
  simp only [crzInfoAccel, crzInfoPacket, CANPacket.eightBytes, Vector.getElem_ofFn, h2, h3, h4]

theorem ctr1_bytes : ∀ j ∈ [2, 3, 4], ∀ r < 8, ctr1.index (8 * j + r) = none := by
  decide

/-- The counter and the checksum are in other bytes. -/
theorem idleFrame_accel (observed : Observed) (accel : Rat) (counter : Int) (holdRequest : Bool)
    (vEgo : Rat) (holdLatched setAllowed resumeUnlatching : Bool)
    (hbase : 8 ≤ (idleBase observed).length) :
    crzInfoAccel (crzInfoPacket (buildCrzInfo observed accel counter false holdRequest vEgo
        holdLatched setAllowed resumeUnlatching)) =
      crzInfoAccel (crzInfoPacket (idleBase observed)) := by
  have hlsb : ctr1.lsb / 8 < (idleBase observed).length := by
    have hsix : ctr1.lsb / 8 = 6 := by decide
    omega
  have hbyte : ∀ j ∈ [2, 3, 4], (buildCrzInfo observed accel counter false holdRequest vEgo
      holdLatched setAllowed resumeUnlatching).getD j 0 = (idleBase observed).getD j 0 := by
    intro j hj
    have hne : 7 ≠ j := by
      rintro rfl
      exact absurd hj (by decide)
    have hpatch : ∀ v, (setValue (idleBase observed) ctr1 v).getD j 0 =
        (idleBase observed).getD j 0 := fun v => setValue_other _ _ v hlsb (ctr1_bytes j hj)
    simp only [buildCrzInfo, Bool.not_false, if_true, updateCrzInfoChecksum, patchSignal,
      List.getD_eq_getElem?_getD, List.getElem?_set_ne hne]
    rw [← List.getD_eq_getElem?_getD, hpatch, List.getD_eq_getElem?_getD]
  exact crzInfoAccel_congr (hbyte 2 (by decide)) (hbyte 3 (by decide)) (hbyte 4 (by decide))

theorem crzInfo_refused (raw : List UInt8) {v : Vars} (hoff : v.controlsAllowed = false) :
    mazdaTxRefused (crzInfoPacket raw) v =
      (v.mazdaLongitudinal && crzInfoAccel (crzInfoPacket raw) != mazdaAccelIdleSentinel) := by
  have haddr : (crzInfoPacket raw).addr.toNat = mazdaCrzInfo := rfl
  have hctrl : (mazdaCrzInfo == mazdaCrzCtrl) = false := by decide
  have huds : (mazdaCrzInfo == mazdaRadarUds) = false := by decide
  have hbtns : (mazdaCrzInfo == mazdaCrzBtns) = false := by decide
  simp only [mazdaTxRefused, haddr, beq_self_eq_true, hctrl, huds, hbtns, longitudinalAccelChecks,
    getLongitudinalAllowed, hoff, mazdaLongLimits, Bool.and_true, Bool.and_false, Bool.false_and,
    Bool.false_or, Bool.or_false]
  rfl

/-- Without authority the hook passes the sentinel and nothing else. -/
theorem crzInfo_accepted_iff (raw : List UInt8) :
    (∀ ts v, v.controlsAllowed = false → (mazdaTxHook ts (crzInfoPacket raw) v).1 = true) ↔
      crzInfoAccel (crzInfoPacket raw) = mazdaAccelIdleSentinel := by
  have hmain : (crzInfoPacket raw).bus.toNat = mazdaMain := rfl
  have hlkas : (crzInfoPacket raw).addr.toNat ≠ mazdaLkas := by
    have haddr : (crzInfoPacket raw).addr.toNat = mazdaCrzInfo := rfl
    rw [haddr]
    decide
  constructor
  · intro haccepted
    let v : Vars := { ({} : SafetyState).toVars with mazdaLongitudinal := true }
    have hoff : v.controlsAllowed = false := rfl
    have hpass := ((mazdaTxHook_main hmain).1 (haccepted 0 v hoff)).2
    rw [crzInfo_refused raw hoff] at hpass
    simpa [v] using hpass
  · intro hidle ts v hoff
    refine (mazdaTxHook_main hmain).2 ⟨fun h => absurd h hlkas, ?_⟩
    rw [crzInfo_refused raw hoff, hidle]
    simp

/-! ## What has been observed -/

def observed (frames : List (Vector UInt8 8)) : Observed :=
  Run.run (fun obs raw => setObservedCrzInfo obs raw.toList) (fun _ => none) frames

/-- The last frame with ACC_ACTIVE clear. -/
def lastIdle (frames : List (Vector UInt8 8)) : Option (Vector UInt8 8) :=
  (frames.filter fun raw => !observedKey raw.toList).getLast?

theorem observed_idle (frames : List (Vector UInt8 8)) :
    observed frames false = (lastIdle frames).map Vector.toList := by
  induction frames using List.reverseRecOn with
  | nil => rfl
  | append_singleton frames raw ih =>
    have hlen : raw.toList.length ≥ 8 := by simp
    rw [observed, Run.run_snoc, ← observed, setObservedCrzInfo, if_pos hlen, lastIdle,
      List.filter_append]
    cases hkey : observedKey raw.toList with
    | true =>
      rw [Function.update_of_ne (by decide), ih]
      simp [lastIdle, hkey]
    | false => simp [hkey]

theorem idleBase_observed (frames : List (Vector UInt8 8)) :
    idleBase (observed frames) =
      ((lastIdle frames).map Vector.toList).getD crzInfoStandbyTemplate := by
  rw [idleBase, observed_idle]
  cases lastIdle frames with
  | none => rfl
  | some raw =>
    have hne : raw.toList.isEmpty = false := by
      rw [List.isEmpty_eq_false_iff, ← List.length_pos_iff]
      simp
    simp [hne]

/-- Without authority the idle frame passes the hook if and only if the last frame that was
observed with ACC_ACTIVE clear, if there was one, carries the idle sentinel. -/
theorem idleFrame_accepted_iff (frames : List (Vector UInt8 8)) (accel : Rat) (counter : Int)
    (holdRequest : Bool) (vEgo : Rat) (holdLatched setAllowed resumeUnlatching : Bool) :
    ((∀ ts v, v.controlsAllowed = false →
        (mazdaTxHook ts (crzInfoPacket (buildCrzInfo (observed frames) accel counter false
          holdRequest vEgo holdLatched setAllowed resumeUnlatching)) v).1 = true) ∧
      crzInfoAccel (crzInfoPacket (buildCrzInfo (observed frames) accel counter false holdRequest
        vEgo holdLatched setAllowed resumeUnlatching)) = mazdaAccelIdleSentinel) ↔
      ∀ raw, lastIdle frames = some raw →
        crzInfoAccel (crzInfoPacket raw.toList) = mazdaAccelIdleSentinel := by
  have hbase := idleBase_observed frames
  have hlen : 8 ≤ (idleBase (observed frames)).length := by
    rw [hbase]
    cases lastIdle frames with
    | none => decide
    | some raw => simp
  rw [crzInfo_accepted_iff, and_self, idleFrame_accel _ _ _ _ _ _ _ _ hlen, hbase]
  cases lastIdle frames with
  | none =>
    have htemplate : crzInfoAccel (crzInfoPacket crzInfoStandbyTemplate) =
        mazdaAccelIdleSentinel := by decide
    simpa using htemplate
  | some raw => simp

/-- ACC_ACTIVE clear, and a live command for zero acceleration. -/
def zeroCommand : Vector UInt8 8 := #v[0x01, 0xff, 0xe2, 0x00, 0x04, 0x80, 0x00, 0x99]

theorem idleFrame_zeroCommand :
    ¬ ((∀ ts v, v.controlsAllowed = false →
        (mazdaTxHook ts (crzInfoPacket (buildCrzInfo (observed [zeroCommand]) 0 0 false false 0
          false true false)) v).1 = true) ∧
      crzInfoAccel (crzInfoPacket (buildCrzInfo (observed [zeroCommand]) 0 0 false false 0 false
        true false)) = mazdaAccelIdleSentinel) := by
  rw [crzInfo_accepted_iff, and_self]
  decide +kernel

end Longitudinal
end MazdaPort
