import MazdaPort.Lib.Run
import MazdaPort.Longitudinal.Patch

/-!
# MazdaPort.Longitudinal.CrzCtrl

CRZ_CTRL as `build_crz_ctrl` makes it: a base that comes from the radar's remembered frame, from
its byte 2, from the follow distance or from the template alone, and the patches over it.

`buildCrzCtrl_patch` reads back what a patch has written that no later one writes over, and
`buildCrzCtrl_other` says that every other bit is the base's. MSG_1_COPY and, while the car plainly
follows, two bits of the lead distance are the base's, so they are the radar's
(`crzCtrl_engagement_iff`, `crzCtrl_lead_iff`).
-/

namespace MazdaPort
namespace Longitudinal

open Bits Can
open Safety hiding crzActive

inductive MazdaLongitudinalProfile where
  | standby
  | engagedCruise
  | engagedFollow
  | stopGoHold
  | stopGoHoldLatched
  deriving DecidableEq, Repr

def crzCtrlTemplates : MazdaLongitudinalProfile → List UInt8
  | .standby => [0x02, 0x01, 0x0b, 0x00, 0x00, 0x00, 0x00, 0x00]
  | .engagedCruise => [0x0a, 0x01, 0x8b, 0x20, 0x00, 0x00, 0x10, 0x00]
  | .engagedFollow => [0x0a, 0x01, 0x8b, 0x40, 0x00, 0x00, 0x10, 0x00]
  | .stopGoHold => [0x0a, 0x01, 0x8b, 0x60, 0x00, 0x00, 0x10, 0x00]
  | .stopGoHoldLatched => [0x0a, 0x01, 0x8b, 0x80, 0x00, 0x00, 0x10, 0x00]

def selectProfile (longActive leadVisible holdRequest crzHoldLatched : Bool) :
    MazdaLongitudinalProfile :=
  if !longActive then .standby
  else if holdRequest && crzHoldLatched then .stopGoHoldLatched
  else if holdRequest then .stopGoHold
  else if leadVisible then .engagedFollow
  else .engagedCruise

/-! ## Signals of CRZ_CTRL -/

namespace CrzCtrl

def crzActive : Signal := .ofDbc 3 1 false 1 0

def msg1 : Signal := .ofDbc 0 1 false 1 0

def msg1Inv : Signal := .ofDbc 1 1 false 1 0

def msg1InvCopy : Signal := .ofDbc 8 1 false 1 0

def msg1Copy : Signal := .ofDbc 9 1 false 1 0

def radarHasLead : Signal := .ofDbc 23 1 false 1 0

def radarLeadRelativeDistance : Signal := .ofDbc 31 3 false 1 0

/-- The least significant bit of `radarLeadRelativeDistance`. -/
def accGasMaybe2 : Signal := .ofDbc 29 1 false 1 0

def disableTimer1 : Signal := .ofDbc 43 3 true 1 0

def disableTimer2 : Signal := .ofDbc 48 1 false 1 0

def accActive2 : Signal := .ofDbc 52 1 false 1 0

end CrzCtrl

/-! ## What the module remembers -/

/-- A frame that `set_observed_crz_ctrl` takes. -/
abbrev ObservedFrame := { raw : List UInt8 // 8 ≤ raw.length }

/-- The module's globals for CRZ_CTRL. -/
structure CtrlMemory where
  observedCrzCtrl : Bool → Option ObservedFrame := fun _ => none
  observedByte2 : Bool → Option UInt8 := fun _ => none
  observedDistanceSetting : Option Nat := none
  cruiseAvailable : Bool := false

/-- The CRZ_AVAILABLE bit. -/
def availableKey (raw : List UInt8) : Bool := ((raw.getD 2 0).toNat >>> 1) &&& 1 != 0

def setObservedCrzCtrl (m : CtrlMemory) (raw : List UInt8) : CtrlMemory :=
  if h : 8 ≤ raw.length then
    let key := availableKey raw
    { m with
      observedCrzCtrl := Function.update m.observedCrzCtrl key (some ⟨raw, h⟩)
      observedByte2 := Function.update m.observedByte2 key (some (raw.getD 2 0)) }
  else m

def setCruiseAvailable (m : CtrlMemory) (available : Bool) : CtrlMemory :=
  { m with cruiseAvailable := available }

def setObservedDistanceSetting (m : CtrlMemory) (value : Option Int) : CtrlMemory :=
  match value with
  | some v => if 0 ≤ v ∧ v ≤ 7 then { m with observedDistanceSetting := some v.toNat } else m
  | none => m

inductive Observation where
  | crzCtrl (raw : List UInt8)
  | cruiseAvailable (available : Bool)
  | distanceSetting (value : Option Int)
  deriving Repr

def observe (m : CtrlMemory) : Observation → CtrlMemory
  | .crzCtrl raw => setObservedCrzCtrl m raw
  | .cruiseAvailable available => setCruiseAvailable m available
  | .distanceSetting value => setObservedDistanceSetting m value

/-! ## The frame -/

/-- One turn of the loop of `_apply_profile_delta`. -/
def deltaStep (base want out : List UInt8) (i : Nat) : List UInt8 :=
  let delta := base.getD i 0 ^^^ want.getD i 0
  if delta ≠ 0 then out.set i ((out.getD i 0 &&& ~~~delta) ||| (want.getD i 0 &&& delta)) else out

def applyProfileDelta (observed : List UInt8) (profile : MazdaLongitudinalProfile) : List UInt8 :=
  let base := crzCtrlTemplates .standby
  let want := crzCtrlTemplates profile
  (List.range (min (min observed.length base.length) want.length)).foldl (deltaStep base want)
    observed

/-- The frame before the patches. -/
def crzCtrlBase (m : CtrlMemory) (profile : MazdaLongitudinalProfile) : List UInt8 :=
  let raw := crzCtrlTemplates profile
  match m.observedCrzCtrl m.cruiseAvailable with
  | some observedFull => applyProfileDelta observedFull.val profile
  | none =>
    match m.observedByte2 m.cruiseAvailable with
    | some observed => raw.set 2 ((raw.getD 2 0 &&& ~~~(0x1E : UInt8)) ||| (observed &&& 0x1E))
    | none =>
      match m.observedDistanceSetting with
      | some distance =>
        raw.set 2 ((raw.getD 2 0 &&& ~~~(0x1C : UInt8)) ||| UInt8.ofNat ((distance &&& 0x07) <<< 2))
      | none => raw

/-- The arguments of `build_crz_ctrl`. -/
structure CtrlFlags where
  longActive : Bool
  leadVisible : Bool
  holdRequest : Bool
  holdLatched : Bool
  crzHoldLatched : Bool := false
  crzHoldPassive : Bool := false
  crzResumeActive : Bool := false
  deriving DecidableEq, Repr

/-- `lead_visible` after the first line of `build_crz_ctrl`. -/
def CtrlFlags.hasLead (f : CtrlFlags) : Bool :=
  f.leadVisible || f.holdRequest || f.holdLatched || f.crzHoldLatched || f.crzHoldPassive

open CrzCtrl in
def buildCrzCtrl (m : CtrlMemory) (f : CtrlFlags) : List UInt8 :=
  let leadVisible := f.hasLead
  let raw := crzCtrlBase m (selectProfile f.longActive leadVisible f.holdRequest f.crzHoldLatched)
  let raw := patchSignal raw crzActive (ofBool f.longActive)
  let raw := patchSignal raw accActive2 (ofBool (f.longActive && !f.crzHoldPassive))
  let raw := patchSignal raw disableTimer1 0
  let raw := patchSignal raw disableTimer2 0
  let raw := patchSignal raw radarHasLead (ofBool leadVisible)
  let raw :=
    if f.crzHoldPassive || f.crzHoldLatched then
      patchSignal (patchSignal raw radarLeadRelativeDistance 4) accGasMaybe2 0
    else if f.holdRequest || f.crzResumeActive then
      patchSignal (patchSignal raw radarLeadRelativeDistance 3) accGasMaybe2 1
    else if !leadVisible then patchSignal raw radarLeadRelativeDistance 0
    else raw
  let raw := patchSignal raw msg1 1
  let raw := patchSignal raw msg1Inv 1
  patchSignal raw msg1InvCopy 0

/-- The frame on bus 0 with the first eight of these bytes. -/
def crzCtrlPacket (raw : List UInt8) : CANPacket :=
  .eightBytes 0 0x21c (Vector.ofFn fun i => raw.getD i.val 0)

/-! ## The base -/

theorem deltaStep_length (base want out : List UInt8) (i : Nat) :
    (deltaStep base want out i).length = out.length := by
  unfold deltaStep
  dsimp only
  split
  · rw [List.length_set]
  · rfl

theorem deltaStep_bit (base want : List UInt8) {out : List UInt8} {i : Nat} (hi : i < out.length)
    (b : Nat) :
    bit (deltaStep base want out i) b =
      if b / 8 = i ∧ bit base b ≠ bit want b then bit want b else bit out b := by
  have hr : b % 8 < 8 := Nat.mod_lt _ (by decide)
  have hdelta : b / 8 = i →
      byteBit (base.getD i 0 ^^^ want.getD i 0) (b % 8) = (bit base b ^^ bit want b) := by
    rintro rfl
    rw [byteBit_xor]
    rfl
  unfold deltaStep
  dsimp only
  split
  · rw [bit_set out hi]
    by_cases hb : b / 8 = i
    · rw [if_pos hb]
      have hwant : byteBit (want.getD i 0) (b % 8) = bit want b := by rw [← hb]; rfl
      have hout : byteBit (out.getD i 0) (b % 8) = bit out b := by rw [← hb]; rfl
      rw [byteBit_choose _ _ _ hr, hdelta hb, hwant, hout]
      cases bit base b <;> cases bit want b <;> simp [hb]
    · rw [if_neg hb, if_neg fun h => hb h.1]
  · next hzero =>
    by_cases hb : b / 8 = i
    · have hsame : (bit base b ^^ bit want b) = false := by
        rw [← hdelta hb, Decidable.not_not.1 hzero]
        simp [byteBit]
      have heq : bit base b = bit want b := by simpa using hsame
      rw [if_neg fun h => h.2 heq]
    · rw [if_neg fun h => hb h.1]

/-- The bits in which the profile differs from the standby template are the profile's, the others
the radar's. -/
theorem applyProfileDelta_bit {observed : List UInt8} (hlen : 8 ≤ observed.length)
    (profile : MazdaLongitudinalProfile) {b : Nat} (hb : b < 64) :
    bit (applyProfileDelta observed profile) b =
      if bit (crzCtrlTemplates .standby) b = bit (crzCtrlTemplates profile) b then bit observed b
      else bit (crzCtrlTemplates profile) b := by
  have hrange : min (min observed.length (crzCtrlTemplates .standby).length)
      (crzCtrlTemplates profile).length = 8 := by
    have hstandby : (crzCtrlTemplates .standby).length = 8 := rfl
    have hprofile : (crzCtrlTemplates profile).length = 8 := by cases profile <;> rfl
    omega
  have hloop : ∀ n ≤ 8,
      ((List.range n).foldl (deltaStep (crzCtrlTemplates .standby) (crzCtrlTemplates profile))
        observed).length = observed.length ∧
      bit ((List.range n).foldl (deltaStep (crzCtrlTemplates .standby) (crzCtrlTemplates profile))
        observed) b =
        if b / 8 < n ∧ bit (crzCtrlTemplates .standby) b ≠ bit (crzCtrlTemplates profile) b then
          bit (crzCtrlTemplates profile) b
        else bit observed b := by
    intro n
    induction n with
    | zero =>
      intro _
      exact ⟨rfl, by rw [if_neg (by omega)]; rfl⟩
    | succ n ih =>
      intro hn
      obtain ⟨hsame, hbit⟩ := ih (by omega)
      rw [List.range_succ, List.foldl_append, List.foldl_cons, List.foldl_nil, deltaStep_length,
        deltaStep_bit _ _ (by omega), hbit]
      refine ⟨hsame, ?_⟩
      by_cases hdiff : bit (crzCtrlTemplates .standby) b = bit (crzCtrlTemplates profile) b
      · simp [hdiff]
      · by_cases hhere : b / 8 = n
        · simp [hdiff, hhere]
        · have hiff : b / 8 < n + 1 ↔ b / 8 < n := by omega
          simp [hdiff, hhere, hiff]
  rw [applyProfileDelta, hrange, (hloop 8 (le_refl _)).2]
  by_cases hdiff : bit (crzCtrlTemplates .standby) b = bit (crzCtrlTemplates profile) b
  · simp [hdiff]
  · have hbyte : b / 8 < 8 := by omega
    simp [hdiff, hbyte]

theorem crzCtrlTemplates_length (profile : MazdaLongitudinalProfile) :
    (crzCtrlTemplates profile).length = 8 := by
  cases profile <;> rfl

theorem applyProfileDelta_length (observed : List UInt8) (profile : MazdaLongitudinalProfile) :
    (applyProfileDelta observed profile).length = observed.length := by
  have hloop : ∀ (is : List Nat) (out : List UInt8), (is.foldl (deltaStep (crzCtrlTemplates .standby)
      (crzCtrlTemplates profile)) out).length = out.length := by
    intro is
    induction is with
    | nil => exact fun _ => rfl
    | cons i is ih =>
      intro out
      rw [List.foldl_cons, ih, deltaStep_length]
  exact hloop _ _

theorem crzCtrlBase_length (m : CtrlMemory) (profile : MazdaLongitudinalProfile) :
    8 ≤ (crzCtrlBase m profile).length := by
  have htemplate := crzCtrlTemplates_length profile
  unfold crzCtrlBase
  dsimp only
  split
  · next observedFull _ =>
    rw [applyProfileDelta_length]
    exact observedFull.property
  · split
    · rw [List.length_set, htemplate]
    · split
      · rw [List.length_set, htemplate]
      · exact htemplate.ge

/-- Outside byte 2 the base is the radar's frame under the profile, or the template. -/
theorem crzCtrlBase_bit (m : CtrlMemory) (profile : MazdaLongitudinalProfile) {b : Nat}
    (hb : b < 64) (hbyte : b / 8 ≠ 2) :
    bit (crzCtrlBase m profile) b =
      match m.observedCrzCtrl m.cruiseAvailable with
      | some observedFull =>
        if bit (crzCtrlTemplates .standby) b = bit (crzCtrlTemplates profile) b then
          bit observedFull.val b
        else bit (crzCtrlTemplates profile) b
      | none => bit (crzCtrlTemplates profile) b := by
  have htemplate := crzCtrlTemplates_length profile
  unfold crzCtrlBase
  dsimp only
  cases hseen : m.observedCrzCtrl m.cruiseAvailable with
  | some observedFull => exact applyProfileDelta_bit observedFull.property profile hb
  | none =>
    dsimp only
    split
    · rw [bit_set _ (by omega), if_neg hbyte]
    · split
      · rw [bit_set _ (by omega), if_neg hbyte]
      · rfl

/-! ## The patches -/

open CrzCtrl

def leadPatches (f : CtrlFlags) : List (Signal × Rat) :=
  if f.crzHoldPassive || f.crzHoldLatched then
    [(radarLeadRelativeDistance, 4), (accGasMaybe2, 0)]
  else if f.holdRequest || f.crzResumeActive then
    [(radarLeadRelativeDistance, 3), (accGasMaybe2, 1)]
  else if !f.hasLead then [(radarLeadRelativeDistance, 0)]
  else []

def engagementPatches (f : CtrlFlags) : List (Signal × Rat) :=
  [(crzActive, ofBool f.longActive), (accActive2, ofBool (f.longActive && !f.crzHoldPassive)),
    (disableTimer1, ofBool false), (disableTimer2, ofBool false),
    (radarHasLead, ofBool f.hasLead)]

def quadPatches : List (Signal × Rat) :=
  [(msg1, ofBool true), (msg1Inv, ofBool true), (msg1InvCopy, ofBool false)]

def ctrlPatches (f : CtrlFlags) : List (Signal × Rat) :=
  engagementPatches f ++ (leadPatches f ++ quadPatches)

theorem patchAll_leadPatches (raw : List UInt8) (f : CtrlFlags) :
    patchAll raw (leadPatches f) =
      if f.crzHoldPassive || f.crzHoldLatched then
        patchSignal (patchSignal raw radarLeadRelativeDistance 4) accGasMaybe2 0
      else if f.holdRequest || f.crzResumeActive then
        patchSignal (patchSignal raw radarLeadRelativeDistance 3) accGasMaybe2 1
      else if !f.hasLead then patchSignal raw radarLeadRelativeDistance 0
      else raw := by
  unfold leadPatches
  split
  · rfl
  · split
    · rfl
    · split <;> rfl

theorem buildCrzCtrl_eq (m : CtrlMemory) (f : CtrlFlags) :
    buildCrzCtrl m f = patchAll
      (crzCtrlBase m (selectProfile f.longActive f.hasLead f.holdRequest f.crzHoldLatched))
      (ctrlPatches f) := by
  have hone : ofBool true = 1 := rfl
  have hzero : ofBool false = 0 := rfl
  rw [ctrlPatches, patchAll_append, patchAll_append, patchAll_leadPatches]
  simp only [buildCrzCtrl, engagementPatches, quadPatches, patchAll_cons, patchAll_nil, hone,
    hzero]

/-- The signals that are patched, in order, whatever the branch for the lead. -/
def ctrlSignals : List Signal :=
  [crzActive, accActive2, disableTimer1, disableTimer2, radarHasLead, radarLeadRelativeDistance,
    accGasMaybe2, msg1, msg1Inv, msg1InvCopy]

theorem leadPatches_signals (f : CtrlFlags) :
    ((leadPatches f).map Prod.fst).Sublist [radarLeadRelativeDistance, accGasMaybe2] := by
  unfold leadPatches
  split
  · exact List.Sublist.refl _
  · split
    · exact List.Sublist.refl _
    · split
      · exact List.Sublist.cons_cons _ (List.nil_sublist _)
      · exact List.nil_sublist _

theorem mem_ctrlSignals {f : CtrlFlags} {p : Signal × Rat} (hp : p ∈ ctrlPatches f) :
    p.1 ∈ ctrlSignals := by
  have hsub : ((ctrlPatches f).map Prod.fst).Sublist ctrlSignals := by
    unfold ctrlPatches
    rw [List.map_append, List.map_append]
    exact (List.Sublist.refl _).append ((leadPatches_signals f).append (List.Sublist.refl _))
  exact hsub.subset (List.mem_map_of_mem hp)

theorem ctrlSignals_fit : ∀ sig ∈ ctrlSignals, sig.Fits 8 := by decide

theorem ctrlPatches_fit (f : CtrlFlags) {n : Nat} (hn : 8 ≤ n) :
    ∀ p ∈ ctrlPatches f, p.1.Fits n :=
  fun p hp => (ctrlSignals_fit p.1 (mem_ctrlSignals hp)).mono hn

/-! ## What the frame says -/

section Frame

variable (m : CtrlMemory) (f : CtrlFlags)

/-- A bit that no patch writes. -/
theorem buildCrzCtrl_other {b : Nat} (hb : b < 64)
    (hnone : ∀ sig ∈ ctrlSignals, sig.index b = none) :
    bit (buildCrzCtrl m f) b =
      bit (crzCtrlBase m (selectProfile f.longActive f.hasLead f.holdRequest f.crzHoldLatched)) b := by
  have hlen := crzCtrlBase_length m (selectProfile f.longActive f.hasLead f.holdRequest
    f.crzHoldLatched)
  rw [buildCrzCtrl_eq]
  refine bit_patchAll_other (ctrlPatches_fit f hlen) (by omega) fun p hp => ?_
  exact hnone p.1 (mem_ctrlSignals hp)

/-- A patch with the patches after it apart from its signal. -/
theorem buildCrzCtrl_patch {before later : List (Signal × Rat)} {sig : Signal} {value : Rat}
    (hsplit : ctrlPatches f = before ++ (sig, value) :: later)
    (hapart : ∀ p ∈ later, p.1.Apart sig) :
    getRawValue (buildCrzCtrl m f) sig = (encode sig value % 2 ^ sig.size).toNat := by
  have hfit := ctrlPatches_fit f (crzCtrlBase_length m (selectProfile f.longActive f.hasLead
    f.holdRequest f.crzHoldLatched))
  rw [hsplit] at hfit
  rw [buildCrzCtrl_eq, hsplit]
  exact getRawValue_patchAll_split hfit hapart

/-- A flag is read back if no signal that is patched later has its bit. -/
theorem buildCrzCtrl_flag {before later : List (Signal × Rat)} {sig : Signal} {flag : Bool}
    (hsplit : ctrlPatches f = before ++ (sig, ofBool flag) :: later) {signals : List Signal}
    (hlater : (later.map Prod.fst).Sublist signals) (hapart : ∀ other ∈ signals, other.Apart sig)
    (hplain : sig.Plain) (hsize : 0 < sig.size) :
    parseSignal (buildCrzCtrl m f) sig = ofBool flag := by
  refine parseSignal_flag hplain hsize (buildCrzCtrl_patch m f hsplit fun p hp => ?_)
  exact hapart p.1 (hlater.subset (List.mem_map_of_mem hp))

theorem leadAndQuad_signals :
    ((leadPatches f ++ quadPatches).map Prod.fst).Sublist
      [radarLeadRelativeDistance, accGasMaybe2, msg1, msg1Inv, msg1InvCopy] := by
  rw [List.map_append]
  exact (leadPatches_signals f).append (List.Sublist.refl _)

theorem buildCrzCtrl_crzActive :
    parseSignal (buildCrzCtrl m f) crzActive = ofBool f.longActive :=
  @buildCrzCtrl_flag m f [] _ crzActive f.longActive rfl
    [accActive2, disableTimer1, disableTimer2, radarHasLead, radarLeadRelativeDistance,
      accGasMaybe2, msg1, msg1Inv, msg1InvCopy]
    ((leadAndQuad_signals f).cons_cons _ |>.cons_cons _ |>.cons_cons _ |>.cons_cons _)
    (by decide) (by decide) (by decide)

theorem buildCrzCtrl_accActive2 :
    parseSignal (buildCrzCtrl m f) accActive2 = ofBool (f.longActive && !f.crzHoldPassive) :=
  @buildCrzCtrl_flag m f [_] _ accActive2 _ rfl
    [disableTimer1, disableTimer2, radarHasLead, radarLeadRelativeDistance, accGasMaybe2, msg1,
      msg1Inv, msg1InvCopy]
    ((leadAndQuad_signals f).cons_cons _ |>.cons_cons _ |>.cons_cons _)
    (by decide) (by decide) (by decide)

theorem buildCrzCtrl_disableTimer1 : parseSignal (buildCrzCtrl m f) disableTimer1 = 0 :=
  @buildCrzCtrl_flag m f [_, _] _ disableTimer1 false rfl
    [disableTimer2, radarHasLead, radarLeadRelativeDistance, accGasMaybe2, msg1, msg1Inv,
      msg1InvCopy]
    ((leadAndQuad_signals f).cons_cons _ |>.cons_cons _) (by decide) (by decide) (by decide)

theorem buildCrzCtrl_disableTimer2 : parseSignal (buildCrzCtrl m f) disableTimer2 = 0 :=
  @buildCrzCtrl_flag m f [_, _, _] _ disableTimer2 false rfl
    [radarHasLead, radarLeadRelativeDistance, accGasMaybe2, msg1, msg1Inv, msg1InvCopy]
    ((leadAndQuad_signals f).cons_cons _) (by decide) (by decide) (by decide)

theorem buildCrzCtrl_radarHasLead :
    parseSignal (buildCrzCtrl m f) radarHasLead = ofBool f.hasLead :=
  @buildCrzCtrl_flag m f [_, _, _, _] _ radarHasLead f.hasLead rfl _ (leadAndQuad_signals f)
    (by decide) (by decide) (by decide)

/-- The quad comes last. -/
theorem buildCrzCtrl_quad {before later : List (Signal × Rat)} {sig : Signal} {flag : Bool}
    (hsplit : quadPatches = before ++ (sig, ofBool flag) :: later)
    (hapart : ∀ p ∈ later, p.1.Apart sig) (hplain : sig.Plain) (hsize : 0 < sig.size) :
    parseSignal (buildCrzCtrl m f) sig = ofBool flag := by
  have hall : ctrlPatches f =
      (engagementPatches f ++ (leadPatches f ++ before)) ++ (sig, ofBool flag) :: later := by
    rw [ctrlPatches, hsplit, List.append_assoc, List.append_assoc]
  exact parseSignal_flag hplain hsize (buildCrzCtrl_patch m f hall hapart)

theorem buildCrzCtrl_msg1 : parseSignal (buildCrzCtrl m f) msg1 = 1 :=
  @buildCrzCtrl_quad m f [] _ msg1 true rfl (by decide) (by decide) (by decide)

theorem buildCrzCtrl_msg1Inv : parseSignal (buildCrzCtrl m f) msg1Inv = 1 :=
  @buildCrzCtrl_quad m f [_] _ msg1Inv true rfl (by decide) (by decide) (by decide)

theorem buildCrzCtrl_msg1InvCopy : parseSignal (buildCrzCtrl m f) msg1InvCopy = 0 :=
  @buildCrzCtrl_quad m f [_, _] _ msg1InvCopy false rfl (by decide) (by decide) (by decide)

end Frame

/-! ## Histories -/

/-- A frame that `set_observed_crz_ctrl` keeps. -/
def Observation.frame? : Observation → Option (List UInt8)
  | .crzCtrl raw => if 8 ≤ raw.length then some raw else none
  | _ => none

def Observation.available? : Observation → Option Bool
  | .cruiseAvailable available => some available
  | _ => none

/-- The availability that was set last. -/
def lastAvailable (calls : List Observation) : Bool :=
  (calls.filterMap Observation.available?).getLast?.getD false

/-- The last frame that was observed with this CRZ_AVAILABLE bit. -/
def lastObserved (available : Bool) (calls : List Observation) : Option (List UInt8) :=
  ((calls.filterMap Observation.frame?).filter fun raw => availableKey raw == available).getLast?

def memory (calls : List Observation) : CtrlMemory := Run.run observe {} calls

theorem memory_snoc (calls : List Observation) (call : Observation) :
    memory (calls ++ [call]) = observe (memory calls) call := Run.run_snoc _ _ _ _

theorem lastObserved_snoc (available : Bool) (calls : List Observation) (call : Observation) :
    lastObserved available (calls ++ [call]) =
      match call.frame? with
      | some raw => if availableKey raw = available then some raw else lastObserved available calls
      | none => lastObserved available calls := by
  cases hframe : call.frame? with
  | none => simp [lastObserved, List.filterMap_append, hframe]
  | some raw =>
    by_cases hkey : availableKey raw = available
    · simp [lastObserved, List.filterMap_append, hframe, hkey]
    · simp [lastObserved, List.filterMap_append, hframe, hkey]

theorem lastAvailable_snoc (calls : List Observation) (call : Observation) :
    lastAvailable (calls ++ [call]) = call.available?.getD (lastAvailable calls) := by
  cases hvalue : call.available? with
  | none => simp [lastAvailable, List.filterMap_append, hvalue]
  | some available => simp [lastAvailable, List.filterMap_append, hvalue]

theorem setObservedDistanceSetting_keeps (m : CtrlMemory) (value : Option Int) :
    (setObservedDistanceSetting m value).cruiseAvailable = m.cruiseAvailable ∧
      (setObservedDistanceSetting m value).observedCrzCtrl = m.observedCrzCtrl := by
  unfold setObservedDistanceSetting
  split
  · split <;> exact ⟨rfl, rfl⟩
  · exact ⟨rfl, rfl⟩

theorem memory_cruiseAvailable (calls : List Observation) :
    (memory calls).cruiseAvailable = lastAvailable calls := by
  induction calls using List.reverseRecOn with
  | nil => rfl
  | append_singleton calls call ih =>
    rw [memory_snoc, lastAvailable_snoc, ← ih]
    cases call with
    | crzCtrl raw =>
      simp only [observe, setObservedCrzCtrl]
      split <;> rfl
    | cruiseAvailable available => rfl
    | distanceSetting value => exact (setObservedDistanceSetting_keeps _ value).1

theorem memory_observedCrzCtrl (calls : List Observation) (available : Bool) :
    ((memory calls).observedCrzCtrl available).map Subtype.val = lastObserved available calls := by
  induction calls using List.reverseRecOn with
  | nil => rfl
  | append_singleton calls call ih =>
    rw [memory_snoc, lastObserved_snoc, ← ih]
    cases call with
    | crzCtrl raw =>
      simp only [observe, setObservedCrzCtrl, Observation.frame?]
      by_cases hlen : 8 ≤ raw.length
      · rw [dif_pos hlen, if_pos hlen]
        by_cases hkey : availableKey raw = available
        · subst hkey
          simp
        · simp [Function.update_of_ne (Ne.symm hkey), hkey]
      · rw [dif_neg hlen, if_neg hlen]
    | cruiseAvailable value => rfl
    | distanceSetting value =>
      simp only [observe, Observation.frame?, (setObservedDistanceSetting_keeps _ value).2]

/-- The frame that the derived base comes from. -/
theorem memory_current (calls : List Observation) :
    ((memory calls).observedCrzCtrl (memory calls).cruiseAvailable).map Subtype.val =
      lastObserved (lastAvailable calls) calls := by
  rw [memory_observedCrzCtrl, memory_cruiseAvailable]

/-! ## Redundancy and engagement -/

/-- The quad, the engagement bits and what the transmit hook makes of the frame. -/
structure EngagementBits (raw : List UInt8) (f : CtrlFlags) : Prop where
  msg1 : parseSignal raw msg1 = 1
  msg1Inv : parseSignal raw msg1Inv = 1
  msg1Copy : parseSignal raw msg1Copy = 0
  msg1InvCopy : parseSignal raw msg1InvCopy = 0
  crzActive : parseSignal raw crzActive = ofBool f.longActive
  accActive2 : parseSignal raw accActive2 = ofBool (f.longActive && !f.crzHoldPassive)
  disableTimer1 : parseSignal raw disableTimer1 = 0
  disableTimer2 : parseSignal raw disableTimer2 = 0
  approved : f.longActive = false → ∀ ts v, (mazdaTxHook ts (crzCtrlPacket raw) v).1 = true

/-- A signal of one bit. -/
theorem parseSignal_bit {raw : List UInt8} {sig : Signal} (hfit : sig.Fits raw.length)
    (hplain : sig.Plain) (hsize : sig.size = 1) :
    parseSignal raw sig = ofBool (bit raw (sig.bitAt 0)) := by
  have hraw : getRawValue raw sig = (bit raw (sig.bitAt 0)).toNat := by
    refine Nat.eq_of_testBit_eq fun k => ?_
    rw [getRawValue_testBit hfit, hsize]
    by_cases hk : k < 1
    · obtain rfl : k = 0 := by omega
      cases bit raw (sig.bitAt 0) <;> rfl
    · have hone : 1 ≤ k := by omega
      have htwo : 2 ^ 1 ≤ 2 ^ k := Nat.pow_le_pow_right (by decide) hone
      have hlt : (bit raw (sig.bitAt 0)).toNat < 2 ^ k := (Bool.toNat_lt _).trans_le htwo
      rw [Nat.testBit_lt_two_pow hlt]
      simp [hk]
  rw [hplain.parse, hraw, ofBool_eq]

theorem ofBool_inj {a b : Bool} : ofBool a = ofBool b ↔ a = b := by
  cases a <;> cases b <;> simp [ofBool]

theorem crzActive_packet (raw : List UInt8) :
    Safety.crzActive (crzCtrlPacket raw) = bit raw 3 := by
  have hbyte : (crzCtrlPacket raw).data[0] = raw.getD 0 0 := by
    simp [crzCtrlPacket, Safety.CANPacket.eightBytes]
  change ((crzCtrlPacket raw).data[0].toNat >>> 3 &&& 1 != 0) = (raw.getD 0 0).toNat.testBit 3
  rw [hbyte, Nat.testBit, Nat.and_comm]

/-- A frame that does not announce an active cruise passes the hook in every state. -/
theorem crzCtrl_approved {raw : List UInt8} (hlen : 8 ≤ raw.length)
    (hactive : parseSignal raw crzActive = 0) (ts : UInt32) (v : Vars) :
    (mazdaTxHook ts (crzCtrlPacket raw) v).1 = true := by
  have hbit : Safety.crzActive (crzCtrlPacket raw) = false := by
    have hfit : crzActive.Fits 8 := by decide
    have hplace : crzActive.bitAt 0 = 3 := by decide
    rw [parseSignal_bit (hfit.mono hlen) (by decide) rfl, hplace] at hactive
    rw [crzActive_packet]
    exact ofBool_inj.1 hactive
  have hmain : (crzCtrlPacket raw).bus.toNat = mazdaMain := rfl
  have haddr : (crzCtrlPacket raw).addr.toNat = mazdaCrzCtrl := rfl
  have hlkas : mazdaCrzCtrl ≠ mazdaLkas := by decide
  have hinfo : (mazdaCrzCtrl == mazdaCrzInfo) = false := by decide
  have huds : (mazdaCrzCtrl == mazdaRadarUds) = false := by decide
  have hbtns : (mazdaCrzCtrl == mazdaCrzBtns) = false := by decide
  refine (mazdaTxHook_main hmain).2 ⟨fun h => absurd (haddr.symm.trans h) hlkas, ?_⟩
  simp only [mazdaTxRefused, haddr, hinfo, huds, hbtns, hbit, Bool.and_false, Bool.false_and,
    Bool.or_false]

/-- MSG_1_COPY is the radar's bit, or clear as in every template. -/
theorem buildCrzCtrl_msg1Copy (calls : List Observation) (f : CtrlFlags) :
    parseSignal (buildCrzCtrl (memory calls) f) msg1Copy =
      match lastObserved (lastAvailable calls) calls with
      | some raw => ofBool (bit raw 9)
      | none => 0 := by
  have hplace : msg1Copy.bitAt 0 = 9 := by decide
  have hfit : msg1Copy.Fits 8 := by decide
  have htemplate : ∀ profile, bit (crzCtrlTemplates profile) 9 = false := by
    intro profile
    cases profile <;> rfl
  have hlen : 8 ≤ (buildCrzCtrl (memory calls) f).length := by
    rw [buildCrzCtrl_eq, patchAll_length]
    exact crzCtrlBase_length _ _
  rw [parseSignal_bit (hfit.mono hlen) (by decide) rfl, hplace,
    buildCrzCtrl_other _ _ (by decide) (by decide), crzCtrlBase_bit _ _ (by decide) (by decide),
    htemplate, htemplate, ← memory_current]
  cases (memory calls).observedCrzCtrl (memory calls).cruiseAvailable with
  | none => rfl
  | some observedFull => simp

/-- All of this holds of a frame exactly when the radar's frame that it derives from, if there is
one, has MSG_1_COPY clear. -/
theorem crzCtrl_engagement_iff (calls : List Observation) (f : CtrlFlags) :
    EngagementBits (buildCrzCtrl (memory calls) f) f ↔
      ∀ raw, lastObserved (lastAvailable calls) calls = some raw → bit raw 9 = false := by
  have hcopy := buildCrzCtrl_msg1Copy calls f
  have hlen : 8 ≤ (buildCrzCtrl (memory calls) f).length := by
    rw [buildCrzCtrl_eq, patchAll_length]
    exact crzCtrlBase_length _ _
  constructor
  · intro h raw hraw
    rw [h.msg1Copy, hraw] at hcopy
    have hzero : ofBool false = ofBool (bit raw 9) := hcopy
    exact (ofBool_inj.1 hzero).symm
  · intro h
    refine ⟨buildCrzCtrl_msg1 _ f, buildCrzCtrl_msg1Inv _ f, ?_, buildCrzCtrl_msg1InvCopy _ f,
      buildCrzCtrl_crzActive _ f, buildCrzCtrl_accActive2 _ f, buildCrzCtrl_disableTimer1 _ f,
      buildCrzCtrl_disableTimer2 _ f, fun hidle ts v => crzCtrl_approved hlen ?_ ts v⟩
    · rw [hcopy]
      split
      · next raw hraw =>
        rw [h raw hraw]
        rfl
      · rfl
    · rw [buildCrzCtrl_crzActive, hidle]
      rfl

/-- A radar frame with MSG_1_COPY set. -/
def copySet : List UInt8 := [0x03, 0x02, 0x13, 0x00, 0x00, 0x01, 0x00, 0x00]

theorem engagement_copySet :
    ¬ EngagementBits (buildCrzCtrl (memory [.crzCtrl copySet, .cruiseAvailable true])
        { longActive := false, leadVisible := false, holdRequest := false, holdLatched := false })
      { longActive := false, leadVisible := false, holdRequest := false, holdLatched := false } := by
  intro h
  have hcopy := h.msg1Copy
  have hlast : lastObserved (lastAvailable [.crzCtrl copySet, .cruiseAvailable true])
      [.crzCtrl copySet, .cruiseAvailable true] = some copySet := rfl
  rw [buildCrzCtrl_msg1Copy, hlast] at hcopy
  exact absurd hcopy one_ne_zero

/-! ## The lead -/

/-- Distance and ACC_GAS_MAYBE2 agree with the phase, and with the lead flag. -/
structure LeadConsistent (raw : List UInt8) (f : CtrlFlags) : Prop where
  noLead : parseSignal raw radarHasLead = 0 → parseSignal raw radarLeadRelativeDistance = 0
  hold : parseSignal raw radarHasLead = 1 → f.crzHoldPassive || f.crzHoldLatched →
    parseSignal raw radarLeadRelativeDistance = 4 ∧ parseSignal raw accGasMaybe2 = 0
  stopGo : parseSignal raw radarHasLead = 1 → ¬ (f.crzHoldPassive || f.crzHoldLatched) →
    f.holdRequest || f.crzResumeActive →
    parseSignal raw radarLeadRelativeDistance = 3 ∧ parseSignal raw accGasMaybe2 = 1
  follow : parseSignal raw radarHasLead = 1 → ¬ (f.crzHoldPassive || f.crzHoldLatched) →
    ¬ (f.holdRequest || f.crzResumeActive) → parseSignal raw radarLeadRelativeDistance = 2

/-- ACC_GAS_MAYBE2 repeats the low bit of the distance. -/
def repeatsLow (distance gas : Nat) : Prop :=
  ∀ k < radarLeadRelativeDistance.size,
    overlay gas (intBit distance k) (accGasMaybe2.index (radarLeadRelativeDistance.bitAt k)) =
      intBit distance k

instance (distance gas : Nat) : Decidable (repeatsLow distance gas) := by
  unfold repeatsLow
  infer_instance

section Lead

variable (m : CtrlMemory) (f : CtrlFlags)

theorem buildCrzCtrl_distance {distance gas : Nat}
    (hlead : leadPatches f =
      [(radarLeadRelativeDistance, (distance : Rat)), (accGasMaybe2, (gas : Rat))])
    (hdistance : distance < 8) (hgas : gas < 2) (hsame : repeatsLow distance gas) :
    parseSignal (buildCrzCtrl m f) radarLeadRelativeDistance = distance ∧
      parseSignal (buildCrzCtrl m f) accGasMaybe2 = gas := by
  have hplain : radarLeadRelativeDistance.Plain ∧ accGasMaybe2.Plain := ⟨⟨rfl, rfl⟩, rfl, rfl⟩
  have hquad : ∀ sig ∈ [radarLeadRelativeDistance, accGasMaybe2], ∀ p ∈ quadPatches,
      p.1.Apart sig := by decide
  constructor
  · refine parseSignal_plain hplain.1 hdistance ?_
    have hbase := crzCtrlBase_length m (selectProfile f.longActive f.hasLead f.holdRequest
      f.crzHoldLatched)
    have hfit := ctrlPatches_fit f hbase
    rw [ctrlPatches, hlead] at hfit
    rw [buildCrzCtrl_eq, ctrlPatches, hlead, patchAll_append, patchAll_append, patchAll_cons,
      patchAll_cons, patchAll_nil]
    have hbefore : (patchAll (crzCtrlBase m (selectProfile f.longActive f.hasLead f.holdRequest
        f.crzHoldLatched)) (engagementPatches f)).length =
        (crzCtrlBase m (selectProfile f.longActive f.hasLead f.holdRequest
          f.crzHoldLatched)).length := patchAll_length _ _
    have hdist : radarLeadRelativeDistance.Fits (patchAll (crzCtrlBase m (selectProfile
        f.longActive f.hasLead f.holdRequest f.crzHoldLatched)) (engagementPatches f)).length := by
      rw [hbefore]
      exact hfit (radarLeadRelativeDistance, (distance : Rat)) (by simp)
    have hgasFit : accGasMaybe2.Fits (patchAll (crzCtrlBase m (selectProfile
        f.longActive f.hasLead f.holdRequest f.crzHoldLatched)) (engagementPatches f)).length := by
      rw [hbefore]
      exact hfit (accGasMaybe2, (gas : Rat)) (by simp)
    rw [getRawValue_patchAll_other ?_ ?_ (hquad _ (by simp)), patchSignal_eq, patchSignal_eq,
      encode_plain hplain.1, encode_plain hplain.2, getRawValue_setValue_repeat hdist hgasFit hsame]
    · intro p hp
      rw [patchSignal_length, patchSignal_length, hbefore]
      exact hfit p (by simp [hp])
    · rwa [patchSignal_length, patchSignal_length]
  · refine parseSignal_plain hplain.2 hgas ?_
    have hsplit : ctrlPatches f = (engagementPatches f ++
        [(radarLeadRelativeDistance, (distance : Rat))]) ++
          (accGasMaybe2, (gas : Rat)) :: quadPatches := by
      rw [ctrlPatches, hlead]
      simp
    exact buildCrzCtrl_patch m f hsplit (hquad _ (by simp))

/-- Without a lead, outside the phases of a stop. -/
theorem buildCrzCtrl_noDistance (hlead : leadPatches f = [(radarLeadRelativeDistance, 0)]) :
    parseSignal (buildCrzCtrl m f) radarLeadRelativeDistance = 0 := by
  have hquad : ∀ p ∈ quadPatches, p.1.Apart radarLeadRelativeDistance := by decide
  have hsplit : ctrlPatches f =
      engagementPatches f ++ (radarLeadRelativeDistance, ((0 : Nat) : Rat)) :: quadPatches := by
    rw [ctrlPatches, hlead]
    simp
  have hplain : radarLeadRelativeDistance.Plain := ⟨rfl, rfl⟩
  have hzero := parseSignal_plain hplain (by decide) (buildCrzCtrl_patch m f hsplit hquad)
  simpa using hzero

/-- While the car plainly follows, the distance is that of the base. -/
theorem buildCrzCtrl_followDistance (hlead : leadPatches f = []) :
    parseSignal (buildCrzCtrl m f) radarLeadRelativeDistance =
      getRawValue (crzCtrlBase m (selectProfile f.longActive f.hasLead f.holdRequest
        f.crzHoldLatched)) radarLeadRelativeDistance := by
  have hplain : radarLeadRelativeDistance.Plain := ⟨rfl, rfl⟩
  have hapart : ∀ sig ∈ [crzActive, accActive2, disableTimer1, disableTimer2, radarHasLead, msg1,
      msg1Inv, msg1InvCopy], sig.Apart radarLeadRelativeDistance := by decide
  have hbase := crzCtrlBase_length m (selectProfile f.longActive f.hasLead f.holdRequest
    f.crzHoldLatched)
  have hfit : radarLeadRelativeDistance.Fits 8 := ctrlSignals_fit _ (by simp [ctrlSignals])
  rw [hplain.parse, buildCrzCtrl_eq]
  congr 1
  refine getRawValue_patchAll_other (ctrlPatches_fit f hbase) (hfit.mono hbase) fun p hp => ?_
  refine hapart p.1 ?_
  have hsig := List.mem_map_of_mem (f := Prod.fst) hp
  rw [ctrlPatches, hlead, List.nil_append, List.map_append] at hsig
  exact hsig

end Lead

theorem followBase_middle (m : CtrlMemory) : bit (crzCtrlBase m .engagedFollow) 30 = true := by
  have hmiddle : bit (crzCtrlTemplates .standby) 30 = false ∧
      bit (crzCtrlTemplates .engagedFollow) 30 = true := ⟨rfl, rfl⟩
  rw [crzCtrlBase_bit m _ (by omega) (by omega), hmiddle.1, hmiddle.2]
  split <;> rfl

/-- Of the distance's bits the follow profile sets the middle one, the others are the radar's. -/
theorem followBase_distance (m : CtrlMemory) :
    getRawValue (crzCtrlBase m .engagedFollow) radarLeadRelativeDistance = 2 ↔
      ∀ observedFull, m.observedCrzCtrl m.cruiseAvailable = some observedFull →
        bit observedFull.val 29 = false ∧ bit observedFull.val 31 = false := by
  have hfit : radarLeadRelativeDistance.Fits (crzCtrlBase m .engagedFollow).length :=
    (ctrlSignals_fit _ (by simp [ctrlSignals])).mono (crzCtrlBase_length _ _)
  have hsize : radarLeadRelativeDistance.size = 3 := rfl
  have hplace : radarLeadRelativeDistance.bitAt 0 = 29 ∧ radarLeadRelativeDistance.bitAt 1 = 30 ∧
      radarLeadRelativeDistance.bitAt 2 = 31 := by decide
  have hlow : bit (crzCtrlTemplates .standby) 29 = false ∧
      bit (crzCtrlTemplates .engagedFollow) 29 = false := ⟨rfl, rfl⟩
  have hhigh : bit (crzCtrlTemplates .standby) 31 = false ∧
      bit (crzCtrlTemplates .engagedFollow) 31 = false := ⟨rfl, rfl⟩
  have hlowRadar : bit (crzCtrlBase m .engagedFollow) 29 =
      match m.observedCrzCtrl m.cruiseAvailable with
      | some observedFull => bit observedFull.val 29
      | none => false := by
    rw [crzCtrlBase_bit m _ (by omega) (by omega), hlow.1, hlow.2]
    rfl
  have hhighRadar : bit (crzCtrlBase m .engagedFollow) 31 =
      match m.observedCrzCtrl m.cruiseAvailable with
      | some observedFull => bit observedFull.val 31
      | none => false := by
    rw [crzCtrlBase_bit m _ (by omega) (by omega), hhigh.1, hhigh.2]
    rfl
  have hbits : getRawValue (crzCtrlBase m .engagedFollow) radarLeadRelativeDistance = 2 ↔
      bit (crzCtrlBase m .engagedFollow) 29 = false ∧
        bit (crzCtrlBase m .engagedFollow) 31 = false := by
    constructor
    · intro htwo
      have hzero := getRawValue_testBit hfit 0
      have hthird := getRawValue_testBit hfit 2
      rw [htwo, hsize, hplace.1] at hzero
      rw [htwo, hsize, hplace.2.2] at hthird
      have htwoBits : Nat.testBit 2 0 = false ∧ Nat.testBit 2 2 = false := ⟨rfl, rfl⟩
      rw [htwoBits.1] at hzero
      rw [htwoBits.2] at hthird
      exact ⟨hzero.symm, hthird.symm⟩
    · rintro ⟨hzero, hthird⟩
      refine Nat.eq_of_testBit_eq fun k => ?_
      rw [getRawValue_testBit hfit, hsize]
      match k with
      | 0 =>
        rw [hplace.1, hzero]
        rfl
      | 1 =>
        rw [hplace.2.1, followBase_middle]
        rfl
      | 2 =>
        rw [hplace.2.2, hthird]
        rfl
      | k + 3 =>
        have hlt : 2 < 2 ^ (k + 3) := by
          have hpow : 2 ^ 3 ≤ 2 ^ (k + 3) := Nat.pow_le_pow_right (by omega) (by omega)
          omega
        rw [Nat.testBit_lt_two_pow hlt]
        simp
  rw [hbits, hlowRadar, hhighRadar]
  cases m.observedCrzCtrl m.cruiseAvailable with
  | none => simp
  | some observedFull => simp

/-- The phase of plain following: a lead, and no stop or resume. -/
def CtrlFlags.plainFollowing (f : CtrlFlags) : Bool :=
  f.hasLead && !(f.crzHoldPassive || f.crzHoldLatched) && !(f.holdRequest || f.crzResumeActive)

section Phases

variable {f : CtrlFlags}

theorem ofBool_ne : ofBool true ≠ 0 ∧ ofBool false ≠ 1 := ⟨one_ne_zero, zero_ne_one⟩

/-- Latched or passive hold. -/
theorem lead_hold (m : CtrlMemory) (hhold : f.crzHoldPassive || f.crzHoldLatched) :
    LeadConsistent (buildCrzCtrl m f) f := by
  have hdist := @buildCrzCtrl_distance m f 4 0 (by simp [leadPatches, hhold]) (by omega) (by omega)
    (by decide)
  have hlead : f.hasLead = true := by
    unfold CtrlFlags.hasLead
    grind
  have hflag := buildCrzCtrl_radarHasLead m f
  rw [hlead] at hflag
  refine ⟨fun h => ?_, fun _ _ => by simpa using hdist, fun _ h => absurd hhold h,
    fun _ h => absurd hhold h⟩
  exact absurd (hflag.symm.trans h) ofBool_ne.1

/-- Active stop-go or resume: the distance says that there is a lead. -/
theorem lead_stopGo_iff (m : CtrlMemory) (hhold : ¬ (f.crzHoldPassive || f.crzHoldLatched))
    (hstop : f.holdRequest || f.crzResumeActive) :
    LeadConsistent (buildCrzCtrl m f) f ↔ f.hasLead = true := by
  have hdist := @buildCrzCtrl_distance m f 3 1 (by simp [leadPatches, hhold, hstop]) (by omega)
    (by omega) (by decide)
  have hflag := buildCrzCtrl_radarHasLead m f
  constructor
  · intro h
    by_contra hnone
    rw [Bool.not_eq_true] at hnone
    rw [hnone] at hflag
    have hzero := h.noLead hflag
    rw [hdist.1] at hzero
    norm_num at hzero
  · intro hlead
    rw [hlead] at hflag
    refine ⟨fun h => ?_, fun _ h => absurd h hhold, fun _ _ _ => by simpa using hdist,
      fun _ _ h => absurd hstop h⟩
    exact absurd (hflag.symm.trans h) ofBool_ne.1

/-- No lead and no stop. -/
theorem lead_none (m : CtrlMemory) (hhold : ¬ (f.crzHoldPassive || f.crzHoldLatched))
    (hstop : ¬ (f.holdRequest || f.crzResumeActive)) (hlead : f.hasLead = false) :
    LeadConsistent (buildCrzCtrl m f) f := by
  have hdist := buildCrzCtrl_noDistance m f (by simp [leadPatches, hhold, hstop, hlead])
  have hflag := buildCrzCtrl_radarHasLead m f
  rw [hlead] at hflag
  have hnot : ¬ parseSignal (buildCrzCtrl m f) radarHasLead = 1 :=
    fun h => absurd (hflag.symm.trans h) ofBool_ne.2
  exact ⟨fun _ => hdist, fun h => absurd h hnot, fun h => absurd h hnot, fun h => absurd h hnot⟩

theorem selectProfile_follow (hlong : f.longActive = true)
    (hstop : ¬ (f.holdRequest || f.crzResumeActive)) (hlead : f.hasLead = true) :
    selectProfile f.longActive f.hasLead f.holdRequest f.crzHoldLatched = .engagedFollow := by
  have hrequest : f.holdRequest = false := by
    simp only [Bool.or_eq_true, not_or, Bool.not_eq_true] at hstop
    exact hstop.1
  rw [hlong, hlead, hrequest]
  rfl

/-- Plain following. -/
theorem lead_follow_iff (m : CtrlMemory) (hlong : f.longActive = true)
    (hhold : ¬ (f.crzHoldPassive || f.crzHoldLatched))
    (hstop : ¬ (f.holdRequest || f.crzResumeActive)) (hlead : f.hasLead = true) :
    LeadConsistent (buildCrzCtrl m f) f ↔
      ∀ observedFull, m.observedCrzCtrl m.cruiseAvailable = some observedFull →
        bit observedFull.val 29 = false ∧ bit observedFull.val 31 = false := by
  have hdist := buildCrzCtrl_followDistance m f (by simp [leadPatches, hhold, hstop, hlead])
  have hflag := buildCrzCtrl_radarHasLead m f
  rw [selectProfile_follow hlong hstop hlead] at hdist
  rw [hlead] at hflag
  have htwo : parseSignal (buildCrzCtrl m f) radarLeadRelativeDistance = 2 ↔
      getRawValue (crzCtrlBase m .engagedFollow) radarLeadRelativeDistance = 2 := by
    rw [hdist]
    norm_cast
  rw [← followBase_distance m, ← htwo]
  constructor
  · intro h
    exact h.follow hflag hhold hstop
  · intro h
    refine ⟨fun h => ?_, fun _ h => absurd h hhold, fun _ _ h => absurd h hstop, fun _ _ _ => h⟩
    exact absurd (hflag.symm.trans h) ofBool_ne.1

/-- Only the phases of a hold show the distance 4. -/
theorem distance_ne_four (m : CtrlMemory) (hlong : f.longActive = true)
    (hhold : ¬ (f.crzHoldPassive || f.crzHoldLatched)) :
    parseSignal (buildCrzCtrl m f) radarLeadRelativeDistance ≠ 4 := by
  by_cases hstop : f.holdRequest || f.crzResumeActive
  · have hdist := @buildCrzCtrl_distance m f 3 1 (by simp [leadPatches, hhold, hstop]) (by omega)
      (by omega) (by decide)
    intro hfour
    rw [hdist.1] at hfour
    have hthree : (3 : Nat) = 4 := by exact_mod_cast hfour
    omega
  · cases hlead : f.hasLead with
    | false =>
      rw [buildCrzCtrl_noDistance m f (by simp [leadPatches, hhold, hstop, hlead])]
      norm_num
    | true =>
      have hprofile := selectProfile_follow hlong hstop hlead
      rw [buildCrzCtrl_followDistance m f (by simp [leadPatches, hhold, hstop, hlead]), hprofile]
      -- The follow profile sets the middle bit, which 4 has clear.
      have hfit : radarLeadRelativeDistance.Fits (crzCtrlBase m .engagedFollow).length :=
        (ctrlSignals_fit _ (by simp [ctrlSignals])).mono (crzCtrlBase_length _ _)
      have hplace : radarLeadRelativeDistance.bitAt 1 = 30 := by decide
      have hmiddle := getRawValue_testBit hfit 1
      rw [hplace, followBase_middle] at hmiddle
      intro hfour
      have hraw : getRawValue (crzCtrlBase m .engagedFollow) radarLeadRelativeDistance = 4 := by
        exact_mod_cast hfour
      rw [hraw] at hmiddle
      exact absurd hmiddle (by decide)

end Phases

/-- An engaged frame is consistent about the lead exactly when a resume happens behind a lead only
and, in plain following, the radar's frame that it derives from has no other distance bit set. -/
theorem crzCtrl_lead_iff (calls : List Observation) (f : CtrlFlags) (hlong : f.longActive = true) :
    LeadConsistent (buildCrzCtrl (memory calls) f) f ↔
      (f.crzResumeActive = true → f.hasLead = true) ∧
        (f.plainFollowing = true → ∀ raw, lastObserved (lastAvailable calls) calls = some raw →
          bit raw 29 = false ∧ bit raw 31 = false) := by
  have hremembered : (∀ observedFull,
      (memory calls).observedCrzCtrl (memory calls).cruiseAvailable = some observedFull →
        bit observedFull.val 29 = false ∧ bit observedFull.val 31 = false) ↔
      ∀ raw, lastObserved (lastAvailable calls) calls = some raw →
        bit raw 29 = false ∧ bit raw 31 = false := by
    rw [← memory_current]
    cases (memory calls).observedCrzCtrl (memory calls).cruiseAvailable with
    | none => simp
    | some observedFull => simp
  by_cases hhold : f.crzHoldPassive || f.crzHoldLatched
  · have hlead : f.hasLead = true := by
      unfold CtrlFlags.hasLead
      grind
    simp [lead_hold (memory calls) hhold, hlead, CtrlFlags.plainFollowing, hhold]
  · by_cases hstop : f.holdRequest || f.crzResumeActive
    · rw [lead_stopGo_iff _ hhold hstop]
      have hrequest : f.holdRequest = true → f.hasLead = true := by
        intro h
        simp [CtrlFlags.hasLead, h]
      have hnot : ¬ f.plainFollowing = true := by simp [CtrlFlags.plainFollowing, hstop]
      constructor
      · intro hlead
        exact ⟨fun _ => hlead, fun h => absurd h hnot⟩
      · rintro ⟨hresume, -⟩
        exact (Bool.or_eq_true_iff.1 hstop).elim hrequest hresume
    · have hresume : ¬ f.crzResumeActive = true := by
        simp only [Bool.or_eq_true, not_or] at hstop
        exact hstop.2
      cases hlead : f.hasLead with
      | false => simp [lead_none (memory calls) hhold hstop hlead, CtrlFlags.plainFollowing, hlead,
          hresume]
      | true =>
        have hfollowing : f.plainFollowing = true := by
          simp [CtrlFlags.plainFollowing, hhold, hstop, hlead]
        rw [lead_follow_iff _ hlong hhold hstop hlead, hremembered]
        simp [hfollowing]

def followFlags : CtrlFlags :=
  { longActive := true, leadVisible := true, holdRequest := false, holdLatched := false }

def resumeFlags : CtrlFlags :=
  { longActive := true, leadVisible := false, holdRequest := false, holdLatched := false,
    crzResumeActive := true }

/-- A radar frame with a lead distance of 5, and one with a distance of 2. -/
def farLead : List UInt8 := [0x03, 0x00, 0x93, 0xa0, 0x00, 0x01, 0x00, 0x00]

def nearLead : List UInt8 := [0x03, 0x00, 0x93, 0x40, 0x00, 0x01, 0x00, 0x00]

/-- The last frame before the follow is the near one. -/
def nearLast : List Observation :=
  [.crzCtrl farLead, .cruiseAvailable true, .crzCtrl nearLead]

theorem lead_follow_near :
    LeadConsistent (buildCrzCtrl (memory nearLast) followFlags) followFlags := by
  refine (crzCtrl_lead_iff nearLast followFlags rfl).2 ⟨fun _ => rfl, fun _ raw hraw => ?_⟩
  have hlast : lastObserved (lastAvailable nearLast) nearLast = some nearLead := by decide +kernel
  rw [hlast] at hraw
  cases hraw
  decide

/-- A resume without a lead, and plain following after a frame with a far lead. -/
theorem lead_contradictions :
    ¬ LeadConsistent (buildCrzCtrl (memory []) resumeFlags) resumeFlags ∧
      ¬ LeadConsistent (buildCrzCtrl (memory [.crzCtrl farLead, .cruiseAvailable true])
        followFlags) followFlags := by
  constructor
  · rw [lead_stopGo_iff _ (by simp [resumeFlags]) (by simp [resumeFlags])]
    simp [resumeFlags, CtrlFlags.hasLead]
  · rw [lead_follow_iff _ rfl (by simp [followFlags]) (by simp [followFlags]) rfl]
    intro h
    have hremembered : ((memory [.crzCtrl farLead, .cruiseAvailable true]).observedCrzCtrl
        (memory [.crzCtrl farLead, .cruiseAvailable true]).cruiseAvailable) =
          some ⟨farLead, le_refl 8⟩ := rfl
    have hbit : bit farLead 29 = true := rfl
    have hclear := (h _ hremembered).1
    rw [hbit] at hclear
    cases hclear

end Longitudinal
end MazdaPort
