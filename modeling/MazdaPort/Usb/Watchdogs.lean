import MazdaPort.Lib.Run
import MazdaPort.Usb.Resync
import Mathlib.Algebra.Order.Ring.Rat
import Mathlib.Tactic.Linarith

/-!
# MazdaPort.Usb.Watchdogs

`UsbPanda._recv_resync` with the watchdogs behind the parse loop: the wrong-lock detector, the
rate-collapse watchdog, the wedge detector and the stall watchdog. Two of them reset the board.

`hwRate_sameEpoch_iff`: the wedge detector compares counters across a reset exactly when it reset
the board itself and the wrong-lock detector has not done so since. `_board_reset` clears the
baseline, but the wedge detector stores the reading it has just judged after the reset.
-/

namespace MazdaPort
namespace Usb

open Framing

/-! ## State -/

structure Limits where
  maxDrainReads : Nat
  lockMaxIds : Nat

/-- A reading of `total_rx_cnt`. `epoch` says how many times the board had been reset before it; no
decision reads it. -/
structure Reading where
  totalRxCnt : Nat
  epoch : Nat
  deriving DecidableEq, Repr

/-- `lockAddrs` is a set, without duplicates. `resets` counts the calls of `_board_reset`; no
decision reads it. -/
structure UsbPanda where
  rx : Receiver Decoder UInt8
  desyncCount : Nat
  lockAddrs : List Nat
  lockFrames : Nat
  lockBad : Nat
  lockT0 : ℚ
  lastFrameT : ℚ
  stallRecoveries : Nat
  winT0 : ℚ
  winN : Nat
  peakRate : ℚ
  lastSoftResetT : ℚ
  lastBoardResetT : ℚ
  rateRecoveries : Nat
  hwCheckT : ℚ
  hwLast : Option Reading
  hwN : Nat
  wedgeRecoveries : Nat
  frozenWindows : Nat
  resets : Nat

def UsbPanda.init (monotonic : ℚ) : UsbPanda :=
  { rx := fresh
    desyncCount := 0
    lockAddrs := []
    lockFrames := 0
    lockBad := 0
    lockT0 := monotonic
    lastFrameT := 0
    stallRecoveries := 0
    winT0 := 0
    winN := 0
    peakRate := 0
    lastSoftResetT := 0
    lastBoardResetT := 0
    rateRecoveries := 0
    hwCheckT := 0
    hwLast := none
    hwN := 0
    wedgeRecoveries := 0
    frozenWindows := 0
    resets := 0 }

/-- What a call meets: the bulk reads, two readings of the clock, the counter of `can_health(0)` and
the health record, the last two absent if their request fails. -/
structure Inputs where
  bulkReads : List (List UInt8)
  nowLk : ℚ
  now : ℚ
  totalRxCnt : Option Nat
  health : Option (List UInt8)

/-- A bulk read may raise, and then the call ends with it. -/
inductive Call where
  | raises
  | drains (x : Inputs)

/-! ## Watchdogs -/

def dropTail (s : UsbPanda) : UsbPanda := { s with rx := { s.rx with buf := [] } }

def boardReset (s : UsbPanda) : UsbPanda :=
  { dropTail s with
    hwLast := none
    hwN := 0
    resets := s.resets + 1 }

/-- The health record has 58 bytes; the two ignition bytes come after eight words. -/
def ignitionOn : Option (List UInt8) → Bool
  | none => false
  | some hh => 58 ≤ hh.length && (hh.getD 32 0 != 0 || hh.getD 33 0 != 0)

def capTail (s : UsbPanda) : UsbPanda :=
  if s.rx.buf.length > 65536 then { dropTail s with desyncCount := s.desyncCount + 1 } else s

def noteFrames (out : List Frame) (s : UsbPanda) : UsbPanda :=
  { s with
    lockAddrs := out.foldl (fun addrs f => addrs.insert f.addr) s.lockAddrs
    lockFrames := s.lockFrames + out.length }

def lockWindowS : ℚ := 1

def WrongLock (lim : Limits) (s : UsbPanda) : Prop :=
  s.lockFrames ≥ 200 ∧ s.lockAddrs.length > lim.lockMaxIds

instance (lim : Limits) (s : UsbPanda) : Decidable (WrongLock lim s) :=
  inferInstanceAs (Decidable (_ ∧ _))

def wrongLockDetector (lim : Limits) (nowLk : ℚ) (out : List Frame) (s : UsbPanda) : UsbPanda :=
  let s := noteFrames out s
  if nowLk - s.lockT0 ≥ lockWindowS then
    let s :=
      if WrongLock lim s then
        let s : UsbPanda :=
          { dropTail s with
            desyncCount := s.desyncCount + 1
            lockBad := s.lockBad + 1 }
        if s.lockBad ≥ 3 then boardReset { s with lockBad := 0 } else s
      else { s with lockBad := 0 }
    { s with
      lockAddrs := []
      lockFrames := 0
      lockT0 := nowLk }
  else s

def rateCollapseWatchdog (now : ℚ) (out : List Frame) (s : UsbPanda) : UsbPanda :=
  let s := { s with winN := s.winN + out.length }
  if s.winT0 = 0 then { s with winT0 := now }
  else if now - s.winT0 ≥ 5 then
    let rate := s.winN / (now - s.winT0)
    let s := { s with peakRate := max s.peakRate rate }
    let s :=
      if s.peakRate > 200 ∧ rate < 1 / 5 * s.peakRate ∧ now - s.lastSoftResetT > 10 then
        { dropTail s with
          rateRecoveries := s.rateRecoveries + 1
          lastSoftResetT := now }
      else s
    { s with
      winT0 := now
      winN := 0 }
  else s

def Wedged (hwRate hostRate : ℚ) : Prop := hwRate > 200 ∧ hostRate < 1 / 10 * hwRate

instance (hwRate hostRate : ℚ) : Decidable (Wedged hwRate hostRate) :=
  inferInstanceAs (Decidable (_ ∧ _))

/-- The two wedge cases: frames that do not reach the host, and a core that receives none. -/
def judge (x : Inputs) (hwRate hostRate : ℚ) (s : UsbPanda) : UsbPanda :=
  if Wedged hwRate hostRate then
    if x.now - s.lastBoardResetT > 15 then
      boardReset
        { s with
          lastBoardResetT := x.now
          wedgeRecoveries := s.wedgeRecoveries + 1 }
    else s
  else if hwRate = 0 ∧ ignitionOn x.health then
    let s := { s with frozenWindows := s.frozenWindows + 1 }
    if s.frozenWindows ≥ 2 ∧ x.now - s.lastBoardResetT > 15 then
      boardReset
        { s with
          lastBoardResetT := x.now
          frozenWindows := 0
          wedgeRecoveries := s.wedgeRecoveries + 1 }
    else s
  else { s with frozenWindows := 0 }

def readCounter (x : Inputs) (s : UsbPanda) : Option Reading :=
  x.totalRxCnt.map fun n => ⟨n, s.resets⟩

def hwRate (x : Inputs) (s : UsbPanda) (hw last : Reading) : ℚ :=
  ((hw.totalRxCnt : ℚ) - last.totalRxCnt) / (x.now - s.hwCheckT)

def hostRate (x : Inputs) (s : UsbPanda) : ℚ := s.hwN / (x.now - s.hwCheckT)

/-- The baseline is stored last, whatever `judge` has done. -/
def wedgeDetector (x : Inputs) (s : UsbPanda) : UsbPanda :=
  if x.now - s.hwCheckT ≥ 5 then
    let hw := readCounter x s
    let s :=
      match hw, s.hwLast with
      | some hw, some last => judge x (hwRate x s hw last) (hostRate x s) s
      | _, _ => s
    { s with
      hwLast := hw
      hwCheckT := x.now
      hwN := 0 }
  else s

def stallWatchdog (now : ℚ) (out : List Frame) (s : UsbPanda) : UsbPanda :=
  if out ≠ [] then { s with lastFrameT := now }
  else if s.lastFrameT ≠ 0 ∧ now - s.lastFrameT > 3 then
    { dropTail s with
      stallRecoveries := s.stallRecoveries + 1
      lastFrameT := now }
  else s

/-! ## Calls -/

/-- The drain and the parse loop. -/
def decode (lim : Limits) (x : Inputs) (s : UsbPanda) : List Frame × UsbPanda :=
  let s := capTail s
  let d := recvResync lim.maxDrainReads s.rx x.bulkReads
  (d.1, { s with rx := d.2.1 })

/-- The state in which the wedge detector is entered. -/
def atDetector (lim : Limits) (x : Inputs) (s : UsbPanda) : UsbPanda :=
  let d := decode lim x s
  rateCollapseWatchdog x.now d.1 (wrongLockDetector lim x.nowLk d.1 d.2)

def recv (lim : Limits) (s : UsbPanda) : Call → UsbPanda
  | .raises => capTail s
  | .drains x =>
    let out := (decode lim x s).1
    let s := wedgeDetector x (atDetector lim x s)
    stallWatchdog x.now out { s with hwN := s.hwN + out.length }

/-! ## What the watchdogs do to the baseline -/

/-- The wrong-lock detector resets the board. -/
def LockResets (lim : Limits) (x : Inputs) (s : UsbPanda) : Prop :=
  let d := decode lim x s
  let s := noteFrames d.1 d.2
  x.nowLk - s.lockT0 ≥ lockWindowS ∧ WrongLock lim s ∧ s.lockBad + 1 ≥ 3

/-- `judge` resets the board. -/
def Recovers (x : Inputs) (hwRate hostRate : ℚ) (s : UsbPanda) : Prop :=
  x.now - s.lastBoardResetT > 15 ∧
    (Wedged hwRate hostRate ∨ (hwRate = 0 ∧ ignitionOn x.health ∧ s.frozenWindows ≥ 1))

/-- The wedge detector computes `hw_rate` from these two readings. -/
def Compares (x : Inputs) (s : UsbPanda) (hw last : Reading) : Prop :=
  x.now - s.hwCheckT ≥ 5 ∧ readCounter x s = some hw ∧ s.hwLast = some last

section Baseline

/-- The baseline, the start of its window and the resets so far. -/
def UsbPanda.hw (s : UsbPanda) : Option Reading × ℚ × Nat := (s.hwLast, s.hwCheckT, s.resets)

/-- The count of frozen windows and the start of its cooldown. -/
def UsbPanda.count (s : UsbPanda) : Nat × ℚ := (s.frozenWindows, s.lastBoardResetT)

/-- What has no part in the wedge detector: of all it goes by nothing changes, and the tail stays or
is dropped. -/
structure Spares (s t : UsbPanda) : Prop where
  hw : t.hw = s.hw
  count : t.count = s.count
  tail : t.rx.buf = s.rx.buf ∨ t.rx.buf = []

theorem capTail_spares (s : UsbPanda) : Spares s (capTail s) := by
  unfold capTail
  split
  · exact ⟨rfl, rfl, .inr rfl⟩
  · exact ⟨rfl, rfl, .inl rfl⟩

theorem rateCollapseWatchdog_spares (now : ℚ) (out : List Frame) (s : UsbPanda) :
    Spares s (rateCollapseWatchdog now out s) := by
  unfold rateCollapseWatchdog
  dsimp only
  split
  · exact ⟨rfl, rfl, .inl rfl⟩
  · split
    · split
      · exact ⟨rfl, rfl, .inr rfl⟩
      · exact ⟨rfl, rfl, .inl rfl⟩
    · exact ⟨rfl, rfl, .inl rfl⟩

theorem stallWatchdog_spares (now : ℚ) (out : List Frame) (s : UsbPanda) :
    Spares s (stallWatchdog now out s) := by
  unfold stallWatchdog
  split
  · exact ⟨rfl, rfl, .inl rfl⟩
  · split
    · exact ⟨rfl, rfl, .inr rfl⟩
    · exact ⟨rfl, rfl, .inl rfl⟩

theorem decode_hw (lim : Limits) (x : Inputs) (s : UsbPanda) : (decode lim x s).2.hw = s.hw :=
  (capTail_spares s).hw

variable {lim : Limits} {x : Inputs} {s : UsbPanda}

theorem wrongLockDetector_reset (h : LockResets lim x s) :
    (wrongLockDetector lim x.nowLk (decode lim x s).1 (decode lim x s).2).hw =
      (none, s.hwCheckT, s.resets + 1) := by
  obtain ⟨hdue, hwrong, hbad⟩ := h
  have hhw := decode_hw lim x s
  simp only [UsbPanda.hw, Prod.mk.injEq] at hhw
  unfold wrongLockDetector
  dsimp only
  rw [if_pos hdue, if_pos hwrong, if_pos hbad]
  simp only [UsbPanda.hw, boardReset, dropTail, noteFrames, hhw]

theorem wrongLockDetector_keep (h : ¬ LockResets lim x s) :
    (wrongLockDetector lim x.nowLk (decode lim x s).1 (decode lim x s).2).hw = s.hw := by
  rw [← decode_hw lim x s]
  unfold wrongLockDetector
  dsimp only
  split
  · next hdue =>
    split
    · next hwrong =>
      have hbad : ¬ (noteFrames (decode lim x s).1 (decode lim x s).2).lockBad + 1 ≥ 3 :=
        fun hbad => h ⟨hdue, hwrong, hbad⟩
      rw [if_neg hbad]
      rfl
    · rfl
  · rfl

theorem atDetector_reset (h : LockResets lim x s) :
    (atDetector lim x s).hw = (none, s.hwCheckT, s.resets + 1) := by
  unfold atDetector
  rw [(rateCollapseWatchdog_spares _ _ _).hw]
  exact wrongLockDetector_reset h

theorem atDetector_keep (h : ¬ LockResets lim x s) : (atDetector lim x s).hw = s.hw := by
  unfold atDetector
  rw [(rateCollapseWatchdog_spares _ _ _).hw]
  exact wrongLockDetector_keep h

theorem atDetector_hwCheckT : (atDetector lim x s).hwCheckT = s.hwCheckT := by
  by_cases h : LockResets lim x s
  · exact congrArg (·.2.1) (atDetector_reset h)
  · exact congrArg (·.2.1) (atDetector_keep h)

theorem judge_reset {hwRate hostRate : ℚ} (h : Recovers x hwRate hostRate s) :
    (judge x hwRate hostRate s).resets = s.resets + 1 := by
  obtain ⟨hcool, hcase⟩ := h
  unfold judge
  by_cases hwedged : Wedged hwRate hostRate
  · rw [if_pos hwedged, if_pos hcool]
    rfl
  · obtain ⟨hzero, hign, hfrozen⟩ := hcase.resolve_left hwedged
    rw [if_neg hwedged, if_pos ⟨hzero, hign⟩]
    dsimp only
    rw [if_pos ⟨by omega, hcool⟩]
    rfl

theorem judge_keep {hwRate hostRate : ℚ} (h : ¬ Recovers x hwRate hostRate s) :
    (judge x hwRate hostRate s).resets = s.resets := by
  unfold judge
  split
  · next hwedged =>
    have hcool : ¬ x.now - s.lastBoardResetT > 15 := fun hcool => h ⟨hcool, .inl hwedged⟩
    rw [if_neg hcool]
  · split
    · next hfrozen =>
      dsimp only
      split
      · next hreset =>
        have hwindows : s.frozenWindows ≥ 1 := by omega
        exact absurd ⟨hreset.2, .inr ⟨hfrozen.1, hfrozen.2, hwindows⟩⟩ h
      · rfl
    · rfl

theorem wedgeDetector_hwLast (h : x.now - s.hwCheckT ≥ 5) :
    (wedgeDetector x s).hwLast = readCounter x s := by
  unfold wedgeDetector
  rw [if_pos h]

theorem wedgeDetector_early (h : ¬ x.now - s.hwCheckT ≥ 5) : wedgeDetector x s = s := by
  unfold wedgeDetector
  rw [if_neg h]

theorem wedgeDetector_compares {hw last : Reading} (h : Compares x s hw last) :
    (wedgeDetector x s).resets = (judge x (hwRate x s hw last) (hostRate x s) s).resets := by
  obtain ⟨hdue, hread, hlast⟩ := h
  unfold wedgeDetector
  rw [if_pos hdue]
  simp only [hread, hlast]

theorem wedgeDetector_alone (h : ∀ hw last, ¬ Compares x s hw last) :
    (wedgeDetector x s).resets = s.resets := by
  unfold wedgeDetector
  split
  · next hdue =>
    dsimp only
    cases hread : readCounter x s with
    | none => rfl
    | some hw =>
      cases hlast : s.hwLast with
      | none => rfl
      | some last => exact absurd ⟨hdue, hread, hlast⟩ (h hw last)
  · rfl

theorem recv_hw : (recv lim s (.drains x)).hw = (wedgeDetector x (atDetector lim x s)).hw := by
  unfold recv
  dsimp only
  rw [(stallWatchdog_spares _ _ _).hw]
  rfl

end Baseline

/-! ## Runs -/

section Runs

variable (lim : Limits)

/-- The call computes `hw_rate`, if at all, from two readings of one epoch. -/
def SameEpoch (s : UsbPanda) : Call → Prop
  | .raises => True
  | .drains x => ∀ hw last, Compares x (atDetector lim x s) hw last → hw.epoch = last.epoch

/-- The wedge detector resets the board. -/
def WedgeResets (s : UsbPanda) : Call → Prop
  | .raises => False
  | .drains x =>
    let t := atDetector lim x s
    ∃ hw last, Compares x t hw last ∧ Recovers x (hwRate x t hw last) (hostRate x t) t

/-- No check of the wedge detector, and no reset. -/
def Quiet (s : UsbPanda) : Call → Prop
  | .raises => True
  | .drains x => ¬ LockResets lim x s ∧ ¬ x.now - s.hwCheckT ≥ 5

/-- A check of the wedge detector that can read the counter, with no reset before it in the call. -/
def Rereads (s : UsbPanda) : Call → Prop
  | .raises => False
  | .drains x => ¬ LockResets lim x s ∧ x.now - s.hwCheckT ≥ 5 ∧ x.totalRxCnt.isSome

/-- The baseline was read before the last reset. -/
def Stale (s : UsbPanda) : Prop := ∃ last, s.hwLast = some last ∧ last.epoch ≠ s.resets

variable {lim} {s : UsbPanda} {c : Call}

theorem stale_congr {s t : UsbPanda} (h : s.hw = t.hw) : Stale s ↔ Stale t := by
  simp only [UsbPanda.hw, Prod.mk.injEq] at h
  unfold Stale
  rw [h.1, h.2.2]

theorem wedgeResets_stale (h : WedgeResets lim s c) : Stale (recv lim s c) := by
  cases c with
  | raises => cases h
  | drains x =>
    obtain ⟨hw, last, hcomp, hrec⟩ := h
    rw [stale_congr recv_hw]
    obtain ⟨n, -, rfl⟩ := Option.map_eq_some_iff.1 hcomp.2.1
    refine ⟨⟨n, (atDetector lim x s).resets⟩, ?_, ?_⟩
    · rw [wedgeDetector_hwLast hcomp.1]
      exact hcomp.2.1
    · rw [wedgeDetector_compares hcomp, judge_reset hrec]
      exact Nat.ne_of_lt (Nat.lt_succ_self _)

theorem quiet_hw (h : Quiet lim s c) : (recv lim s c).hw = s.hw := by
  cases c with
  | raises => exact (capTail_spares s).hw
  | drains x =>
    obtain ⟨hlock, hearly⟩ := h
    have hkeep := atDetector_keep hlock
    rw [← @atDetector_hwCheckT lim x s] at hearly
    rw [recv_hw, wedgeDetector_early hearly, hkeep]

/-- A check without a reset leaves a baseline of the epoch it was made in; a reset of the wrong-lock
detector leaves none before the next check. -/
theorem not_stale (hwedge : ¬ WedgeResets lim s c) (hquiet : ¬ Quiet lim s c) :
    ¬ Stale (recv lim s c) := by
  cases c with
  | raises => exact absurd trivial hquiet
  | drains x =>
    rw [stale_congr recv_hw]
    rintro ⟨last, hlast, hepoch⟩
    by_cases hdue : x.now - (atDetector lim x s).hwCheckT ≥ 5
    · have hresets : (wedgeDetector x (atDetector lim x s)).resets =
          (atDetector lim x s).resets := by
        by_cases hcomp : ∃ hw last, Compares x (atDetector lim x s) hw last
        · obtain ⟨hw, base, hcomp⟩ := hcomp
          rw [wedgeDetector_compares hcomp]
          exact judge_keep fun hrec => hwedge ⟨hw, base, hcomp, hrec⟩
        · exact wedgeDetector_alone fun hw base h => hcomp ⟨hw, base, h⟩
      rw [wedgeDetector_hwLast hdue] at hlast
      obtain ⟨n, -, rfl⟩ := Option.map_eq_some_iff.1 hlast
      exact hepoch hresets.symm
    · rw [wedgeDetector_early hdue] at hlast
      have hlock : LockResets lim x s := by
        by_contra hno
        rw [atDetector_hwCheckT] at hdue
        exact hquiet ⟨hno, hdue⟩
      have hnone : (atDetector lim x s).hwLast = none := congrArg (·.1) (atDetector_reset hlock)
      rw [hnone] at hlast
      cases hlast

theorem sameEpoch_iff : SameEpoch lim s c ↔ (Stale s → ¬ Rereads lim s c) := by
  cases c with
  | raises => simp [SameEpoch, Rereads]
  | drains x =>
    by_cases hlock : LockResets lim x s
    · have hnone : (atDetector lim x s).hwLast = none := congrArg (·.1) (atDetector_reset hlock)
      simp [SameEpoch, Rereads, Compares, hnone, hlock]
    · have hkeep := atDetector_keep hlock
      simp only [UsbPanda.hw, Prod.mk.injEq] at hkeep
      obtain ⟨hlast, hcheck, hresets⟩ := hkeep
      simp only [SameEpoch, Rereads, Compares, Stale, readCounter, hlast, hcheck, hresets, hlock,
        not_false_eq_true, true_and]
      constructor
      · rintro h ⟨last, hbase, hepoch⟩ ⟨hdue, hsome⟩
        obtain ⟨n, hn⟩ := Option.isSome_iff_exists.1 hsome
        exact hepoch (h ⟨n, s.resets⟩ last ⟨hdue, by simp [hn], hbase⟩).symm
      · rintro h hw last ⟨hdue, hread, hbase⟩
        obtain ⟨n, hn, rfl⟩ := Option.map_eq_some_iff.1 hread
        by_contra hepoch
        exact h ⟨last, hbase, fun heq => hepoch heq.symm⟩ ⟨hdue, by simp [hn]⟩

variable (lim) in
/-- The baseline is stale for as long as only quiet calls follow a reset by the wedge detector. -/
theorem stale_iff (monotonic : ℚ) (cs : List Call) :
    Stale (Run.run (recv lim) (.init monotonic) cs) ↔
      Run.Since (recv lim) (WedgeResets lim) (Quiet lim) (.init monotonic) cs := by
  have hinit : ¬ Stale (.init monotonic) := by
    rintro ⟨last, hlast, -⟩
    cases hlast
  refine Run.flag_iff ?_ ?_ ?_ hinit cs
  · intro s c hwedge
    exact wedgeResets_stale hwedge
  · intro s c _ hquiet
    exact stale_congr (quiet_hw hquiet)
  · intro s c hwedge hquiet
    exact not_stale hwedge hquiet

variable (lim) in
/-- Every `hw_rate` of a run comes from one epoch exactly when no check reads the counter after the
wedge detector has reset the board, with no check and no reset of the wrong-lock detector
between. -/
theorem hwRate_sameEpoch_iff (monotonic : ℚ) (cs : List Call) :
    Run.AllSteps (recv lim) (SameEpoch lim) (.init monotonic) cs ↔
      ∀ pre c, pre ++ [c] <+: cs →
        Run.Since (recv lim) (WedgeResets lim) (Quiet lim) (.init monotonic) pre →
          ¬ Rereads lim (Run.run (recv lim) (.init monotonic) pre) c := by
  rw [Run.allSteps_iff_forall]
  constructor
  · intro h pre c hpre hsince
    exact sameEpoch_iff.1 (h pre c hpre) ((stale_iff lim monotonic pre).2 hsince)
  · intro h pre c hpre
    exact sameEpoch_iff.2 fun hstale => h pre c hpre ((stale_iff lim monotonic pre).1 hstale)

end Runs

/-! ## A wedged link -/

def stockLimits : Limits :=
  { maxDrainReads := 8
    lockMaxIds := 80 }

/-- Nothing crosses the link, and the hardware has counted `n` frames. -/
def silent (now : ℚ) (n : Nat) : Inputs :=
  { bulkReads := []
    nowLk := now
    now := now
    totalRxCnt := some n
    health := none }

def wedged : List Call := [.drains (silent 100 1000), .drains (silent 105 101000)]

def afterReset : UsbPanda := Run.run (recv stockLimits) (.init 99) wedged

/-- 20000 frames a second by the hardware and none at the host: the board is reset, and five seconds
later its new count is compared with the old one. -/
theorem stale_baseline :
    Compares (silent 110 500) (atDetector stockLimits (silent 110 500) afterReset) ⟨500, 1⟩
        ⟨101000, 0⟩ ∧
      hwRate (silent 110 500) (atDetector stockLimits (silent 110 500) afterReset) ⟨500, 1⟩
        ⟨101000, 0⟩ < 0 ∧
      ¬ Run.AllSteps (recv stockLimits) (SameEpoch stockLimits) (.init 99)
        (wedged ++ [.drains (silent 110 500)]) := by
  have hcomp : Compares (silent 110 500) (atDetector stockLimits (silent 110 500) afterReset)
      ⟨500, 1⟩ ⟨101000, 0⟩ := by
    refine ⟨?_, ?_, ?_⟩ <;> decide +kernel
  refine ⟨hcomp, by decide +kernel, ?_⟩
  intro h
  have hlast := ((Run.allSteps_snoc _).1 h).2 _ _ hcomp
  cases hlast

end Usb
end MazdaPort
