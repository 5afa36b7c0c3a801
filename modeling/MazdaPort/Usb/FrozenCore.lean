import MazdaPort.Usb.Watchdogs

/-!
# MazdaPort.Usb.FrozenCore

The checks of the wedge detector, one every five seconds, and the board resets for a frozen core,
which are meant to take two frozen windows in succession.

`frozenReset_iff`: they do exactly when no frozen window with the cooldown over comes after an
earlier one that is still counted with only wedged, unreadable or first windows, at least one of
them, between the two. `_frozen_windows` is cleared by a healthy window alone; the other three leave
it as it was.
-/

namespace MazdaPort
namespace Usb

/-! ## Checks -/

/-- What a check finds. A reading is the first one if there is no baseline to compare it with. -/
inductive Window where
  | unreadable
  | first
  | wedged
  | frozen
  | healthy
  deriving DecidableEq, Repr

/-- The window leaves `_frozen_windows` alone. -/
def Window.skips : Window → Bool
  | unreadable | first | wedged => true
  | frozen | healthy => false

def window (x : Inputs) (s : UsbPanda) : Option Window :=
  if x.now - s.hwCheckT ≥ 5 then
    some
      (match readCounter x s, s.hwLast with
      | none, _ => .unreadable
      | some _, none => .first
      | some hw, some last =>
        if Wedged (hwRate x s hw last) (hostRate x s) then .wedged
        else if hwRate x s hw last = 0 ∧ ignitionOn x.health then .frozen
        else .healthy)
  else none

/-- The cooldown of the board reset is over. -/
def Cooled (x : Inputs) (s : UsbPanda) : Prop := x.now - s.lastBoardResetT > 15

section Detector

variable {x : Inputs} {s : UsbPanda}

/-- The wedge detector resets the board in a frozen window. -/
def FiresFrozen (x : Inputs) (s : UsbPanda) : Prop := s.frozenWindows ≥ 1 ∧ Cooled x s

theorem judge_wedged {hwRate hostRate : ℚ} (h : Wedged hwRate hostRate) :
    (judge x hwRate hostRate s).frozenWindows = s.frozenWindows := by
  unfold judge
  rw [if_pos h]
  split <;> rfl

theorem not_wedged_zero {hostRate : ℚ} : ¬ Wedged 0 hostRate := by
  intro h
  have hbusy := h.1
  norm_num at hbusy

theorem judge_fires {hostRate : ℚ} (hign : ignitionOn x.health) (h : FiresFrozen x s) :
    (judge x 0 hostRate s).frozenWindows = 0 ∧ (judge x 0 hostRate s).resets = s.resets + 1 := by
  have hcount : s.frozenWindows + 1 ≥ 2 := Nat.succ_le_succ h.1
  unfold judge
  rw [if_neg not_wedged_zero, if_pos ⟨rfl, hign⟩]
  dsimp only
  rw [if_pos ⟨hcount, h.2⟩]
  exact ⟨rfl, rfl⟩

theorem judge_counts {hostRate : ℚ} (hign : ignitionOn x.health) (h : ¬ FiresFrozen x s) :
    (judge x 0 hostRate s).frozenWindows = s.frozenWindows + 1 ∧
      (judge x 0 hostRate s).resets = s.resets := by
  unfold judge
  rw [if_neg not_wedged_zero, if_pos ⟨rfl, hign⟩]
  dsimp only
  rw [if_neg fun hfire => h ⟨Nat.le_of_succ_le_succ hfire.1, hfire.2⟩]
  exact ⟨rfl, rfl⟩

theorem judge_healthy {hwRate hostRate : ℚ} (hwedged : ¬ Wedged hwRate hostRate)
    (hfrozen : ¬ (hwRate = 0 ∧ ignitionOn x.health)) :
    judge x hwRate hostRate s = { s with frozenWindows := 0 } := by
  unfold judge
  rw [if_neg hwedged, if_neg hfrozen]

/-- What a check does to the count and to the board, by what it finds. -/
theorem wedgeDetector_window (x : Inputs) (s : UsbPanda) :
    match window x s with
    | none | some .unreadable | some .first =>
      (wedgeDetector x s).frozenWindows = s.frozenWindows ∧ (wedgeDetector x s).resets = s.resets
    | some .wedged => (wedgeDetector x s).frozenWindows = s.frozenWindows
    | some .healthy => (wedgeDetector x s).frozenWindows = 0 ∧ (wedgeDetector x s).resets = s.resets
    | some .frozen =>
      (FiresFrozen x s → (wedgeDetector x s).frozenWindows = 0 ∧
          (wedgeDetector x s).resets = s.resets + 1) ∧
        (¬ FiresFrozen x s → (wedgeDetector x s).frozenWindows = s.frozenWindows + 1 ∧
          (wedgeDetector x s).resets = s.resets) := by
  unfold wedgeDetector window
  by_cases hdue : x.now - s.hwCheckT ≥ 5
  · simp only [if_pos hdue]
    cases hread : readCounter x s with
    | none => exact ⟨rfl, rfl⟩
    | some hw =>
      cases hlast : s.hwLast with
      | none => exact ⟨rfl, rfl⟩
      | some last =>
        dsimp only
        by_cases hwedged : Wedged (hwRate x s hw last) (hostRate x s)
        · rw [if_pos hwedged]
          exact judge_wedged hwedged
        · rw [if_neg hwedged]
          by_cases hfrozen : hwRate x s hw last = 0 ∧ ignitionOn x.health
          · rw [if_pos hfrozen]
            dsimp only
            rw [hfrozen.1]
            exact ⟨judge_fires hfrozen.2, judge_counts hfrozen.2⟩
          · rw [if_neg hfrozen]
            dsimp only
            rw [judge_healthy hwedged hfrozen]
            exact ⟨rfl, rfl⟩
  · simp only [if_neg hdue, and_self]

end Detector

/-! ## What the rest of a call does to the count -/

theorem wrongLockDetector_count (lim : Limits) (nowLk : ℚ) (out : List Frame) (s : UsbPanda) :
    (wrongLockDetector lim nowLk out s).count = s.count := by
  unfold wrongLockDetector
  dsimp only
  split
  · split
    · split <;> rfl
    · rfl
  · rfl

theorem atDetector_count (lim : Limits) (x : Inputs) (s : UsbPanda) :
    (atDetector lim x s).count = s.count := by
  unfold atDetector
  rw [(rateCollapseWatchdog_spares _ _ _).count, wrongLockDetector_count]
  exact (capTail_spares s).count

theorem recv_count (lim : Limits) (x : Inputs) (s : UsbPanda) :
    (recv lim s (.drains x)).count = (wedgeDetector x (atDetector lim x s)).count := by
  unfold recv
  rw [(stallWatchdog_spares _ _ _).count]
  rfl

theorem recv_frozenWindows (lim : Limits) (x : Inputs) (s : UsbPanda) :
    (recv lim s (.drains x)).frozenWindows =
      (wedgeDetector x (atDetector lim x s)).frozenWindows := congrArg (·.1) (recv_count lim x s)

theorem firesFrozen_atDetector (lim : Limits) {x : Inputs} {s : UsbPanda} :
    FiresFrozen x (atDetector lim x s) ↔ FiresFrozen x s := by
  have hcount := atDetector_count lim x s
  simp only [UsbPanda.count, Prod.mk.injEq] at hcount
  simp only [FiresFrozen, Cooled, hcount]

/-! ## Runs -/

section Runs

variable (lim : Limits)

/-- The window of the check that the call makes, if it makes one. -/
def check (s : UsbPanda) : Call → Option Window
  | .raises => none
  | .drains x => window x (atDetector lim x s)

/-- The windows of a run, in order. -/
def checks (s : UsbPanda) (cs : List Call) : List Window :=
  (Run.trace (recv lim) (check lim) s cs).filterMap id

/-- The wedge detector resets the board, and not for a wedged link. -/
def FrozenResets (s : UsbPanda) : Call → Prop
  | .raises => False
  | .drains x =>
    let t := atDetector lim x s
    (wedgeDetector x t).resets ≠ t.resets ∧ window x t ≠ some .wedged

/-- A frozen window, with the cooldown over. -/
def FrozenDue (s : UsbPanda) : Call → Prop
  | .raises => False
  | .drains x => window x (atDetector lim x s) = some .frozen ∧ Cooled x s

/-- A check that leaves an earlier frozen window counted. -/
def PassesOver (s : UsbPanda) (c : Call) : Prop :=
  s.frozenWindows ≥ 1 ∧ ∃ w, check lim s c = some w ∧ w.skips

/-- No check, or one that leaves the count alone. -/
def KeepsCount (s : UsbPanda) (c : Call) : Prop := ∀ w, check lim s c = some w → w.skips

variable {lim} {s : UsbPanda} {c : Call}

theorem checks_snoc (cs : List Call) :
    checks lim s (cs ++ [c]) =
      checks lim s cs ++ (check lim (Run.run (recv lim) s cs) c).toList := by
  unfold checks
  rw [Run.trace_snoc, List.filterMap_append]
  cases check lim (Run.run (recv lim) s cs) c <;> rfl

theorem recv_keepsCount (h : KeepsCount lim s c) :
    (recv lim s c).frozenWindows = s.frozenWindows := by
  cases c with
  | raises => exact congrArg (·.1) (capTail_spares s).count
  | drains x =>
    have hcount : (atDetector lim x s).frozenWindows = s.frozenWindows :=
      congrArg (·.1) (atDetector_count lim x s)
    have hwindow := wedgeDetector_window x (atDetector lim x s)
    rw [recv_frozenWindows, ← hcount]
    cases hw : window x (atDetector lim x s) with
    | none =>
      rw [hw] at hwindow
      exact hwindow.1
    | some w =>
      have hskips : w.skips := h w hw
      rw [hw] at hwindow
      cases w with
      | unreadable => exact hwindow.1
      | first => exact hwindow.1
      | wedged => exact hwindow
      | frozen => cases hskips
      | healthy => cases hskips

theorem recv_healthy (h : check lim s c = some .healthy) : (recv lim s c).frozenWindows = 0 := by
  cases c with
  | raises => cases h
  | drains x =>
    have hwindow := wedgeDetector_window x (atDetector lim x s)
    have hw : window x (atDetector lim x s) = some .healthy := h
    rw [hw] at hwindow
    rw [recv_frozenWindows]
    exact hwindow.1

/-- A frozen reset takes a frozen window that is due and an earlier one that is counted. -/
theorem frozenResets_iff : FrozenResets lim s c ↔ FrozenDue lim s c ∧ s.frozenWindows ≥ 1 := by
  cases c with
  | raises => simp [FrozenResets, FrozenDue]
  | drains x =>
    have hwindow := wedgeDetector_window x (atDetector lim x s)
    simp only [FrozenResets, FrozenDue]
    cases hw : window x (atDetector lim x s) with
    | none =>
      rw [hw] at hwindow
      simp [hwindow.2]
    | some w =>
      rw [hw] at hwindow
      cases w with
      | unreadable => simp [hwindow.2]
      | first => simp [hwindow.2]
      | wedged => simp
      | healthy => simp [hwindow.2]
      | frozen =>
        by_cases hfires : FiresFrozen x s
        · obtain ⟨_, hreset⟩ := hwindow.1 ((firesFrozen_atDetector lim).2 hfires)
          simp [hreset, hfires.1, hfires.2]
        · obtain ⟨_, hkeep⟩ := hwindow.2 fun hfire => hfires ((firesFrozen_atDetector lim).1 hfire)
          constructor
          · rintro ⟨hreset, -⟩
            exact absurd hkeep hreset
          · rintro ⟨⟨-, hcool⟩, hcount⟩
            exact absurd ⟨hcount, hcool⟩ hfires

/-- A window that is counted was the last one, or the ones after it have left it alone. -/
theorem last_of_counted (monotonic : ℚ) (cs : List Call)
    (h : (Run.run (recv lim) (.init monotonic) cs).frozenWindows ≥ 1) :
    ∃ ws w, checks lim (.init monotonic) cs = ws ++ [w] ∧ (w = .frozen ∨ w.skips) := by
  induction cs using List.reverseRecOn with
  | nil => exact absurd h (Nat.not_succ_le_zero 0)
  | append_singleton cs c ih =>
    rw [Run.run_snoc] at h
    rw [checks_snoc]
    cases hcheck : check lim (Run.run (recv lim) (.init monotonic) cs) c with
    | none =>
      have hkeep : KeepsCount lim (Run.run (recv lim) (.init monotonic) cs) c := by
        intro w hw
        rw [hcheck] at hw
        cases hw
      rw [recv_keepsCount hkeep] at h
      simpa using ih h
    | some w =>
      refine ⟨_, w, rfl, ?_⟩
      cases w with
      | unreadable => exact .inr rfl
      | first => exact .inr rfl
      | wedged => exact .inr rfl
      | frozen => exact .inl rfl
      | healthy =>
        rw [recv_healthy hcheck] at h
        exact absurd h (Nat.not_succ_le_zero 0)

/-- A counted window that the last check has left alone. -/
theorem since_iff (monotonic : ℚ) (cs : List Call) :
    Run.Since (recv lim) (PassesOver lim) (KeepsCount lim) (.init monotonic) cs ↔
      (Run.run (recv lim) (.init monotonic) cs).frozenWindows ≥ 1 ∧
        ∃ ws w, checks lim (.init monotonic) cs = ws ++ [w] ∧ w.skips := by
  induction cs using List.reverseRecOn with
  | nil =>
    constructor
    · rintro ⟨n, pre, e, suf, heq, -⟩
      simp at heq
    · rintro ⟨hcount, -⟩
      exact absurd hcount (Nat.not_succ_le_zero 0)
  | append_singleton cs c ih =>
    rw [Run.since_snoc, Run.run_snoc, checks_snoc]
    by_cases hkeep : KeepsCount lim (Run.run (recv lim) (.init monotonic) cs) c
    · rw [recv_keepsCount hkeep]
      cases hcheck : check lim (Run.run (recv lim) (.init monotonic) cs) c with
      | none => simp [PassesOver, hcheck, hkeep, ih]
      | some w =>
        have hskips : w.skips := hkeep w hcheck
        have hover : PassesOver lim (Run.run (recv lim) (.init monotonic) cs) c ↔
            (Run.run (recv lim) (.init monotonic) cs).frozenWindows ≥ 1 :=
          ⟨fun h => h.1, fun h => ⟨h, w, hcheck, hskips⟩⟩
        have hlast : ∃ ws w', checks lim (.init monotonic) cs ++ (some w).toList = ws ++ [w'] ∧
            w'.skips := ⟨_, w, rfl, hskips⟩
        rw [hover, ih]
        simp only [hlast, and_true]
        constructor
        · rintro (hcount | ⟨⟨hcount, -⟩, -⟩)
          · exact hcount
          · exact hcount
        · exact .inl
    · have hover : ¬ PassesOver lim (Run.run (recv lim) (.init monotonic) cs) c := by
        rintro ⟨-, w, hcheck, hskips⟩
        refine hkeep fun w' hw' => ?_
        rw [hcheck] at hw'
        cases hw'
        exact hskips
      constructor
      · rintro (h | ⟨-, h⟩)
        · exact absurd h hover
        · exact absurd h hkeep
      · rintro ⟨-, ws, w, hlast, hskips⟩
        refine absurd (fun w' hw' => ?_) hkeep
        rw [hw'] at hlast
        obtain ⟨-, hcons⟩ := List.append_inj' hlast rfl
        cases hcons
        exact hskips

variable (lim) in
/-- In a run, every reset for a frozen core follows two frozen windows in succession exactly when no
frozen window is due while an earlier one is counted that the check before has passed over. -/
theorem frozenReset_iff (monotonic : ℚ) (cs : List Call) :
    (∀ pre c, pre ++ [c] <+: cs →
        FrozenResets lim (Run.run (recv lim) (.init monotonic) pre) c →
          [.frozen, .frozen] <:+ checks lim (.init monotonic) (pre ++ [c])) ↔
      ∀ pre c, pre ++ [c] <+: cs →
        Run.Since (recv lim) (PassesOver lim) (KeepsCount lim) (.init monotonic) pre →
          ¬ FrozenDue lim (Run.run (recv lim) (.init monotonic) pre) c := by
  have hfrozen : ∀ {s c}, FrozenDue lim s c → check lim s c = some .frozen := by
    intro s c hdue
    cases c with
    | raises => cases hdue
    | drains x => exact hdue.1
  constructor
  · intro h pre c hpre hsince hdue
    obtain ⟨hcount, ws, w, hlast, hskips⟩ := (since_iff monotonic pre).1 hsince
    have htwo := h pre c hpre (frozenResets_iff.2 ⟨hdue, hcount⟩)
    rw [checks_snoc, hfrozen hdue, hlast] at htwo
    obtain ⟨us, hus⟩ := htwo
    have hw : w = .frozen := by
      have hsplit : (us ++ [.frozen]) ++ [.frozen] = (ws ++ [w]) ++ [.frozen] := by simpa using hus
      obtain ⟨hfront, -⟩ := List.append_inj' hsplit rfl
      obtain ⟨-, hcons⟩ := List.append_inj' hfront rfl
      cases hcons
      rfl
    rw [hw] at hskips
    cases hskips
  · intro h pre c hpre hreset
    obtain ⟨hdue, hcount⟩ := frozenResets_iff.1 hreset
    obtain ⟨ws, w, hlast, hw⟩ := last_of_counted monotonic pre hcount
    rw [checks_snoc, hfrozen hdue, hlast]
    rcases hw with rfl | hskips
    · exact ⟨ws, by simp⟩
    · exact absurd hdue (h pre c hpre ((since_iff monotonic pre).2 ⟨hcount, ws, w, hlast, hskips⟩))

end Runs

/-! ## Two frozen windows with a gap -/

/-- Nothing arrives, the ignition is on, and the hardware has counted `n` frames. -/
def stuck (now : ℚ) (n : Option Nat) : Call :=
  .drains
    { bulkReads := []
      nowLk := now
      now := now
      totalRxCnt := n
      health := some (List.replicate 32 0 ++ 1 :: List.replicate 25 0) }

def gap : List Call :=
  [stuck 100 (some 1000), stuck 105 (some 1000), stuck 110 none, stuck 115 (some 5000)]

/-- A frozen window, a reading that fails, 4000 frames of traffic that the next reading takes for its
baseline, and one more frozen window: the board is reset. -/
theorem gap_resets :
    checks stockLimits (.init 99) (gap ++ [stuck 120 (some 5000)]) =
        [.first, .frozen, .unreadable, .first, .frozen] ∧
      FrozenResets stockLimits (Run.run (recv stockLimits) (.init 99) gap)
        (stuck 120 (some 5000)) ∧
      ¬ ∀ pre c, pre ++ [c] <+: gap ++ [stuck 120 (some 5000)] →
        FrozenResets stockLimits (Run.run (recv stockLimits) (.init 99) pre) c →
          [.frozen, .frozen] <:+ checks stockLimits (.init 99) (pre ++ [c]) := by
  have hchecks : checks stockLimits (.init 99) (gap ++ [stuck 120 (some 5000)]) =
      [.first, .frozen, .unreadable, .first, .frozen] := by decide +kernel
  have hresets : FrozenResets stockLimits (Run.run (recv stockLimits) (.init 99) gap)
      (stuck 120 (some 5000)) := by
    refine ⟨?_, ?_⟩ <;> decide +kernel
  refine ⟨hchecks, hresets, ?_⟩
  intro h
  have htwo := h gap (stuck 120 (some 5000)) (List.prefix_refl _) hresets
  rw [hchecks] at htwo
  exact absurd htwo (by decide)

end Usb
end MazdaPort
