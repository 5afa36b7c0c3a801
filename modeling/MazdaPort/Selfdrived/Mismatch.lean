import MazdaPort.Safety.Hooks
import MazdaPort.Selfdrived.StateMachine

/-!
# MazdaPort.Selfdrived.Mismatch

`SelfdriveD` of `selfdrived.py`, as far as it watches the pandas: `data_sample` counts the cycles in
which openpilot is engaged and a panda denies control, `update_events` raises `controlsMismatch`
when there are 200 of them, and `step` hands the events to the state machine.

The counter is cleared by disengaging only, so it adds up what is denied over a whole stay.
`denied_bounded`: openpilot does not stay engaged over 200 such cycles.
-/

namespace MazdaPort
namespace Selfdrived

open Safety

structure PandaState where
  safetyModel : UInt16
  safetyParam : UInt16
  alternativeExperience : Int
  controlsAllowed : Bool
  safetyRxChecksInvalid : Bool
  relayMalfunction : Bool
  deriving DecidableEq, Repr

structure CarParams where
  /-- The safety model and the parameter of each panda. -/
  safetyConfigs : List (UInt16 × UInt16)
  alternativeExperience : Int
  passive : Bool

/-- What a cycle depends on besides the state: `ready` says that all messages are valid or that the
start has timed out, `early` are the events before the first return of `update_events`, `others`
those behind it that no panda has part in. -/
structure Cycle where
  pandaStates : List PandaState
  frame : Nat
  ready : Bool
  early : List (List ET)
  others : List (List ET)

structure SelfdriveD where
  stateMachine : StateMachine := {}
  enabled : Bool := false
  active : Bool := false
  mismatchCounter : Nat := 0
  initialized : Bool := false

def ignoredSafetyModes : List UInt16 := [safetySilent, safetyNooutput]

/-- The types of `EventName.controlsMismatch`. -/
def controlsMismatch : List ET := [.immediateDisable, .noEntry]

/-- The types of `EventName.relayMalfunction`. -/
def relayMalfunction : List ET := [.immediateDisable, .permanent, .noEntry]

/-- The types of `EventName.selfdriveInitializing`. -/
def selfdriveInitializing : List ET := [.noEntry]

def denied (c : Cycle) : Bool :=
  c.pandaStates.any fun ps => !ignoredSafetyModes.contains ps.safetyModel && !ps.controlsAllowed

def dataSample (s : SelfdriveD) (c : Cycle) : SelfdriveD :=
  let s := { s with initialized := s.initialized || c.ready }
  let s := if !s.enabled then { s with mismatchCounter := 0 } else s
  if s.enabled && denied c then { s with mismatchCounter := s.mismatchCounter + 1 } else s

def safetyMismatch (cp : CarParams) (i : Nat) (ps : PandaState) : Bool :=
  match cp.safetyConfigs[i]? with
  | some config =>
    ps.safetyModel != config.1 || ps.safetyParam != config.2 ||
      ps.alternativeExperience != cp.alternativeExperience
  | none => !ignoredSafetyModes.contains ps.safetyModel

/-- What one panda adds; `self.sm.frame*DT_CTRL > 10.` from frame 1001 on. -/
def pandaEvents (cp : CarParams) (frame mismatchCounter i : Nat) (ps : PandaState) :
    List (List ET) :=
  (if safetyMismatch cp i ps && decide (frame > 1000) || ps.safetyRxChecksInvalid ||
      decide (mismatchCounter ≥ 200) then [controlsMismatch] else []) ++
    if ps.relayMalfunction then [relayMalfunction] else []

def updateEvents (cp : CarParams) (s : SelfdriveD) (c : Cycle) : Events :=
  if !s.initialized then ⟨c.early ++ [selfdriveInitializing]⟩
  else if cp.passive then ⟨c.early⟩
  else
    ⟨c.early ++ c.others ++
      (c.pandaStates.mapIdx (pandaEvents cp c.frame s.mismatchCounter)).flatten⟩

def step (cp : CarParams) (s : SelfdriveD) (c : Cycle) : SelfdriveD :=
  let s := dataSample s c
  let events := updateEvents cp s c
  if !cp.passive && s.initialized then
    let r := s.stateMachine.update events
    { s with stateMachine := r.1, enabled := r.2.1, active := r.2.2 }
  else s

/-! ## One cycle -/

theorem dataSample_enabled (s : SelfdriveD) (c : Cycle) : (dataSample s c).enabled = s.enabled := by
  simp only [dataSample]
  cases s.enabled <;> cases denied c <;> rfl

theorem dataSample_stateMachine (s : SelfdriveD) (c : Cycle) :
    (dataSample s c).stateMachine = s.stateMachine := by
  simp only [dataSample]
  cases s.enabled <;> cases denied c <;> rfl

theorem dataSample_initialized (s : SelfdriveD) (c : Cycle) :
    (dataSample s c).initialized = (s.initialized || c.ready) := by
  simp only [dataSample]
  cases s.enabled <;> cases denied c <;> rfl

theorem dataSample_counter (s : SelfdriveD) (c : Cycle) :
    (dataSample s c).mismatchCounter =
      if s.enabled then s.mismatchCounter + (denied c).toNat else 0 := by
  simp only [dataSample]
  cases s.enabled <;> cases denied c <;> rfl

theorem step_counter (cp : CarParams) (s : SelfdriveD) (c : Cycle) :
    (step cp s c).mismatchCounter = (dataSample s c).mismatchCounter := by
  simp only [step]
  split <;> rfl

/-- What is published agrees with the state machine, which has not been started before the cycle is
initialized, nor in dashcam mode. -/
structure Published (cp : CarParams) (s : SelfdriveD) : Prop where
  enabled : s.enabled = decide (s.stateMachine.state ≠ .disabled)
  started : s.enabled = true → cp.passive = false ∧ s.initialized = true

theorem published_step {cp : CarParams} (s : SelfdriveD) (c : Cycle) (h : Published cp s) :
    Published cp (step cp s c) := by
  by_cases hrun : (!cp.passive && (dataSample s c).initialized) = true
  · have hpassive : cp.passive = false ∧ (dataSample s c).initialized = true := by
      simpa using hrun
    simp only [step, hrun, if_true]
    exact ⟨StateMachine.update_enabled _ _, fun _ => hpassive⟩
  · have hstep : step cp s c = dataSample s c := by
      simp only [step]
      rw [if_neg hrun]
    rw [hstep]
    refine ⟨?_, fun hen => ?_⟩
    · rw [dataSample_enabled, dataSample_stateMachine]
      exact h.enabled
    · rw [dataSample_enabled] at hen
      obtain ⟨hpassive, hinit⟩ := h.started hen
      rw [dataSample_initialized, hinit]
      exact ⟨hpassive, rfl⟩

/-- With 200 cycles counted, any panda raises the event. -/
theorem updateEvents_hard {cp : CarParams} {s : SelfdriveD} {c : Cycle}
    (hinit : s.initialized = true) (hpassive : cp.passive = false) (hpanda : c.pandaStates ≠ [])
    (hcount : 200 ≤ s.mismatchCounter) : StateMachine.hard (updateEvents cp s c) = true := by
  obtain ⟨ps, rest, hps⟩ := List.exists_cons_of_ne_nil hpanda
  have hfirst : controlsMismatch ∈ pandaEvents cp c.frame s.mismatchCounter 0 ps := by
    simp [pandaEvents, hcount]
  have hmem : controlsMismatch ∈ (updateEvents cp s c).events := by
    simp only [updateEvents, hinit, hpassive, hps, List.mapIdx_cons, List.flatten_cons]
    simp [hfirst]
  have hcontains : (updateEvents cp s c).contains .immediateDisable = true :=
    List.any_eq_true.2 ⟨controlsMismatch, hmem, by decide⟩
  simp [StateMachine.hard, hcontains]

theorem step_counter_lt {cp : CarParams} {s : SelfdriveD} {c : Cycle} (h : Published cp s)
    (hen : (step cp s c).enabled = true) (hpanda : c.pandaStates ≠ []) :
    (step cp s c).mismatchCounter < 200 := by
  rw [step_counter]
  by_contra hge
  have hwas : s.enabled = true := by
    by_contra hoff
    rw [dataSample_counter, if_neg hoff] at hge
    exact hge (by decide)
  obtain ⟨hpassive, hinit⟩ := h.started hwas
  have hinit' : (dataSample s c).initialized = true := by
    rw [dataSample_initialized, hinit]
    rfl
  have hhard := updateEvents_hard hinit' hpassive hpanda (Nat.not_lt.1 hge)
  have hstate : (dataSample s c).stateMachine.state ≠ .disabled := by
    have henabled := h.enabled
    rw [hwas] at henabled
    rw [dataSample_stateMachine]
    exact of_decide_eq_true henabled.symm
  have hoff := StateMachine.next_hard hstate hhard
  have hstep : (step cp s c).enabled = false := by
    simp only [step, hpassive, hinit', Bool.not_false, Bool.and_self, if_true]
    rw [StateMachine.update_enabled, hoff]
    rfl
  rw [hstep] at hen
  cases hen

/-! ## A run -/

/-- While openpilot is engaged, the counter is the number of cycles of the stay that were denied. -/
theorem enabled_stay (cp : CarParams) (es : List Cycle)
    (h : (Run.run (step cp) {} es).enabled = true) :
    ∃ pre e post, es = pre ++ e :: post ∧ (Run.run (step cp) {} pre).enabled = false ∧
      (∀ p, p <+: post → (Run.run (step cp) {} (pre ++ e :: p)).enabled = true) ∧
      (Run.run (step cp) {} es).mismatchCounter = post.countP denied := by
  induction es using List.reverseRecOn with
  | nil => cases h
  | append_singleton es c ih =>
    cases hwas : (Run.run (step cp) {} es).enabled with
    | false =>
      refine ⟨es, c, [], rfl, hwas, ?_, ?_⟩
      · intro p hp
        rw [List.prefix_nil.1 hp]
        exact h
      · rw [Run.run_snoc, step_counter, dataSample_counter, hwas]
        rfl
    | true =>
      obtain ⟨pre, e, post, heq, hoff, hstay, hcount⟩ := ih hwas
      refine ⟨pre, e, post ++ [c], by rw [heq]; simp, hoff, ?_, ?_⟩
      · intro p hp
        rcases List.prefix_concat_iff.1 hp with rfl | hp
        · rw [heq] at h
          simpa using h
        · exact hstay p hp
      · rw [Run.run_snoc, step_counter, dataSample_counter, hwas, if_pos rfl, hcount,
          List.countP_append, List.countP_singleton]
        cases denied c <;> rfl

/-- In any run, openpilot is engaged after a cycle that has seen a panda only if fewer than 200
cycles since it was engaged were denied, the last one included. -/
theorem denied_bounded (cp : CarParams) (es : List Cycle) {c : Cycle}
    (hen : (Run.run (step cp) {} (es ++ [c])).enabled = true) (hpanda : c.pandaStates ≠ []) :
    ∃ pre e post, es ++ [c] = pre ++ e :: post ∧ (Run.run (step cp) {} pre).enabled = false ∧
      (∀ p, p <+: post → (Run.run (step cp) {} (pre ++ e :: p)).enabled = true) ∧
      post.countP denied < 200 := by
  have hpub : Published cp (Run.run (step cp) {} es) :=
    Run.run_inv published_step ⟨rfl, fun h => by cases h⟩ es
  obtain ⟨pre, e, post, heq, hoff, hstay, hcount⟩ := enabled_stay cp (es ++ [c]) hen
  refine ⟨pre, e, post, heq, hoff, hstay, ?_⟩
  rw [← hcount]
  rw [Run.run_snoc] at hen ⊢
  exact step_counter_lt hpub hen hpanda

def mazdaParams : CarParams :=
  { safetyConfigs := [(safetyMazda, 0)], alternativeExperience := 0, passive := false }

/-- A cycle with the one panda in the car's mode. -/
def mazdaCycle (controlsAllowed : Bool) (others : List (List ET)) : Cycle :=
  { pandaStates := [⟨safetyMazda, 0, 0, controlsAllowed, false, false⟩]
    frame := 2000
    ready := true
    early := []
    others := others }

theorem denied_bounded_once :
    ∃ pre e post, [mazdaCycle true [[.enable]]] ++ [mazdaCycle false []] = pre ++ e :: post ∧
      (Run.run (step mazdaParams) {} pre).enabled = false ∧
      (∀ p, p <+: post → (Run.run (step mazdaParams) {} (pre ++ e :: p)).enabled = true) ∧
      post.countP denied < 200 :=
  denied_bounded mazdaParams [mazdaCycle true [[.enable]]] (by decide) (List.cons_ne_nil _ _)

end Selfdrived
end MazdaPort
