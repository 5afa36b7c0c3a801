import MazdaPort.EngageFirst.Replacement
import MazdaPort.Usb.Resync
import Mathlib.Algebra.Order.Field.Rat
import Mathlib.Data.Rat.Cast.Order
import Mathlib.Tactic.NormNum

/-!
# MazdaPort.EngageFirst.Receive

How frames reach the threads of engage-first: `UsbPanda.can_recv` drops what carries a status bit,
`can_thread` stamps `rx_live` once for a batch and then looks at the frames one by one.

The stamp does not look at the bus. `carSilence_released_iff`: a silence of the car's bus is noticed
exactly when no batch at all has come in, so the camera's frames alone keep `rx_alive` true and the
radar muted.
-/

namespace MazdaPort
namespace EngageFirst

open Usb (Frame)

/-! ## can_recv -/

structure Dropped where
  rejected : Nat := 0
  echo : Nat := 0
  deriving DecidableEq, Repr

/-- One frame of the loop of `UsbPanda.can_recv`. -/
def takeFrame (r : List Frame × Dropped) (f : Frame) : List Frame × Dropped :=
  if f.tag ≥ 192 then (r.1, { r.2 with rejected := r.2.rejected + 1 })
  else if f.tag ≥ 128 then (r.1, { r.2 with echo := r.2.echo + 1 })
  else (r.1 ++ [f], r.2)

def canRecv (dropped : Dropped) (frames : List Frame) : List Frame × Dropped :=
  frames.foldl takeFrame ([], dropped)

theorem takeFrame_frames (r : List Frame × Dropped) (f : Frame) :
    (takeFrame r f).1 = r.1 ++ [f].filter fun f => f.tag < 128 := by
  unfold takeFrame
  by_cases hrej : f.tag ≥ 192
  · have hhigh : ¬ f.tag < 128 := by omega
    simp [hrej, hhigh]
  · by_cases hecho : f.tag ≥ 128
    · have hhigh : ¬ f.tag < 128 := by omega
      simp [hrej, hecho, hhigh]
    · have hlow : f.tag < 128 := by omega
      simp [hrej, hecho, hlow]

/-- What `can_recv` returns has no status bit in its tag. -/
theorem canRecv_frames (dropped : Dropped) (frames : List Frame) :
    (canRecv dropped frames).1 = frames.filter fun f => f.tag < 128 := by
  have hfold : ∀ r : List Frame × Dropped,
      (frames.foldl takeFrame r).1 = r.1 ++ frames.filter fun f => f.tag < 128 := by
    induction frames with
    | nil => simp
    | cons f frames ih =>
      intro r
      rw [List.foldl_cons, ih, takeFrame_frames, List.append_assoc, ← List.filter_append]
      rfl
  exact (hfold ([], dropped)).trans (List.nil_append _)

/-! ## can_thread -/

/-- What a batch adds to `can_census[0]` at an address. -/
def countAt (addr : Nat) (msgs : List Frame) : Nat :=
  msgs.countP fun f => f.tag == 0 && f.addr == addr

/-- `cs_can.update` on a frame of bus 0: PEDALS reports `acc_active`. -/
def accReport (acc : Option Bool) (f : Frame) : Option Bool :=
  if f.tag == 0 && f.data.length == 8 && f.addr == 0x165 then
    some (((f.data.getD 0 0).toNat >>> 3) &&& 1 != 0)
  else acc

def rxEvent (msgs : List Frame) : Event :=
  .rx (countAt 0x21b msgs) (countAt 0x361 msgs) (msgs.foldl accReport none)

/-- A pass of `can_thread` with what `can_recv` has returned. -/
def canThread (cfg : Config) (msgs : List Frame) (s : Sys) : Sys :=
  if msgs.isEmpty then s else step cfg s (rxEvent msgs)

/-! ## RxLiveness -/

/-- `dead_s` and the last arrival time, both in seconds. A time of zero says that there was no
arrival. -/
structure RxLiveness where
  t : Rat
  deadS : Rat
  deriving DecidableEq, Repr

def RxLiveness.stamp (l : RxLiveness) (now : Rat) : RxLiveness := { l with t := now }

def RxLiveness.alive (l : RxLiveness) (now : Rat) : Bool :=
  if l.deadS ≤ 0 then true
  else if l.t = 0 then false
  else decide (now - l.t < l.deadS)

/-- What one `can_recv` has returned, and when. -/
structure Batch where
  time : Rat
  frames : List Frame
  deriving DecidableEq, Repr

/-- `if msgs: rx_live.stamp()` -/
def hear (l : RxLiveness) (b : Batch) : RxLiveness :=
  if b.frames.isEmpty then l else l.stamp b.time

def liveness (deadS : Rat) (batches : List Batch) : RxLiveness :=
  Run.run hear { t := 0, deadS := deadS } batches

def lastHeard (batches : List Batch) : Option Batch :=
  (batches.filter fun b => !b.frames.isEmpty).getLast?

theorem lastHeard_snoc (batches : List Batch) (b : Batch) :
    lastHeard (batches ++ [b]) = if b.frames.isEmpty then lastHeard batches else some b := by
  unfold lastHeard
  rw [List.filter_append]
  cases hempty : b.frames.isEmpty with
  | true => simp [hempty]
  | false => simp [hempty]

theorem liveness_eq (deadS : Rat) (batches : List Batch) :
    liveness deadS batches =
      { t := ((lastHeard batches).map Batch.time).getD 0, deadS := deadS } := by
  induction batches using List.reverseRecOn with
  | nil => rfl
  | append_singleton batches b ih =>
    rw [liveness, Run.run_snoc, ← liveness, ih, hear, lastHeard_snoc]
    cases b.frames.isEmpty with
    | true => rfl
    | false => rfl

/-- `rx_alive` asks whether the last batch with a frame in it is less than `dead_s` old. -/
theorem alive_iff {deadS : Rat} (hdead : 0 < deadS) (batches : List Batch) (t : Rat) :
    (liveness deadS batches).alive t = true ↔
      ∃ b, lastHeard batches = some b ∧ b.time ≠ 0 ∧ t - b.time < deadS := by
  rw [liveness_eq]
  simp only [RxLiveness.alive, Rat.not_le.2 hdead, if_false]
  cases lastHeard batches with
  | none => simp
  | some b =>
    by_cases hzero : b.time = 0
    · simp [hzero]
    · simp [hzero]

/-! ## The threads that ask -/

/-- What `rx_alive` being false makes of the threads. The dead-man's switch lets go of the radar
before `long_tx_thread` comes round again, whatever the other threads do meanwhile, and
`takeover_thread` leaves its drive loop. -/
structure ReleasesRadar (cfg : Config) (s : Sys) : Prop where
  deadMan : s.longTx = .top → s.stopFlag = false → s.radarHold = true →
    ∀ ok ok' es, (∀ e ∈ es, e.isLongTx = false) →
      (longTxStep cfg ok' (Run.run (step cfg) (longTxStep cfg ok s) es)).radarHold = false
  leaves : s.takeover = .driving → (takeoverStep cfg s).takeover ≠ .driving

theorem TakeoverMove.longTx {cfg : Config} {s s' : Sys} (hm : TakeoverMove cfg s s') :
    s'.longTx = s.longTx := by
  cases hm <;> rfl

theorem step_longTx {cfg : Config} {s : Sys} {e : Event} (he : e.isLongTx = false) :
    (step cfg s e).longTx = s.longTx := by
  cases e with
  | takeover => exact (takeoverStep_move cfg s).longTx
  | initEnds raises =>
    simp only [step, initStep]
    split
    · split
      · rfl
      · rfl
    · rfl
  | longTx ok => cases he
  | _ => exact (step_outside cfg s rfl).longTx

theorem releasesRadar_of_dead {cfg : Config} {s : Sys} (h : rxAlive cfg s = false) :
    ReleasesRadar cfg s := by
  constructor
  · intro htop hstop hhold ok ok' es hes
    have hlatch : (longTxStep cfg ok s).longTx = .latching s.now := by
      simp [longTxStep, htop, hstop, hhold, h]
    have hlater : (Run.run (step cfg) (longTxStep cfg ok s) es).longTx = .latching s.now := by
      have hkeep : ∀ (s₁ : Sys) (e : Event), e.isLongTx = false → s₁.longTx = .latching s.now →
          (step cfg s₁ e).longTx = .latching s.now := fun _ _ he h => (step_longTx he).trans h
      exact Run.run_inv_of_mem hkeep hlatch hes
    rw [(longTxStep_effect cfg ok' _).hold, hlater]
    simp [LongTxPc.isLatching]
  · intro hdrive
    by_cases hstop : s.stopFlag = true
    · simp [takeoverStep, hdrive, h, hstop]
    · simp [takeoverStep, hdrive, h, hstop]

/-! ## A silence of the car's bus -/

/-- A frame of bus 0 has come in less than `dead_s` before `t`. -/
def CarHeard (deadS : Rat) (batches : List Batch) (t : Rat) : Prop :=
  ∃ b ∈ batches, t - b.time < deadS ∧ ∃ f ∈ b.frames, f.tag = 0

/-! ## The liveness the threads see -/

def Event.isRx : Event → Bool
  | .rx _ _ _ => true
  | _ => false

/-- A batch for `can_thread`, or a step of the threads, the clock or the radar. -/
inductive HostEvent where
  | batch (msgs : List Frame)
  | other (e : Event) (he : e.isRx = false)

def hostStep (cfg : Config) (s : Sys) : HostEvent → Sys
  | .batch msgs => canThread cfg msgs s
  | .other e _ => step cfg s e

/-- The batches so far, with times in seconds. -/
def noteBatch (s : Sys) (batches : List Batch) : HostEvent → List Batch
  | .batch msgs => batches ++ [{ time := (s.now : Rat) / 1000, frames := msgs }]
  | .other _ _ => batches

/-- The steps that neither bring a batch nor send a 0x21b. -/
def Event.offLink : Event → Bool
  | .rx _ _ _ => false
  | .frame .crzInfo _ => false
  | _ => true

/-- What those steps leave alone. -/
structure OffLink (s s' : Sys) : Prop where
  rx : s'.rx = s.rx
  crzInfoTx : s'.crzInfoTx = s.crzInfoTx
  now : s.now ≤ s'.now

theorem OffLink.refl (s : Sys) : OffLink s s := ⟨rfl, rfl, le_refl _⟩

theorem TakeoverMove.offLink {cfg : Config} {s s' : Sys} (hm : TakeoverMove cfg s s') :
    OffLink s s' := by
  cases hm <;> exact ⟨rfl, rfl, le_refl _⟩

theorem LongTxMove.offLink {cfg : Config} {s s' : Sys} (hm : LongTxMove cfg s s') :
    OffLink s s' := by
  cases hm <;> exact ⟨rfl, rfl, le_refl _⟩

theorem step_offLink {cfg : Config} {s : Sys} {e : Event} (he : e.offLink = true) :
    OffLink s (step cfg s e) := by
  cases e with
  | tick ms => exact ⟨rfl, rfl, Nat.le_add_right _ _⟩
  | stop => exact ⟨rfl, rfl, le_refl _⟩
  | rx n21b n361 acc => cases he
  | takeover => exact (takeoverStep_move cfg s).offLink
  | initSends ok =>
    simp only [step]
    split
    · exact ⟨rfl, rfl, le_refl _⟩
    · exact .refl s
  | initEnds raises =>
    simp only [step, initStep]
    split
    · split
      · exact ⟨rfl, rfl, le_refl _⟩
      · exact ⟨rfl, rfl, le_refl _⟩
    · exact .refl s
  | longTx ok => exact (longTxStep_move cfg ok s).offLink
  | frame f ok =>
    cases f with
    | crzInfo => cases he
    | testerPresent =>
      obtain ⟨r, -, heq⟩ := testerPresent_eq ok s
      simp only [step, frameStep, heq]
      split
      · split
        · exact ⟨rfl, rfl, le_refl _⟩
        · exact .refl s
      · exact .refl s
  | deliver accepted =>
    simp only [step, deliverStep]
    split
    · exact .refl s
    · split
      · exact ⟨rfl, rfl, le_refl _⟩
      · exact ⟨rfl, rfl, le_refl _⟩
  | wake =>
    simp only [step, wakeStep]
    split
    · exact ⟨rfl, rfl, le_refl _⟩
    · exact .refl s

/-- Only a batch changes what the receive path keeps. -/
theorem step_rx {cfg : Config} {s : Sys} {e : Event} (he : e.isRx = false) :
    (step cfg s e).rx = s.rx ∧ s.now ≤ (step cfg s e).now := by
  cases hoff : e.offLink with
  | true =>
    have hkeep := @step_offLink cfg s e hoff
    exact ⟨hkeep.rx, hkeep.now⟩
  | false =>
    cases e with
    | rx n21b n361 acc => cases he
    | frame f ok =>
      obtain ⟨r, n, -, heq⟩ := frameStep_eq f ok s
      have hstep : step cfg s (.frame f ok) = frameStep f ok s := rfl
      rw [hstep, heq]
      exact ⟨rfl, le_refl _⟩
    | _ => cases hoff

/-- `rx.t` is what `rx_live` keeps, in milliseconds. -/
structure Stamped (cfg : Config) (p : Sys × List Batch) : Prop where
  t : (liveness (cfg.dead / 1000) p.2).t = (p.1.rx.t : Rat) / 1000
  past : p.1.rx.t ≤ p.1.now

theorem stamped_step {cfg : Config} {p : Sys × List Batch} (h : Stamped cfg p) (e : HostEvent) :
    Stamped cfg (Run.withHistory (hostStep cfg) noteBatch p e) := by
  cases e with
  | batch msgs =>
    simp only [Run.withHistory, hostStep, noteBatch, canThread]
    cases hempty : msgs.isEmpty with
    | true =>
      refine ⟨?_, h.past⟩
      rw [liveness, Run.run_snoc, ← liveness, hear, if_pos hempty]
      exact h.t
    | false =>
      refine ⟨?_, le_refl _⟩
      rw [liveness, Run.run_snoc, ← liveness, hear, if_neg (by simp [hempty])]
      rfl
  | other e he =>
    obtain ⟨hrx, hnow⟩ := @step_rx cfg p.1 e he
    simp only [Run.withHistory, hostStep, noteBatch]
    refine ⟨?_, ?_⟩
    · rw [hrx]
      exact h.t
    · rw [hrx]
      exact h.past.trans hnow

theorem Stamped.rxAlive {cfg : Config} {p : Sys × List Batch} (h : Stamped cfg p) :
    rxAlive cfg p.1 = (liveness (cfg.dead / 1000) p.2).alive ((p.1.now : Rat) / 1000) := by
  have hdeadS : (liveness (cfg.dead / 1000) p.2).deadS = (cfg.dead : Rat) / 1000 := by
    rw [liveness_eq]
  have hoff : (cfg.dead : Rat) / 1000 ≤ 0 ↔ cfg.dead = 0 := by
    rw [div_le_iff₀ (by norm_num), zero_mul]
    exact_mod_cast Nat.le_zero
  have hnever : (p.1.rx.t : Rat) / 1000 = 0 ↔ p.1.rx.t = 0 := by
    rw [div_eq_zero_iff, Nat.cast_eq_zero]
    norm_num
  have hage : (p.1.now : Rat) / 1000 - (p.1.rx.t : Rat) / 1000 < (cfg.dead : Rat) / 1000 ↔
      p.1.now - p.1.rx.t < cfg.dead := by
    rw [← sub_div, div_lt_div_iff_of_pos_right (by norm_num), ← Nat.cast_sub h.past, Nat.cast_lt]
  simp only [EngageFirst.rxAlive, RxLiveness.alive, hdeadS, h.t, hoff, hnever, hage]

/-- In every run `rx_alive` answers as `RxLiveness` does for the batches so far. -/
theorem rxAlive_run (cfg : Config) (now : Nat) {rx : Receive} (hrx : rx.t = 0)
    (es : List HostEvent) {p : Sys × List Batch}
    (hp : p = Run.run (Run.withHistory (hostStep cfg) noteBatch) (start now rx, []) es) :
    rxAlive cfg p.1 = (liveness (cfg.dead / 1000) p.2).alive ((p.1.now : Rat) / 1000) := by
  have hstart : Stamped cfg (start now rx, []) := by
    refine ⟨?_, ?_⟩
    · simp [liveness, start, hrx]
    · simp [start, hrx]
  have hstep : ∀ (q : Sys × List Batch) (e : HostEvent), Stamped cfg q →
      Stamped cfg (Run.withHistory (hostStep cfg) noteBatch q e) := fun _ e hs => stamped_step hs e
  rw [hp]
  exact (Run.run_inv hstep hstart es).rxAlive

/-! ## The silence is noticed, or not -/

/-- When the car's bus has been silent for `dead_s`, `rx_alive` is false and the threads let go of
the radar, if and only if there is no silence of the car's bus alone: when the last batch is less
than `dead_s` old, so is a frame of bus 0. In every run the threads see what is said here of the
batches so far. -/
theorem carSilence_released_iff {deadS : Rat} (hdead : 0 < deadS) (batches : List Batch) (t : Rat) :
    ((¬ CarHeard deadS batches t →
        (liveness deadS batches).alive t = false ∧
          ∀ cfg s, rxAlive cfg s = (liveness deadS batches).alive t → ReleasesRadar cfg s) ↔
      ∀ b, lastHeard batches = some b → b.time ≠ 0 → t - b.time < deadS →
        CarHeard deadS batches t) ∧
    ∀ cfg now (rx : Receive), rx.t = 0 → ∀ es,
      let p := Run.run (Run.withHistory (hostStep cfg) noteBatch) (start now rx, []) es
      rxAlive cfg p.1 = (liveness (cfg.dead / 1000) p.2).alive ((p.1.now : Rat) / 1000) := by
  refine ⟨?_, fun cfg now rx hrx es => rxAlive_run cfg now hrx es rfl⟩
  have halive := alive_iff hdead batches t
  constructor
  · intro hreleases b hlast htime hage
    by_contra hsilent
    have hdown := (hreleases hsilent).1
    rw [halive.2 ⟨b, hlast, htime, hage⟩] at hdown
    cases hdown
  · intro hheard hsilent
    have hdown : (liveness deadS batches).alive t = false := by
      by_contra hup
      obtain ⟨b, hlast, htime, hage⟩ := halive.1 (by simpa using hup)
      exact hsilent (hheard b hlast htime hage)
    exact ⟨hdown, fun cfg s hs => releasesRadar_of_dead (hs.trans hdown)⟩

/-- A frame of the camera's LKAS stream on bus 2. -/
def camFrame : Frame := { addr := 0x243, data := [0, 0, 0, 0, 0, 0, 0, 0], tag := 2 }

def carFrame : Frame := { addr := 0x165, data := [0x08, 0, 0, 0, 0, 0, 0, 0], tag := 0 }

/-- The car's bus is silent for a batch, and comes back with the camera. -/
def carAgain : List Batch :=
  [{ time := 100, frames := [carFrame] }, { time := 101, frames := [camFrame] },
    { time := 102, frames := [camFrame, carFrame] }, { time := 103, frames := [] }]

theorem carSilence_released_iff_carAgain :
    (0 : Rat) < 2 ∧
      ((¬ CarHeard 2 carAgain (207 / 2) →
          (liveness 2 carAgain).alive (207 / 2) = false ∧
            ∀ cfg s, rxAlive cfg s = (liveness 2 carAgain).alive (207 / 2) →
              ReleasesRadar cfg s) ↔
        ∀ b, lastHeard carAgain = some b → b.time ≠ 0 → 207 / 2 - b.time < 2 →
          CarHeard 2 carAgain (207 / 2)) :=
  ⟨by decide, (carSilence_released_iff (by decide) carAgain (207 / 2)).1⟩

/-- The car's bus goes silent at 100 s, the camera goes on. -/
def carThenCamera : List Batch :=
  [{ time := 100, frames := [carFrame] }, { time := 101, frames := [camFrame] },
    { time := 102, frames := [camFrame] }]

theorem camera_keeps_alive :
    ¬ (¬ CarHeard 2 carThenCamera 103 →
        (liveness 2 carThenCamera).alive 103 = false ∧
          ∀ cfg s, rxAlive cfg s = (liveness 2 carThenCamera).alive 103 →
            ReleasesRadar cfg s) := by
  intro hreleases
  have hsilent : ¬ CarHeard 2 carThenCamera 103 := by
    unfold CarHeard
    decide +kernel
  have hdown := (hreleases hsilent).1
  exact absurd hdown (by decide +kernel)

end EngageFirst
end MazdaPort
