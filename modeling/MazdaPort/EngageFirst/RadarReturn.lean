import MazdaPort.EngageFirst.Receive

/-!
# MazdaPort.EngageFirst.RadarReturn

How the two threads count the radar's 0x21b: the census of bus 0 since a baseline, less the frames
we have sent since then. The subtraction is there for the echoes of our own frames, which
`UsbPanda.can_recv` drops before the census sees them.

The link to the panda is lossless here. `foreign_exact_iff`: in every run, every evaluation counts
exactly the frames of another node that were delivered since its baseline, if and only if none of
ours was sent since then.
-/

namespace MazdaPort
namespace EngageFirst

open Safety (CANPacket)
open Usb (Frame toFrame)

/-! ## The link -/

/-- The threads, the 0x21b frames of ours that the panda has not echoed yet, and the packets on
their way to the host. -/
structure Link where
  sys : Sys
  onBus : List CANPacket := []
  queue : List CANPacket := []
  dropped : Dropped := {}

/-- `arrive` is a packet of another node, on any bus; `echo` the panda's echo of the oldest frame
of ours; `recv` a `can_recv` that finds `n` packets. -/
inductive LinkEvent where
  | arrive (p : CANPacket) (hp : p.returned = false)
  | crzInfo (data : Vector UInt8 8) (ok : Bool)
  | echo
  | recv (n : Nat)
  | other (e : Event) (he : e.offLink = true)

/-- `can_send` of 0x21b is reached, and succeeds. -/
def sends (s : Sys) (ok : Bool) : Bool := decide (s.longTx = .sending) && s.longtxGate && ok

def linkStep (cfg : Config) (l : Link) : LinkEvent → Link
  | .arrive p _ => { l with queue := l.queue ++ [p] }
  | .crzInfo data ok =>
    { l with
      sys := step cfg l.sys (.frame .crzInfo ok)
      onBus := if sends l.sys ok then l.onBus ++ [.eightBytes 0 0x21b data] else l.onBus }
  | .echo =>
    match l.onBus with
    | [] => l
    | p :: rest => { l with onBus := rest, queue := l.queue ++ [{ p with returned := true }] }
  | .recv n =>
    let r := canRecv l.dropped ((l.queue.take n).map toFrame)
    { l with
      sys := canThread cfg r.1 l.sys
      queue := l.queue.drop n
      dropped := r.2 }
  | .other e _ => { l with sys := step cfg l.sys e }

/-! ## What happens in a window -/

/-- A 0x21b that another node has put on bus 0. -/
def fromOther (p : CANPacket) : Bool :=
  p.addr.toNat == 0x21b && p.bus.toNat == 0 && !p.returned && !p.rejected

/-- The 0x21b frames of another node that were delivered, and ours that were sent. -/
structure Window where
  delivered : Nat := 0
  sent : Nat := 0
  deriving DecidableEq, Repr

def deliveredBy (l : Link) : LinkEvent → Nat
  | .recv n => (l.queue.take n).countP fromOther
  | _ => 0

def sentBy (l : Link) : LinkEvent → Nat
  | .crzInfo _ ok => (sends l.sys ok).toNat
  | _ => 0

def Window.add (w : Window) (l : Link) (e : LinkEvent) : Window :=
  { delivered := w.delivered + deliveredBy l e, sent := w.sent + sentBy l e }

/-- `long_tx_thread` calls `watch.update`. -/
def rebaselines (s : Sys) : Event → Bool
  | .longTx _ =>
    match s.longTx with
    | .watchdog now => !s.handoverDone || decide (now - s.watch.t ≥ 2000)
    | .reentering c0 till => decide (till ≤ s.now) && !decide (s.rx.census21b - c0 > 5)
    | _ => false
  | _ => false

/-- `takeover_thread` reads `_n0` and `_o0`. -/
def opensCheck (s : Sys) : Event → Bool
  | .takeover =>
    match s.takeover with
    | .overlapping till => decide (till ≤ s.now)
    | _ => false
  | _ => false

def LinkEvent.holds (P : Event → Bool) : LinkEvent → Bool
  | .other e _ => P e
  | _ => false

/-- The windows since the watchdog's baseline and since that of the check after suppression. -/
structure Windows where
  watch : Window := {}
  check : Window := {}
  deriving DecidableEq, Repr

def noteWindows (l : Link) (w : Windows) (e : LinkEvent) : Windows :=
  { watch := if e.holds (rebaselines l.sys) then {} else w.watch.add l e
    check := if e.holds (opensCheck l.sys) then {} else w.check.add l e }

/-- What the step evaluates: `_foreign`, with the window it is meant for. -/
def evaluates (l : Link) (w : Windows) : LinkEvent → Option (Int × Window)
  | .other (.longTx _) _ =>
    match l.sys.longTx with
    | .watchdog now =>
      if l.sys.handoverDone && decide (now - l.sys.watch.t ≥ 2000) then
        some (foreign l.sys.rx.census21b l.sys.watch.census l.sys.crzInfoTx l.sys.watch.ours, w.watch)
      else none
    | _ => none
  | .other .takeover _ =>
    match l.sys.takeover with
    | .verifying n0 o0 till =>
      if till ≤ l.sys.now then some (foreign l.sys.rx.census21b n0 l.sys.crzInfoTx o0, w.check)
      else none
    | _ => none
  | _ => none

/-- `_foreign` is the number of 0x21b frames of another node delivered in the window. -/
def Exact (p : Link × Windows) (e : LinkEvent) : Prop :=
  ∀ f w, evaluates p.1 p.2 e = some (f, w) → f = w.delivered

def NoneSent (p : Link × Windows) (e : LinkEvent) : Prop :=
  ∀ f w, evaluates p.1 p.2 e = some (f, w) → w.sent = 0

/-! ## Baselines -/

theorem TakeoverMove.watch {cfg : Config} {s s' : Sys} (hm : TakeoverMove cfg s s') :
    s'.watch = s.watch := by
  cases hm <;> rfl

theorem LongTxMove.rebaselined {cfg : Config} {s s' : Sys} {ok : Bool} (hm : LongTxMove cfg s s')
    (h : rebaselines s (.longTx ok) = true) : ∃ t, s'.watch = s.rebaselined t := by
  cases hm with
  | skip hpc hdone => exact ⟨_, rfl⟩
  | quiet hpc hdone hdue => exact ⟨_, rfl⟩
  | giveUp hpc hdone hdue hseen htries => exact ⟨_, rfl⟩
  | reenter hpc hdone hdue hsilent => exact ⟨_, rfl⟩
  | resume hpc htill hseen => exact ⟨_, rfl⟩
  | early hpc hdone hdue => simp [rebaselines, hpc, hdone, hdue] at h
  | failed hpc htill hseen => simp [rebaselines, hpc, hseen] at h
  | stay hpc =>
    rcases hpc with hpc | ⟨c0, till, hpc, htill⟩
    · simp [rebaselines, hpc] at h
    · simp [rebaselines, hpc, not_le.2 htill] at h
  | quit hpc hstop => simp [rebaselines, hpc] at h
  | dead hpc hhold hrx => simp [rebaselines, hpc] at h
  | live hpc => simp [rebaselines, hpc] at h
  | latch hpc => simp [rebaselines, hpc] at h
  | hold hpc hsilent => simp [rebaselines, hpc] at h
  | again hpc => simp [rebaselines, hpc] at h

theorem LongTxMove.watch {cfg : Config} {s s' : Sys} {ok : Bool} (hm : LongTxMove cfg s s')
    (h : rebaselines s (.longTx ok) = false) : s'.watch = s.watch := by
  cases hm with
  | skip hpc hdone => simp [rebaselines, hpc, hdone] at h
  | quiet hpc hdone hdue => simp [rebaselines, hpc, hdue] at h
  | giveUp hpc hdone hdue hseen htries => simp [rebaselines, hpc, hdue] at h
  | reenter hpc hdone hdue hsilent => simp [rebaselines, hpc, hdue] at h
  | resume hpc htill hseen => simp [rebaselines, hpc, htill, hseen] at h
  | _ => rfl

theorem step_watch {cfg : Config} {s : Sys} {e : Event} (he : rebaselines s e = false) :
    (step cfg s e).watch = s.watch := by
  cases e with
  | takeover => exact (takeoverStep_move cfg s).watch
  | longTx ok => exact (longTxStep_move cfg ok s).watch he
  | initSends ok =>
    simp only [step]
    split
    · rfl
    · rfl
  | initEnds raises =>
    simp only [step, initStep]
    split
    · split
      · rfl
      · rfl
    · rfl
  | frame f ok =>
    obtain ⟨r, n, -, heq⟩ := frameStep_eq f ok s
    simp only [step, heq]
  | deliver accepted =>
    simp only [step, deliverStep]
    split
    · rfl
    · split
      · rfl
      · rfl
  | wake =>
    simp only [step, wakeStep]
    split
    · rfl
    · rfl
  | _ => rfl

/-- `_n0` and `_o0`, from the start of `CarInterface.init` until they are used. -/
def TakeoverPc.baseline : TakeoverPc → Option (Nat × Nat)
  | .initialising n0 o0 => some (n0, o0)
  | .verifying n0 o0 _ => some (n0, o0)
  | _ => none

theorem step_opened {cfg : Config} {s : Sys} {e : Event} (he : opensCheck s e = true) :
    (step cfg s e).takeover.baseline = some (s.rx.census21b, s.crzInfoTx) := by
  cases e with
  | takeover =>
    cases hpc : s.takeover with
    | overlapping till =>
      simp only [opensCheck, hpc, decide_eq_true_eq] at he
      simp only [step, takeoverStep, hpc]
      rw [if_neg (not_lt.2 he)]
      rfl
    | _ => simp [opensCheck, hpc] at he
  | _ => cases he

theorem TakeoverMove.baseline {cfg : Config} {s s' : Sys} (hm : TakeoverMove cfg s s')
    (ho : opensCheck s .takeover = false) :
    s'.takeover.baseline = none ∨ s'.takeover.baseline = s.takeover.baseline := by
  cases hm with
  | stay => exact .inr rfl
  | callInit hpc htill => simp [opensCheck, hpc, htill] at ho
  | _ => exact .inl rfl

theorem step_baseline {cfg : Config} {s : Sys} {e : Event} (he : opensCheck s e = false) :
    (step cfg s e).takeover.baseline = none ∨
      (step cfg s e).takeover.baseline = s.takeover.baseline := by
  cases hthread : e.ofThread with
  | false =>
    right
    rw [(step_outside cfg s hthread).takeover]
  | true =>
    cases e with
    | takeover => exact (takeoverStep_move cfg s).baseline he
    | initEnds raises =>
      simp only [step, initStep]
      cases hpc : s.takeover with
      | initialising n0 o0 =>
        dsimp only
        split
        · exact .inl rfl
        · exact .inr rfl
      | _ => exact .inr (by rw [hpc])
    | longTx ok =>
      right
      exact congrArg TakeoverPc.baseline (longTxStep_effect cfg ok s).takeover
    | _ => cases hthread

/-! ## What reaches the census -/

/-- Of the 0x21b tagged as of bus 0, `can_recv` passes on those of another node. -/
theorem fromOther_eq (p : CANPacket) :
    fromOther p = (((toFrame p).tag == 0 && (toFrame p).addr == 0x21b) &&
      decide ((toFrame p).tag < 128)) := by
  obtain ⟨fd, bus, dlc, rejected, returned, extended, addr, checksum, data⟩ := p
  cases rejected with
  | true => simp [fromOther, toFrame]
  | false =>
    cases returned with
    | true => simp [fromOther, toFrame]
    | false =>
      rw [Bool.eq_iff_iff]
      simp only [fromOther, toFrame, Bool.false_eq_true, if_false, Nat.add_zero, Bool.not_false,
        Bool.and_true, Bool.and_eq_true, beq_iff_eq, decide_eq_true_eq]
      constructor
      · rintro ⟨haddr, hzero⟩
        exact ⟨⟨hzero, haddr⟩, by omega⟩
      · rintro ⟨⟨hzero, haddr⟩, _⟩
        exact ⟨haddr, hzero⟩

/-- What a `can_recv` adds to the census at 0x21b. -/
theorem countAt_canRecv (dropped : Dropped) (ps : List CANPacket) :
    countAt 0x21b (canRecv dropped (ps.map toFrame)).1 = ps.countP fromOther := by
  rw [canRecv_frames, countAt, List.countP_filter, List.countP_map]
  refine List.countP_congr fun p _ => ?_
  rw [fromOther_eq]
  rfl

theorem canThread_census (cfg : Config) (msgs : List Frame) (s : Sys) :
    (canThread cfg msgs s).rx.census21b = s.rx.census21b + countAt 0x21b msgs := by
  unfold canThread
  cases msgs with
  | nil => rfl
  | cons f msgs => rfl

/-- `canThread` writes to the receive path only. -/
theorem canThread_eq (cfg : Config) (msgs : List Frame) (s : Sys) :
    ∃ rx, canThread cfg msgs s = { s with rx := rx } := by
  unfold canThread
  cases msgs with
  | nil => exact ⟨s.rx, rfl⟩
  | cons f msgs => exact ⟨_, rfl⟩

theorem frame_crzInfo (cfg : Config) (ok : Bool) (s : Sys) :
    step cfg s (.frame .crzInfo ok) = { s with crzInfoTx := s.crzInfoTx + (sends s ok).toNat } := by
  have hstep : step cfg s (.frame .crzInfo ok) = frameStep .crzInfo ok s := rfl
  rw [hstep, frameStep]
  by_cases hpc : s.longTx = .sending
  · rw [if_pos hpc]
    by_cases hgate : s.longtxGate = true
    · have hsends : sends s ok = ok := by simp [sends, hpc, hgate]
      rw [if_pos hgate, hsends]
    · have hsends : sends s ok = false := by simp [sends, hgate]
      rw [if_neg hgate, hsends]
      rfl
  · have hsends : sends s ok = false := by simp [sends, hpc]
    rw [if_neg hpc, hsends]
    rfl

/-! ## The steps of the link -/

/-- The two counters, whatever the step is. -/
theorem linkStep_counts (cfg : Config) (l : Link) (e : LinkEvent) :
    (linkStep cfg l e).sys.rx.census21b = l.sys.rx.census21b + deliveredBy l e ∧
      (linkStep cfg l e).sys.crzInfoTx = l.sys.crzInfoTx + sentBy l e := by
  cases e with
  | arrive q hq => exact ⟨rfl, rfl⟩
  | crzInfo data ok =>
    simp only [linkStep, frame_crzInfo]
    exact ⟨rfl, rfl⟩
  | echo =>
    simp only [linkStep]
    split
    · exact ⟨rfl, rfl⟩
    · exact ⟨rfl, rfl⟩
  | recv n =>
    obtain ⟨rx, hrx⟩ := canThread_eq cfg
      (canRecv l.dropped ((l.queue.take n).map toFrame)).1 l.sys
    have hcensus := canThread_census cfg
      (canRecv l.dropped ((l.queue.take n).map toFrame)).1 l.sys
    rw [countAt_canRecv] at hcensus
    refine ⟨hcensus, ?_⟩
    simp only [linkStep, hrx]
    rfl
  | other e he =>
    have hkeep := @step_offLink cfg l.sys e he
    refine ⟨?_, hkeep.crzInfoTx⟩
    simp only [linkStep, hkeep.rx]
    rfl

/-- A step that is not one of the threads leaves the baselines alone. -/
theorem linkStep_link (cfg : Config) (l : Link) {e : LinkEvent}
    (he : ∀ e' he', e ≠ .other e' he') :
    (linkStep cfg l e).sys.watch = l.sys.watch ∧
      (linkStep cfg l e).sys.takeover = l.sys.takeover := by
  cases e with
  | arrive q hq => exact ⟨rfl, rfl⟩
  | crzInfo data ok =>
    simp only [linkStep, frame_crzInfo, and_self]
  | echo =>
    simp only [linkStep]
    split
    · exact ⟨rfl, rfl⟩
    · exact ⟨rfl, rfl⟩
  | recv n =>
    obtain ⟨rx, hrx⟩ := canThread_eq cfg
      (canRecv l.dropped ((l.queue.take n).map toFrame)).1 l.sys
    simp only [linkStep, hrx, and_self]
  | other e' he' => exact absurd rfl (he e' he')

theorem linkStep_watch {cfg : Config} {l : Link} {e : LinkEvent}
    (he : e.holds (rebaselines l.sys) = false) :
    (linkStep cfg l e).sys.watch = l.sys.watch := by
  cases e with
  | other e hoff => exact step_watch he
  | _ => exact (linkStep_link cfg l (by simp)).1

theorem linkStep_rebaselined {cfg : Config} {l : Link} {e : LinkEvent}
    (he : e.holds (rebaselines l.sys) = true) :
    (linkStep cfg l e).sys.watch.census = l.sys.rx.census21b ∧
      (linkStep cfg l e).sys.watch.ours = l.sys.crzInfoTx := by
  cases e with
  | other e hoff =>
    cases e with
    | longTx ok =>
      have hm : LongTxMove cfg l.sys (longTxStep cfg ok l.sys) := longTxStep_move cfg ok l.sys
      obtain ⟨t, ht⟩ := @LongTxMove.rebaselined cfg l.sys _ ok hm he
      simp only [linkStep, step, ht]
      exact ⟨rfl, rfl⟩
    | _ => cases he
  | _ => cases he

theorem linkStep_opened {cfg : Config} {l : Link} {e : LinkEvent}
    (he : e.holds (opensCheck l.sys) = true) :
    (linkStep cfg l e).sys.takeover.baseline = some (l.sys.rx.census21b, l.sys.crzInfoTx) := by
  cases e with
  | other e hoff => exact step_opened he
  | _ => cases he

theorem linkStep_baseline {cfg : Config} {l : Link} {e : LinkEvent}
    (he : e.holds (opensCheck l.sys) = false) :
    (linkStep cfg l e).sys.takeover.baseline = none ∨
      (linkStep cfg l e).sys.takeover.baseline = l.sys.takeover.baseline := by
  cases e with
  | other e hoff => exact step_baseline he
  | _ => exact .inr (congrArg TakeoverPc.baseline (linkStep_link cfg l (by simp)).2)

/-- A step that sets a baseline delivers nothing and sends nothing. -/
theorem holds_counts {P : Event → Bool} {e : LinkEvent} (he : e.holds P = true) (l : Link) :
    deliveredBy l e = 0 ∧ sentBy l e = 0 := by
  cases e with
  | other e hoff => exact ⟨rfl, rfl⟩
  | _ => cases he

/-! ## The ledger -/

/-- The counters are the baselines and what the windows since then have brought. -/
structure Ledger (p : Link × Windows) : Prop where
  census : p.1.sys.rx.census21b = p.1.sys.watch.census + p.2.watch.delivered
  ours : p.1.sys.crzInfoTx = p.1.sys.watch.ours + p.2.watch.sent
  check : ∀ n0 o0, p.1.sys.takeover.baseline = some (n0, o0) →
    p.1.sys.rx.census21b = n0 + p.2.check.delivered ∧
      p.1.sys.crzInfoTx = o0 + p.2.check.sent

theorem ledger_start (now : Nat) (rx : Receive) : Ledger ({ sys := start now rx }, {}) where
  census := rfl
  ours := rfl
  check := by
    intro n0 o0 hbase
    cases hbase

theorem ledger_step (cfg : Config) {p : Link × Windows} (h : Ledger p) (e : LinkEvent) :
    Ledger (Run.withHistory (linkStep cfg) noteWindows p e) := by
  obtain ⟨hcensus, htx⟩ := linkStep_counts cfg p.1 e
  have hwatch : (linkStep cfg p.1 e).sys.rx.census21b =
        (linkStep cfg p.1 e).sys.watch.census + (noteWindows p.1 p.2 e).watch.delivered ∧
      (linkStep cfg p.1 e).sys.crzInfoTx =
        (linkStep cfg p.1 e).sys.watch.ours + (noteWindows p.1 p.2 e).watch.sent := by
    cases hre : e.holds (rebaselines p.1.sys) with
    | false =>
      rw [linkStep_watch hre, hcensus, htx, h.census, h.ours]
      simp only [noteWindows, hre, Window.add]
      exact ⟨Nat.add_assoc _ _ _, Nat.add_assoc _ _ _⟩
    | true =>
      obtain ⟨hnone, hquiet⟩ := holds_counts hre p.1
      obtain ⟨hbase, hours⟩ := @linkStep_rebaselined cfg p.1 e hre
      rw [hcensus, htx, hnone, hquiet, hbase, hours]
      simp only [noteWindows, hre]
      exact ⟨rfl, rfl⟩
  have hcheck : ∀ n0 o0, (linkStep cfg p.1 e).sys.takeover.baseline = some (n0, o0) →
      (linkStep cfg p.1 e).sys.rx.census21b = n0 + (noteWindows p.1 p.2 e).check.delivered ∧
        (linkStep cfg p.1 e).sys.crzInfoTx = o0 + (noteWindows p.1 p.2 e).check.sent := by
    intro n0 o0 hbase
    cases hopen : e.holds (opensCheck p.1.sys) with
    | false =>
      rcases @linkStep_baseline cfg p.1 e hopen with hnone | hsame
      · rw [hnone] at hbase
        cases hbase
      · obtain ⟨hn0, ho0⟩ := h.check n0 o0 (hsame ▸ hbase)
        rw [hcensus, htx, hn0, ho0]
        simp only [noteWindows, hopen, Window.add]
        exact ⟨Nat.add_assoc _ _ _, Nat.add_assoc _ _ _⟩
    | true =>
      obtain ⟨hnone, hquiet⟩ := holds_counts hopen p.1
      rw [linkStep_opened hopen] at hbase
      cases hbase
      rw [hcensus, htx, hnone, hquiet]
      simp only [noteWindows, hopen]
      exact ⟨rfl, rfl⟩
  exact { census := hwatch.1, ours := hwatch.2, check := hcheck }

theorem foreign_eq {c c0 o o0 d n : Nat} (hc : c = c0 + d) (ho : o = o0 + n) :
    foreign c c0 o o0 = (d : Int) - n := by
  unfold foreign
  omega

/-- What is evaluated is what was delivered, less what was sent. -/
theorem Ledger.evaluates_eq {p : Link × Windows} (h : Ledger p) {e : LinkEvent} {f : Int}
    {w : Window} (he : evaluates p.1 p.2 e = some (f, w)) : f = (w.delivered : Int) - w.sent := by
  cases e with
  | other e hoff =>
    cases e with
    | longTx ok =>
      cases hpc : p.1.sys.longTx with
      | watchdog now =>
        simp only [evaluates, hpc] at he
        split at he
        · cases he
          exact foreign_eq h.census h.ours
        · cases he
      | _ => simp [evaluates, hpc] at he
    | takeover =>
      cases hpc : p.1.sys.takeover with
      | verifying n0 o0 till =>
        obtain ⟨hn0, ho0⟩ := h.check n0 o0 (by rw [hpc]; rfl)
        simp only [evaluates, hpc] at he
        split at he
        · cases he
          exact foreign_eq hn0 ho0
        · cases he
      | _ => simp [evaluates, hpc] at he
    | _ => cases he
  | _ => cases he

theorem Ledger.exact_iff {p : Link × Windows} (h : Ledger p) (e : LinkEvent) :
    Exact p e ↔ NoneSent p e := by
  constructor
  · intro hexact f w he
    have hcount := hexact f w he
    rw [h.evaluates_eq he] at hcount
    omega
  · intro hnone f w he
    rw [h.evaluates_eq he, hnone f w he]
    simp

/-- In a run every `_foreign` is the number of 0x21b frames of another node that were delivered
since its baseline, if and only if at every evaluation none of ours has been sent since then. -/
theorem foreign_exact_iff (cfg : Config) (now : Nat) (rx : Receive) (es : List LinkEvent) :
    Run.AllSteps (Run.withHistory (linkStep cfg) noteWindows) Exact
        ({ sys := start now rx }, {}) es ↔
      Run.AllSteps (Run.withHistory (linkStep cfg) noteWindows) NoneSent
        ({ sys := start now rx }, {}) es := by
  have hok : ∀ (p : Link × Windows) (e : LinkEvent), Ledger p → (Exact p e ↔ NoneSent p e) :=
    fun _ e h => h.exact_iff e
  have hstep : ∀ (p : Link × Windows) (e : LinkEvent), Ledger p →
      Ledger (Run.withHistory (linkStep cfg) noteWindows p e) := fun _ e h => ledger_step cfg h e
  exact Run.allSteps_congr hstep hok (ledger_start now rx) es

/-! ## The radar goes on, and is not counted -/

def radarFrame : CANPacket := .eightBytes 0 0x21b (Vector.replicate 8 0)

/-- A handover in which one 0x21b of ours and one of the radar's reach the host. -/
def bothSend : List LinkEvent :=
  [.other .takeover rfl, .other (.tick 300) rfl, .other .takeover rfl, .other (.longTx true) rfl,
    .other (.longTx true) rfl, .other (.longTx true) rfl, .crzInfo (Vector.replicate 8 0) true,
    .echo, .arrive radarFrame rfl, .recv 2, .other (.initEnds false) rfl,
    .other (.tick 1500) rfl]

theorem radar_uncounted :
    ¬ ∀ (cfg : Config) (now : Nat) (rx : Receive) (es : List LinkEvent),
      Run.AllSteps (Run.withHistory (linkStep cfg) noteWindows) Exact
        ({ sys := start now rx }, {}) es := by
  intro hall
  have hrun := hall ⟨300, 2000, 5000⟩ 1000 ⟨1000, true, 0, 0⟩ (bothSend ++ [.other .takeover rfl])
  rw [Run.allSteps_append] at hrun
  have hcount := hrun.2.1 0 ⟨1, 1⟩ (by decide)
  exact absurd hcount (by decide)

end EngageFirst
end MazdaPort
