import MazdaPort.Lib.Run

/-!
# MazdaPort.EngageFirst.Threads

Engage-first (`OP_ALPHA_ENGAGE_FIRST`) in `dashcam_web.py`: `takeover_thread`, `long_tx_thread`, the
receive path and the radar, as one system that takes a step of one of them at a time.

Each thread has a program counter. A step of a thread runs from one point where another thread can
interfere to the next; a sleep is a counter value that the thread leaves once the clock has passed
it. What the environment decides is in the event: the frames received, whether a frame we send gets
through, how `CarInterface.init` ends, whether the radar accepts a request. Times are in
milliseconds. `tx_enabled` is at its default, and `coexist` is off in this mode.
-/

namespace MazdaPort
namespace EngageFirst

structure Config where
  /-- `OP_ALPHA_OVERLAP_S` -/
  overlap : Nat
  /-- `OP_RX_DEAD_S`; zero and below switch the check off. -/
  dead : Nat
  /-- The radar's session timeout. -/
  session : Nat

/-- Where `takeover_thread` is. `initialising` is inside `CarInterface.init`, `driving` the loop
after the handover, `dropped` to `rearming` the release. -/
inductive TakeoverPc where
  | waiting
  | overlapping (till : Nat)
  | initialising (n0 o0 : Nat)
  | verifying (n0 o0 till : Nat)
  | driving
  | dropped
  | releasing (tRel : Nat)
  | listening (tRel c0 till : Nat)
  | rearming
  | returned
  deriving DecidableEq, Repr

/-- Where `long_tx_thread` is in its loop; `now` is the time it read at the top. -/
inductive LongTxPc where
  | top
  | latching (now : Nat)
  | keepAlive (now : Nat)
  | watchdog (now : Nat)
  | reentering (c0 till : Nat)
  | sending
  | returned
  deriving DecidableEq, Repr

structure Watch where
  t : Nat
  census : Nat
  ours : Nat
  deriving DecidableEq, Repr

/-- `lastTp` is when a tester-present last reached the radar or its session began; `requests` are
the session-control requests on their way to it. -/
structure Radar where
  silent : Bool
  lastTp : Nat
  requests : Nat
  deriving DecidableEq, Repr

/-- What the receive path keeps: `rx_live.t`, `cs_can.acc_active` and `can_census[0]` at 0x21b and
0x361. -/
structure Receive where
  t : Nat
  accActive : Bool
  census21b : Nat
  census361 : Nat
  deriving DecidableEq, Repr

/-- `handoverDone`, `longHalted`, `radarResuppress` and `crzInfoTx` are keys of `tx_state`. -/
structure Sys where
  now : Nat
  stopFlag : Bool
  rx : Receive
  longtxGate : Bool
  radarHold : Bool
  handoverDone : Bool
  longHalted : Bool
  radarResuppress : Nat
  crzInfoTx : Nat
  takeover : TakeoverPc
  longTx : LongTxPc
  tpLast : Nat
  watch : Watch
  radar : Radar
  deriving DecidableEq, Repr

def start (now : Nat) (rx : Receive) : Sys :=
  { now := now
    stopFlag := false
    rx := rx
    longtxGate := false
    radarHold := true
    handoverDone := false
    longHalted := false
    radarResuppress := 0
    crzInfoTx := 0
    takeover := .waiting
    longTx := .top
    tpLast := 0
    watch := { t := now, census := rx.census21b, ours := 0 }
    radar := { silent := false, lastTp := 0, requests := 0 } }

/-- `RxLiveness.alive`. A time of zero says that nothing has ever arrived. -/
def rxAlive (cfg : Config) (s : Sys) : Bool :=
  if cfg.dead = 0 then true
  else if s.rx.t = 0 then false
  else decide (s.now - s.rx.t < cfg.dead)

/-- The frames counted since `c0`, less the ones we sent since `o0`. -/
def foreign (c c0 o o0 : Nat) : Int := ((c : Int) - c0) - ((o : Int) - o0)

/-! ## takeover_thread -/

def abort (s : Sys) : Sys := { s with longtxGate := false, takeover := .returned }

def takeoverStep (cfg : Config) (s : Sys) : Sys :=
  match s.takeover with
  | .waiting =>
    if s.stopFlag then { s with takeover := .returned }
    else if !rxAlive cfg s || !s.rx.accActive then s
    else { s with longtxGate := true, takeover := .overlapping (s.now + cfg.overlap) }
  | .overlapping till =>
    if s.now < till then s
    else { s with takeover := .initialising s.rx.census21b s.crzInfoTx }
  | .initialising _ _ => s
  | .verifying n0 o0 till =>
    if s.now < till then s
    else if foreign s.rx.census21b n0 s.crzInfoTx o0 > 20 then abort s
    else { s with handoverDone := true, takeover := .driving }
  | .driving =>
    if !s.stopFlag && rxAlive cfg s && s.rx.accActive then s
    else if s.stopFlag then { s with takeover := .returned }
    else { s with radarHold := false, takeover := .dropped }
  | .dropped => { s with handoverDone := false, takeover := .releasing s.now }
  | .releasing tRel =>
    if s.stopFlag then { s with takeover := .returned }
    else if s.now - tRel < 20000 then
      { s with takeover := .listening tRel s.rx.census361 (s.now + 1000) }
    else { s with longtxGate := false, takeover := .returned }
  | .listening tRel c0 till =>
    if s.now < till then s
    else if s.rx.census361 - c0 > 3 then { s with longtxGate := false, takeover := .rearming }
    else { s with takeover := .releasing tRel }
  | .rearming =>
    if s.stopFlag then { s with takeover := .returned }
    else { s with radarHold := true, takeover := .waiting }
  | .returned => s

/-- `CarInterface.init` ends: without an exception the thread goes on to watch the census. -/
def initStep (raises : Bool) (s : Sys) : Sys :=
  match s.takeover with
  | .initialising n0 o0 =>
    if raises then abort s else { s with takeover := .verifying n0 o0 (s.now + 1500) }
  | _ => s

/-! ## long_tx_thread -/

def request (ok : Bool) (s : Sys) : Sys :=
  { s with radar := { s.radar with requests := s.radar.requests + ok.toNat } }

def testerPresent (ok : Bool) (s : Sys) : Sys :=
  if ok then { s with radar := { s.radar with lastTp := s.now } } else s

def longTxStep (cfg : Config) (ok : Bool) (s : Sys) : Sys :=
  match s.longTx with
  | .top =>
    if s.stopFlag then { s with longTx := .returned }
    else if s.radarHold && !rxAlive cfg s then { s with longTx := .latching s.now }
    else { s with longTx := .keepAlive s.now }
  | .latching now => { s with radarHold := false, longTx := .keepAlive now }
  | .keepAlive now =>
    if decide (now - s.tpLast ≥ 100) && s.radarHold then
      testerPresent ok { s with tpLast := now, longTx := .watchdog now }
    else { s with longTx := .watchdog now }
  | .watchdog now =>
    let watch := { t := now, census := s.rx.census21b, ours := s.crzInfoTx }
    if !s.handoverDone then { s with watch := watch, longTx := .sending }
    else if now - s.watch.t ≥ 2000 then
      if foreign s.rx.census21b s.watch.census s.crzInfoTx s.watch.ours > 20 then
        let tries := s.radarResuppress + 1
        if tries > 3 then
          { s with watch := watch, radarResuppress := tries, longHalted := true, longTx := .returned }
        else
          request ok
            { s with
              watch := watch
              radarResuppress := tries
              longTx := .reentering s.rx.census21b (s.now + 1000) }
      else { s with watch := watch, longTx := .sending }
    else { s with longTx := .sending }
  | .reentering c0 till =>
    if s.now < till then s
    else if s.rx.census21b - c0 > 5 then { s with longHalted := true, longTx := .returned }
    else
      { s with
        watch := { t := s.now, census := s.rx.census21b, ours := s.crzInfoTx }
        longTx := .top }
  | .sending => { s with longTx := .top }
  | .returned => s

/-- The frames of `CarController.update` that the gates look at. -/
inductive LongFrame where
  | testerPresent
  | crzInfo
  deriving DecidableEq, Repr

def frameStep (f : LongFrame) (ok : Bool) (s : Sys) : Sys :=
  if s.longTx = .sending then
    match f with
    | .testerPresent => if s.radarHold then testerPresent ok s else s
    | .crzInfo => if s.longtxGate then { s with crzInfoTx := s.crzInfoTx + ok.toNat } else s
  else s

/-! ## Receive path and radar -/

/-- A batch of received frames: `n21b` and `n361` of them are counted, `acc` is the ACC state if a
PEDALS frame is among them. -/
def rxStep (n21b n361 : Nat) (acc : Option Bool) (s : Sys) : Sys :=
  { s with
    rx :=
      { t := s.now
        accActive := acc.getD s.rx.accActive
        census21b := s.rx.census21b + n21b
        census361 := s.rx.census361 + n361 } }

/-- A session-control request reaches the radar. Accepting it silences the radar. -/
def deliverStep (accepted : Bool) (s : Sys) : Sys :=
  if s.radar.requests = 0 then s
  else if accepted then
    { s with radar := { silent := true, lastTp := s.now, requests := s.radar.requests - 1 } }
  else { s with radar := { s.radar with requests := s.radar.requests - 1 } }

def wakeStep (cfg : Config) (s : Sys) : Sys :=
  if s.now - s.radar.lastTp ≥ cfg.session then { s with radar := { s.radar with silent := false } }
  else s

/-! ## The system -/

inductive Event where
  | tick (ms : Nat)
  | stop
  | rx (n21b n361 : Nat) (acc : Option Bool)
  | takeover
  | initSends (ok : Bool)
  | initEnds (raises : Bool)
  | longTx (ok : Bool)
  | frame (f : LongFrame) (ok : Bool)
  | deliver (accepted : Bool)
  | wake
  deriving DecidableEq, Repr

def TakeoverPc.inInit : TakeoverPc → Bool
  | .initialising _ _ => true
  | _ => false

def step (cfg : Config) (s : Sys) : Event → Sys
  | .tick ms => { s with now := s.now + ms }
  | .stop => { s with stopFlag := true }
  | .rx n21b n361 acc => rxStep n21b n361 acc s
  | .takeover => takeoverStep cfg s
  | .initSends ok => if s.takeover.inInit then request ok s else s
  | .initEnds raises => initStep raises s
  | .longTx ok => longTxStep cfg ok s
  | .frame f ok => frameStep f ok s
  | .deliver accepted => deliverStep accepted s
  | .wake => wakeStep cfg s

/-! ## The moves of takeover_thread -/

inductive TakeoverMove (cfg : Config) (s : Sys) : Sys → Prop where
  | stay : TakeoverMove cfg s s
  | quit (hstop : s.stopFlag = true) : TakeoverMove cfg s { s with takeover := .returned }
  | enter (hpc : s.takeover = .waiting) (hstop : s.stopFlag = false) (hrx : rxAlive cfg s = true)
      (hacc : s.rx.accActive = true) :
      TakeoverMove cfg s
        { s with longtxGate := true, takeover := .overlapping (s.now + cfg.overlap) }
  | callInit {till : Nat} (hpc : s.takeover = .overlapping till) (htill : till ≤ s.now) :
      TakeoverMove cfg s { s with takeover := .initialising s.rx.census21b s.crzInfoTx }
  | stillSending {n0 o0 till : Nat} (hpc : s.takeover = .verifying n0 o0 till) (htill : till ≤ s.now)
      (hseen : foreign s.rx.census21b n0 s.crzInfoTx o0 > 20) : TakeoverMove cfg s (abort s)
  | complete {n0 o0 till : Nat} (hpc : s.takeover = .verifying n0 o0 till) (htill : till ≤ s.now)
      (hseen : foreign s.rx.census21b n0 s.crzInfoTx o0 ≤ 20) :
      TakeoverMove cfg s { s with handoverDone := true, takeover := .driving }
  | drop (hpc : s.takeover = .driving) :
      TakeoverMove cfg s { s with radarHold := false, takeover := .dropped }
  | clear (hpc : s.takeover = .dropped) :
      TakeoverMove cfg s { s with handoverDone := false, takeover := .releasing s.now }
  | listen {tRel : Nat} (hpc : s.takeover = .releasing tRel) :
      TakeoverMove cfg s { s with takeover := .listening tRel s.rx.census361 (s.now + 1000) }
  | giveUp {tRel : Nat} (hpc : s.takeover = .releasing tRel) :
      TakeoverMove cfg s { s with longtxGate := false, takeover := .returned }
  | back {tRel c0 till : Nat} (hpc : s.takeover = .listening tRel c0 till) :
      TakeoverMove cfg s { s with longtxGate := false, takeover := .rearming }
  | again {tRel c0 till : Nat} (hpc : s.takeover = .listening tRel c0 till) :
      TakeoverMove cfg s { s with takeover := .releasing tRel }
  | rearm (hpc : s.takeover = .rearming) (hstop : s.stopFlag = false) :
      TakeoverMove cfg s { s with radarHold := true, takeover := .waiting }

theorem takeoverStep_move (cfg : Config) (s : Sys) :
    TakeoverMove cfg s (takeoverStep cfg s) := by
  unfold takeoverStep
  cases hpc : s.takeover with
  | waiting =>
    dsimp only
    split
    · next hstop => exact .quit hstop
    · next hstop =>
      split
      · exact .stay
      · next hlive =>
        simp only [Bool.or_eq_true, Bool.not_eq_true', not_or, Bool.not_eq_false] at hlive
        exact .enter hpc (by simpa using hstop) hlive.1 hlive.2
  | overlapping till =>
    dsimp only
    split
    · exact .stay
    · exact .callInit hpc (by omega)
  | initialising n0 o0 => exact .stay
  | verifying n0 o0 till =>
    dsimp only
    split
    · exact .stay
    · split
      · next hseen => exact .stillSending hpc (by omega) hseen
      · exact .complete hpc (by omega) (by omega)
  | driving =>
    dsimp only
    split
    · exact .stay
    · split
      · next hstop => exact .quit hstop
      · exact .drop hpc
  | dropped => exact .clear hpc
  | releasing tRel =>
    dsimp only
    split
    · next hstop => exact .quit hstop
    · split
      · exact .listen hpc
      · exact .giveUp hpc
  | listening tRel c0 till =>
    dsimp only
    split
    · exact .stay
    · split
      · exact .back hpc
      · exact .again hpc
  | rearming =>
    dsimp only
    split
    · next hstop => exact .quit hstop
    · next hstop => exact .rearm hpc (by simpa using hstop)
  | returned => exact .stay

def Rearms (s : Sys) (e : Event) : Prop :=
  e = .takeover ∧ s.takeover = .rearming ∧ s.stopFlag = false

def TakeoverPc.released : TakeoverPc → Bool
  | .dropped | .releasing _ | .listening _ _ _ | .rearming => true
  | _ => false

/-! ## The moves of long_tx_thread -/

theorem testerPresent_eq (ok : Bool) (s : Sys) :
    ∃ r : Radar, r.silent = s.radar.silent ∧ testerPresent ok s = { s with radar := r } := by
  cases ok with
  | true => exact ⟨{ s.radar with lastTp := s.now }, rfl, rfl⟩
  | false => exact ⟨s.radar, rfl, rfl⟩

def Sys.rebaselined (s : Sys) (t : Nat) : Watch :=
  { t := t, census := s.rx.census21b, ours := s.crzInfoTx }

inductive LongTxMove (cfg : Config) (s : Sys) : Sys → Prop where
  | quit (hpc : s.longTx = .top) (hstop : s.stopFlag = true) :
      LongTxMove cfg s { s with longTx := .returned }
  | dead (hpc : s.longTx = .top) (hhold : s.radarHold = true) (hrx : rxAlive cfg s = false) :
      LongTxMove cfg s { s with longTx := .latching s.now }
  | live (hpc : s.longTx = .top) : LongTxMove cfg s { s with longTx := .keepAlive s.now }
  | latch {now : Nat} (hpc : s.longTx = .latching now) :
      LongTxMove cfg s { s with radarHold := false, longTx := .keepAlive now }
  | hold {now tpLast : Nat} {radar : Radar} (hpc : s.longTx = .keepAlive now)
      (hsilent : radar.silent = s.radar.silent) :
      LongTxMove cfg s { s with tpLast := tpLast, longTx := .watchdog now, radar := radar }
  | skip {now : Nat} (hpc : s.longTx = .watchdog now) (hdone : s.handoverDone = false) :
      LongTxMove cfg s { s with watch := s.rebaselined now, longTx := .sending }
  | early {now : Nat} (hpc : s.longTx = .watchdog now) (hdone : s.handoverDone = true)
      (hdue : ¬ now - s.watch.t ≥ 2000) : LongTxMove cfg s { s with longTx := .sending }
  | quiet {now : Nat} (hpc : s.longTx = .watchdog now) (hdone : s.handoverDone = true)
      (hdue : now - s.watch.t ≥ 2000) :
      LongTxMove cfg s { s with watch := s.rebaselined now, longTx := .sending }
  | giveUp {now : Nat} (hpc : s.longTx = .watchdog now) (hdone : s.handoverDone = true)
      (hdue : now - s.watch.t ≥ 2000)
      (hseen : foreign s.rx.census21b s.watch.census s.crzInfoTx s.watch.ours > 20)
      (htries : s.radarResuppress + 1 > 3) :
      LongTxMove cfg s
        { s with
          watch := s.rebaselined now
          radarResuppress := s.radarResuppress + 1
          longHalted := true
          longTx := .returned }
  | reenter {now : Nat} {radar : Radar} (hpc : s.longTx = .watchdog now)
      (hdone : s.handoverDone = true) (hdue : now - s.watch.t ≥ 2000)
      (hsilent : radar.silent = s.radar.silent) :
      LongTxMove cfg s
        { s with
          watch := s.rebaselined now
          radarResuppress := s.radarResuppress + 1
          longTx := .reentering s.rx.census21b (s.now + 1000)
          radar := radar }
  | stay (hpc : s.longTx = .returned ∨ ∃ c0 till, s.longTx = .reentering c0 till ∧ s.now < till) :
      LongTxMove cfg s s
  | failed {c0 till : Nat} (hpc : s.longTx = .reentering c0 till) (htill : till ≤ s.now)
      (hseen : s.rx.census21b - c0 > 5) :
      LongTxMove cfg s { s with longHalted := true, longTx := .returned }
  | resume {c0 till : Nat} (hpc : s.longTx = .reentering c0 till) (htill : till ≤ s.now)
      (hseen : ¬ s.rx.census21b - c0 > 5) :
      LongTxMove cfg s { s with watch := s.rebaselined s.now, longTx := .top }
  | again (hpc : s.longTx = .sending) : LongTxMove cfg s { s with longTx := .top }

theorem longTxStep_move (cfg : Config) (ok : Bool) (s : Sys) :
    LongTxMove cfg s (longTxStep cfg ok s) := by
  unfold longTxStep
  cases hpc : s.longTx with
  | top =>
    dsimp only
    split
    · next hstop => exact .quit hpc hstop
    · split
      · next hdead =>
        simp only [Bool.and_eq_true, Bool.not_eq_true'] at hdead
        exact .dead hpc hdead.1 hdead.2
      · exact .live hpc
  | latching now => exact .latch hpc
  | keepAlive now =>
    dsimp only
    split
    · obtain ⟨r, hr, heq⟩ := testerPresent_eq ok { s with tpLast := now, longTx := .watchdog now }
      rw [heq]
      exact .hold hpc hr
    · exact .hold hpc rfl
  | watchdog now =>
    dsimp only
    split
    · next hnot => exact .skip hpc (by simpa using hnot)
    · next hdone =>
      have hdone' : s.handoverDone = true := by simpa using hdone
      split
      · next hdue =>
        split
        · next hseen =>
          split
          · next htries => exact .giveUp hpc hdone' hdue hseen htries
          · exact .reenter hpc hdone' hdue rfl
        · exact .quiet hpc hdone' hdue
      · next hdue => exact .early hpc hdone' hdue
  | reentering c0 till =>
    dsimp only
    split
    · next htill => exact .stay (.inr ⟨c0, till, hpc, htill⟩)
    · next htill =>
      split
      · next hseen => exact .failed hpc (not_lt.1 htill) hseen
      · next hseen => exact .resume hpc (not_lt.1 htill) hseen
  | sending => exact .again hpc
  | returned => exact .stay (.inl hpc)

/-! ## What long_tx_thread leaves alone -/

/-- The next step of `long_tx_thread` returns: the stop flag, a fourth return of the radar, or a
failed re-entry. -/
def longTxExits (s : Sys) : Bool :=
  match s.longTx with
  | .top => s.stopFlag
  | .watchdog now =>
    s.handoverDone && decide (now - s.watch.t ≥ 2000) &&
      decide (foreign s.rx.census21b s.watch.census s.crzInfoTx s.watch.ours > 20) &&
      decide (s.radarResuppress + 1 > 3)
  | .reentering c0 till => decide (till ≤ s.now) && decide (s.rx.census21b - c0 > 5)
  | _ => false

def LongTxPc.isLatching : LongTxPc → Bool
  | .latching _ => true
  | _ => false

/-- What a step of `long_tx_thread` keeps of the state. It lets go of the radar only when the
dead-man's switch latches, and sets `long_halted` only when it returns. -/
structure LongTxEffect (s s' : Sys) : Prop where
  takeover : s'.takeover = s.takeover
  gate : s'.longtxGate = s.longtxGate
  silent : s'.radar.silent = s.radar.silent
  hold : s'.radarHold = (s.radarHold && !s.longTx.isLatching)
  halted : s'.longHalted = s.longHalted ∨ s'.longTx = .returned
  returned : s.longTx = .returned → s'.longTx = .returned
  exits : s'.longTx = .returned → s.longTx = .returned ∨ longTxExits s = true

theorem LongTxEffect.next {s s' : Sys} (hpc : s.longTx ≠ .returned) (hnext : s'.longTx ≠ .returned)
    (htake : s'.takeover = s.takeover) (hgate : s'.longtxGate = s.longtxGate)
    (hsilent : s'.radar.silent = s.radar.silent)
    (hhold : s'.radarHold = (s.radarHold && !s.longTx.isLatching))
    (hhalt : s'.longHalted = s.longHalted) : LongTxEffect s s' :=
  ⟨htake, hgate, hsilent, hhold, .inl hhalt, fun h => absurd h hpc, fun h => absurd h hnext⟩

theorem hold_of_not_latching {s : Sys} (h : s.longTx.isLatching = false) :
    s.radarHold = (s.radarHold && !s.longTx.isLatching) := by
  simp [h]

theorem LongTxMove.effect {cfg : Config} {s s' : Sys} (hm : LongTxMove cfg s s') :
    LongTxEffect s s' := by
  have hkeep : ∀ {pc : LongTxPc}, s.longTx = pc → pc.isLatching = false →
      s.radarHold = (s.radarHold && !s.longTx.isLatching) := by
    intro pc hpc hnot
    exact hold_of_not_latching (by rw [hpc]; exact hnot)
  cases hm with
  | quit hpc hstop =>
    refine ⟨rfl, rfl, rfl, hkeep hpc rfl, .inl rfl, fun _ => rfl, fun _ => .inr ?_⟩
    simpa only [longTxExits, hpc] using hstop
  | latch hpc =>
    have hhold : false = (s.radarHold && !s.longTx.isLatching) := by
      simp [hpc, LongTxPc.isLatching]
    exact .next (by simp [hpc]) (by simp) rfl rfl rfl hhold rfl
  | hold hpc hsilent =>
    exact .next (by simp [hpc]) (by simp) rfl rfl hsilent (hkeep hpc rfl) rfl
  | giveUp hpc hdone hdue hseen htries =>
    refine ⟨rfl, rfl, rfl, hkeep hpc rfl, .inr rfl, fun _ => rfl, fun _ => .inr ?_⟩
    simp only [longTxExits, hpc, hdone, decide_eq_true hdue, decide_eq_true hseen,
      decide_eq_true htries, Bool.and_self]
  | reenter hpc hdone hdue hsilent =>
    exact .next (by simp [hpc]) (by simp) rfl rfl hsilent (hkeep hpc rfl) rfl
  | stay hpc =>
    have hnot : s.longTx.isLatching = false := by
      rcases hpc with hpc | ⟨c0, till, hpc, _⟩
      · rw [hpc]
        rfl
      · rw [hpc]
        rfl
    exact ⟨rfl, rfl, rfl, hold_of_not_latching hnot, .inl rfl, id, .inl⟩
  | failed hpc htill hseen =>
    refine ⟨rfl, rfl, rfl, hkeep hpc rfl, .inr rfl, fun _ => rfl, fun _ => .inr ?_⟩
    simp only [longTxExits, hpc, decide_eq_true htill, decide_eq_true hseen, Bool.and_self]
  | dead hpc hhold hrx => exact .next (by simp [hpc]) (by simp) rfl rfl rfl (hkeep hpc rfl) rfl
  | live hpc => exact .next (by simp [hpc]) (by simp) rfl rfl rfl (hkeep hpc rfl) rfl
  | skip hpc hdone => exact .next (by simp [hpc]) (by simp) rfl rfl rfl (hkeep hpc rfl) rfl
  | early hpc hdone hdue => exact .next (by simp [hpc]) (by simp) rfl rfl rfl (hkeep hpc rfl) rfl
  | quiet hpc hdone hdue => exact .next (by simp [hpc]) (by simp) rfl rfl rfl (hkeep hpc rfl) rfl
  | resume hpc htill hseen => exact .next (by simp [hpc]) (by simp) rfl rfl rfl (hkeep hpc rfl) rfl
  | again hpc => exact .next (by simp [hpc]) (by simp) rfl rfl rfl (hkeep hpc rfl) rfl

theorem longTxStep_effect (cfg : Config) (ok : Bool) (s : Sys) :
    LongTxEffect s (longTxStep cfg ok s) := (longTxStep_move cfg ok s).effect

theorem LongTxEffect.hold_mono {s s' : Sys} (he : LongTxEffect s s') (h : s'.radarHold = true) :
    s.radarHold = true := by
  rw [he.hold, Bool.and_eq_true] at h
  exact h.1

theorem longTxStep_exits {cfg : Config} {ok : Bool} {s : Sys} (h : longTxExits s = true) :
    (longTxStep cfg ok s).longTx = .returned := by
  cases hpc : s.longTx with
  | top =>
    simp only [longTxExits, hpc] at h
    simp [longTxStep, hpc, h]
  | watchdog now =>
    simp only [longTxExits, hpc, Bool.and_eq_true, decide_eq_true_eq] at h
    obtain ⟨⟨⟨hdone, hdue⟩, hseen⟩, htries⟩ := h
    simp [longTxStep, hpc, hdone, hdue, hseen, htries]
  | reentering c0 till =>
    simp only [longTxExits, hpc, Bool.and_eq_true, decide_eq_true_eq] at h
    simp [longTxStep, hpc, not_lt.2 h.1, h.2]
  | _ => simp [longTxExits, hpc] at h

theorem frameStep_eq (f : LongFrame) (ok : Bool) (s : Sys) :
    ∃ (r : Radar) (n : Nat), r.silent = s.radar.silent ∧
      frameStep f ok s = { s with radar := r, crzInfoTx := n } := by
  unfold frameStep
  split
  · cases f with
    | testerPresent =>
      by_cases hhold : s.radarHold = true
      · obtain ⟨r, hr, heq⟩ := testerPresent_eq ok s
        exact ⟨r, s.crzInfoTx, hr, (if_pos hhold).trans heq⟩
      · exact ⟨s.radar, s.crzInfoTx, rfl, if_neg hhold⟩
    | crzInfo =>
      by_cases hgate : s.longtxGate = true
      · exact ⟨s.radar, s.crzInfoTx + ok.toNat, rfl, if_pos hgate⟩
      · exact ⟨s.radar, s.crzInfoTx, rfl, if_neg hgate⟩
  · exact ⟨s.radar, s.crzInfoTx, rfl, rfl⟩

/-! ## Steps of neither thread -/

/-- The events in which a thread, or `CarInterface.init` on its behalf, moves on. -/
def Event.ofThread : Event → Bool
  | .takeover | .initEnds _ | .longTx _ => true
  | _ => false

/-- `s'` has the flags, the threads and `long_halted` of `s`. -/
structure Outside (s s' : Sys) : Prop where
  takeover : s'.takeover = s.takeover
  gate : s'.longtxGate = s.longtxGate
  hold : s'.radarHold = s.radarHold
  longTx : s'.longTx = s.longTx
  halted : s'.longHalted = s.longHalted

theorem step_outside (cfg : Config) (s : Sys) {e : Event} (he : e.ofThread = false) :
    Outside s (step cfg s e) := by
  cases e with
  | tick ms => exact ⟨rfl, rfl, rfl, rfl, rfl⟩
  | stop => exact ⟨rfl, rfl, rfl, rfl, rfl⟩
  | rx n21b n361 acc => exact ⟨rfl, rfl, rfl, rfl, rfl⟩
  | initSends ok =>
    simp only [step]
    split
    · exact ⟨rfl, rfl, rfl, rfl, rfl⟩
    · exact ⟨rfl, rfl, rfl, rfl, rfl⟩
  | frame f ok =>
    obtain ⟨r, n, -, heq⟩ := frameStep_eq f ok s
    simp only [step, heq]
    exact ⟨rfl, rfl, rfl, rfl, rfl⟩
  | deliver accepted =>
    simp only [step, deliverStep]
    split
    · exact ⟨rfl, rfl, rfl, rfl, rfl⟩
    · split
      · exact ⟨rfl, rfl, rfl, rfl, rfl⟩
      · exact ⟨rfl, rfl, rfl, rfl, rfl⟩
  | wake =>
    simp only [step, wakeStep]
    split
    · exact ⟨rfl, rfl, rfl, rfl, rfl⟩
    · exact ⟨rfl, rfl, rfl, rfl, rfl⟩
  | takeover => cases he
  | initEnds raises => cases he
  | longTx ok => cases he

end EngageFirst
end MazdaPort
