import MazdaPort.Gps.Reader
import MazdaPort.Lib.Latest
import Mathlib.Tactic.Linarith

/-!
# MazdaPort.Gps.Freshness

How old the position that `fix` returns can be.

`_publish` stamps the whole record, also when only the speed in it is new, and a GGA sentence
without a fix clears the published record but not `partial`. So an RMC sentence puts back an
old or a dropped position. `fix_fresh_iff` says when this does not happen.
-/

namespace MazdaPort
namespace Gps

open GpsReader

structure Arrival where
  time : ℚ
  line : List Char

variable {F : Type} [PyFloat F]

namespace Arrival

def Says (a : Arrival) (x : Sentence F) : Prop := Sentence.read a.line = .ok x

variable (F) in
def LosesFix (a : Arrival) : Prop := a.Says (F := F) .noFix

variable (F) in
/-- A GGA sentence with a position and a quality other than 0. -/
def HasPosition (a : Arrival) : Prop := ∃ p : Position F, a.Says (.position p)

variable (F) in
def HasMotion (a : Arrival) : Prop := ∃ m : Motion F, a.Says (.motion m)

variable (F) in
def Refreshes (a : Arrival) : Prop := a.HasPosition F ∨ a.HasMotion F

theorem Says.inj {a : Arrival} {x y : Sentence F} (hx : a.Says x) (hy : a.Says y) : x = y :=
  Except.ok.inj (hx.symm.trans hy)

theorem Says.not_position {a : Arrival} {x : Sentence F} (hx : a.Says x)
    (hne : ∀ p, x ≠ .position p) : ¬ a.HasPosition F := by
  rintro ⟨p, hp⟩
  exact hne p (hx.inj hp)

theorem Says.not_refreshes {a : Arrival} {x : Sentence F} (hx : a.Says x)
    (hpos : ∀ p, x ≠ .position p) (hmot : ∀ m, x ≠ .motion m) : ¬ a.Refreshes F := by
  rintro (h | ⟨m, hm⟩)
  · exact hx.not_position hpos h
  · exact hmot m (hx.inj hm)

end Arrival

/-! ## Runs -/

def consumeAll (s : GpsReader F) (h : List Arrival) : Except PyError (GpsReader F) :=
  h.foldlM (fun s a => consume a.time a.line s) s

theorem consumeAll_snoc {s s' : GpsReader F} {h : List Arrival} {a : Arrival}
    (hrun : consumeAll s (h ++ [a]) = .ok s') :
    ∃ s₁ x, consumeAll s h = .ok s₁ ∧ a.Says x ∧ s' = Sentence.apply a.time s₁ x := by
  unfold consumeAll at hrun ⊢
  rw [List.foldlM_append] at hrun
  cases hh : h.foldlM (fun s a => consume a.time a.line s) s with
  | error e => simp [hh, bind, Except.bind] at hrun
  | ok s₁ =>
    rw [hh] at hrun
    cases hc : consume a.time a.line s₁ with
    | error e => simp [hc, bind, Except.bind] at hrun
    | ok s₂ =>
      obtain ⟨x, hx, hs₂⟩ := consume_ok hc
      have hs : s₂ = s' := by simpa [hc, bind, Except.bind, pure, Except.pure] using hrun
      exact ⟨s₁, x, rfl, hx, hs ▸ hs₂⟩

/-- The reader holds the position `p` after `h`: the latest GGA position, published by the latest
refreshing sentence unless the fix was lost since. -/
structure Holds (h : List Arrival) (s : GpsReader F) (p : Position F) : Prop where
  position : ∃ g since, Latest (Arrival.HasPosition F) h g since ∧ g.Says (.position p)
  refresh : ∃ r since, Latest (Arrival.Refreshes F) h r since ∧ s.lastT = r.time ∧
    (s.lastFix = none ↔ ∃ b ∈ since, b.LosesFix F)
  served : ∀ d, s.lastFix = some d → d.position = p

structure Tracks (h : List Arrival) (s : GpsReader F) : Prop where
  idle : s.partialFix.position = none →
    s.lastFix = none ∧ ∀ a ∈ h, ¬ a.HasPosition F
  held : ∀ p, s.partialFix.position = some p → Holds h s p

theorem tracks_init : Tracks [] (init : GpsReader F) where
  idle _ := ⟨rfl, by simp⟩
  held _ hp := by cases hp

theorem forall_mem_snoc {h : List Arrival} {a : Arrival} {P : Arrival → Prop}
    (hh : ∀ b ∈ h, P b) (ha : P a) : ∀ b ∈ h ++ [a], P b := by
  intro b hb
  rcases List.mem_append.1 hb with h' | h'
  · exact hh b h'
  · rw [List.mem_singleton.1 h']
    exact ha

/-- A sentence that refreshes nothing leaves the position held, and drops the published fix
exactly when it loses the fix. -/
theorem Holds.keep {h : List Arrival} {s s' : GpsReader F} {p : Position F} {a : Arrival}
    (hh : Holds h s p) (hnot : ¬ a.Refreshes F) (hT : s'.lastT = s.lastT)
    (hfix : s'.lastFix = none ↔ s.lastFix = none ∨ a.LosesFix F)
    (hserved : ∀ d, s'.lastFix = some d → s.lastFix = some d) : Holds (h ++ [a]) s' p := by
  obtain ⟨g, sinceG, hg, hgp⟩ := hh.position
  obtain ⟨r, sinceR, hr, hrT, hrFix⟩ := hh.refresh
  refine ⟨⟨g, _, hg.snoc fun ha => hnot (.inl ha), hgp⟩, ⟨r, _, hr.snoc hnot, ?_, ?_⟩, ?_⟩
  · rw [hT, hrT]
  · rw [hfix, hrFix]
    simp [or_and_right, exists_or]
  · intro d hd
    exact hh.served d (hserved d hd)

theorem holds_publish {h : List Arrival} {s : GpsReader F} {p : Position F} {a g : Arrival}
    {since : List Arrival} (hp : s.partialFix.position = some p) (ha : a.Refreshes F)
    (hg : Latest (Arrival.HasPosition F) (h ++ [a]) g since) (hgp : g.Says (.position p)) :
    Holds (h ++ [a]) (publish a.time s) p := by
  obtain ⟨d, hd, hpub⟩ := publish_some a.time hp
  rw [hpub]
  refine ⟨⟨g, since, hg, hgp⟩, ⟨a, [], latest_snoc h ha, rfl, by simp⟩, ?_⟩
  intro d' hd'
  rw [← Option.some.inj hd', hd]

theorem Tracks.keep {h : List Arrival} {s s' : GpsReader F} (ht : Tracks h s) {a : Arrival}
    (hnot : ¬ a.Refreshes F) (hpart : s'.partialFix = s.partialFix) (hT : s'.lastT = s.lastT)
    (hfix : s'.lastFix = none ↔ s.lastFix = none ∨ a.LosesFix F)
    (hserved : ∀ d, s'.lastFix = some d → s.lastFix = some d) : Tracks (h ++ [a]) s' := by
  constructor
  · intro hnone
    rw [hpart] at hnone
    obtain ⟨hlast, hall⟩ := ht.idle hnone
    exact ⟨hfix.2 (.inl hlast), forall_mem_snoc hall fun hp => hnot (.inl hp)⟩
  · intro p hp
    rw [hpart] at hp
    exact (ht.held p hp).keep hnot hT hfix hserved

theorem Holds.tracks {h : List Arrival} {s : GpsReader F} {p : Position F}
    (hpart : s.partialFix.position = some p) (hh : Holds h s p) : Tracks h s := by
  constructor
  · intro hnone
    cases hpart.symm.trans hnone
  · intro q hq
    rw [← Option.some.inj (hpart.symm.trans hq)]
    exact hh

theorem Tracks.motion {h : List Arrival} {s : GpsReader F} (ht : Tracks h s) {a : Arrival}
    {m : Motion F} (hx : a.Says (.motion m)) :
    Tracks (h ++ [a]) (Sentence.apply a.time s (.motion m)) := by
  have hnot : ¬ a.HasPosition F := hx.not_position (by simp)
  cases hpart : s.partialFix.position with
  | none =>
    have happly : Sentence.apply a.time s (.motion m) =
        { s with partialFix := { s.partialFix with motion := some m } } :=
      publish_none a.time hpart
    rw [happly]
    refine ⟨fun _ => ⟨(ht.idle hpart).1, forall_mem_snoc (ht.idle hpart).2 hnot⟩, ?_⟩
    intro q hq
    cases hpart.symm.trans hq
  | some p =>
    obtain ⟨g, since, hg, hgp⟩ := (ht.held p hpart).position
    unfold Sentence.apply
    refine Holds.tracks ?_ (holds_publish hpart (.inr ⟨m, hx⟩) (hg.snoc hnot) hgp)
    rw [publish_partialFix]
    exact hpart

theorem Tracks.step {h : List Arrival} {s : GpsReader F} (ht : Tracks h s) {a : Arrival}
    {x : Sentence F} (hx : a.Says x) : Tracks (h ++ [a]) (Sentence.apply a.time s x) := by
  cases x with
  | noFix =>
    refine ht.keep (hx.not_refreshes (by simp) (by simp)) rfl rfl ?_ (by simp [Sentence.apply])
    simp [Sentence.apply, Arrival.LosesFix, hx]
  | position p =>
    have hpos : a.HasPosition F := ⟨p, hx⟩
    have hlatest := latest_snoc h hpos
    unfold Sentence.apply
    exact Holds.tracks rfl (holds_publish rfl (.inl hpos) hlatest hx)
  | motion m => exact ht.motion hx
  | void =>
    have hno : ¬ a.LosesFix F := fun hl => by cases hx.inj hl
    refine ht.keep (hx.not_refreshes (by simp) (by simp)) rfl rfl ?_ fun d hd => hd
    simp [Sentence.apply, hno]

theorem tracks_run {h : List Arrival} {s : GpsReader F}
    (hrun : consumeAll (init : GpsReader F) h = .ok s) : Tracks h s := by
  induction h using List.reverseRecOn generalizing s with
  | nil =>
    have hs : init = s := Except.ok.inj hrun
    rw [← hs]
    exact tracks_init
  | append_singleton h a ih =>
    obtain ⟨s₁, x, hpre, hx, rfl⟩ := consumeAll_snoc hrun
    exact (ih hpre).step hx

/-! ## Freshness -/

/-- The position `p` was carried by a GGA sentence of `h` that is at most `MAX_AGE_S` old at `now`,
and the fix was not lost after it. -/
def FreshAt (h : List Arrival) (now : ℚ) (p : Position F) : Prop :=
  ∃ pre g post, h = pre ++ g :: post ∧
    (∃ q : Position F, g.Says (.position q) ∧ q.lat = p.lat ∧ q.lon = p.lon) ∧
    now - g.time ≤ maxAgeS ∧ ∀ b ∈ post, ¬ b.LosesFix F

def ServesFresh (h : List Arrival) (s : GpsReader F) (now : ℚ) : Prop :=
  ∀ d, s.fix now = some d → FreshAt h now d.position

variable (F) in
/-- A valid RMC sentence that counts as recent at `now`, with no fix lost after it, comes after a
latest GGA position that is recent at `now` as well, with no fix lost in between. -/
def NoRevival (h : List Arrival) (now : ℚ) : Prop :=
  ∀ pre g mid r post, h = pre ++ g :: mid ++ r :: post →
    g.HasPosition F → (∀ b ∈ mid ++ r :: post, ¬ b.HasPosition F) →
    r.HasMotion F → now - r.time ≤ maxAgeS → (∀ b ∈ post, ¬ b.LosesFix F) →
    now - g.time ≤ maxAgeS ∧ ∀ b ∈ mid, ¬ b.LosesFix F

/-- The latest refreshing sentence is the latest position, or a motion after it. -/
theorem refresh_cases {h sinceG sinceR : List Arrival} {g r : Arrival}
    (hg : Latest (Arrival.HasPosition F) h g sinceG)
    (hr : Latest (Arrival.Refreshes F) h r sinceR) :
    (g = r ∧ sinceG = sinceR) ∨ (r.HasMotion F ∧ ∃ mid, sinceG = mid ++ r :: sinceR) := by
  obtain ⟨pre, hsplit⟩ := hg.split
  rcases hr.eq_or_before hsplit (.inl hg.here) with heq | ⟨mid, hmid⟩
  · exact .inl heq
  · refine .inr ⟨?_, mid, hmid⟩
    refine hr.here.resolve_left fun hpos => hg.since_not r ?_ hpos
    simp [hmid]

theorem servesFresh_of_noRevival {h : List Arrival} {s : GpsReader F} (ht : Tracks h s) {now : ℚ}
    (hno : NoRevival F h now) : ServesFresh h s now := by
  intro d hd
  obtain ⟨hlast, hage⟩ := fix_eq_some.1 hd
  cases hpart : s.partialFix.position with
  | none =>
    rw [(ht.idle hpart).1] at hlast
    cases hlast
  | some p =>
    have hheld : Holds h s p := ht.held p hpart
    obtain ⟨g, sinceG, hg, hgp⟩ := hheld.position
    obtain ⟨r, sinceR, hr, hrT, hrFix⟩ := hheld.refresh
    have hkept : ∀ b ∈ sinceR, ¬ b.LosesFix F := by
      intro b hb hlost
      rw [hrFix.2 ⟨b, hb, hlost⟩] at hlast
      cases hlast
    rw [hrT] at hage
    rw [hheld.served d hlast]
    obtain ⟨pre, hsplit⟩ := hg.split
    rcases refresh_cases hg hr with ⟨rfl, rfl⟩ | ⟨hmot, mid, rfl⟩
    · exact ⟨pre, g, sinceG, hsplit, ⟨p, hgp, rfl, rfl⟩, hage, hkept⟩
    · have hsplit' : h = pre ++ g :: mid ++ r :: sinceR := by simp [hsplit]
      obtain ⟨hgage, hmid⟩ :=
        hno pre g mid r sinceR hsplit' hg.here hg.since_not hmot hage hkept
      refine ⟨pre, g, _, hsplit, ⟨p, hgp, rfl, rfl⟩, hgage, ?_⟩
      intro b hb
      rcases List.mem_append.1 hb with hm | hm
      · exact hmid b hm
      · rcases List.mem_cons.1 hm with rfl | hm
        · obtain ⟨m, hm⟩ := hmot
          exact fun hl => by cases hm.inj hl
        · exact hkept b hm

theorem time_le {h pre mid post : List Arrival} {a b : Arrival}
    (hmono : h.Pairwise fun a b => a.time ≤ b.time) (hsplit : h = pre ++ a :: mid ++ b :: post) :
    a.time ≤ b.time :=
  pairwise_of_split (R := fun a b => a.time ≤ b.time) hmono hsplit

theorem noRevival_of_servesFresh {h : List Arrival} {s : GpsReader F} (ht : Tracks h s)
    (hmono : h.Pairwise fun a b => a.time ≤ b.time) {now : ℚ} (hfresh : ServesFresh h s now) :
    NoRevival F h now := by
  intro pre g mid r post hsplit hg hnot hmot hage hpost
  have hlatest : Latest (Arrival.HasPosition F) h g (mid ++ r :: post) :=
    ⟨⟨pre, by simp [hsplit]⟩, hg, hnot⟩
  cases hpart : s.partialFix.position with
  | none =>
    have hmem : g ∈ h := by simp [hsplit]
    exact absurd hg ((ht.idle hpart).2 g hmem)
  | some p =>
    have hheld : Holds h s p := ht.held p hpart
    obtain ⟨u, sinceU, hu, huT, huFix⟩ := hheld.refresh
    -- the motion `r` is the latest refreshing sentence or older, so that one is recent and kept
    obtain ⟨hru, hkept⟩ : r.time ≤ u.time ∧ ∀ b ∈ sinceU, ¬ b.LosesFix F := by
      rcases hu.eq_or_before hsplit (.inr hmot) with ⟨rfl, rfl⟩ | ⟨mid', rfl⟩
      · exact ⟨le_refl _, hpost⟩
      · refine ⟨?_, fun b hb => hpost b (by simp [hb])⟩
        have hsplit' : h = (pre ++ g :: mid) ++ r :: mid' ++ u :: sinceU := by simp [hsplit]
        exact time_le hmono hsplit'
    cases hlast : s.lastFix with
    | none =>
      obtain ⟨b, hb, hlost⟩ := huFix.1 hlast
      exact absurd hlost (hkept b hb)
    | some d =>
      have hfix : s.fix now = some d := by
        refine fix_eq_some.2 ⟨hlast, ?_⟩
        rw [huT]
        linarith
      obtain ⟨pre', g', post', hsplit', ⟨q, hq, -, -⟩, hage', hpost'⟩ := hfresh d hfix
      rcases hlatest.eq_or_before hsplit' ⟨q, hq⟩ with ⟨rfl, rfl⟩ | ⟨mid', rfl⟩
      · exact ⟨hage', fun b hb => hpost' b (by simp [hb])⟩
      · have hle : g'.time ≤ g.time := by
          have hsplit₂ : h = pre' ++ g' :: mid' ++ g :: (mid ++ r :: post) := by simp [hsplit']
          exact time_le hmono hsplit₂
        exact ⟨by linarith, fun b hb => hpost' b (by simp [hb])⟩

/-- `fix` serves no stale and no dropped position exactly when no RMC sentence revives one. -/
theorem fix_fresh_iff {h : List Arrival} {s : GpsReader F}
    (hrun : consumeAll (init : GpsReader F) h = .ok s)
    (hmono : h.Pairwise fun a b => a.time ≤ b.time) (now : ℚ) :
    ServesFresh h s now ↔ NoRevival F h now :=
  ⟨noRevival_of_servesFresh (tracks_run hrun) hmono, servesFresh_of_noRevival (tracks_run hrun)⟩

/-! ## A revived position -/

def ggaFix : List Char := "$GPGGA,120000,4530.00,N,09000.00,W,1,08,1.0,50.0,M*37".toList

def ggaNoFix : List Char := "$GPGGA,120001,,,,,0,00,,,M*29".toList

def rmcValid : List Char := "$GPRMC,120010,A,4530.00,N,09000.00,W,0.0,0.0,010126*02".toList

def fixPosition : Position Exact :=
  { lat := .fin 45.5
    lon := .fin (-90)
    quality := 1
    sats := 8
    hdop := .fin 1
    altM := .fin 50 }

def standstill : Motion Exact :=
  { speedMps := .fin 0
    headingDeg := none }

theorem read_rmcValid : Sentence.read rmcValid = .ok (.motion standstill) := by decide +kernel

def revival : List Arrival := [⟨0, ggaFix⟩, ⟨1, ggaNoFix⟩, ⟨10, rmcValid⟩]

def revived : GpsReader Exact :=
  { lastFix := some { position := fixPosition, motion := standstill, t := 10 }
    lastT := 10
    partialFix := { position := some fixPosition, motion := some standstill } }

theorem consumeAll_revival : consumeAll init revival = .ok revived := by decide +kernel

theorem revival_mono : revival.Pairwise fun a b => a.time ≤ b.time := by
  simp only [revival, List.pairwise_cons, List.mem_cons, List.not_mem_nil, or_false,
    forall_eq_or_imp, forall_eq, false_imp_iff, implies_true, List.Pairwise.nil, and_true]
  norm_num

/-- Eleven seconds after the position, and ten after the loss of the fix, `fix` returns it. -/
theorem rmc_revives_position :
    ¬ ∀ (h : List Arrival) (s : GpsReader Exact), consumeAll init h = .ok s →
      h.Pairwise (fun a b => a.time ≤ b.time) →
      ∀ now, (∀ a ∈ h, a.time ≤ now) → ServesFresh h s now := by
  intro hall
  have hlater : ∀ a ∈ revival, a.time ≤ 11 := by
    simp only [revival, List.mem_cons, List.not_mem_nil, or_false, forall_eq_or_imp, forall_eq]
    norm_num
  have hfix : revived.fix 11 = some ⟨fixPosition, standstill, 10⟩ := by decide +kernel
  obtain ⟨pre, g, post, hsplit, ⟨q, hq, -, -⟩, hage, -⟩ :=
    hall revival revived consumeAll_revival revival_mono 11 hlater _ hfix
  have hmem : g ∈ revival := by simp [hsplit]
  simp only [revival, List.mem_cons, List.not_mem_nil, or_false] at hmem
  rcases hmem with rfl | rfl | rfl
  · norm_num [maxAgeS] at hage
  · norm_num [maxAgeS] at hage
  · cases Except.ok.inj (hq.symm.trans read_rmcValid)

theorem fix_fresh_iff_revival : ServesFresh revival revived 11 ↔ NoRevival Exact revival 11 :=
  fix_fresh_iff consumeAll_revival revival_mono 11

end Gps
end MazdaPort
