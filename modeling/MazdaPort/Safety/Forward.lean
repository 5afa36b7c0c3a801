import MazdaPort.Safety.Authority

/-!
# MazdaPort.Safety.Forward

Who may speak on the car's bus. This board has no relay: what the camera sends reaches the car only
through `safety_fwd_hook`, and the host only through `safety_tx_hook`. Both read the transmit table
of the mode, under different flags.

* `Tables` is the invariant of every run: the mode, its hooks and its table belong together.
* `steering_exclusive`: the camera's 0x243 and the host's never have the bus at the same time,
  everything else passes both ways, and the relay latch stops all of it.
-/

namespace MazdaPort
namespace Safety

/-! ## The tables of a mode -/

/-- The table of each mode that is modelled in full, or none after a change to a mode that is not
registered. Both of these modes forward. -/
def HooksTable (b : Build) (cfg : SafetyConfig) : HooksId → Prop
  | .nooutput => cfg.txMsgs = [] ∧ cfg.disableForwarding = false
  | .mazda =>
    (cfg.txMsgs = [] ∨ ∃ long, cfg.txMsgs = mazdaTxTable b long) ∧ cfg.disableForwarding = false
  | .other _ => True

structure Tables (fw : Firmware) (s : SafetyState) : Prop where
  registered : fw.registry s.currentSafetyMode = some s.currentHooks
  table : HooksTable fw.build s.currentSafetyConfig s.currentHooks

theorem HooksTable.congr {b : Build} {cfg cfg' : SafetyConfig} {id : HooksId}
    (h : HooksTable b cfg id) (ht : cfg'.txMsgs = cfg.txMsgs)
    (hf : cfg'.disableForwarding = cfg.disableForwarding) : HooksTable b cfg' id := by
  cases id with
  | nooutput => exact ⟨ht.trans h.1, hf.trans h.2⟩
  | mazda =>
    refine ⟨?_, hf.trans h.2⟩
    rcases h.1 with h0 | ⟨long, hl⟩
    · exact .inl (ht.trans h0)
    · exact .inr ⟨long, ht.trans hl⟩
  | other mode => trivial

theorem step_sameMode (fw : Firmware) (s : SafetyState) {e : Event} (he : e.keepsMode = true) :
    SameMode s (step fw s e) := by
  cases e with
  | rx ts msg => exact ⟨rfl, rfl, rfl, rfl⟩
  | tx ts msg => exact tx_sameMode fw ts msg s
  | tick ts hb =>
    obtain ⟨n, b, ht⟩ := step_tick_eq fw ts hb s
    rw [ht]
    exact ⟨rfl, rfl, rfl, rfl⟩
  | setMode mode param => cases he

theorem Tables.of_sameMode {fw : Firmware} {s s' : SafetyState} (h : Tables fw s)
    (hs : SameMode s s') : Tables fw s' := by
  refine ⟨?_, ?_⟩
  · rw [hs.currentSafetyMode, hs.currentHooks]
    exact h.registered
  · rw [hs.currentHooks]
    exact h.table.congr hs.txMsgs hs.disableForwarding

theorem tables_setMode {fw : Firmware} (hn : fw.build.pandaNucleo = true) {s : SafetyState}
    (h : Tables fw s) (mode param : UInt16) : Tables fw (step fw s (.setMode mode param)) := by
  simp only [step, setSafetyHooks]
  cases hr : fw.registry mode with
  | none =>
    refine ⟨h.registered, ?_⟩
    have hid : ∀ id, HooksTable fw.build {} id := by
      intro id
      cases id with
      | nooutput => exact ⟨rfl, rfl⟩
      | mazda => exact ⟨.inl rfl, rfl⟩
      | other mode' => trivial
    exact hid s.currentHooks
  | some id =>
    refine ⟨hr, ?_⟩
    cases id with
    | nooutput => exact ⟨rfl, by simp [Firmware.hooks, nooutputHooks, hn]⟩
    | mazda =>
      refine ⟨.inr ⟨paramLongitudinal param, ?_⟩, ?_⟩
      · simp only [Firmware.hooks, mazdaHooks, mazdaInit, mazdaTxTable]
        split <;> rfl
      · simp only [Firmware.hooks, mazdaHooks, mazdaInit]
        split <;> rfl
    | other mode' => trivial

theorem tables_step {fw : Firmware} (hn : fw.build.pandaNucleo = true) (s : SafetyState)
    (e : Event) (h : Tables fw s) : Tables fw (step fw s e) := by
  by_cases he : e.keepsMode = true
  · exact h.of_sameMode (step_sameMode fw s he)
  · cases e with
    | setMode mode param => exact tables_setMode hn h mode param
    | rx ts msg => exact absurd rfl he
    | tx ts msg => exact absurd rfl he
    | tick ts hb => exact absurd rfl he

theorem tables_run {fw : Firmware} (hn : fw.build.pandaNucleo = true) (statics : List Int)
    (es : List Event) : Tables fw (run fw (powerOn statics) es) := by
  have hidle : HooksTable fw.build {} .nooutput := ⟨rfl, rfl⟩
  exact Run.run_inv (tables_step hn) ⟨rfl, hidle⟩ es

/-! ## The forwarding decision -/

def staticBlocked (txMsgs : List CanMsg) (busNum addr : Nat) : Bool :=
  txMsgs.any fun m =>
    m.checkRelay && !m.disableStaticBlocking && m.addr == addr && getFwdBus busNum == some m.bus

theorem safetyFwdHook_relay {fw : Firmware} {s : SafetyState} (h : s.relayMalfunction = true)
    (busNum addr : Nat) : safetyFwdHook fw busNum addr s = none := by
  simp [safetyFwdHook, h]

/-- With forwarding on and no hook of the mode in the way, only the table blocks. -/
theorem safetyFwdHook_table {fw : Firmware} {s : SafetyState} (hr : s.relayMalfunction = false)
    (hd : s.currentSafetyConfig.disableForwarding = false)
    (hf : (fw.hooks s.currentHooks).fwd = none) (busNum addr : Nat) :
    safetyFwdHook fw busNum addr s =
      if staticBlocked s.currentSafetyConfig.txMsgs busNum addr then none
      else getFwdBus busNum := by
  simp [safetyFwdHook, staticBlocked, hr, hd, hf]

theorem Tables.fwd {fw : Firmware} {s : SafetyState} (h : Tables fw s)
    (hid : s.currentHooks = .mazda) : (fw.hooks s.currentHooks).fwd = none ∧
      s.currentSafetyConfig.disableForwarding = false := by
  have ht := h.table
  rw [hid] at ht ⊢
  exact ⟨rfl, ht.2⟩

theorem staticBlocked_append (xs ys : List CanMsg) (busNum addr : Nat) :
    staticBlocked (xs ++ ys) busNum addr =
      (staticBlocked xs busNum addr || staticBlocked ys busNum addr) := List.any_append

theorem staticBlocked_unchecked {txMsgs : List CanMsg} (h : ∀ m ∈ txMsgs, m.checkRelay = false)
    (busNum addr : Nat) : staticBlocked txMsgs busNum addr = false := by
  simp only [staticBlocked, List.any_eq_false]
  intro m hm
  simp [h m hm]

/-- On this build the table blocks nothing but the camera's 0x243. -/
theorem staticBlocked_mazda {b : Build} (hn : b.pandaNucleo = true) (long : Bool)
    (busNum addr : Nat) :
    staticBlocked (mazdaTxTable b long) busNum addr = true ↔
      addr = mazdaLkas ∧ getFwdBus busNum = some 0 := by
  have hbase : staticBlocked (mazdaTxMsgs b) busNum addr = true ↔
      addr = mazdaLkas ∧ getFwdBus busNum = some 0 := by
    simp only [staticBlocked, mazdaTxMsgs, hn, List.any_cons, List.any_nil, Bool.not_false,
      Bool.not_true, Bool.and_false, Bool.false_and, Bool.and_true, Bool.true_and, Bool.or_false,
      Bool.and_eq_true, beq_iff_eq]
    exact and_congr_left' eq_comm
  cases long with
  | false => exact hbase
  | true =>
    have hshadow : ∀ bus, ∀ m ∈ radarShadowMsgs bus, m.checkRelay = false := by
      intro bus m hm
      obtain ⟨a, _, rfl⟩ := List.mem_map.1 hm
      rfl
    have htable : mazdaTxTable b true = mazdaTxMsgs b ++ (mazdaLongTxMsgs b).drop 3 := by
      simp [mazdaTxTable, mazdaLongTxMsgs, mazdaTxMsgs]
    have hrest : ∀ m ∈ (mazdaLongTxMsgs b).drop 3, m.checkRelay = false := by
      intro m hm
      simp only [mazdaLongTxMsgs, mazdaTxMsgs, hn, if_true, List.cons_append, List.nil_append,
        List.drop_succ_cons, List.drop_zero, List.mem_cons, List.mem_append] at hm
      rcases hm with rfl | rfl | rfl | hm
      · rfl
      · rfl
      · rfl
      · rcases hm with (hm | hm) | hm
        · exact hshadow 0 m hm
        · rcases hm with rfl | rfl | hm
          · rfl
          · rfl
          · cases hm
        · exact hshadow 2 m hm
    rw [htable, staticBlocked_append, staticBlocked_unchecked hrest, Bool.or_false]
    exact hbase

/-! ## One source of steering -/

theorem registry_mode {fw : Firmware} {s : SafetyState} (h : Tables fw s) :
    (s.currentSafetyMode = safetySilent ∨ s.currentSafetyMode = safetyNooutput →
        s.currentHooks = .nooutput) ∧
      (s.currentSafetyMode = safetyMazda → s.currentHooks = .mazda) := by
  have hreg := h.registered
  refine ⟨fun hm => ?_, fun hm => ?_⟩
  · have hnone : fw.registry s.currentSafetyMode = some .nooutput := by
      rcases hm with hm | hm <;> simp [Firmware.registry, hm]
    rw [hnone] at hreg
    exact (Option.some.inj hreg).symm
  · have hmazda : fw.registry s.currentSafetyMode = some .mazda := by
      rw [hm]
      simp [Firmware.registry, safetySilent, safetyNooutput, safetyMazda]
    rw [hmazda] at hreg
    exact (Option.some.inj hreg).symm

theorem nooutput_refuses {fw : Firmware} {s : SafetyState} (h : s.currentHooks = .nooutput)
    (ts : UInt32) (msg : CANPacket) : (safetyTxHook fw ts msg s).1 = false := by
  unfold safetyTxHook
  split
  · simp [h, Firmware.hooks, nooutputHooks]
  · rfl

/-- A table that lets the host's 0x243 out keeps the camera's from the car. -/
theorem mazda_exclusive {fw : Firmware} {s : SafetyState} (hn : fw.build.pandaNucleo = true)
    (h : Tables fw s) (hid : s.currentHooks = .mazda) (hm : s.currentSafetyMode = safetyMazda)
    {ts : UInt32} {msg : CANPacket} (htx : (safetyTxHook fw ts msg s).1 = true) :
    safetyFwdHook fw 2 mazdaLkas s = none := by
  obtain ⟨hw, hr, _⟩ := safetyTxHook_approved.1 htx
  obtain ⟨hf, hd⟩ := h.fwd hid
  have ht := h.table
  rw [hid] at ht
  rcases ht.1 with hempty | ⟨long, htable⟩
  · simp [txWhitelisted, hempty, hm, safetyMazda, safetyAlloutput, safetyElm327] at hw
  · have hblock := (staticBlocked_mazda hn long 2 mazdaLkas).2 ⟨rfl, rfl⟩
    rw [safetyFwdHook_table hr hd hf, htable, if_pos hblock]

theorem mazda_forwards {fw : Firmware} {s : SafetyState} (hn : fw.build.pandaNucleo = true)
    (h : Tables fw s) (hid : s.currentHooks = .mazda) (hr : s.relayMalfunction = false)
    {addr : Nat} (ha : addr ≠ mazdaLkas) (busNum : Nat) :
    safetyFwdHook fw busNum addr s = getFwdBus busNum := by
  obtain ⟨hf, hd⟩ := h.fwd hid
  have ht := h.table
  rw [hid] at ht
  have hopen : staticBlocked s.currentSafetyConfig.txMsgs busNum addr = false := by
    rcases ht.1 with hempty | ⟨long, htable⟩
    · rw [hempty]
      rfl
    · rw [htable, Bool.eq_false_iff]
      intro hb
      exact ha ((staticBlocked_mazda hn long busNum addr).1 hb).1
  rw [safetyFwdHook_table hr hd hf, hopen]
  rfl

theorem steering_exclusive {fw : Firmware} (hn : fw.build.pandaNucleo = true)
    (statics : List Int) (es : List Event)
    (hm : (run fw (powerOn statics) es).currentSafetyMode = safetySilent ∨
      (run fw (powerOn statics) es).currentSafetyMode = safetyNooutput ∨
      (run fw (powerOn statics) es).currentSafetyMode = safetyMazda) :
    ¬ (safetyFwdHook fw 2 mazdaLkas (run fw (powerOn statics) es) = some 0 ∧
        ∃ ts msg, msg.addr.toNat = mazdaLkas ∧ msg.bus.toNat = 0 ∧
          (safetyTxHook fw ts msg (run fw (powerOn statics) es)).1 = true) ∧
      ((run fw (powerOn statics) es).currentSafetyMode = safetyMazda →
        (run fw (powerOn statics) es).relayMalfunction = false →
        ∀ addr, addr ≠ mazdaLkas →
          safetyFwdHook fw 0 addr (run fw (powerOn statics) es) = some 2 ∧
            safetyFwdHook fw 2 addr (run fw (powerOn statics) es) = some 0 ∧
            safetyFwdHook fw 1 addr (run fw (powerOn statics) es) = none) ∧
      ((run fw (powerOn statics) es).relayMalfunction = true →
        (∀ busNum addr, safetyFwdHook fw busNum addr (run fw (powerOn statics) es) = none) ∧
          ∀ ts msg, (safetyTxHook fw ts msg (run fw (powerOn statics) es)).1 = false) := by
  have h := tables_run hn statics es
  generalize run fw (powerOn statics) es = s at h hm ⊢
  obtain ⟨hidle, hmazda⟩ := registry_mode h
  refine ⟨?_, ?_, ?_⟩
  · rintro ⟨hfwd, ts, msg, _, _, htx⟩
    rcases hm with hm | hm | hm
    · rw [nooutput_refuses (hidle (.inl hm))] at htx
      cases htx
    · rw [nooutput_refuses (hidle (.inr hm))] at htx
      cases htx
    · rw [mazda_exclusive hn h (hmazda hm) hm htx] at hfwd
      cases hfwd
  · intro hm hr addr ha
    have hall := mazda_forwards hn h (hmazda hm) hr ha
    exact ⟨hall 0, hall 2, hall 1⟩
  · intro hr
    refine ⟨safetyFwdHook_relay hr, fun ts msg => ?_⟩
    by_contra htx
    obtain ⟨_, hoff, _⟩ := safetyTxHook_approved.1 (by simpa using htx)
    rw [hr] at hoff
    cases hoff

/-- Silence, then the mazda mode with alpha longitudinal, in which RES arms and a torque goes out. -/
def longSession : List Event :=
  [.setMode safetySilent 0, .rx 0 resPress, .setMode safetyMazda 1, .rx 0 resPress,
    .tx 0 torqueEight]

/-- Two ticks later the stock camera is seen on the main bus. -/
def relaySession : List Event :=
  longSession ++ [.tick 0 true, .tick 0 true, .rx 0 stockLkas]

theorem steering_exclusive_long :
    ¬ (safetyFwdHook Firmware.f407 2 mazdaLkas (run Firmware.f407 (powerOn []) longSession) =
          some 0 ∧
        ∃ ts msg, msg.addr.toNat = mazdaLkas ∧ msg.bus.toNat = 0 ∧
          (safetyTxHook Firmware.f407 ts msg
            (run Firmware.f407 (powerOn []) longSession)).1 = true) ∧
      (∀ addr, addr ≠ mazdaLkas →
        safetyFwdHook Firmware.f407 0 addr (run Firmware.f407 (powerOn []) longSession) = some 2 ∧
          safetyFwdHook Firmware.f407 2 addr (run Firmware.f407 (powerOn []) longSession) =
            some 0 ∧
          safetyFwdHook Firmware.f407 1 addr (run Firmware.f407 (powerOn []) longSession) =
            none) ∧
      (∀ busNum addr, safetyFwdHook Firmware.f407 busNum addr
          (run Firmware.f407 (powerOn []) relaySession) = none) ∧
        ∀ ts msg, (safetyTxHook Firmware.f407 ts msg
          (run Firmware.f407 (powerOn []) relaySession)).1 = false := by
  have hn : Firmware.f407.build.pandaNucleo = true := rfl
  obtain ⟨hone, hall, -⟩ := steering_exclusive hn [] longSession (.inr (.inr (by decide)))
  obtain ⟨-, -, hrelay⟩ := steering_exclusive hn [] relaySession (.inr (.inr (by decide)))
  exact ⟨hone, hall (by decide) (by decide), hrelay (by decide)⟩

end Safety
end MazdaPort
