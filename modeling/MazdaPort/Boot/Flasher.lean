import MazdaPort.Boot.Bootstub
import MazdaPort.Lib.NorFlash
import MazdaPort.Lib.Run

/-!
# MazdaPort.Boot.Flasher

The flasher of the bootstub (`board/flasher.h` over `stm32f407/llflash.h`), the reset that leads to
it, and `flash_static` of the host, which talks to it.

* `boots_only_signed`: whatever the host asks of the flasher, and however often the board is reset,
  the sector of the bootstub stays as it is, and an application that runs is one that the keys of
  the bootstub have signed, unless the system bootloader of the chip is asked for.
* `flashStatic_fetch`: what `flash_static` leaves in flash.
* `update_boots`: an image that `sign.py` has signed is flashed and started.

What the system bootloader does to the flash is not modelled: a run ends there.
-/

namespace MazdaPort
namespace Boot

open Memory Run Words

universe u

/-! ## The flash of the part -/

/-- `F4Config.sector_sizes`. -/
def f4SectorSizes : List Nat := List.replicate 4 0x4000 ++ [0x10000] ++ List.replicate 11 0x20000

/-- The flash of an STM32F407. It has eight of the sectors that the host lists, or twelve. -/
structure F407Flash (F : Type u) extends NorFlash F where
  base_eq : base = 0x8000000
  sectors_ge : 8 ≤ sectors
  start_eq : ∀ s, s ≤ 8 → start s = 0x8000000 + (f4SectorSizes.take s).sum
  limit_ge : 0x8080000 ≤ limit
  limit_le : limit ≤ 0x8100000
  limit_mod : limit % 4 = 0

/-- The part with eight sectors. -/
def plainF407 : F407Flash NorFlash.Cells where
  toNorFlash := NorFlash.plain 0x8000000 0x8080000 8
    (fun s => 0x8000000 + (f4SectorSizes.take s).sum)
    (fun s => Nat.add_le_add_left
      ((List.take_sublist_take_left (Nat.le_succ s)).sum_le_sum (fun _ _ => Nat.zero_le _)) _)
  base_eq := rfl
  sectors_ge := le_rfl
  start_eq _ _ := rfl
  limit_ge := le_rfl
  limit_le := by decide
  limit_mod := rfl

section

variable {F : Type u} (part : F407Flash F)

def flashIsLocked (f : F) : Bool := part.locked f

def flashUnlock (f : F) : F := part.unlock f

def flashEraseSector (f : F) (sector : UInt8) (unlocked : Bool) : F × Bool :=
  if sector ≠ 0 ∧ sector < 12 ∧ unlocked = true then (part.erase f sector.toNat, true)
  else (f, false)

/-- The word is stored with its lowest byte first. -/
def flashWriteWord (f : F) (progPtr data : UInt32) : Option F :=
  part.program f progPtr.toNat (bytes data).reverse

end

/-! ## The flasher -/

def enterBootloaderMagic : UInt32 := 0xdeadbeef

def bootNormal : UInt32 := 0xdeadb111

structure ControlPacket where
  request : UInt8
  param1 : UInt16
  param2 : UInt16
  length : UInt16

/-- What the flasher only reads and reports. -/
structure Ids where
  hwType : UInt8
  uid : Vector UInt8 12
  deviceSerial : Vector UInt8 0x10
  provisionChunk : Vector UInt8 0x20
  gitversion : List UInt8

def getProvisionChunk (ids : Ids) : List UInt8 :=
  if ids.provisionChunk.toList = List.replicate 0x20 0xff then
    "unprovisioned".toUTF8.toList ++ [0, 0, 0] ++ "testing123".toUTF8.toList ++
      [0, 0, 0xa3, 0xa6, 0x99, 0xec]
  else ids.provisionChunk.toList

/-- The flash, `prog_ptr` and `unlocked`. -/
structure Flasher (F : Type u) where
  flash : F
  progPtr : UInt32
  unlocked : Bool

inductive Answer (F : Type u) where
  | reply (resp : List UInt8) (s : Flasher F)
  | reset (enterBootloaderMode : UInt32) (f : F)

section

variable {F : Type u} (part : F407Flash F) (ids : Ids)

/-- The twelve bytes that most requests are answered with. -/
def flasherResp (s : Flasher F) (req : ControlPacket) (ok : UInt8) : List UInt8 :=
  [0xff, ok, req.request, ~~~req.request, 0xde, 0xad, 0xd0, 0x0d] ++ (bytes s.progPtr).reverse

def commsControlHandler (s : Flasher F) (req : ControlPacket) : Answer F :=
  let resp := flasherResp s req
  if req.request = 0xb0 then .reply (resp 0xff) s
  else if req.request = 0xb1 then
    let s' := { s with unlocked := true, progPtr := 0x8004000 }
    if flashIsLocked part s.flash then .reply (resp 0xff) { s' with flash := flashUnlock part s.flash }
    else .reply (resp 0) s'
  else if req.request = 0xb2 then
    let (f, ok) := flashEraseSector part s.flash req.param1.toUInt8 s.unlocked
    .reply (resp (if ok then 0xff else 0)) { s with flash := f }
  else if req.request = 0xc1 then .reply [ids.hwType] s
  else if req.request = 0xc3 then .reply ids.uid.toList s
  else if req.request = 0xd0 then
    if req.param1 = 1 then .reply ids.deviceSerial.toList s
    else .reply (getProvisionChunk ids) s
  else if req.request = 0xd1 then
    if req.param1 = 0 then .reset enterBootloaderMagic s.flash
    else if req.param1 = 1 then .reset enterSoftloaderMagic s.flash
    else .reply (resp 0) s
  else if req.request = 0xd6 then .reply ids.gitversion s
  else if req.request = 0xd8 then .reset 0 s.flash
  else .reply (resp 0) s

/-- The `len / 4` words of the data. -/
def dataWords : List UInt8 → List UInt32
  | b0 :: b1 :: b2 :: b3 :: data => word b3 b2 b1 b0 :: dataWords data
  | _ => []

/-- The loop of `comms_endpoint2_write`. A store to where nothing is ends the firmware, with what the
flash then holds. -/
def endpoint2Loop (s : Flasher F) : List UInt32 → Except F (Flasher F)
  | [] => .ok s
  | data :: rest =>
    match flashWriteWord part s.flash s.progPtr data with
    | none => .error s.flash
    | some f => endpoint2Loop { s with flash := f, progPtr := s.progPtr + 4 } rest

def commsEndpoint2Write (s : Flasher F) (data : List UInt8) : Except F (Flasher F) :=
  endpoint2Loop part s (dataWords data)

end

/-! ## The board -/

/-- What stays with a board: its flash part, and the bootstub with the keys of its build. -/
structure Board (F : Type u) where
  part : F407Flash F
  build : BootBuild
  releaseN : Nat
  releaseE : Nat
  debugN : Nat
  debugE : Nat
  releaseHeader : getKeyHeader releaseN releaseE = some build.releaseRsaKey
  debugHeader : getKeyHeader debugN debugE = some build.debugRsaKey
  ids : Ids
  chipOk : Bool
  buf : Vector UInt8 64

/-- What the board runs. -/
inductive Device (F : Type u) where
  | flasher (s : Flasher F)
  | app (f : F) (entry : UInt32)
  | systemBootloader (f : F)
  | halted (f : F)

def Device.flash {F : Type u} : Device F → F
  | .flasher s => s.flash
  | .app f _ => f
  | .systemBootloader f => f
  | .halted f => f

/-- `early_initialization` on `enter_bootloader_mode`. The reset in it comes back with `BOOT_NORMAL`,
which passes. -/
def earlyInitialization (chipOk : Bool) (enterBootloaderMode : UInt32) : UInt32 :=
  let mode :=
    if enterBootloaderMode ≠ bootNormal ∧ enterBootloaderMode ≠ enterBootloaderMagic ∧
        enterBootloaderMode ≠ enterSoftloaderMagic then bootNormal
    else enterBootloaderMode
  if chipOk then mode else enterBootloaderMagic

/-- A reset, with what it finds in `enter_bootloader_mode`. -/
inductive Event where
  | reset (enterBootloaderMode : UInt32)
  | control (req : ControlPacket)
  | bulk (data : List UInt8)

section

variable {F : Type u} (board : Board F)

def resetHandler (enterBootloaderMode : UInt32) (f : F) : Device F :=
  let f := board.part.reset f
  let mode := earlyInitialization board.chipOk enterBootloaderMode
  if mode = enterBootloaderMagic then .systemBootloader f
  else
    match bootstubMain board.build board.buf mode (board.part.read f) with
    | .app entry => .app f entry
    | .flasher => .flasher { flash := f, progPtr := 0, unlocked := false }

/-- What the system bootloader of the chip does is not modelled. It can write any of the flash, the
bootstub too, so a run that comes to it ends there. -/
def step (d : Device F) (e : Event) : Device F :=
  match d, e with
  | .systemBootloader f, _ => .systemBootloader f
  | d, .reset mode => resetHandler board mode d.flash
  | .flasher s, .control req =>
    match commsControlHandler board.part board.ids s req with
    | .reply _ s => .flasher s
    | .reset mode f => resetHandler board mode f
  | .flasher s, .bulk data =>
    match commsEndpoint2Write board.part s data with
    | .ok s => .flasher s
    | .error f => .halted f
  | d, _ => d

/-! ## `flash_static` -/

def request (request : UInt8) (value : UInt16) (length : UInt16) : ControlPacket :=
  { request := request, param1 := value, param2 := 0, length := length }

/-- The application does not answer the request. -/
def flasherPresent (d : Device F) : Bool :=
  match d with
  | .flasher s =>
    match commsControlHandler board.part board.ids s (request 0xb0 0 0xc) with
    | .reply resp _ => ((resp.take 0xc).drop 4).take 4 == [0xde, 0xad, 0xd0, 0x0d]
    | .reset _ _ => false
  | _ => false

/-- `itertools.accumulate`, from `acc` on. -/
def accumulate (acc : Nat) : List Nat → List Nat
  | [] => []
  | x :: xs => (acc + x) :: accumulate (acc + x) xs

def lastSector (sectorSizes : List Nat) (len : Nat) : Int :=
  match (accumulate 0 sectorSizes.tail).findIdx? (fun v => decide (v > len)) with
  | some i => i + 1
  | none => -1

/-- `code[i:i + STEP]` for `i` in steps of `STEP`, so many times. -/
def slices (size : Nat) : Nat → List UInt8 → List (List UInt8)
  | 0, _ => []
  | k + 1, code => code.take size :: slices size k (code.drop size)

/-- `none` where an assertion fails. -/
def flashStatic (sectorSizes : List Nat) (d : Device F) (code : List UInt8) : Option (Device F) :=
  if flasherPresent board d = false then none
  else
    let last := lastSector sectorSizes code.length
    if last < 1 then none
    else if 7 ≤ last then none
    else
      let d := step board d (.control (request 0xb1 0 0))
      let d := (List.range last.toNat).foldl
        (fun d i => step board d (.control (request 0xb2 (UInt16.ofNat (i + 1)) 0))) d
      let d := (slices 0x10 ((code.length + 0xf) / 0x10) code).foldl
        (fun d chunk => step board d (.bulk chunk)) d
      some (step board d (.control (request 0xd8 0 0)))

end

/-! ## What the flasher leaves alone -/

section

variable {F : Type u} {part : F407Flash F}

theorem start_app {s : Nat} (hs : 1 ≤ s) : appStart ≤ part.start s := by
  have hone : part.start 1 = appStart := part.start_eq 1 (by decide)
  rw [← hone]
  exact NorFlash.start_le hs

/-- `f` holds the bootstub that `f0` holds. -/
def SameBootstub (part : F407Flash F) (f0 f : F) : Prop :=
  ∀ a, a < appStart → part.read f a = part.read f0 a

/-- The flash is unlocked exactly when the flag says so, and then `prog_ptr` is a word of the
application, or the end of the flash. -/
inductive Ready (part : F407Flash F) (s : Flasher F) : Prop where
  | locked (hflag : s.unlocked = false) (hlock : part.locked s.flash = true)
  | unlocked (hflag : s.unlocked = true) (hlock : part.locked s.flash = false)
      (hlow : appStart ≤ s.progPtr.toNat) (hhigh : s.progPtr.toNat ≤ part.limit)
      (hmod : s.progPtr.toNat % 4 = 0)

variable {f f' f0 : F} {s s' : Flasher F}

theorem flashEraseSector_same {sector : UInt8} {unlocked : Bool} {a : Nat} (ha : a < appStart) :
    part.read (flashEraseSector part f sector unlocked).1 a = part.read f a := by
  unfold flashEraseSector
  split
  · next h =>
    have hpos : 1 ≤ sector.toNat := by
      have hne : sector.toNat ≠ 0 := fun h0 => h.1 (UInt8.toNat_inj.1 h0)
      omega
    exact part.read_erase_other _ _ _ (.inl (ha.trans_le (start_app hpos)))
  · rfl

theorem flashEraseSector_locked {sector : UInt8} {unlocked : Bool} :
    part.locked (flashEraseSector part f sector unlocked).1 = part.locked f := by
  unfold flashEraseSector
  split
  · exact part.locked_erase _ _
  · rfl

/-- A word that is stored keeps the flasher ready. At the end of the flash none is. -/
theorem Ready.write (hs : Ready part s) {data : UInt32}
    (h : flashWriteWord part s.flash s.progPtr data = some f') :
    Ready part { s with flash := f', progPtr := s.progPtr + 4 } ∧ SameBootstub part s.flash f' := by
  unfold flashWriteWord at h
  have hlock := part.locked_program _ _ _ _ h
  have hword : (bytes data).reverse.length = 4 := rfl
  cases hs with
  | locked hflag hlocked =>
    exact ⟨.locked hflag (hlock.trans hlocked), fun a _ =>
      part.read_program_locked _ _ _ _ _ hlocked h⟩
  | unlocked hflag hlocked hlow hhigh hmod =>
    have hend : s.progPtr.toNat ≠ part.limit := by
      intro hend
      rw [hend, part.program_limit] at h
      cases h
    have hlimit := part.limit_mod
    have hmax := part.limit_le
    have hnext : (s.progPtr + 4).toNat = s.progPtr.toNat + 4 := by
      rw [UInt32.toNat_add]
      exact Nat.mod_eq_of_lt (by change s.progPtr.toNat + 4 < 2 ^ 32; omega)
    refine ⟨.unlocked hflag (hlock.trans hlocked) ?_ ?_ ?_, fun a ha => ?_⟩
    · exact hlow.trans (by rw [hnext]; omega)
    · rw [hnext]
      omega
    · rw [hnext]
      omega
    · refine part.read_program_other _ _ _ _ _ h ?_ (.inl (ha.trans_le hlow))
      rw [part.base_eq]
      exact le_trans (by decide) hlow

theorem SameBootstub.trans (h : SameBootstub part f0 f) (h' : SameBootstub part f f') :
    SameBootstub part f0 f' := fun a ha => (h' a ha).trans (h a ha)

/-- By induction on the words. -/
theorem Ready.endpoint2Loop (hs : Ready part s) (ws : List UInt32) :
    match endpoint2Loop part s ws with
    | .ok s' => Ready part s' ∧ SameBootstub part s.flash s'.flash
    | .error f => SameBootstub part s.flash f := by
  induction ws generalizing s with
  | nil => exact ⟨hs, fun _ _ => rfl⟩
  | cons w ws ih =>
    rw [Boot.endpoint2Loop]
    cases h : flashWriteWord part s.flash s.progPtr w with
    | none => exact fun _ _ => rfl
    | some f =>
      obtain ⟨hready, hsame⟩ := hs.write h
      have hrest := ih hready
      dsimp only
      split
      · next s' hs' =>
        rw [hs'] at hrest
        exact ⟨hrest.1, hsame.trans hrest.2⟩
      · next f' hf' =>
        rw [hf'] at hrest
        exact hsame.trans hrest

/-- A request leaves a flasher that is ready, or a flash for the next reset. -/
def Answer.Harmless (part : F407Flash F) (f0 : F) : Answer F → Prop
  | .reply _ s => Ready part s ∧ SameBootstub part f0 s.flash
  | .reset _ f => SameBootstub part f0 f

theorem Ready.control (hs : Ready part s) (ids : Ids) (req : ControlPacket) :
    (commsControlHandler part ids s req).Harmless part s.flash := by
  have hsame : SameBootstub part s.flash s.flash := fun _ _ => rfl
  have hptr : (0x8004000 : UInt32).toNat = appStart := rfl
  have hlimit := part.limit_ge
  have happ : appStart = 0x8004000 := rfl
  unfold commsControlHandler
  dsimp only
  split
  · exact ⟨hs, hsame⟩
  split
  · -- 0xb1: `prog_ptr` goes back to the application whether the flash was locked or not
    split
    · exact ⟨.unlocked rfl (part.locked_unlock _) hptr.ge (by rw [hptr]; omega) (by rw [hptr, happ]),
        fun a _ => part.read_unlock _ a⟩
    · next hlock =>
      have hlock' : part.locked s.flash = false := Bool.not_eq_true _ ▸ hlock
      exact ⟨.unlocked rfl hlock' hptr.ge (by rw [hptr]; omega) (by rw [hptr, happ]), hsame⟩
  split
  · refine ⟨?_, fun a ha => flashEraseSector_same ha⟩
    cases hs with
    | locked hflag hlock => exact .locked hflag (flashEraseSector_locked.trans hlock)
    | unlocked hflag hlock hlow hhigh hmod =>
      exact .unlocked hflag (flashEraseSector_locked.trans hlock) hlow hhigh hmod
  split
  · exact ⟨hs, hsame⟩
  split
  · exact ⟨hs, hsame⟩
  split
  · split <;> exact ⟨hs, hsame⟩
  split
  · split
    · exact hsame
    · split
      · exact hsame
      · exact ⟨hs, hsame⟩
  split
  · exact ⟨hs, hsame⟩
  split
  · exact hsame
  · exact ⟨hs, hsame⟩

end

/-! ## What runs -/

section

variable {F : Type u} {board : Board F}

/-- The flash holds an image that is intact and signed with a key that the bootstub accepts. -/
def Accepted (board : Board F) (f : F) : Prop :=
  Intact (board.part.read f) ∧
    (Signed (board.part.read f) board.releaseN board.releaseE ∨
      board.build.allowDebug = true ∧ Signed (board.part.read f) board.debugN board.debugE)

/-- The bootstub is the one of `f0`, and what runs is as it should be. -/
structure Guarded (board : Board F) (f0 : F) (d : Device F) : Prop where
  same : SameBootstub board.part f0 d.flash
  flasher : ∀ s, d = .flasher s → Ready board.part s
  app : ∀ f entry, d = .app f entry →
    Accepted board f ∧ entry = loadWord (board.part.read f) (appStart + 4)

theorem resetHandler_flash (mode : UInt32) (f : F) :
    (resetHandler board mode f).flash = board.part.reset f := by
  unfold resetHandler
  dsimp only
  split
  · rfl
  · split <;> rfl

theorem guarded_reset {f0 f : F} (h : SameBootstub board.part f0 f) (mode : UInt32) :
    Guarded board f0 (resetHandler board mode f) := by
  refine ⟨?_, ?_, ?_⟩
  · rw [resetHandler_flash]
    exact h.trans fun a _ => board.part.read_reset f a
  · intro s hs
    unfold resetHandler at hs
    dsimp only at hs
    split at hs
    · cases hs
    · split at hs
      · cases hs
      · cases hs
        exact .locked rfl (board.part.locked_reset f)
  · intro f' entry hf
    unfold resetHandler at hf
    dsimp only at hf
    split at hf
    · cases hf
    · split at hf
      · next hmain =>
        cases hf
        obtain ⟨-, hintact, hsigned, hentry⟩ :=
          (bootstubMain_iff board.releaseHeader board.debugHeader _ _ _ _).1 hmain
        exact ⟨⟨hintact, hsigned⟩, hentry⟩
      · cases hf

theorem guarded_halted {f0 f : F} (h : SameBootstub board.part f0 f) :
    Guarded board f0 (.halted f) := by
  refine ⟨h, ?_, ?_⟩
  · intro s hs
    cases hs
  · intro f' entry hf
    cases hf

theorem guarded_flasher {f0 : F} {s : Flasher F} (h : SameBootstub board.part f0 s.flash)
    (hs : Ready board.part s) : Guarded board f0 (.flasher s) := by
  refine ⟨h, ?_, ?_⟩
  · intro s' hs'
    cases hs'
    exact hs
  · intro f' entry hf
    cases hf

/-- What one event leaves. -/
theorem guarded_step {f0 : F} {d : Device F} (hd : Guarded board f0 d) (e : Event) :
    Guarded board f0 (step board d e) := by
  cases d with
  | systemBootloader f => exact hd
  | halted f =>
    cases e with
    | reset mode => exact guarded_reset hd.same mode
    | control req => exact hd
    | bulk data => exact hd
  | app f entry =>
    cases e with
    | reset mode => exact guarded_reset hd.same mode
    | control req => exact hd
    | bulk data => exact hd
  | flasher s =>
    have hs := hd.flasher s rfl
    cases e with
    | reset mode => exact guarded_reset hd.same mode
    | control req =>
      have hreq := hs.control board.ids req
      rw [step]
      cases h : commsControlHandler board.part board.ids s req with
      | reply resp s' =>
        rw [h] at hreq
        exact guarded_flasher (hd.same.trans hreq.2) hreq.1
      | reset mode f =>
        rw [h] at hreq
        exact guarded_reset (hd.same.trans hreq) mode
    | bulk data =>
      have hdata := hs.endpoint2Loop (dataWords data)
      rw [step]
      unfold commsEndpoint2Write
      cases h : endpoint2Loop board.part s (dataWords data) with
      | ok s' =>
        rw [h] at hdata
        exact guarded_flasher (hd.same.trans hdata.2) hdata.1
      | error f =>
        rw [h] at hdata
        exact guarded_halted (hd.same.trans hdata)

theorem guarded_run (board : Board F) (f : F) (mode : UInt32) (es : List Event) :
    Guarded board f (run (step board) (resetHandler board mode f) es) := by
  have hstep : ∀ d e, Guarded board f d → Guarded board f (step board d e) :=
    fun _ e hd => guarded_step hd e
  exact run_inv hstep (guarded_reset (fun _ _ => rfl) mode) es

/-- A reset into the system bootloader, or the request for one. -/
def AsksBootloader : Device F → Event → Prop
  | _, .reset mode => mode = enterBootloaderMagic
  | .flasher _, .control req => req.request = 0xd1 ∧ req.param1 = 0
  | _, _ => False

theorem resetHandler_systemBootloader (board : Board F) (mode : UInt32) (f : F) :
    (∃ f', resetHandler board mode f = .systemBootloader f') ↔
      board.chipOk = false ∨ mode = enterBootloaderMagic := by
  have hmode : earlyInitialization board.chipOk mode = enterBootloaderMagic ↔
      board.chipOk = false ∨ mode = enterBootloaderMagic := by
    have hnormal : bootNormal ≠ enterBootloaderMagic := by decide
    unfold earlyInitialization
    cases board.chipOk with
    | false => simp
    | true =>
      simp only [if_true, Bool.true_eq_false, false_or]
      split
      · next hother => simp [hnormal, hother.2.1]
      · exact Iff.rfl
  rw [← hmode]
  unfold resetHandler
  dsimp only
  split
  · next hmagic => simp [hmagic]
  · next hother => split <;> simp [hother]

theorem commsControlHandler_systemBootloader (board : Board F) (s : Flasher F)
    (req : ControlPacket) :
    (∃ f, commsControlHandler board.part board.ids s req = .reset enterBootloaderMagic f) ↔
      req.request = 0xd1 ∧ req.param1 = 0 := by
  constructor
  · rintro ⟨f, h⟩
    unfold commsControlHandler at h
    dsimp only at h
    split at h
    · cases h
    split at h
    · split at h <;> cases h
    split at h
    · cases h
    split at h
    · cases h
    split at h
    · cases h
    split at h
    · split at h <;> cases h
    split at h
    · next hreq =>
      split at h
      · next hparam => exact ⟨hreq, hparam⟩
      · split at h <;> cases h
    split at h
    · cases h
    split at h <;> cases h
  · rintro ⟨hreq, hparam⟩
    exact ⟨s.flash, by simp [commsControlHandler, hreq, hparam]⟩

/-- A board of the right chip comes to the system bootloader by being asked for it. -/
theorem step_systemBootloader (hchip : board.chipOk = true) (d : Device F) (e : Event)
    (hd : ¬ ∃ f, d = .systemBootloader f) :
    (∃ f, step board d e = .systemBootloader f) ↔ AsksBootloader d e := by
  have hreset : ∀ mode f, (∃ f', resetHandler board mode f = .systemBootloader f') ↔
      mode = enterBootloaderMagic := by
    intro mode f
    rw [resetHandler_systemBootloader, hchip]
    simp
  cases d with
  | systemBootloader f => exact absurd ⟨f, rfl⟩ hd
  | app f entry =>
    cases e with
    | reset mode => exact hreset mode f
    | control req => simp [step, AsksBootloader]
    | bulk data => simp [step, AsksBootloader]
  | halted f =>
    cases e with
    | reset mode => exact hreset mode f
    | control req => simp [step, AsksBootloader]
    | bulk data => simp [step, AsksBootloader]
  | flasher s =>
    cases e with
    | reset mode => exact hreset mode s.flash
    | control req =>
      rw [AsksBootloader, ← commsControlHandler_systemBootloader board s req, step]
      cases h : commsControlHandler board.part board.ids s req with
      | reply resp s' => simp
      | reset mode f =>
        dsimp only
        rw [hreset]
        simp
    | bulk data =>
      rw [step]
      cases commsEndpoint2Write board.part s data <;> simp [AsksBootloader]

/-- A board with another chip than the build is for goes to the system bootloader at every reset. -/
theorem run_systemBootloader (board : Board F) (f : F) (mode : UInt32) (es : List Event) :
    (∃ f', run (step board) (resetHandler board mode f) es = .systemBootloader f') ↔
      board.chipOk = false ∨ mode = enterBootloaderMagic ∨
        SomeStep (step board) AsksBootloader (resetHandler board mode f) es := by
  let P : Device F → Prop := fun d => ∃ f', d = .systemBootloader f'
  have hstay : ∀ d e, P d → P (step board d e) := by
    rintro d e ⟨f', rfl⟩
    exact ⟨f', rfl⟩
  have hstart := resetHandler_systemBootloader board mode f
  cases hchip : board.chipOk with
  | false =>
    have hP : P (resetHandler board mode f) := hstart.2 (.inl hchip)
    have hend : P (run (step board) (resetHandler board mode f) es) := run_inv hstay hP es
    exact iff_of_true hend (.inl rfl)
  | true =>
    have hlast := lasting_iff hstay (step_systemBootloader hchip) (s := resetHandler board mode f) es
    rw [hchip] at hstart
    refine hlast.trans ?_
    simp only [P, hstart, Bool.true_eq_false, false_or]

/-- From a reset on, whatever the host asks of the flasher and however often the board is reset, the
bootstub stays as it is up to where the system bootloader takes over, and an application that runs is
intact and signed with one of its keys. The system bootloader takes over if it is asked for, or if
the chip is another one. -/
theorem boots_only_signed (board : Board F) (f : F) (mode : UInt32) (es : List Event) :
    let d := run (step board) (resetHandler board mode f) es
    (∀ a, a < appStart → board.part.read d.flash a = board.part.read f a) ∧
      (∀ f' entry, d = .app f' entry →
        Intact (board.part.read f') ∧
          (Signed (board.part.read f') board.releaseN board.releaseE ∨
            board.build.allowDebug = true ∧
              Signed (board.part.read f') board.debugN board.debugE) ∧
          entry = loadWord (board.part.read f') (appStart + 4)) ∧
      ((∃ f', d = .systemBootloader f') ↔
        board.chipOk = false ∨ mode = enterBootloaderMagic ∨
          SomeStep (step board) AsksBootloader (resetHandler board mode f) es) := by
  have hd := guarded_run board f mode es
  refine ⟨hd.same, fun f' entry hf => ?_, run_systemBootloader board f mode es⟩
  obtain ⟨⟨hintact, hsigned⟩, hentry⟩ := hd.app f' entry hf
  exact ⟨hintact, hsigned, hentry⟩

end

/-! ## What `flash_static` leaves -/

/-- The bytes of a word as they lie in flash. -/
def unit (w : UInt32) : List UInt8 := (bytes w).reverse

theorem unit_word (b0 b1 b2 b3 : UInt8) : unit (word b3 b2 b1 b0) = [b0, b1, b2, b3] := by
  have h : bytes (word b3 b2 b1 b0) = [b3, b2, b1, b0] :=
    ofBytes_inj (bytes_length _) (by rw [ofBytes_bytes, word_toNat])
  rw [unit, h]
  rfl

theorem length_lt_four {data : List UInt8}
    (h : ∀ b0 b1 b2 b3 rest, data = b0 :: b1 :: b2 :: b3 :: rest → False) : data.length < 4 := by
  rcases data with _ | ⟨b0, _ | ⟨b1, _ | ⟨b2, _ | ⟨b3, rest⟩⟩⟩⟩
  · simp
  · simp
  · simp
  · simp
  · exact (h b0 b1 b2 b3 rest rfl).elim

/-- By induction on the data, four bytes at a time. -/
theorem flatten_dataWords (data : List UInt8) :
    ((dataWords data).map unit).flatten = data.take (4 * (data.length / 4)) := by
  induction data using dataWords.induct with
  | case1 b0 b1 b2 b3 data ih =>
    have hlen : 4 * ((b0 :: b1 :: b2 :: b3 :: data).length / 4) = 4 * (data.length / 4) + 4 := by
      simp only [List.length_cons]
      omega
    rw [dataWords, List.map_cons, List.flatten_cons, unit_word, ih, hlen]
    rfl
  | case2 data hshort =>
    rw [dataWords, Nat.div_eq_of_lt (length_lt_four hshort)]
    · rfl
    · exact hshort

theorem length_dataWords (data : List UInt8) : (dataWords data).length = data.length / 4 := by
  induction data using dataWords.induct with
  | case1 b0 b1 b2 b3 data ih =>
    rw [dataWords, List.length_cons, ih]
    simp only [List.length_cons]
    omega
  | case2 data hshort =>
    rw [dataWords, Nat.div_eq_of_lt (length_lt_four hshort)]
    · rfl
    · exact hshort

theorem dataWords_append {xs ys : List UInt8} (hxs : xs.length % 4 = 0) :
    dataWords (xs ++ ys) = dataWords xs ++ dataWords ys := by
  induction xs using dataWords.induct with
  | case1 b0 b1 b2 b3 xs ih =>
    have hrest : xs.length % 4 = 0 := by
      simp only [List.length_cons] at hxs
      omega
    have hfirst : dataWords (b0 :: b1 :: b2 :: b3 :: xs ++ ys) =
        word b3 b2 b1 b0 :: dataWords (xs ++ ys) := rfl
    rw [hfirst, ih hrest]
    rfl
  | case2 xs hshort =>
    have hlt := length_lt_four hshort
    rw [List.eq_nil_of_length_eq_zero (by omega : xs.length = 0)]
    rfl

/-- The pieces that the host sends hold the words that the whole holds, since all but the last are of
a multiple of four bytes. -/
theorem flatMap_slices {k : Nat} {code : List UInt8} (h : code.length ≤ 0x10 * k) :
    (slices 0x10 k code).flatMap dataWords = dataWords code := by
  induction k generalizing code with
  | zero =>
    rw [List.eq_nil_of_length_eq_zero (Nat.le_zero.1 h)]
    rfl
  | succ k ih =>
    rw [slices, List.flatMap_cons, ih (by rw [List.length_drop]; omega)]
    rcases Nat.lt_or_ge code.length 0x10 with hlt | hge
    · have hdrop : dataWords (code.drop 0x10) = [] := by
        rw [List.drop_eq_nil_of_le hlt.le]
        rfl
      rw [List.take_of_length_le hlt.le, hdrop, List.append_nil]
    · have hmod : (code.take 0x10).length % 4 = 0 := by
        rw [List.length_take, Nat.min_eq_left hge]
      rw [← dataWords_append hmod, List.take_append_drop]

section

variable {F : Type u} {part : F407Flash F} {s s' : Flasher F}

theorem endpoint2Loop_append (s : Flasher F) (xs ys : List UInt32) :
    endpoint2Loop part s (xs ++ ys) =
      (endpoint2Loop part s xs).bind fun s => endpoint2Loop part s ys := by
  induction xs generalizing s with
  | nil => rfl
  | cons x xs ih =>
    rw [List.cons_append, endpoint2Loop, endpoint2Loop]
    cases flashWriteWord part s.flash s.progPtr x with
    | none => rfl
    | some f => exact ih _

/-- By induction on the words: `prog_ptr` walks along with the units. -/
theorem endpoint2Loop_ok {f f' : F} {p : UInt32} {unlocked : Bool} {ws : List UInt32}
    (hp : p.toNat + 4 * ws.length < 2 ^ 32)
    (h : part.programAll f p.toNat (ws.map unit) = some f') :
    ∃ p', endpoint2Loop part { flash := f, progPtr := p, unlocked := unlocked } ws =
      .ok { flash := f', progPtr := p', unlocked := unlocked } := by
  induction ws generalizing f p with
  | nil =>
    cases h
    exact ⟨p, rfl⟩
  | cons w ws ih =>
    rw [List.length_cons] at hp
    obtain ⟨g, hg, hrest⟩ := Option.bind_eq_some_iff.1 h
    have hnext : (p + 4).toNat = p.toNat + (unit w).length := by
      rw [UInt32.toNat_add]
      exact Nat.mod_eq_of_lt (by change p.toNat + 4 < 2 ^ 32; omega)
    have hunit : (unit w).length = 4 := rfl
    rw [← hnext] at hrest
    obtain ⟨p', hp'⟩ := ih (p := p + 4) (by omega) hrest
    refine ⟨p', ?_⟩
    have hwrite : flashWriteWord part f p w = some g := hg
    rw [endpoint2Loop, hwrite]
    exact hp'

end

section

variable {F : Type u} {board : Board F} {f : F}

theorem foldl_bulk {s s' : Flasher F} {chunks : List (List UInt8)}
    (h : endpoint2Loop board.part s (chunks.flatMap dataWords) = .ok s') :
    chunks.foldl (fun d chunk => step board d (.bulk chunk)) (.flasher s) = .flasher s' := by
  induction chunks generalizing s with
  | nil =>
    cases h
    rfl
  | cons chunk chunks ih =>
    rw [List.flatMap_cons, endpoint2Loop_append] at h
    cases hfirst : endpoint2Loop board.part s (dataWords chunk) with
    | error f =>
      rw [hfirst] at h
      cases h
    | ok s1 =>
      rw [hfirst] at h
      have hstep : step board (.flasher s) (.bulk chunk) = .flasher s1 := by
        rw [step]
        unfold commsEndpoint2Write
        rw [hfirst]
      rw [List.foldl_cons, hstep]
      exact ih h

theorem step_unlock (board : Board F) (s : Flasher F) :
    ∃ f, step board (.flasher s) (.control (request 0xb1 0 0)) =
        .flasher { flash := f, progPtr := 0x8004000, unlocked := true } ∧
      board.part.locked f = false := by
  have hanswer : ∃ f resp, commsControlHandler board.part board.ids s (request 0xb1 0 0) =
      .reply resp { flash := f, progPtr := 0x8004000, unlocked := true } ∧
        board.part.locked f = false := by
    have hreq : (request 0xb1 0 0).request = 0xb1 := rfl
    unfold commsControlHandler
    rw [hreq, if_neg (by decide), if_pos rfl]
    dsimp only
    split
    · exact ⟨_, _, rfl, board.part.locked_unlock _⟩
    · next hlock => exact ⟨_, _, rfl, Bool.not_eq_true _ ▸ hlock⟩
  obtain ⟨f, resp, hf, hlock⟩ := hanswer
  refine ⟨f, ?_, hlock⟩
  rw [step, hf]

theorem step_erase {p : UInt32} {i : Nat} (hi : 1 ≤ i) (hi' : i < 12) :
    step board (.flasher { flash := f, progPtr := p, unlocked := true })
        (.control (request 0xb2 (UInt16.ofNat i) 0)) =
      .flasher { flash := board.part.erase f i, progPtr := p, unlocked := true } := by
  have hsector : (UInt16.ofNat i).toUInt8.toNat = i := by
    rw [UInt16.toNat_toUInt8, UInt16.toNat_ofNat']
    omega
  have hgo : (UInt16.ofNat i).toUInt8 ≠ 0 ∧ (UInt16.ofNat i).toUInt8 < 12 ∧ true = true := by
    refine ⟨fun h => ?_, ?_, rfl⟩
    · rw [h] at hsector
      exact absurd hsector (by change 0 ≠ i; omega)
    · rw [UInt8.lt_iff_toNat_lt, hsector]
      exact hi'
  have herase : flashEraseSector board.part f (UInt16.ofNat i).toUInt8 true =
      (board.part.erase f i, true) := by
    unfold flashEraseSector
    rw [if_pos hgo, hsector]
  have hreq : (request 0xb2 (UInt16.ofNat i) 0).request = 0xb2 := rfl
  have hparam : (request 0xb2 (UInt16.ofNat i) 0).param1 = UInt16.ofNat i := rfl
  rw [step]
  unfold commsControlHandler
  rw [hreq, if_neg (by decide), if_neg (by decide), if_pos rfl, hparam]
  dsimp only
  rw [herase]

theorem foldl_erase {p : UInt32} {k : Nat} (hk : k < 12) :
    (List.range k).foldl
        (fun d i => step board d (.control (request 0xb2 (UInt16.ofNat (i + 1)) 0)))
        (.flasher { flash := f, progPtr := p, unlocked := true }) =
      .flasher { flash := board.part.eraseAll f 1 k, progPtr := p, unlocked := true } := by
  induction k with
  | zero => rfl
  | succ k ih =>
    rw [List.range_succ, List.foldl_append, ih (by omega), List.foldl_cons, List.foldl_nil,
      step_erase (by omega) hk, NorFlash.eraseAll, Nat.add_comm 1 k]

/-- The sectors that are erased hold the code. -/
theorem lastSector_spec {len : Nat} (h : len < 0x5c000) :
    ∃ k : Nat, lastSector f4SectorSizes len = k ∧ 1 ≤ k ∧ k < 7 ∧
      0x4000 + len < (f4SectorSizes.take (k + 1)).sum := by
  unfold lastSector
  split
  · next i hi =>
    obtain ⟨hlen, habove, hbelow⟩ := List.findIdx?_eq_some_iff_getElem.1 hi
    have hi5 : i ≤ 5 := by
      by_contra hgt
      have hnot := hbelow 5 (by omega)
      exact hnot (decide_eq_true (by change 0x5c000 > len; exact h))
    refine ⟨i + 1, by push_cast; rfl, by omega, by omega, ?_⟩
    have hv := of_decide_eq_true habove
    interval_cases i <;> (simp [f4SectorSizes, accumulate] at hv ⊢; omega)
  · next hnone =>
    have hall := List.findIdx?_eq_none_iff.1 hnone 0x5c000 (by decide)
    exact absurd h (of_decide_eq_false hall)

theorem lastSector_large {len : Nat} (h : 0x5c000 ≤ len) :
    lastSector f4SectorSizes len < 1 ∨ 7 ≤ lastSector f4SectorSizes len := by
  unfold lastSector
  split
  · next i hi =>
    obtain ⟨hlen, habove, -⟩ := List.findIdx?_eq_some_iff_getElem.1 hi
    have hv := of_decide_eq_true habove
    refine .inr ?_
    by_contra hlt
    have hi5 : i ≤ 5 := by omega
    interval_cases i <;> (simp [f4SectorSizes, accumulate] at hv; omega)
  · exact .inl (by decide)

/-- The bytes that `flash_static` leaves for `code`: of the last word, only whole words are written,
the rest stays erased. -/
def flashed (code : List UInt8) : List UInt8 :=
  code.take (4 * (code.length / 4)) ++ List.replicate (code.length % 4) 0xff

theorem flasherPresent_flasher (s : Flasher F) : flasherPresent board (.flasher s) = true := rfl

/-- A code that is not too large is written behind the bootstub, and the board is reset. -/
theorem flashStatic_eq (board : Board F) (s : Flasher F) {code : List UInt8}
    (hlen : code.length < 0x5c000) :
    ∃ f', flashStatic board f4SectorSizes (.flasher s) code = some (resetHandler board 0 f') ∧
      fetch (board.part.read f') appStart code.length = flashed code := by
  obtain ⟨k, hk, hk1, hk7, hkcode⟩ := lastSector_spec hlen
  obtain ⟨g, hunlock, hglock⟩ := step_unlock board s
  have happ : appStart = 0x8004000 := rfl
  have hbase := board.part.base_eq
  have hsectors := board.part.sectors_ge
  have hlimit := board.part.limit_ge
  -- the sectors behind the bootstub are erased
  have hstart : board.part.start 1 = appStart := board.part.start_eq 1 (by decide)
  have hend : appStart + code.length < board.part.start (1 + k) := by
    rw [board.part.start_eq (1 + k) (by omega), Nat.add_comm 1 k]
    omega
  let e := board.part.eraseAll g 1 k
  have helock : board.part.locked e = false := by
    rw [NorFlash.locked_eraseAll, hglock]
  have herased : ∀ c, appStart ≤ c → c < appStart + code.length → board.part.read e c = 0xff :=
    fun c hc hc' => NorFlash.read_eraseAll hglock (by omega) (hstart.trans_le hc) (hc'.trans hend)
  -- the words are programmed one behind the other
  have hflat := flatten_dataWords code
  have hflatlen : ((dataWords code).map unit).flatten.length = 4 * (code.length / 4) := by
    rw [hflat, List.length_take]
    omega
  have hfits : appStart + ((dataWords code).map unit).flatten.length < board.part.limit := by omega
  obtain ⟨f', hprogram, hfetch⟩ := NorFlash.programAll_erased helock (by omega) hfits
    (fun c hc hc' => herased c hc (by omega))
  have hptr : (0x8004000 : UInt32).toNat + 4 * (dataWords code).length < 2 ^ 32 := by
    rw [length_dataWords]
    change 0x8004000 + _ < _
    omega
  obtain ⟨p', hloop⟩ := endpoint2Loop_ok hptr hprogram
  refine ⟨f', ?_, ?_⟩
  · have hnot1 : ¬ lastSector f4SectorSizes code.length < 1 := by omega
    have hnot7 : ¬ 7 ≤ lastSector f4SectorSizes code.length := by omega
    have hnat : (lastSector f4SectorSizes code.length).toNat = k := by omega
    have hpieces : code.length ≤ 0x10 * ((code.length + 0xf) / 0x10) := by omega
    have hslices := flatMap_slices hpieces
    unfold flashStatic
    rw [flasherPresent_flasher, if_neg (by decide)]
    dsimp only
    rw [if_neg hnot1, if_neg hnot7, hnat, hunlock, foldl_erase (by omega),
      foldl_bulk (by rw [hslices]; exact hloop)]
    rfl
  · have hsplit : code.length = 4 * (code.length / 4) + code.length % 4 := by omega
    have hrest : fetch (board.part.read f') (appStart + 4 * (code.length / 4)) (code.length % 4) =
        List.replicate (code.length % 4) 0xff := by
      refine List.eq_replicate_iff.2 ⟨fetch_length _ _ _, fun b hb => ?_⟩
      obtain ⟨i, hi, rfl⟩ := List.mem_map.1 hb
      have hi' := List.mem_range.1 hi
      rw [NorFlash.read_programAll_other (by omega) hprogram (.inr (by omega))]
      exact herased _ (by omega) (by omega)
    rw [hflatlen, hflat] at hfetch
    rw [hsplit, fetch_add, hfetch, hrest, flashed]

theorem flashStatic_large (d : Device F) {code : List UInt8} (hlen : 0x5c000 ≤ code.length) :
    flashStatic board f4SectorSizes d code = none := by
  unfold flashStatic
  split
  · rfl
  · rcases lastSector_large hlen with hlt | hge
    · exact if_pos hlt
    · have hlt : ¬ lastSector f4SectorSizes code.length < 1 := by omega
      dsimp only
      rw [if_neg hlt, if_pos hge]

/-- `flash_static` writes every code that is shorter than the sectors 1 to 6, whatever the host asked
of the flasher before, and refuses every other one. -/
theorem flashStatic_fetch (board : Board F) (s : Flasher F) (code : List UInt8) :
    ((flashStatic board f4SectorSizes (.flasher s) code).isSome ↔ code.length < 0x5c000) ∧
      ∀ d', flashStatic board f4SectorSizes (.flasher s) code = some d' →
        fetch (board.part.read d'.flash) appStart code.length = flashed code := by
  rcases Nat.lt_or_ge code.length 0x5c000 with hlt | hge
  · obtain ⟨f', hf', hfetch⟩ := flashStatic_eq board s hlt
    rw [hf']
    refine ⟨by simp [hlt], fun d' hd' => ?_⟩
    cases hd'
    have hread : board.part.read (resetHandler board 0 f').flash = board.part.read f' := by
      rw [resetHandler_flash]
      exact funext (board.part.read_reset f')
    rw [hread, hfetch]
  · rw [flashStatic_large _ hge]
    refine ⟨by simp [Nat.not_lt.2 hge], fun d' hd' => ?_⟩
    cases hd'

/-- `flash_static` is a run of requests. -/
theorem guarded_flashStatic {f0 : F} {d d' : Device F} {sizes : List Nat} {code : List UInt8}
    (hd : Guarded board f0 d) (h : flashStatic board sizes d code = some d') :
    Guarded board f0 d' := by
  unfold flashStatic at h
  split at h
  · cases h
  · dsimp only at h
    split at h
    · cases h
    · split at h
      · cases h
      · cases h
        refine guarded_step ?_ _
        refine List.foldlRecOn _ _ ?_ (fun d hd chunk _ => guarded_step hd _)
        refine List.foldlRecOn _ _ ?_ (fun d hd i _ => guarded_step hd _)
        exact guarded_step hd _

theorem chipOk_of_flasher {mode : UInt32} {es : List Event} {s : Flasher F}
    (h : run (step board) (resetHandler board mode f) es = .flasher s) : board.chipOk = true := by
  by_contra hchip
  obtain ⟨f', hf'⟩ := (run_systemBootloader board f mode es).2 (.inl (Bool.not_eq_true _ ▸ hchip))
  rw [h] at hf'
  cases hf'

/-- An image that `sign.py` has signed with a key of the board is written and started, from any state
of the flasher that the host and resets can have led to. -/
theorem update_boots (board : Board F) (f : F) (mode : UInt32) (es : List Event) {s : Flasher F}
    (hs : run (step board) (resetHandler board mode f) es = .flasher s) {p q e d : Nat}
    (hp : p.Prime) (hq : q.Prime) (hne : p ≠ q) (hed : e * d % Nat.lcm (p - 1) (q - 1) = 1)
    (he : e = 3 ∨ e = 65537)
    (hkey : p * q = board.releaseN ∧ e = board.releaseE ∨
      board.build.allowDebug = true ∧ p * q = board.debugN ∧ e = board.debugE)
    {dat : List UInt8} (hdat : 4 ≤ dat.length) (hmod : dat.length % 4 = 0)
    (hfits : dat.length + 8 + rsaNumBytes < 0x5c000) :
    ∃ f', flashStatic board f4SectorSizes (.flasher s) (sign (p * q) d true dat) =
        some (.app f' (loadWord (board.part.read f') (appStart + 4))) ∧
      fetch (board.part.read f') appStart (sign (p * q) d true dat).length =
        sign (p * q) d true dat ∧
      ∀ a, a < appStart → board.part.read f' a = board.part.read f a := by
  have hsig : rsaNumBytes = 128 := rfl
  have hlen : (sign (p * q) d true dat).length = dat.length + 8 + rsaNumBytes := by
    have hpack : (packI (dat.length + 8)).length = 4 := rfl
    rw [sign_eq hdat, List.length_append, List.length_append, hpack, signedBody_length hdat,
      toBytes_length]
    omega
  obtain ⟨g, hflash, hfetch⟩ := flashStatic_eq board s (hlen.trans_lt hfits)
  -- the length is a whole number of words, so all of the image is written
  have hwhole : flashed (sign (p * q) d true dat) = sign (p * q) d true dat := by
    have hzero : (sign (p * q) d true dat).length % 4 = 0 := by omega
    have hall : 4 * ((sign (p * q) d true dat).length / 4) = (sign (p * q) d true dat).length := by
      omega
    unfold flashed
    rw [hzero, hall, List.take_length, List.replicate_zero, List.append_nil]
  rw [hwhole] at hfetch
  -- so the bootstub accepts it
  have hsigned : Intact (board.part.read g) ∧ Signed (board.part.read g) (p * q) e := by
    have hheader : ∃ key, getKeyHeader (p * q) e = some key := by
      rcases hkey with ⟨hn, he'⟩ | ⟨-, hn, he'⟩
      · exact ⟨_, by rw [hn, he']; exact board.releaseHeader⟩
      · exact ⟨_, by rw [hn, he']; exact board.debugHeader⟩
    obtain ⟨key, hheader⟩ := hheader
    exact sign_signed hp hq hne hed he hheader hdat (by rw [hsig]; omega) hfetch
  have hread : board.part.read (board.part.reset g) = board.part.read g :=
    funext (board.part.read_reset g)
  have hmain : bootstubMain board.build board.buf bootNormal (board.part.read (board.part.reset g)) =
      .app (loadWord (board.part.read (board.part.reset g)) (appStart + 4)) := by
    rw [hread]
    refine (bootstubMain_iff board.releaseHeader board.debugHeader _ _ _ _).2
      ⟨by decide, hsigned.1, ?_, rfl⟩
    rcases hkey with ⟨hn, he'⟩ | ⟨hallow, hn, he'⟩
    · exact .inl (by rw [← hn, ← he']; exact hsigned.2)
    · exact .inr ⟨hallow, by rw [← hn, ← he']; exact hsigned.2⟩
  have hreset : resetHandler board 0 g = .app (board.part.reset g)
      (loadWord (board.part.read (board.part.reset g)) (appStart + 4)) := by
    have hmode : earlyInitialization board.chipOk 0 = bootNormal := by
      rw [chipOk_of_flasher hs]
      rfl
    unfold resetHandler
    dsimp only
    rw [hmode, if_neg (by decide), hmain]
  rw [hreset] at hflash
  refine ⟨board.part.reset g, hflash, by rw [hread]; exact hfetch, ?_⟩
  have hguard := guarded_run board f mode es
  rw [hs] at hguard
  exact (guarded_flashStatic hguard hflash).same

end

/-- The flasher is unlocked, a sector is erased and a word of data comes; then the board is asked for
the soft bootloader. -/
def beforeUpdate : List Event :=
  [.control (request 0xb1 0 0xc), .control (request 0xb2 3 0xc), .bulk [1, 2, 3, 4],
    .control (request 0xd1 1 0)]

/-- With the modulus of two known primes, an image of sixteen zero bytes. -/
theorem update_boots_zeros : ∃ (board : Board NorFlash.Cells) (s : Flasher NorFlash.Cells)
    (f' : NorFlash.Cells),
    flashStatic board f4SectorSizes (.flasher s)
        (sign (mersenne 521 * (433 * 2 ^ (493 + 1) + 1)) knownExponent true
          (List.replicate 16 0)) =
      some (.app f' (loadWord (board.part.read f') (appStart + 4))) := by
  obtain ⟨key, hkey⟩ := knownModulus_header
  let board : Board NorFlash.Cells :=
    { part := plainF407
      build := { releaseRsaKey := key, debugRsaKey := key, allowDebug := false }
      releaseN := mersenne 521 * (433 * 2 ^ (493 + 1) + 1)
      releaseE := 65537
      debugN := mersenne 521 * (433 * 2 ^ (493 + 1) + 1)
      debugE := 65537
      releaseHeader := hkey
      debugHeader := hkey
      ids :=
        { hwType := 0
          uid := Vector.replicate 12 0
          deviceSerial := Vector.replicate 16 0
          provisionChunk := Vector.replicate 32 0xff
          gitversion := [] }
      chipOk := true
      buf := Vector.replicate 64 0 }
  let f : NorFlash.Cells := { cells := fun _ => 0xff, locked := false }
  obtain ⟨s, hflasher⟩ : ∃ s, run (step board) (resetHandler board enterSoftloaderMagic f)
      beforeUpdate = .flasher s := ⟨_, rfl⟩
  have hinverse : 65537 * knownExponent %
      Nat.lcm (mersenne 521 - 1) (433 * 2 ^ (493 + 1) + 1 - 1) = 1 := by decide +kernel
  have hdat : 4 ≤ (List.replicate 16 (0 : UInt8)).length := by decide
  obtain ⟨f', hf', -⟩ := update_boots board f enterSoftloaderMagic beforeUpdate hflasher knownPrimes.1
    knownPrimes.2 (by decide +kernel) hinverse (.inr rfl) (.inl ⟨rfl, rfl⟩) hdat (by decide)
    (by decide)
  exact ⟨board, _, f', hf'⟩

end Boot
end MazdaPort
