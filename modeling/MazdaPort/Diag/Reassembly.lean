import MazdaPort.Diag.IsoTp

/-!
# MazdaPort.Diag.Reassembly

What it takes for frames to make up a message, and `recv`, which goes through the frames that wait.

`recvLoop_received`: as long as nothing raises, what a message holds is read off the last frames it
has taken, flow control apart, and what `recv` returns is what the last of them carry.
-/

namespace MazdaPort
namespace Diag

open IsoTpMessage

/-! ## The frames of a message -/

/-- A first frame that announces `n` bytes, and `k` consecutive frames in order behind it, with the
bytes of the message in them. -/
inductive Begins (maxLen : Nat) : List (List UInt8) → Nat → List UInt8 → Nat → Prop where
  | first {b low : UInt8} {dat : List UInt8} {n : Nat} (htype : b.toNat >>> 4 = 1)
      (hn : ((b.toNat &&& 0x0F) <<< 8) + low.toNat = n) (hlong : maxLen ≤ n)
      (hlen : dat.length + 2 = maxLen) : Begins maxLen [b :: low :: dat] n dat 0
  | next {fs : List (List UInt8)} {n : Nat} {dat : List UInt8} {k : Nat} {b : UInt8}
      {rest : List UInt8} (h : Begins maxLen fs n dat k) (hmore : dat.length < n)
      (htype : b.toNat >>> 4 = 2) (hidx : (k + 1) &&& 0xF = b.toNat &&& 0xF) :
      Begins maxLen (fs ++ [b :: rest]) n (dat ++ rest.take (n - dat.length)) (k + 1)

/-- The frames are those of one message, with these bytes. A single frame cut short of the length it
gives is one too. -/
inductive Carries (maxLen : Nat) : List (List UInt8) → List UInt8 → Prop where
  | single {b : UInt8} {rest : List UInt8} (htype : b.toNat >>> 4 = 0)
      (hcan : b.toNat &&& 0x0F ≠ 0 ∨ rest.length < 8) (hlen : b.toNat &&& 0x0F < maxLen) :
      Carries maxLen [b :: rest] (rest.take (b.toNat &&& 0x0F))
  | singleFd {b n : UInt8} {rest : List UInt8} (htype : b.toNat >>> 4 = 0)
      (hzero : b.toNat &&& 0x0F = 0) (hfd : 7 ≤ rest.length) :
      Carries maxLen [b :: n :: rest] (rest.take n.toNat)
  | long {fs : List (List UInt8)} {n : Nat} {dat : List UInt8} {k : Nat}
      (h : Begins maxLen fs n dat k) (hall : n = dat.length) : Carries maxLen fs dat

def isFlow (f : List UInt8) : Bool := (f.headD 0).toNat >>> 4 == 3

/-- What a message holds, told from the frames it has taken. A consecutive frame numbered 1 that
nothing comes before makes up a message without bytes. -/
inductive Received (m : IsoTpMessage) (fs : List (List UInt8)) : Prop where
  | idle (hdat : m.rxDat = []) (hlen : m.rxLen = 0) (hidx : m.rxIdx = 0) (hdone : m.rxDone = false)
  | begun {pre mid : List (List UInt8)} (hfs : fs = pre ++ mid)
      (hbegins : Begins m.maxLen mid m.rxLen m.rxDat m.rxIdx) (hmore : m.rxDat.length < m.rxLen)
      (hdone : m.rxDone = false)
  | whole {pre mid : List (List UInt8)} (hfs : fs = pre ++ mid)
      (hcarries : Carries m.maxLen mid m.rxDat) (hdone : m.rxDone = true)
  | stray (hdat : m.rxDat = []) (hdone : m.rxDone = true)

theorem Begins.length_le {maxLen : Nat} {fs : List (List UInt8)} {n : Nat} {dat : List UInt8} {k : Nat}
    (h : Begins maxLen fs n dat k) : dat.length ≤ n ∧ maxLen ≤ dat.length + 2 := by
  induction h with
  | first _ _ hlong hlen => omega
  | next _ hmore _ _ ih =>
    rw [List.length_append, List.length_take]
    omega

namespace IsoTpMessage

section Next

variable {m : IsoTpMessage} {b : UInt8} {rest : List UInt8} {frameType : FrameType}
  {fs : List (List UInt8)}

theorem rxSingle_received (htype : b.toNat >>> 4 = 0)
    (h : (m.rxSingle b rest).outcome = .ok frameType) :
    Received (m.rxSingle b rest).msg (fs ++ [b :: rest]) := by
  unfold rxSingle at h ⊢
  split at h
  · cases h
  next hready =>
  rw [if_neg hready]
  split at h
  · next hfd =>
    rw [if_pos hfd]
    dsimp only at h ⊢
    generalize (if m.canClient.subAddr.isNone then 62 else 61) = maxLen at h ⊢
    split at h
    · cases h
    next hlen =>
    rw [if_neg hlen]
    cases rest with
    | nil => simp at hfd
    | cons n rest =>
      have hlong : 7 ≤ rest.length := by
        have hlen := hfd.2
        simp only [List.length_cons] at hlen
        omega
      exact .whole rfl (.singleFd htype hfd.1 hlong) rfl
  · next hcan =>
    rw [if_neg hcan]
    dsimp only at h ⊢
    split at h
    · cases h
    next hlen =>
    rw [if_neg hlen]
    have hclassic : b.toNat &&& 0x0F ≠ 0 ∨ rest.length < 8 := by
      rw [List.length_cons] at hcan
      omega
    exact .whole rfl (.single htype hclassic (not_not.1 hlen)) rfl

theorem rxFirst_received (htype : b.toNat >>> 4 = 1) (h : (m.rxFirst b rest).outcome = .ok frameType) :
    Received (m.rxFirst b rest).msg (fs ++ [b :: rest]) := by
  unfold rxFirst at h ⊢
  split at h
  · cases h
  next hready =>
  rw [if_neg hready]
  cases rest with
  | nil => cases h
  | cons low dat =>
    dsimp only at h ⊢
    split at h
    · cases h
    next hlong =>
    split at h
    · cases h
    next hlen =>
    rw [if_neg hlong, if_neg hlen]
    have hlong' : m.maxLen ≤ ((b.toNat &&& 0x0F) <<< 8) + low.toNat := not_not.1 hlong
    have hlen' : dat.length + 2 = m.maxLen := not_not.1 hlen
    have hmax := m.maxLen_cases
    exact .begun rfl (.first htype rfl hlong' hlen') (by dsimp only; omega) rfl

theorem rxConsecutive_received (htype : b.toNat >>> 4 = 2) (hrec : Received m fs)
    (h : (m.rxConsecutive b rest).outcome = .ok frameType) :
    Received (m.rxConsecutive b rest).msg (fs ++ [b :: rest]) := by
  unfold rxConsecutive at h ⊢
  split at h
  · cases h
  next hactive =>
  rw [if_neg hactive]
  dsimp only at h ⊢
  split at h
  · cases h
  next hidx =>
  rw [if_neg hidx]
  cases hrec with
  | idle hdat hlen _ _ =>
    rw [if_pos (by rw [hdat, hlen]; simp)]
    exact .stray (by simp [hdat, hlen]) rfl
  | @begun pre mid hfs hbegins hmore hdone =>
    have hsplit : fs ++ [b :: rest] = pre ++ (mid ++ [b :: rest]) := by
      rw [hfs, List.append_assoc]
    have hnext : Begins m.maxLen (mid ++ [b :: rest]) m.rxLen
        (m.rxDat ++ rest.take (m.rxLen - m.rxDat.length)) (m.rxIdx + 1) :=
      hbegins.next hmore htype (not_not.1 hidx)
    have hle := hnext.length_le.1
    split
    · next hall => exact .whole hsplit (.long hnext hall) rfl
    · next hless => exact .begun hsplit hnext (by dsimp only; omega) hdone
  | whole _ _ hdone => exact absurd hdone hactive
  | stray _ hdone => exact absurd hdone hactive

theorem rxFlow_received (hrec : Received m fs) : Received (m.rxFlow b rest).msg fs := by
  have hrest : ∀ m' : IsoTpMessage, m'.canClient = m.canClient → m'.rxDat = m.rxDat →
      m'.rxLen = m.rxLen → m'.rxIdx = m.rxIdx → m'.rxDone = m.rxDone → Received m' fs := by
    intro m' hclient hdat hlen hidx hdone
    have hmax : m'.maxLen = m.maxLen := by
      unfold maxLen
      rw [hclient]
    cases hrec with
    | idle h₁ h₂ h₃ h₄ =>
      exact .idle (hdat.trans h₁) (hlen.trans h₂) (hidx.trans h₃) (hdone.trans h₄)
    | begun hfs hbegins hmore h₄ =>
      rw [← hmax, ← hlen, ← hdat, ← hidx] at hbegins
      rw [← hlen, ← hdat] at hmore
      exact .begun hfs hbegins hmore (hdone.trans h₄)
    | whole hfs hcarries h₄ =>
      rw [← hmax, ← hdat] at hcarries
      exact .whole hfs hcarries (hdone.trans h₄)
    | stray h₁ h₄ => exact .stray (hdat.trans h₁) (hdone.trans h₄)
  unfold rxFlow
  repeat' split
  all_goals exact hrest _ rfl rfl rfl rfl rfl

/-- A frame that does not raise, among the frames that have been taken. -/
theorem isotpRxNext_received {f : List UInt8} (hrec : Received m fs)
    (h : (m.isotpRxNext f).outcome = .ok frameType) :
    Received (m.isotpRxNext f).msg (fs ++ if isFlow f then [] else [f]) := by
  cases f with
  | nil => cases h
  | cons b rest =>
    have hhead : isFlow (b :: rest) = (b.toNat >>> 4 == 3) := rfl
    unfold isotpRxNext at h ⊢
    dsimp only at h ⊢
    rw [hhead]
    split
    · next htype =>
      rw [if_pos htype] at h
      rw [htype]
      exact rxSingle_received htype h
    next hsingle =>
    rw [if_neg hsingle] at h
    split
    · next htype =>
      rw [if_pos htype] at h
      rw [htype]
      exact rxFirst_received htype h
    next hfirst =>
    rw [if_neg hfirst] at h
    split
    · next htype =>
      rw [if_pos htype] at h
      rw [htype]
      exact rxConsecutive_received htype hrec h
    next hconsecutive =>
    rw [if_neg hconsecutive] at h
    split
    · next htype =>
      rw [htype]
      exact (List.append_nil fs).symm ▸ rxFlow_received hrec
    · next hflow =>
      rw [if_neg hflow] at h
      cases h

end Next

end IsoTpMessage

/-! ## Going through the frames -/

inductive RecvOutcome where
  | data (dat : List UInt8)
  | none (rxInProgress : Bool)
  | raised (e : IsoTpError)
  deriving DecidableEq, Repr

structure RecvResult where
  msg : IsoTpMessage
  rest : List (List UInt8)
  sent : List (List UInt8)
  outcome : RecvOutcome

/-- `recv` with a timeout of zero, on the frames in `rx_buff`. -/
def recvLoop (m : IsoTpMessage) : List (List UInt8) → Bool → RecvResult
  | [], rxInProgress => { msg := m, rest := [], sent := [], outcome := .none rxInProgress }
  | f :: fs, _ =>
    let s := m.isotpRxNext f
    match s.outcome with
    | .error e => { msg := s.msg, rest := fs, sent := s.sent, outcome := .raised e }
    | .ok frameType =>
      if s.msg.txDone && s.msg.rxDone then
        { msg := s.msg, rest := fs, sent := s.sent, outcome := .data s.msg.rxDat }
      else
        let r := recvLoop s.msg fs (frameType == .first || frameType == .consecutive)
        { r with sent := s.sent ++ r.sent }

/-- The frames that are no flow control. -/
def dataFrames (fs : List (List UInt8)) : List (List UInt8) := fs.filter fun f => !isFlow f

theorem dataFrames_append (fs gs : List (List UInt8)) :
    dataFrames (fs ++ gs) = dataFrames fs ++ dataFrames gs := List.filter_append fs gs

theorem dataFrames_cons (f : List UInt8) (fs : List (List UInt8)) :
    dataFrames (f :: fs) = (if isFlow f then [] else [f]) ++ dataFrames fs := by
  cases hflow : isFlow f <;> simp [dataFrames, hflow]

/-- `recv` has gone through some of the frames, and where it did not raise the message holds what they
and the frames before them carry. -/
theorem recvLoop_received {m : IsoTpMessage} {before : List (List UInt8)} (hrec : Received m before)
    (fs : List (List UInt8)) (progress : Bool) :
    ∃ gone, fs = gone ++ (recvLoop m fs progress).rest ∧
      ((∀ e, (recvLoop m fs progress).outcome ≠ .raised e) →
        Received (recvLoop m fs progress).msg (before ++ dataFrames gone)) ∧
      ∀ dat, (recvLoop m fs progress).outcome = .data dat →
        (recvLoop m fs progress).msg.rxDone = true ∧ (recvLoop m fs progress).msg.rxDat = dat := by
  induction fs generalizing m before progress with
  | nil =>
    refine ⟨[], rfl, fun _ => ?_, fun dat h => ?_⟩
    · rw [dataFrames, List.filter_nil, List.append_nil]
      exact hrec
    · cases h
  | cons f fs ih =>
    unfold recvLoop
    dsimp only
    split
    · next e _ => exact ⟨[f], rfl, fun h => absurd rfl (h e), fun dat h => by cases h⟩
    · next frameType houtcome =>
      have hnext := isotpRxNext_received hrec houtcome
      split
      · next hdone =>
        have hrx : (m.isotpRxNext f).msg.rxDone = true := (Bool.and_eq_true_iff.1 hdone).2
        refine ⟨[f], rfl, fun _ => ?_, fun dat h => ?_⟩
        · rw [dataFrames_cons, dataFrames, List.filter_nil, List.append_nil]
          exact hnext
        · cases h
          exact ⟨hrx, rfl⟩
      · obtain ⟨gone, hfs, hmsg, hdat⟩ :=
          ih hnext (frameType == .first || frameType == .consecutive)
        refine ⟨f :: gone, by rw [List.cons_append, ← hfs], fun h => ?_, hdat⟩
        rw [dataFrames_cons, ← List.append_assoc]
        exact hmsg h

end Diag
end MazdaPort
