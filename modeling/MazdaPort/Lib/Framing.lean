import Mathlib.Data.List.Infix
import Mathlib.Tactic.Common

/-!
# MazdaPort.Lib.Framing

Frames over a byte stream that arrives in chunks. A `Scanner` looks at what it holds and either
waits for more or consumes some of it, possibly emitting a value; a receiver drains the scanner
over each chunk and carries the unconsumed tail to the next one.

`Frames` says how a scanner treats the encodings of a type of packets: a whole one is emitted, a
partial one waits, unless it was cut at one particular length, where the scanner goes wrong for
good. `receiveAll_iff` is the consequence for any cutting of any sequence of packets: exactly they
come out if and only if no chunk ends at that length within a packet.
-/

namespace MazdaPort
namespace Framing

universe u v w x

variable {σ : Type u} {α : Type v} {β : Type w} {π : Type x}

/-! ## Scanners -/

/-- One look at the bytes held: `none` waits for more, `some (st, o, n)` consumes `n` of them. -/
structure Scanner (σ : Type u) (α : Type v) (β : Type w) where
  scan : σ → List α → Option (σ × Option β × Nat)
  pos : ∀ st xs r, scan st xs = some r → 0 < r.2.2 ∧ r.2.2 ≤ xs.length

namespace Scanner

variable (S : Scanner σ α β)

def loop : Nat → σ → List α → List β × σ × List α
  | 0, st, xs => ([], st, xs)
  | k + 1, st, xs =>
    match S.scan st xs with
    | none => ([], st, xs)
    | some (st', o, n) =>
      let r := loop k st' (xs.drop n)
      (o.toList ++ r.1, r.2)

/-- Scan until the scanner waits. Each look consumes a byte, so the length is enough fuel. -/
def drain (st : σ) (xs : List α) : List β × σ × List α := S.loop xs.length st xs

theorem scan_nil (st : σ) : S.scan st [] = none := by
  cases h : S.scan st [] with
  | none => rfl
  | some r =>
    have hp := S.pos st [] r h
    simp only [List.length_nil] at hp
    omega

theorem loop_fuel {k : Nat} (st : σ) {xs : List α} (h : xs.length ≤ k) :
    S.loop k st xs = S.drain st xs := by
  have key : ∀ m k st (xs : List α), xs.length ≤ m → xs.length ≤ k →
      S.loop k st xs = S.loop m st xs := by
    intro m
    induction m with
    | zero =>
      intro k st xs hm _
      have hnil : xs = [] := List.eq_nil_of_length_eq_zero (Nat.le_zero.1 hm)
      cases k with
      | zero => rfl
      | succ k => simp [loop, hnil, S.scan_nil]
    | succ m ih =>
      intro k st xs hm hk
      cases k with
      | zero =>
        have hnil : xs = [] := List.eq_nil_of_length_eq_zero (Nat.le_zero.1 hk)
        simp [loop, hnil, S.scan_nil]
      | succ k =>
        simp only [loop]
        cases hs : S.scan st xs with
        | none => rfl
        | some r =>
          obtain ⟨st', o, n⟩ := r
          have hp := S.pos st xs _ hs
          dsimp only at hp ⊢
          have hlen : (xs.drop n).length = xs.length - n := List.length_drop
          rw [ih k st' (xs.drop n) (by omega) (by omega)]
  exact key xs.length k st xs (le_refl _) h

theorem drain_none {st : σ} {xs : List α} (h : S.scan st xs = none) :
    S.drain st xs = ([], st, xs) := by
  unfold drain
  cases xs.length with
  | zero => rfl
  | succ k => simp [loop, h]

theorem drain_some {st st' : σ} {xs : List α} {o : Option β} {n : Nat}
    (h : S.scan st xs = some (st', o, n)) :
    S.drain st xs =
      (o.toList ++ (S.drain st' (xs.drop n)).1, (S.drain st' (xs.drop n)).2) := by
  have hp := S.pos st xs _ h
  dsimp only at hp
  have hlen : (xs.drop n).length = xs.length - n := List.length_drop
  obtain ⟨k, hk⟩ : ∃ k, xs.length = k + 1 := ⟨xs.length - 1, by omega⟩
  have hfuel : S.loop k st' (xs.drop n) = S.drain st' (xs.drop n) := S.loop_fuel st' (by omega)
  rw [drain, hk]
  simp only [loop, h, hfuel]

/-- Look by look: a scanner that waits, and one that consumes with the bytes after it settled. -/
theorem scan_induction {motive : σ → List α → Prop}
    (wait : ∀ st xs, S.scan st xs = none → motive st xs)
    (take : ∀ st xs st' o n, S.scan st xs = some (st', o, n) → motive st' (xs.drop n) →
      motive st xs) (st : σ) (xs : List α) : motive st xs := by
  have key : ∀ m st (xs : List α), xs.length ≤ m → motive st xs := by
    intro m
    induction m with
    | zero =>
      intro st xs hm
      have hnil : xs = [] := List.eq_nil_of_length_eq_zero (Nat.le_zero.1 hm)
      rw [hnil]
      exact wait st [] (S.scan_nil st)
    | succ m ih =>
      intro st xs hm
      cases hs : S.scan st xs with
      | none => exact wait st xs hs
      | some r =>
        obtain ⟨st', o, n⟩ := r
        have hp := S.pos st xs _ hs
        have hlen : (xs.drop n).length = xs.length - n := List.length_drop
        dsimp only at hp
        exact take st xs st' o n hs (ih st' (xs.drop n) (by omega))
  exact key xs.length st xs (le_refl _)

/-- The loop with no bound on its looks: from `st` on `xs` it comes to a look that waits, having
emitted the first component of the result. -/
inductive Ends : σ → List α → List β × σ × List α → Prop where
  | wait {st : σ} {xs : List α} : S.scan st xs = none → Ends st xs ([], st, xs)
  | take {st st' : σ} {xs : List α} {o : Option β} {n : Nat} {r : List β × σ × List α} :
      S.scan st xs = some (st', o, n) → Ends st' (xs.drop n) r →
        Ends st xs (o.toList ++ r.1, r.2)

theorem drain_ends (st : σ) (xs : List α) : S.Ends st xs (S.drain st xs) := by
  induction st, xs using S.scan_induction with
  | wait st xs hs =>
    rw [S.drain_none hs]
    exact .wait hs
  | take st xs st' o n hs ih =>
    rw [S.drain_some hs]
    exact .take hs ih

theorem Ends.waits {S : Scanner σ α β} {st : σ} {xs : List α} {r : List β × σ × List α}
    (h : S.Ends st xs r) : S.scan r.2.1 r.2.2 = none := by
  induction h with
  | wait hs => exact hs
  | take _ _ ih => exact ih

/-- A look that has found something finds the same with more bytes after it. -/
def Stable : Prop := ∀ st xs ys r, S.scan st xs = some r → S.scan st (xs ++ ys) = some r

/-- Draining in two goes, the second on what the first has left. -/
theorem drain_append {S : Scanner σ α β} (hS : S.Stable) (st : σ) (xs ys : List α) :
    S.drain st (xs ++ ys) =
      ((S.drain st xs).1 ++ (S.drain (S.drain st xs).2.1 ((S.drain st xs).2.2 ++ ys)).1,
        (S.drain (S.drain st xs).2.1 ((S.drain st xs).2.2 ++ ys)).2) := by
  induction st, xs using S.scan_induction with
  | wait st xs hs =>
    rw [S.drain_none hs]
    simp
  | take st xs st' o n hs ih =>
    have hp := S.pos st xs _ hs
    have hdrop : (xs ++ ys).drop n = xs.drop n ++ ys := List.drop_append_of_le_length hp.2
    rw [S.drain_some (hS st xs ys _ hs), S.drain_some hs, hdrop, ih]
    simp only [List.append_assoc]

theorem drain_inv {P : σ → Prop} (hscan : ∀ st xs r, P st → S.scan st xs = some r → P r.1)
    {st : σ} (h : P st) (xs : List α) : P (S.drain st xs).2.1 := by
  have key : ∀ k st xs, P st → P (S.loop k st xs).2.1 := by
    intro k
    induction k with
    | zero => exact fun st xs hst => hst
    | succ k ih =>
      intro st xs hst
      simp only [loop]
      cases hs : S.scan st xs with
      | none => exact hst
      | some r => exact ih r.1 _ (hscan st xs r hst hs)
  exact key xs.length st xs h

end Scanner

/-! ## Receivers -/

structure Receiver (σ : Type u) (α : Type v) where
  st : σ
  buf : List α

/-- One chunk: a carry-over longer than `limit` is thrown away first. -/
def receive (S : Scanner σ α β) (limit : Nat) (r : Receiver σ α) (chunk : List α) :
    List β × Receiver σ α :=
  let buf := if limit < r.buf.length then [] else r.buf
  let d := S.drain r.st (buf ++ chunk)
  (d.1, { st := d.2.1, buf := d.2.2 })

def receiveAll (S : Scanner σ α β) (limit : Nat) (r : Receiver σ α) :
    List (List α) → List β × Receiver σ α
  | [] => ([], r)
  | c :: cs =>
    let d := receive S limit r c
    let e := receiveAll S limit d.2 cs
    (d.1 ++ e.1, e.2)

theorem receiveAll_inv (S : Scanner σ α β) (limit : Nat) {P : σ → Prop}
    (hscan : ∀ st xs r, P st → S.scan st xs = some r → P r.1) {r : Receiver σ α} (h : P r.st)
    (cs : List (List α)) : P (receiveAll S limit r cs).2.st := by
  induction cs generalizing r with
  | nil => exact h
  | cons c cs ih => exact ih (S.drain_inv hscan h _)

/-! ## Framed packets -/

/-- How a scanner in a `good` state treats the encodings `f` of packets that decode to `dec`. -/
structure Frames (S : Scanner σ α β) (f : π → List α) (dec : π → β) (good : σ → Prop)
    (tear : Nat) : Prop where
  tear_pos : 0 < tear
  tear_lt : ∀ p, tear < (f p).length
  whole : ∀ st p rest, good st → ∃ st', good st' ∧
    S.scan st (f p ++ rest) = some (st', some (dec p), (f p).length)
  partly : ∀ st p m, good st → m < (f p).length → m ≠ tear → S.scan st ((f p).take m) = none
  torn : ∀ st p, good st → ∃ r, S.scan st ((f p).take tear) = some r ∧ ¬ good r.1
  spoilt : ∀ st xs r, ¬ good st → S.scan st xs = some r → ¬ good r.1

/-- `tail` is the beginning of the first packet of `ps`, not all of it. -/
def Begins (f : π → List α) (ps : List π) (tail : List α) : Prop :=
  (ps = [] ∧ tail = []) ∨
    ∃ p rest, ps = p :: rest ∧ tail <+: f p ∧ tail.length < (f p).length

theorem split_stream {f : π → List α} (ps : List π) {raw : List α} (h : raw <+: ps.flatMap f) :
    ∃ qs rs tail, ps = qs ++ rs ∧ raw = qs.flatMap f ++ tail ∧ Begins f rs tail := by
  induction ps generalizing raw with
  | nil =>
    have hnil : raw = [] := by simpa using h
    exact ⟨[], [], [], rfl, by simp [hnil], .inl ⟨rfl, rfl⟩⟩
  | cons p ps ih =>
    rw [List.flatMap_cons] at h
    rcases Nat.lt_or_ge raw.length (f p).length with hlt | hge
    · have hpre : raw <+: f p :=
        List.prefix_of_prefix_length_le h (List.prefix_append _ _) (Nat.le_of_lt hlt)
      exact ⟨[], p :: ps, raw, rfl, by simp, .inr ⟨p, ps, rfl, hpre, hlt⟩⟩
    · have hpre : f p <+: raw :=
        List.prefix_of_prefix_length_le (List.prefix_append _ _) h hge
      obtain ⟨raw', rfl⟩ := hpre
      have htail : raw' <+: ps.flatMap f := (List.prefix_append_right_inj (f p)).1 h
      obtain ⟨qs, rs, tail, rfl, rfl, hb⟩ := ih htail
      exact ⟨p :: qs, rs, tail, rfl, by simp, hb⟩

/-- A prefix that ends with a packet of the second list consists of the first list and a prefix of
the second. -/
theorem prefix_append_cases {qs rs q : List π} {p : π} (h : q ++ [p] <+: qs ++ rs) :
    q ++ [p] <+: qs ∨ ∃ q', q = qs ++ q' ∧ q' ++ [p] <+: rs := by
  induction qs generalizing q with
  | nil => exact .inr ⟨q, rfl, h⟩
  | cons a qs ih =>
    cases q with
    | nil =>
      have hpa : p = a := (List.cons_prefix_cons.1 h).1
      left
      rw [hpa]
      exact List.cons_prefix_cons.2 ⟨rfl, List.nil_prefix⟩
    | cons b q =>
      obtain ⟨rfl, h'⟩ := List.cons_prefix_cons.1 h
      rcases ih h' with hq | ⟨q', rfl, hq'⟩
      · exact .inl (List.cons_prefix_cons.2 ⟨rfl, hq⟩)
      · exact .inr ⟨q', rfl, hq'⟩

section Receive

variable {S : Scanner σ α β} {f : π → List α} {dec : π → β} {good : σ → Prop} {tear : Nat}

theorem Frames.drain_whole (h : Frames S f dec good tear) {st : σ} (hst : good st)
    (ps : List π) (tail : List α) :
    ∃ st', good st' ∧ S.drain st (ps.flatMap f ++ tail) =
      (ps.map dec ++ (S.drain st' tail).1, (S.drain st' tail).2) := by
  induction ps generalizing st with
  | nil => exact ⟨st, hst, by simp⟩
  | cons p ps ih =>
    obtain ⟨st1, hst1, hscan⟩ := h.whole st p (ps.flatMap f ++ tail) hst
    obtain ⟨st', hst', hdrain⟩ := ih hst1
    refine ⟨st', hst', ?_⟩
    rw [List.flatMap_cons, List.append_assoc, S.drain_some hscan, List.drop_left, hdrain]
    simp

theorem Frames.drain_begins (h : Frames S f dec good tear) {st : σ} (hst : good st)
    {rs : List π} {tail : List α} (hb : Begins f rs tail) (hne : tail.length ≠ tear) :
    S.drain st tail = ([], st, tail) := by
  apply S.drain_none
  rcases hb with ⟨_, rfl⟩ | ⟨p, rest, _, hpre, hlt⟩
  · exact S.scan_nil st
  · rw [List.prefix_iff_eq_take.1 hpre]
    exact h.partly st p tail.length hst hlt hne

theorem Frames.drain_torn (h : Frames S f dec good tear) {st : σ} (hst : good st) {p : π}
    {tail : List α} (hpre : tail <+: f p) (heq : tail.length = tear) :
    ¬ good (S.drain st tail).2.1 := by
  obtain ⟨⟨st', o, n⟩, hscan, hbad⟩ := h.torn st p hst
  have htail : tail = (f p).take tear := by
    rw [← heq]
    exact List.prefix_iff_eq_take.1 hpre
  rw [htail, S.drain_some hscan]
  exact S.drain_inv (fun st xs r hst hs => h.spoilt st xs r hst hs) hbad _

/-- Once a chunk has ended at the bad length the scanner is spoilt, whatever comes after. -/
theorem Frames.receiveAll_spoilt (h : Frames S f dec good tear) {st : σ} (hst : good st) {p : π}
    {tail : List α} (hpre : tail <+: f p) (heq : tail.length = tear) (limit : Nat)
    (cs : List (List α)) :
    ¬ good (receiveAll S limit ⟨(S.drain st tail).2.1, (S.drain st tail).2.2⟩ cs).2.st :=
  receiveAll_inv S limit (P := fun st => ¬ good st)
    (fun st xs r hst hs => h.spoilt st xs r hst hs)
    (r := ⟨(S.drain st tail).2.1, (S.drain st tail).2.2⟩) (h.drain_torn hst hpre heq) cs

/-- No chunk ends `tear` bytes into a packet. `carried` bytes came before the chunks. -/
def Untorn (f : π → List α) (tear carried : Nat) (ps : List π) (cs : List (List α)) : Prop :=
  ∀ pre, pre <+: cs → ∀ qs p, qs ++ [p] <+: ps →
    carried + pre.flatten.length ≠ (qs.flatMap f).length + tear

theorem flatMap_length_le_of_prefix {qs ps : List π} (h : qs <+: ps) :
    (qs.flatMap f).length ≤ (ps.flatMap f).length := by
  obtain ⟨rs, rfl⟩ := h
  simp

/-- The condition on a chunk and the ones after it, once the chunk has been split into the packets
it completes and a tail. -/
theorem untorn_cons (ht : ∀ p, tear < (f p).length) {qs rs : List π} {buf c tail : List α}
    {cs : List (List α)} (hbuf : Begins f (qs ++ rs) buf) (hclean : buf.length ≠ tear)
    (hraw : buf ++ c = qs.flatMap f ++ tail) :
    Untorn f tear buf.length (qs ++ rs) (c :: cs) ↔ Untorn f tear tail.length rs cs := by
  have hlen : buf.length + c.length = (qs.flatMap f).length + tail.length := by
    simpa using congrArg List.length hraw
  constructor
  · intro h pre hpre q p hq
    have hpre' : c :: pre <+: c :: cs := List.cons_prefix_cons.2 ⟨rfl, hpre⟩
    have hq' : (qs ++ q) ++ [p] <+: qs ++ rs := by
      rw [List.append_assoc]
      exact (List.prefix_append_right_inj qs).2 hq
    have hne := h (c :: pre) hpre' (qs ++ q) p hq'
    simp only [List.flatten_cons, List.length_append, List.flatMap_append] at hne
    omega
  · intro h pre hpre q p hq
    cases pre with
    | nil =>
      simp only [List.flatten_nil, List.length_nil, Nat.add_zero]
      rcases hbuf with ⟨hnil, _⟩ | ⟨p0, rest, hps, _, hlt⟩
      · rw [hnil] at hq
        simp at hq
      · cases q with
        | nil => simpa using hclean
        | cons a q =>
          rw [hps] at hq
          obtain ⟨rfl, _⟩ := List.cons_prefix_cons.1 hq
          rw [List.flatMap_cons, List.length_append]
          omega
    | cons c' pre =>
      obtain ⟨rfl, hpre'⟩ := List.cons_prefix_cons.1 hpre
      rcases prefix_append_cases hq with hin | ⟨q', rfl, hq'⟩
      · have hle := flatMap_length_le_of_prefix (f := f) hin
        have hp := ht p
        simp only [List.flatMap_append, List.flatMap_cons, List.flatMap_nil, List.append_nil,
          List.length_append] at hle
        simp only [List.flatten_cons, List.length_append]
        omega
      · have hne := h pre hpre' q' p hq'
        simp only [List.flatten_cons, List.length_append, List.flatMap_append]
        omega

theorem Begins.eq_nil {ps : List π} {buf : List α} (hb : Begins f ps buf)
    (hstream : buf = ps.flatMap f) : ps = [] := by
  rcases hb with ⟨hps, _⟩ | ⟨p, rest, rfl, _, hlt⟩
  · exact hps
  · rw [hstream, List.flatMap_cons, List.length_append] at hlt
    omega

theorem Begins.cons_of_length {ps : List π} {tail : List α} (hb : Begins f ps tail)
    (hpos : 0 < tail.length) : ∃ p rest, ps = p :: rest ∧ tail <+: f p := by
  rcases hb with ⟨_, rfl⟩ | ⟨p, rest, hps, hpre, _⟩
  · exact absurd hpos (Nat.lt_irrefl 0)
  · exact ⟨p, rest, hps, hpre⟩

theorem Frames.receiveAll_begins (h : Frames S f dec good tear) {limit : Nat}
    (hlimit : ∀ p, (f p).length ≤ limit) {cs : List (List α)} {ps : List π} {st : σ}
    {buf : List α} (hst : good st) (hbuf : Begins f ps buf) (hclean : buf.length ≠ tear)
    (hstream : buf ++ cs.flatten = ps.flatMap f) :
    ((receiveAll S limit ⟨st, buf⟩ cs).1 = ps.map dec ∧
        good (receiveAll S limit ⟨st, buf⟩ cs).2.st) ↔
      Untorn f tear buf.length ps cs := by
  induction cs generalizing ps st buf with
  | nil =>
    have hps : ps = [] := hbuf.eq_nil (by simpa using hstream)
    subst hps
    constructor
    · intro _ pre _ qs p hqs
      simp at hqs
    · intro _
      exact ⟨rfl, hst⟩
  | cons c cs ih =>
    have hcap : ¬ limit < buf.length := by
      rcases hbuf with ⟨_, rfl⟩ | ⟨p, rest, _, _, hlt⟩
      · simp
      · have hp := hlimit p
        omega
    have hpre : buf ++ c <+: ps.flatMap f := by
      rw [← hstream, List.flatten_cons, ← List.append_assoc]
      exact List.prefix_append _ _
    obtain ⟨qs, rs, tail, rfl, hraw, htail⟩ := split_stream ps hpre
    obtain ⟨st', hst', hdrain⟩ := h.drain_whole hst qs tail
    have hrest : tail ++ cs.flatten = rs.flatMap f := by
      have hflat := hstream
      rw [List.flatten_cons, ← List.append_assoc, hraw, List.flatMap_append,
        List.append_assoc] at hflat
      exact List.append_cancel_left hflat
    have hcons : receiveAll S limit ⟨st, buf⟩ (c :: cs) =
        (qs.map dec ++ (S.drain st' tail).1 ++
            (receiveAll S limit ⟨(S.drain st' tail).2.1, (S.drain st' tail).2.2⟩ cs).1,
          (receiveAll S limit ⟨(S.drain st' tail).2.1, (S.drain st' tail).2.2⟩ cs).2) := by
      simp only [receiveAll, receive, if_neg hcap, hraw, hdrain]
    rw [hcons, untorn_cons h.tear_lt hbuf hclean hraw]
    by_cases htear : tail.length = tear
    · -- the chunk ends at the bad length: the scanner is spoilt from here on
      obtain ⟨p, rest, hrs, htp⟩ := htail.cons_of_length (by rw [htear]; exact h.tear_pos)
      constructor
      · rintro ⟨_, hgood⟩
        exact absurd hgood (h.receiveAll_spoilt hst' htp htear limit cs)
      · intro huntorn
        have hne := huntorn [] List.nil_prefix [] p (by
          rw [hrs]
          exact List.cons_prefix_cons.2 ⟨rfl, List.nil_prefix⟩)
        simp [htear] at hne
    · rw [h.drain_begins hst' htail htear]
      simp only [List.map_append, List.append_nil]
      rw [List.append_cancel_left_eq]
      exact ih hst' htail htear hrest

/-- However a packet stream is cut, the receiver puts out exactly its packets and stays good if
and only if no chunk ends `tear` bytes into a packet. -/
theorem Frames.receiveAll_iff (h : Frames S f dec good tear) {limit : Nat}
    (hlimit : ∀ p, (f p).length ≤ limit) {st : σ} (hst : good st) {ps : List π}
    {cs : List (List α)} (hstream : cs.flatten = ps.flatMap f) :
    ((receiveAll S limit ⟨st, []⟩ cs).1 = ps.map dec ∧
        good (receiveAll S limit ⟨st, []⟩ cs).2.st) ↔
      Untorn f tear 0 ps cs := by
  have hpos := h.tear_pos
  have hbuf : Begins f ps [] := by
    cases ps with
    | nil => exact .inl ⟨rfl, rfl⟩
    | cons p ps =>
      have hlt := h.tear_lt p
      exact .inr ⟨p, ps, rfl, List.nil_prefix, Nat.lt_of_lt_of_le hpos (Nat.le_of_lt hlt)⟩
  exact h.receiveAll_begins hlimit hst hbuf (by simp; omega) hstream

end Receive

end Framing
end MazdaPort
