import MazdaPort.SpeedLimits.Lookup

/-!
# MazdaPort.SpeedLimits.Block

The nine cells that a lookup searches.

With a faithful index they hold the segments whose midpoint is in one of them (`mem_candidates`).
`lookup_complete_iff`: a lookup does as well as one over all the segments exactly when the best of
those that qualify is among them and is not hidden.
-/

namespace MazdaPort
namespace SpeedLimits

/-! ## What the block holds -/

/-- The midpoint is in one of the nine cells around the position. -/
def Query.InBlock (q : Query) (seg : Segment) : Prop :=
  |seg.cell.cy - cellNumber q.lat| ≤ 1 ∧ |seg.cell.cx - cellNumber q.lon| ≤ 1

/-- A position that a receiver can have. -/
structure Query.Valid (q : Query) : Prop where
  lat : -90 ≤ q.lat ∧ q.lat ≤ 90
  lon : -180 ≤ q.lon ∧ q.lon ≤ 180

theorem mem_slice {α : Type*} {l : List α} {s n : Nat} {a : α} :
    a ∈ (l.drop s).take n ↔ ∃ j, s ≤ j ∧ j < s + n ∧ l[j]? = some a := by
  rw [List.mem_iff_getElem?]
  constructor
  · rintro ⟨i, hi⟩
    rw [List.getElem?_take] at hi
    split at hi
    · next hlt =>
      rw [List.getElem?_drop] at hi
      exact ⟨s + i, by omega, by omega, hi⟩
    · cases hi
  · rintro ⟨j, hs, hn, hj⟩
    refine ⟨j - s, ?_⟩
    rw [List.getElem?_take, if_pos (by omega), List.getElem?_drop, Nat.add_sub_cancel' hs, hj]

theorem cellSlice_nonneg {ix : SpeedLimitIndex} {cy cx s e : Int}
    (h : ix.cellSlice cy cx = some (s, e)) : 0 ≤ s := by
  unfold SpeedLimitIndex.cellSlice at h
  dsimp only at h
  split at h
  · split at h
    · cases h
    · cases h
      exact Int.natCast_nonneg _
  · cases h

section Candidates

variable {segs : List Segment} {ix : SpeedLimitIndex}

/-- A faithful index has in the slice of a cell the segments with their midpoint there. -/
theorem mem_cell (hix : Faithful segs ix) (c : Cell) {seg : Segment} :
    (seg ∈ match ix.cellSlice c.cy c.cx with
      | some sl => ix.arange sl
      | none => []) ↔ seg ∈ segs ∧ seg.cell = c := by
  cases hslice : ix.cellSlice c.cy c.cx with
  | none =>
    have habsent := (hix.absent c).1 hslice
    constructor
    · intro h
      cases h
    · rintro ⟨hmem, hcell⟩
      exact absurd hcell (habsent seg hmem)
  | some sl =>
    obtain ⟨s, e⟩ := sl
    have hs := cellSlice_nonneg hslice
    have hplaces := hix.slice c s e hslice
    dsimp only
    rw [SpeedLimitIndex.arange, mem_slice]
    constructor
    · rintro ⟨j, hlow, hhigh, hj⟩
      obtain ⟨seg', hj', hcell⟩ := (hplaces j).1 ⟨by omega, by omega⟩
      cases hj.symm.trans hj'
      exact ⟨hix.perm.mem_iff.1 (List.mem_of_getElem? hj), hcell⟩
    · rintro ⟨hmem, hcell⟩
      obtain ⟨j, hj⟩ := List.mem_iff_getElem?.1 (hix.perm.mem_iff.2 hmem)
      have hin := (hplaces j).2 ⟨seg, hj, hcell⟩
      exact ⟨j, by omega, by omega, hj⟩

theorem mem_candidates (hix : Faithful segs ix) {q : Query} (hq : q.Valid) {seg : Segment} :
    seg ∈ ix.candidates q.lat q.lon ↔ seg ∈ segs ∧ q.InBlock seg := by
  have hcy := @cellNumber_bounds q.lat (by linarith [hq.lat.1]) (by linarith [hq.lat.2])
  have hcx := cellNumber_bounds hq.lon.1 hq.lon.2
  have hoffset : ∀ d : Int, d ∈ [-1, 0, 1] ↔ |d| ≤ 1 := by
    intro d
    rw [abs_le]
    simp only [List.mem_cons, List.not_mem_nil, or_false]
    omega
  simp only [SpeedLimitIndex.candidates, List.mem_flatMap, hoffset]
  constructor
  · rintro ⟨dy, hdy, dx, hdx, hmem⟩
    rw [abs_le] at hdy hdx
    let c : Cell := ⟨cellNumber q.lat + dy, cellNumber q.lon + dx, by omega, by omega⟩
    obtain ⟨hseg, hcell⟩ := (mem_cell hix c).1 hmem
    refine ⟨hseg, ?_⟩
    rw [Query.InBlock, hcell, abs_le, abs_le]
    dsimp only [c]
    omega
  · rintro ⟨hseg, hblock⟩
    refine ⟨seg.cell.cy - cellNumber q.lat, hblock.1, seg.cell.cx - cellNumber q.lon, hblock.2, ?_⟩
    rw [add_sub_cancel, add_sub_cancel]
    exact (mem_cell hix seg.cell).2 ⟨hseg, rfl⟩

end Candidates

/-! ## What a lookup misses -/

section Complete

variable {K : Type*} [Field K] [LinearOrder K] [FloorRing K] (M : Calls K)

/-- What is asked of the block: the score of the same selection over all the segments within the
distance. -/
def LosesNothing (segs : List Segment) (ix : SpeedLimitIndex) (q : Query) : Prop :=
  (q.best M (ix.candidates q.lat q.lon)).map (q.rank M) =
    (q.best M (segs.filter (q.near M))).map (q.rank M)

/-- No other segment that qualifies ranks before this one. -/
def BestOf (segs : List Segment) (q : Query) (seg : Segment) : Prop :=
  seg ∈ segs ∧ q.Qualifies M seg ∧
    ∀ other ∈ segs, q.Qualifies M other → q.rank M seg ≤ q.rank M other

/-- Where segments qualify, one of the best has its midpoint in the block, and no candidate that is
too far away hides the ones that are not. -/
def Reached (segs : List Segment) (ix : SpeedLimitIndex) (q : Query) : Prop :=
  (∃ seg ∈ segs, q.Qualifies M seg) →
    (∃ seg, BestOf M segs q seg ∧ q.InBlock seg) ∧ NotHidden M q ix

variable {M} {segs : List Segment} {ix : SpeedLimitIndex} {q : Query}

/-- Over segments that are all near, the selection is the best of them. -/
theorem bestOf_of_best {seg : Segment} (h : q.best M (segs.filter (q.near M)) = some seg) :
    BestOf M segs q seg := by
  rw [best_eq] at h
  obtain ⟨hmem, hok, hnear⟩ := Pick.pick_mem h
  refine ⟨(List.mem_filter.1 hmem).1, ⟨hok, hnear⟩, fun other hother hqual => ?_⟩
  exact Pick.rank_le_of_pick h (List.mem_filter.2 ⟨hother, hqual.2⟩) hqual.1

theorem exists_best (h : ∃ seg ∈ segs, q.Qualifies M seg) :
    ∃ seg, q.best M (segs.filter (q.near M)) = some seg := by
  obtain ⟨seg, hmem, hok, hnear⟩ := h
  obtain ⟨k, hk⟩ := List.mem_iff_getElem?.1 (List.mem_filter.2 ⟨hmem, hnear⟩)
  rw [best_eq]
  -- Nothing in the list is far away, so that nothing can hide it.
  refine Pick.exists_pick_of_unhidden ⟨k, seg, hk, hok, hnear, fun j b hj _ hfar => ?_⟩
  have hnear' := (List.mem_filter.1 (List.mem_of_getElem? hj)).2
  rw [hfar] at hnear'
  cases hnear'

theorem qualifies_of_best {cands : List Segment} {seg : Segment}
    (h : q.best M cands = some seg) : seg ∈ cands ∧ q.Qualifies M seg := by
  rw [best_eq] at h
  exact Pick.pick_mem h

theorem losesNothing_of_reached (hix : Faithful segs ix) (hq : q.Valid)
    (h : Reached M segs ix q) : LosesNothing M segs ix q := by
  unfold LosesNothing
  by_cases hsome : ∃ seg ∈ segs, q.Qualifies M seg
  · obtain ⟨⟨seg, hseg, hblock⟩, hnot⟩ := h hsome
    obtain ⟨m, hm⟩ := exists_best hsome
    have hmbest := bestOf_of_best hm
    have hcand : seg ∈ ix.candidates q.lat q.lon := (mem_candidates hix hq).2 ⟨hseg.1, hblock⟩
    obtain ⟨c, hc⟩ := Pick.exists_pick_of_unhidden (hnot ⟨seg, hcand, hseg.2.1⟩)
    have hcseg : q.rank M c ≤ q.rank M seg := Pick.rank_le_of_pick hc hcand hseg.2.1.1
    rw [← best_eq] at hc
    obtain ⟨hcmem, hcqual⟩ := qualifies_of_best hc
    have hmc : q.rank M m ≤ q.rank M c :=
      hmbest.2.2 c ((mem_candidates hix hq).1 hcmem).1 hcqual
    have hsegm : q.rank M seg ≤ q.rank M m := hseg.2.2 m hmbest.1 hmbest.2.1
    rw [hc, hm, Option.map_some, Option.map_some, le_antisymm (hcseg.trans hsegm) hmc]
  · have hnone : ∀ cands : List Segment, (∀ seg ∈ cands, seg ∈ segs) → q.best M cands = none := by
      intro cands hsub
      cases hbest : q.best M cands with
      | none => rfl
      | some seg =>
        obtain ⟨hmem, hqual⟩ := qualifies_of_best hbest
        exact absurd ⟨seg, hsub seg hmem, hqual⟩ hsome
    rw [hnone _ fun seg h => ((mem_candidates hix hq).1 h).1,
      hnone _ fun seg h => (List.mem_filter.1 h).1]

theorem reached_of_losesNothing (hix : Faithful segs ix) (hq : q.Valid)
    (h : LosesNothing M segs ix q) : Reached M segs ix q := by
  intro hsome
  obtain ⟨m, hm⟩ := exists_best hsome
  have hmbest := bestOf_of_best hm
  rw [LosesNothing, hm, Option.map_some, Option.map_eq_some_iff] at h
  obtain ⟨c, hc, hrank⟩ := h
  obtain ⟨hcmem, hcqual⟩ := qualifies_of_best hc
  obtain ⟨hcseg, hcblock⟩ := (mem_candidates hix hq).1 hcmem
  refine ⟨⟨c, ⟨hcseg, hcqual, fun other hother hqual => ?_⟩, hcblock⟩, fun _ => ?_⟩
  · rw [hrank]
    exact hmbest.2.2 other hother hqual
  · rw [best_eq] at hc
    exact Pick.unhidden_of_pick hc

/-- The lookup does as well as a selection over all the segments within the distance exactly when
one of the best of them has its midpoint in the block, and no candidate beyond the distance hides
it. -/
theorem lookup_complete_iff (M : Calls K) {segs : List Segment} {ix : SpeedLimitIndex}
    (hix : Faithful segs ix) {q : Query} (hq : q.Valid) :
    LosesNothing M segs ix q ↔ Reached M segs ix q :=
  ⟨reached_of_losesNothing hix hq, losesNothing_of_reached hix hq⟩

end Complete

/-! ## A long road -/

/-- A road along the equator from 37 degrees, to the east or to the west. -/
def equatorRoad (len : Rat) (hlen : -1 ≤ len ∧ len ≤ 1) (hwType : Nat) : Segment where
  start := ⟨0, 37, by norm_num, by norm_num⟩
  stop := ⟨0, 37 + len, by norm_num, by constructor <;> linarith⟩
  limit := 25
  inferred := false
  hwType := hwType

def roadStart : Query := ⟨0, 37, none⟩

theorem roadStart_valid : roadStart.Valid := by
  constructor <;> norm_num [roadStart]

/-- East of the meridian every index is faithful. -/
theorem faithful_of_east {segs : List Segment} (h : ∀ seg ∈ segs, 0 ≤ seg.midLon) :
    Faithful segs (indexOf segs) := by
  rw [indexOf_faithful_iff, Grouping.exact_iff_sorted, keysOf_sorted_iff]
  intro a ha b hb _
  exact iff_of_false (not_lt.2 (h a ha)) (not_lt.2 (h b hb))

theorem distanceTo_start (b : Point Real) : distanceTo realCalls ⟨0, 0⟩ b = 0 := by
  simp [distanceTo, nearestAt, clip, realCalls]

/-- The road begins at the position. -/
theorem dist_equatorRoad (len : Rat) (hlen : -1 ≤ len ∧ len ≤ 1) (hwType : Nat) :
    roadStart.dist realCalls (equatorRoad len hlen hwType) = 0 := by
  have hstart : project realCalls roadStart.lat roadStart.lon (equatorRoad len hlen hwType).start =
      ⟨0, 0⟩ := by
    simp [project, roadStart, equatorRoad]
  rw [Query.dist, hstart, distanceTo_start]

theorem near_equatorRoad (len : Rat) (hlen : -1 ≤ len ∧ len ≤ 1) (hwType : Nat) :
    roadStart.near realCalls (equatorRoad len hlen hwType) = true := by
  rw [Query.near, dist_equatorRoad]
  simp [maxMatchM]

theorem rank_equatorRoad (len : Rat) (hlen : -1 ≤ len ∧ len ≤ 1) (hwType : Nat) :
    roadStart.rank realCalls (equatorRoad len hlen hwType) = (classCreditM : Real) * hwType := by
  rw [Query.rank, dist_equatorRoad, zero_add]
  rfl

/-- A motorway to the west and a service road to the east, each a thousandth of a degree long. -/
def shortRoads : List Segment :=
  [equatorRoad (1 / 1024) (by norm_num) 13, equatorRoad (-1 / 1024) (by norm_num) 0]

theorem shortRoads_faithful : Faithful shortRoads (indexOf shortRoads) :=
  faithful_of_east (by decide +kernel)

/-- The motorway is found, in the cell west of the position. -/
theorem equatorRoad_found : LosesNothing realCalls shortRoads (indexOf shortRoads) roadStart := by
  refine (lookup_complete_iff realCalls shortRoads_faithful roadStart_valid).2 fun _ => ?_
  have hnear : ∀ seg ∈ shortRoads, roadStart.near realCalls seg = true := by
    simp [shortRoads, near_equatorRoad]
  have hrank : ∀ seg ∈ shortRoads,
      roadStart.rank realCalls (equatorRoad (-1 / 1024) (by norm_num) 0) ≤
        roadStart.rank realCalls seg := by
    simp [shortRoads, rank_equatorRoad, classCreditM]
  have hblock : roadStart.InBlock (equatorRoad (-1 / 1024) (by norm_num) 0) := by
    constructor <;> decide +kernel
  have hmem : equatorRoad (-1 / 1024) (by norm_num) 0 ∈ shortRoads :=
    List.mem_cons_of_mem _ (List.mem_cons_self ..)
  refine ⟨⟨_, ⟨hmem, ⟨rfl, hnear _ hmem⟩, fun other hother _ => hrank other hother⟩, hblock⟩, ?_⟩
  rintro ⟨seg, hseg, hqual⟩
  obtain ⟨k, hk⟩ := List.mem_iff_getElem?.1 hseg
  refine ⟨k, seg, hk, hqual.1, hqual.2, fun j b hj _ hfar => ?_⟩
  -- No road is far away, so that none can hide another.
  have hcand := (mem_candidates shortRoads_faithful roadStart_valid).1 (List.mem_of_getElem? hj)
  rw [hnear b hcand.1] at hfar
  cases hfar

/-- A road of a sixteenth of a degree. -/
def longRoad : List Segment := [equatorRoad (1 / 16) (by norm_num) 0]

/-- It is not found where it begins: its midpoint is three cells away. -/
theorem equatorRoad_lost :
    Faithful longRoad (indexOf longRoad) ∧
      ¬ LosesNothing realCalls longRoad (indexOf longRoad) roadStart := by
  have hfaithful : Faithful longRoad (indexOf longRoad) := faithful_of_east (by decide +kernel)
  refine ⟨hfaithful, fun h => ?_⟩
  have hreached := reached_of_losesNothing hfaithful roadStart_valid h
    ⟨_, List.mem_singleton_self _, rfl, near_equatorRoad ..⟩
  obtain ⟨⟨seg, hseg, hblock⟩, _⟩ := hreached
  rw [List.mem_singleton.1 hseg.1] at hblock
  revert hblock
  rw [Query.InBlock]
  decide +kernel

end SpeedLimits
end MazdaPort
