import MazdaPort.Lib.Grouping
import MazdaPort.Lib.Rounding

/-!
# MazdaPort.SpeedLimits.Grid

The cell index of the speed limits: `build_speed_limit_index.py` sorts the segments by the cell of
their midpoint and writes where each cell begins, `SpeedLimitIndex._cell_slice` looks a cell up.
Coordinates are stored, and midpoints and cells computed, as `np.float32`.

The sort compares the signed numbers of the cells, the table is in the order of their keys, which
hold the longitude unsigned. `grid_faithful_iff`: the slices are right exactly when no row of cells
has midpoints on both sides of the meridian.
-/

namespace MazdaPort
namespace SpeedLimits

open Grouping Rounding

/-! ## Segments and cells -/

/-- `np.float32`. Nothing in the index is near its greatest value. -/
def binary32 : Format := { digits := 23, least := -149 }

/-- A node location that osmium calls valid. -/
structure Location where
  lat : Rat
  lon : Rat
  lat_valid : -90 ≤ lat ∧ lat ≤ 90
  lon_valid : -180 ≤ lon ∧ lon ≤ 180

structure Segment where
  start : Location
  stop : Location
  limit : Rat
  inferred : Bool
  hwType : Nat

theorem binary32_90 : binary32.round 90 = 90 := by decide +kernel

theorem binary32_180 : binary32.round 180 = 180 := by decide +kernel

def Location.single (l : Location) : Location where
  lat := binary32.round l.lat
  lon := binary32.round l.lon
  lat_valid := binary32.round_within binary32_90 l.lat_valid.1 l.lat_valid.2
  lon_valid := binary32.round_within binary32_180 l.lon_valid.1 l.lon_valid.2

/-- The segment as the arrays of the index hold it. -/
def Segment.single (seg : Segment) : Segment :=
  { seg with
    start := seg.start.single
    stop := seg.stop.single
    limit := binary32.round seg.limit }

def cellDeg : Rat := 1 / 100

/-- The numbers of a cell, as `np.int32` holds them. -/
structure Cell where
  cy : Int
  cx : Int
  cy_int32 : -2 ^ 31 ≤ cy ∧ cy < 2 ^ 31
  cx_int32 : -2 ^ 31 ≤ cx ∧ cx < 2 ^ 31
  deriving DecidableEq

def Segment.midLat (seg : Segment) : Rat :=
  binary32.round (binary32.round (seg.start.lat + seg.stop.lat) * (1 / 2))

def Segment.midLon (seg : Segment) : Rat :=
  binary32.round (binary32.round (seg.start.lon + seg.stop.lon) * (1 / 2))

/-- `np.floor(mid / CELL_DEG)`. -/
def floorCell (mid : Rat) : Int := (binary32.round (mid / binary32.round cellDeg)).floor

theorem single_cellDeg : 1 / 128 ≤ binary32.round cellDeg ∧ binary32.round cellDeg ≤ 1 := by
  decide +kernel

theorem floorCell_int32 {mid : Rat} (hlow : -180 ≤ mid) (hhigh : mid ≤ 180) :
    -2 ^ 31 ≤ floorCell mid ∧ floorCell mid < 2 ^ 31 := by
  have hcell := single_cellDeg.1
  have hpos : 0 < binary32.round cellDeg := by linarith
  have hfix : binary32.round 23040 = 23040 := by decide +kernel
  have hquot : -23040 ≤ mid / binary32.round cellDeg ∧ mid / binary32.round cellDeg ≤ 23040 := by
    rw [le_div_iff₀ hpos, div_le_iff₀ hpos]
    constructor <;> linarith
  obtain ⟨hlow', hhigh'⟩ := binary32.round_within hfix hquot.1 hquot.2
  constructor
  · rw [floorCell, Rat.le_floor_iff]
    push_cast
    linarith
  · rw [floorCell, Rat.floor_lt_iff]
    push_cast
    linarith

/-- The cell of the midpoint. -/
def Segment.cell (seg : Segment) : Cell where
  cy := floorCell seg.midLat
  cx := floorCell seg.midLon
  cy_int32 := by
    have h1 := seg.start.lat_valid
    have h2 := seg.stop.lat_valid
    obtain ⟨hlow, hhigh⟩ := binary32.round_within (q := seg.start.lat + seg.stop.lat) binary32_180
      (by linarith) (by linarith)
    obtain ⟨hlow', hhigh'⟩ := binary32.round_within
      (q := binary32.round (seg.start.lat + seg.stop.lat) * (1 / 2)) binary32_90
      (by linarith) (by linarith)
    unfold Segment.midLat
    exact floorCell_int32 (by linarith) (by linarith)
  cx_int32 := by
    have h1 := seg.start.lon_valid
    have h2 := seg.stop.lon_valid
    have hfix : binary32.round 360 = 360 := by decide +kernel
    obtain ⟨hlow, hhigh⟩ := binary32.round_within (q := seg.start.lon + seg.stop.lon) hfix
      (by linarith) (by linarith)
    unfold Segment.midLon
    obtain ⟨hlow', hhigh'⟩ := binary32.round_within
      (q := binary32.round (seg.start.lon + seg.stop.lon) * (1 / 2)) binary32_180
      (by linarith) (by linarith)
    exact floorCell_int32 hlow' hhigh'

/-! ## The index -/

/-- The key of a cell, an `np.int64`. -/
def cellKey (cy cx : Int) : Int :=
  ((BitVec.ofInt 64 cy <<< 32) ||| (BitVec.ofInt 64 cx &&& 0xFFFFFFFF#64)).toInt

/-- The order of `np.lexsort((cx, cy))`. -/
def Cell.le (a b : Cell) : Bool :=
  decide (a.cy < b.cy) || (a.cy == b.cy && decide (a.cx ≤ b.cx))

def reorder (segs : List Segment) : List Segment := segs.mergeSort fun a b => a.cell.le b.cell

structure SpeedLimitIndex where
  segments : List Segment
  cellKeys : List Int
  cellStart : List Nat
  cellCount : List Int

/-- The builder, from the collected segments on. -/
def main (segs : List Segment) : Option SpeedLimitIndex :=
  if segs.length = 0 then none
  else
    let sorted := reorder (segs.map Segment.single)
    let keys := sorted.map fun seg => cellKey seg.cell.cy seg.cell.cx
    some
      { segments := sorted
        cellKeys := unique keys
        cellStart := starts keys
        cellCount := counts keys }

/-- `_cell_slice`. -/
def SpeedLimitIndex.cellSlice (idx : SpeedLimitIndex) (cy cx : Int) : Option (Int × Int) :=
  let key := cellKey cy cx
  let i := searchsorted idx.cellKeys key
  match idx.cellKeys[i]? with
  | some found =>
    if found ≠ key then none
    else
      let s : Int := idx.cellStart.getD i 0
      some (s, s + idx.cellCount.getD i 0)
  | none => none

/-! ## Keys -/

/-- The low half of a key is the longitude unsigned. -/
theorem cellKey_eq (c : Cell) : cellKey c.cy c.cx = c.cy * 2 ^ 32 + c.cx % 2 ^ 32 := by
  have hy := c.cy_int32
  have hlow : (BitVec.ofInt 64 c.cx &&& 0xFFFFFFFF#64).toNat = (c.cx % 2 ^ 32).toNat := by
    have hmask : ∀ n : Nat, n &&& 0xFFFFFFFF = n % 2 ^ 32 :=
      Nat.and_two_pow_sub_one_eq_mod (n := 32)
    rw [BitVec.toNat_and, BitVec.toNat_ofNat, BitVec.toNat_ofInt,
      Nat.mod_eq_of_lt (by decide : 0xFFFFFFFF < 2 ^ 64), hmask]
    omega
  have hhigh : (BitVec.ofInt 64 c.cy <<< 32).toNat = (c.cy % 2 ^ 32).toNat <<< 32 := by
    rw [BitVec.toNat_shiftLeft, BitVec.toNat_ofInt, Nat.shiftLeft_eq, Nat.shiftLeft_eq]
    omega
  have hlt : (c.cx % 2 ^ 32).toNat < 2 ^ 32 := by omega
  rw [cellKey, BitVec.toInt_eq_toNat_cond, BitVec.toNat_or, hlow, hhigh,
    ← Nat.shiftLeft_add_eq_or_of_lt hlt, Nat.shiftLeft_eq]
  split <;> omega

theorem cellKey_inj {c d : Cell} : cellKey c.cy c.cx = cellKey d.cy d.cx ↔ c = d := by
  constructor
  · intro h
    rw [cellKey_eq, cellKey_eq] at h
    have hc := c.cx_int32
    have hd := d.cx_int32
    obtain ⟨cy, cx, _, _⟩ := c
    obtain ⟨dy, dx, _, _⟩ := d
    simp only at h hc hd
    have hy : cy = dy := by omega
    have hx : cx = dx := by omega
    subst hy hx
    rfl
  · rintro rfl
    rfl

/-- In one row the keys have the cells west of the meridian last. -/
theorem cellKey_lt_of_meridian {c d : Cell} (hrow : c.cy = d.cy) (hc : c.cx < 0) (hd : 0 ≤ d.cx) :
    cellKey d.cy d.cx < cellKey c.cy c.cx := by
  have hc' := c.cx_int32
  have hd' := d.cx_int32
  rw [cellKey_eq, cellKey_eq]
  omega

theorem cellKey_le {c d : Cell} (hle : c.le d = true)
    (hsign : c.cy = d.cy → (c.cx < 0 ↔ d.cx < 0)) :
    cellKey c.cy c.cx ≤ cellKey d.cy d.cx := by
  have hc := c.cx_int32
  have hd := d.cx_int32
  rw [cellKey_eq, cellKey_eq]
  simp only [Cell.le, Bool.or_eq_true, decide_eq_true_eq, Bool.and_eq_true, beq_iff_eq] at hle
  omega

theorem reorder_perm (segs : List Segment) : (reorder segs).Perm segs := List.mergeSort_perm ..

theorem reorder_sorted (segs : List Segment) :
    (reorder segs).Pairwise fun a b => a.cell.le b.cell = true := by
  refine List.pairwise_mergeSort (fun a b c hab hbc => ?_) (fun a b => ?_) segs
  · simp only [Cell.le, Bool.or_eq_true, decide_eq_true_eq, Bool.and_eq_true, beq_iff_eq]
      at hab hbc ⊢
    omega
  · simp only [Cell.le, Bool.or_eq_true, decide_eq_true_eq, Bool.and_eq_true, beq_iff_eq]
    omega

/-- The keys of the reordered segments. -/
def keysOf (segs : List Segment) : List Int :=
  (reorder segs).map fun seg => cellKey seg.cell.cy seg.cell.cx

theorem mem_keysOf {segs : List Segment} {c : Cell} :
    cellKey c.cy c.cx ∈ keysOf segs ↔ ∃ seg ∈ segs, seg.cell = c := by
  simp only [keysOf, List.mem_map, (reorder_perm segs).mem_iff, cellKey_inj]

theorem keysOf_getElem? {segs : List Segment} {c : Cell} {j : Nat} :
    (keysOf segs)[j]? = some (cellKey c.cy c.cx) ↔
      ∃ seg, (reorder segs)[j]? = some seg ∧ seg.cell = c := by
  simp only [keysOf, List.getElem?_map, Option.map_eq_some_iff, cellKey_inj]

/-! ## The meridian -/

/-- No row of cells has midpoints on both sides of the meridian. -/
def OneSided (segs : List Segment) : Prop :=
  ∀ a ∈ segs, ∀ b ∈ segs, floorCell a.midLat = floorCell b.midLat →
    (a.midLon < 0 ↔ b.midLon < 0)

theorem floorCell_neg {mid : Rat} (h : binary32.round mid = mid) : floorCell mid < 0 ↔ mid < 0 := by
  have hpos : 0 < binary32.round cellDeg := by linarith [single_cellDeg.1]
  rw [floorCell, Rat.floor_lt_iff, Int.cast_zero]
  exact binary32.round_div_neg_iff h hpos single_cellDeg.2

theorem cell_cx_neg {seg : Segment} : seg.cell.cx < 0 ↔ seg.midLon < 0 :=
  floorCell_neg (binary32.round_round _)

theorem oneSided_iff {segs : List Segment} : OneSided segs ↔
    ∀ a ∈ segs, ∀ b ∈ segs, a.cell.cy = b.cell.cy → (a.cell.cx < 0 ↔ b.cell.cx < 0) := by
  simp only [cell_cx_neg]
  rfl

/-- The reordered keys are in order exactly when every row is on one side of the meridian. -/
theorem keysOf_sorted_iff (segs : List Segment) :
    (keysOf segs).Pairwise (· ≤ ·) ↔ OneSided segs := by
  rw [oneSided_iff, keysOf, List.pairwise_map]
  constructor
  · intro h
    have hmixed : ∀ a ∈ reorder segs, ∀ b ∈ reorder segs, a.cell.cy = b.cell.cy → a.cell.cx < 0 →
        b.cell.cx < 0 := by
      intro a ha b hb hrow hneg
      by_contra hpos
      rw [Int.not_lt] at hpos
      obtain ⟨p, hp, rfl⟩ := List.mem_iff_getElem.1 ha
      obtain ⟨q, hq, rfl⟩ := List.mem_iff_getElem.1 hb
      have hkey := cellKey_lt_of_meridian hrow hneg hpos
      rcases Nat.lt_trichotomy p q with hpq | rfl | hqp
      · have hle := List.pairwise_iff_getElem.1 h p q hp hq hpq
        omega
      · omega
      · have hle := List.pairwise_iff_getElem.1 (reorder_sorted segs) q p hq hp hqp
        simp only [Cell.le, Bool.or_eq_true, decide_eq_true_eq, Bool.and_eq_true, beq_iff_eq]
          at hle
        omega
    intro a ha b hb hrow
    rw [← (reorder_perm segs).mem_iff] at ha hb
    exact ⟨hmixed a ha b hb hrow, hmixed b hb a ha hrow.symm⟩
  · intro h
    refine (reorder_sorted segs).imp_of_mem fun {a b} ha hb hle => ?_
    rw [(reorder_perm segs).mem_iff] at ha hb
    exact cellKey_le hle (h a ha b hb)

/-! ## Slices -/

/-- What the index has to be: all the segments, no slice where no midpoint is, and the exact places
of its segments where some are. -/
structure Faithful (segs : List Segment) (idx : SpeedLimitIndex) : Prop where
  perm : idx.segments.Perm segs
  absent : ∀ c : Cell, idx.cellSlice c.cy c.cx = none ↔ ∀ seg ∈ segs, seg.cell ≠ c
  slice : ∀ (c : Cell) (s e : Int), idx.cellSlice c.cy c.cx = some (s, e) → ∀ j : Nat,
    s ≤ j ∧ j < e ↔ ∃ seg, idx.segments[j]? = some seg ∧ seg.cell = c

/-- The index of a list of segments. -/
def indexOf (segs : List Segment) : SpeedLimitIndex :=
  { segments := reorder segs
    cellKeys := unique (keysOf segs)
    cellStart := starts (keysOf segs)
    cellCount := counts (keysOf segs) }

theorem main_eq (segs : List Segment) :
    main segs =
      if segs.length = 0 then none else some (indexOf (segs.map Segment.single)) := rfl

theorem cellSlice_of_getElem? {segs : List Segment} {c : Cell} {i : Nat}
    (h : (unique (keysOf segs))[i]? = some (cellKey c.cy c.cx)) :
    (indexOf segs).cellSlice c.cy c.cx =
      some ((bound (keysOf segs) i : Int), (bound (keysOf segs) (i + 1) : Int)) := by
  have hi : i < (unique (keysOf segs)).length := (List.getElem?_eq_some_iff.1 h).1
  have hcount : (counts (keysOf segs)).getD i 0 =
      (bound (keysOf segs) (i + 1) : Int) - bound (keysOf segs) i := by
    rw [List.getD_eq_getElem?_getD, counts_getElem? hi, Option.getD_some]
  simp only [SpeedLimitIndex.cellSlice, indexOf, searchsorted_unique h, h, ne_eq, not_true,
    if_false, starts_getD hi, hcount]
  congr 2
  omega

theorem cellSlice_eq_none {segs : List Segment} {c : Cell} :
    (indexOf segs).cellSlice c.cy c.cx = none ↔ ∀ seg ∈ segs, seg.cell ≠ c := by
  have hmem : cellKey c.cy c.cx ∈ unique (keysOf segs) ↔ ∃ seg ∈ segs, seg.cell = c := by
    rw [mem_unique, mem_keysOf]
  constructor
  · rintro hnone seg hseg rfl
    obtain ⟨i, hi⟩ := List.mem_iff_getElem?.1 (hmem.2 ⟨seg, hseg, rfl⟩)
    rw [cellSlice_of_getElem? hi] at hnone
    cases hnone
  · intro habsent
    have hfound := (searchsorted_getElem? (unique_sorted (keysOf segs))
      (k := cellKey c.cy c.cx)).not.2 fun h => by
        obtain ⟨seg, hseg, hcell⟩ := hmem.1 h
        exact habsent seg hseg hcell
    simp only [SpeedLimitIndex.cellSlice, indexOf]
    split
    · next found hget =>
      rw [if_pos]
      rintro rfl
      exact hfound hget
    · rfl

/-- The slices of the index are right exactly when those of its keys are. -/
theorem indexOf_faithful_iff (segs : List Segment) :
    Faithful segs (indexOf segs) ↔ Exact (keysOf segs) := by
  constructor
  · intro h i k hk j
    -- Every unique key is the key of a cell.
    have hmem : k ∈ keysOf segs := mem_unique.1 (List.mem_of_getElem? hk)
    obtain ⟨seg, -, rfl⟩ := List.mem_map.1 hmem
    have hslice := h.slice seg.cell _ _ (cellSlice_of_getElem? hk) j
    rw [keysOf_getElem?, ← show (indexOf segs).segments = reorder segs from rfl, ← hslice]
    omega
  · intro h
    refine ⟨reorder_perm segs, fun c => cellSlice_eq_none, fun c s e hslice j => ?_⟩
    have hmem : cellKey c.cy c.cx ∈ unique (keysOf segs) := by
      by_contra hno
      have hnone : (indexOf segs).cellSlice c.cy c.cx = none := by
        rw [cellSlice_eq_none]
        rintro seg hseg rfl
        exact hno (mem_unique.2 (mem_keysOf.2 ⟨seg, hseg, rfl⟩))
      rw [hnone] at hslice
      cases hslice
    obtain ⟨i, hi⟩ := List.mem_iff_getElem?.1 hmem
    rw [cellSlice_of_getElem? hi] at hslice
    cases hslice
    have hexact := h i _ hi j
    rw [keysOf_getElem?] at hexact
    have hsegs : (indexOf segs).segments = reorder segs := rfl
    rw [hsegs, ← hexact]
    omega

/-- The index is faithful to the segments it stores if and only if no row of cells has midpoints of
them on both sides of the meridian. -/
theorem grid_faithful_iff (segs : List Segment) :
    (∀ idx, main segs = some idx → Faithful (segs.map Segment.single) idx) ↔
      OneSided (segs.map Segment.single) := by
  rw [main_eq]
  split
  · next hempty =>
    obtain rfl := List.length_eq_zero_iff.1 hempty
    simp [OneSided]
  · rw [← keysOf_sorted_iff, ← exact_iff_sorted, ← indexOf_faithful_iff]
    simp

/-- Below the edge of a row, and in it. -/
example : 515099999 / 10000000 < 5151 * cellDeg ∧
    floorCell (binary32.round (515099999 / 10000000)) = 5151 := by
  decide +kernel

/-- Two streets in London, one on each side of the meridian. -/
def meridianStreets : List Segment :=
  let west : Location := ⟨103 / 2, -1 / 256, by norm_num, by norm_num⟩
  let middle : Location := ⟨103 / 2, 0, by norm_num, by norm_num⟩
  let east : Location := ⟨103 / 2, 1 / 256, by norm_num, by norm_num⟩
  [⟨west, middle, 13, false, 11⟩, ⟨middle, east, 13, false, 11⟩]

/-- Their index is not faithful. -/
theorem meridianStreets_lost :
    ¬ ∀ idx, main meridianStreets = some idx →
      Faithful (meridianStreets.map Segment.single) idx := by
  intro h
  have hfaithful := h (indexOf (meridianStreets.map Segment.single)) rfl
  rw [indexOf_faithful_iff, exact_iff_sorted, keysOf_sorted_iff] at hfaithful
  have hsides := hfaithful _ (List.mem_cons_self ..) _
    (List.mem_cons_of_mem _ (List.mem_cons_self ..)) rfl
  revert hsides
  decide +kernel

end SpeedLimits
end MazdaPort
