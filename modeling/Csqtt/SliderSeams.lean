/-
The seams of a slider puzzle.

A picture is cut into tiles by integer division, a mapping says which tile is shown where, and
along every inner edge the pixels on both sides are compared.  Each subtraction, sum and
product of the coordinates is checked here, and so is each pixel that is read.

* `seams_iff` — both scores run through exactly when the picture has at least as many columns
  and rows of pixels as of tiles: the pixel left of an edge is the edge's coordinate minus one,
  and the first edge of a smaller picture is zero;
* `seams_of_pixel` — a picture of one pixel with four tiles.
-/
import Csqtt.Checked
import Mathlib.Data.List.Perm.Basic

open Checked

namespace Csqtt.Slider

/-- `u32`. -/
def u32Bound : ℕ := 2 ^ 32

/-- The colour channels of a pixel. -/
structure Pixel where
  red : BitVec 8
  green : BitVec 8
  blue : BitVec 8

structure Image where
  width : ℕ
  height : ℕ
  pixel : ℕ → ℕ → Pixel

/-- `get_pixel`, which panics outside the picture. -/
def Image.getPixel (image : Image) (x y : ℕ) : Option Pixel :=
  if x < image.width ∧ y < image.height then some (image.pixel x y) else none

/-- `MAX_SLIDER_GRID`. -/
def maxSliderGrid : ℕ := 16

/-- `split_steps`: the grid, the swaps and the attempts. -/
def splitSteps (steps : List ℕ) : Except String (ℕ × List ℕ × ℕ) :=
  if steps.length < 3 then .error "slider steps payload too short"
  else
    let size := steps.getD 0 0
    if size = 0 ∨ maxSliderGrid < size then .error s!"invalid slider size: {size}"
    else
      let tail := steps.drop 1
      let odd := tail.length % 2 ≠ 0
      let attempts := if odd then tail.getLastD 4 else 4
      let tail := if odd then tail.dropLast else tail
      let attempts := if attempts = 0 then 4 else attempts
      if tail = [] ∨ tail.length % 2 ≠ 0 then .error "invalid slider swap payload"
      else .ok (size, tail, attempts)

/-- `Vec::swap` of two valid indices. -/
def swap (mapping : List ℕ) (a b : ℕ) : List ℕ :=
  (mapping.set a (mapping.getD b 0)).set b (mapping.getD a 0)

/-- The loop over the pairs. -/
def swapPairs (tileCount : ℕ) : List ℕ → List ℕ → Except String (List ℕ)
  | mapping, a :: b :: swaps =>
    if tileCount ≤ a ∨ tileCount ≤ b then .error s!"slider step out of range: {a},{b}"
    else swapPairs tileCount (swap mapping a b) swaps
  | mapping, _ => .ok mapping

def applySwaps (gridSize : ℕ) (swaps : List ℕ) : Except String (List ℕ) :=
  match mul (2 ^ 64) gridSize gridSize with
  | none => .error "invalid slider tile count"
  | some tileCount =>
    if tileCount = 0 then .error s!"invalid slider tile count: {tileCount}"
    else if swaps.length % 2 ≠ 0 then .error s!"invalid slider swaps length: {swaps.length}"
    else swapPairs tileCount (List.range tileCount) swaps

structure Rect where
  minX : ℕ
  minY : ℕ
  maxX : ℕ
  maxY : ℕ

def Rect.width (r : Rect) : Option ℕ := sub r.maxX r.minX

def Rect.height (r : Rect) : Option ℕ := sub r.maxY r.minY

def tileRect (image : Image) (gridSize index : ℕ) : Option Rect := do
  let column := index % gridSize
  let row := index / gridSize
  let minX ← mul u32Bound column image.width
  let minY ← mul u32Bound row image.height
  let maxX ← mul u32Bound (← add u32Bound column 1) image.width
  let maxY ← mul u32Bound (← add u32Bound row 1) image.height
  return ⟨minX / gridSize, minY / gridSize, maxX / gridSize, maxY / gridSize⟩

/-- One coordinate of `sample`, clamped to the last pixel. -/
def sampleAt (limit start length sourceMin sourceLength : ℕ) (x : ℕ) : Option ℕ := do
  let offset ← mul u32Bound (← sub x start) sourceLength
  return min (← add u32Bound sourceMin (offset / max length 1)) (limit - 1)

def sample (image : Image) (destination source : Rect) (x y : ℕ) : Option Pixel := do
  let sourceX ← sampleAt image.width destination.minX (← destination.width) source.minX
    (← source.width) x
  let sourceY ← sampleAt image.height destination.minY (← destination.height) source.minY
    (← source.height) y
  image.getPixel sourceX sourceY

/-- `abs_diff`. -/
def absDiff (a b : ℕ) : ℕ := (a - b) + (b - a)

def luma (p : Pixel) : ℕ := (299 * p.red.toNat + 587 * p.green.toNat + 114 * p.blue.toNat) / 1000

def lumaDiff (left right : Pixel) : ℕ := absDiff (luma left) (luma right)

def pixelDiff (left right : Pixel) : ℕ :=
  absDiff left.red.toNat right.red.toNat + absDiff left.green.toNat right.green.toNat +
    absDiff left.blue.toNat right.blue.toNat

variable (diff : Pixel → Pixel → ℕ) (image : Image) (gridSize : ℕ) (mapping : List ℕ)

/-- The edge between a tile and the one to its right. -/
def rightSeam (row score column : ℕ) : Option ℕ := do
  let leftIndex := row * gridSize + column
  let rightIndex := leftIndex + 1
  let leftDestination ← tileRect image gridSize leftIndex
  let rightDestination ← tileRect image gridSize rightIndex
  let leftSource ← tileRect image gridSize (← mapping[leftIndex]?)
  let rightSource ← tileRect image gridSize (← mapping[rightIndex]?)
  (List.range (min (← leftDestination.height) (← rightDestination.height))).foldlM
    (fun score offset => do
      let y ← add u32Bound leftDestination.minY offset
      let left ← sample image leftDestination leftSource (← sub leftDestination.maxX 1) y
      let right ← sample image rightDestination rightSource rightDestination.minX y
      return score + diff left right) score

/-- The edge between a tile and the one below it. -/
def bottomSeam (row score column : ℕ) : Option ℕ := do
  let topIndex := row * gridSize + column
  let bottomIndex := (row + 1) * gridSize + column
  let topDestination ← tileRect image gridSize topIndex
  let bottomDestination ← tileRect image gridSize bottomIndex
  let topSource ← tileRect image gridSize (← mapping[topIndex]?)
  let bottomSource ← tileRect image gridSize (← mapping[bottomIndex]?)
  (List.range (min (← topDestination.width) (← bottomDestination.width))).foldlM
    (fun score offset => do
      let x ← add u32Bound topDestination.minX offset
      let top ← sample image topDestination topSource x (← sub topDestination.maxY 1)
      let bottom ← sample image bottomDestination bottomSource x bottomDestination.minY
      return score + diff top bottom) score

/-- The pass over the edges between columns. -/
def rightSeams (score : ℕ) : Option ℕ :=
  (List.range gridSize).foldlM (fun score row =>
    (List.range (gridSize - 1)).foldlM (rightSeam diff image gridSize mapping row) score) score

/-- The pass over the edges between rows. -/
def bottomSeams (score : ℕ) : Option ℕ :=
  (List.range (gridSize - 1)).foldlM (fun score row =>
    (List.range gridSize).foldlM (bottomSeam diff image gridSize mapping row) score) score

def seamScore : Option ℕ :=
  (rightSeams diff image gridSize mapping 0).bind (bottomSeams diff image gridSize mapping)

def seamScoreLuma : Option ℕ := seamScore lumaDiff image gridSize mapping

/-- The integer part of `seam_score_rgb_text`. -/
def seamScoreRgb : Option ℕ := seamScore pixelDiff image gridSize mapping

/-! ### The tiles -/

/-- Where tile `i` of `n` begins along a side. -/
def edge (size n i : ℕ) : ℕ := i * size / n

section Edges

variable {size n i : ℕ}

theorem edge_mono (size n : ℕ) {i j : ℕ} (h : i ≤ j) : edge size n i ≤ edge size n j :=
  Nat.div_le_div_right (Nat.mul_le_mul_right size h)

theorem edge_le_size (hi : i ≤ n) : edge size n i ≤ size := by
  refine Nat.div_le_of_le_mul ?_
  exact Nat.mul_le_mul_right size hi

/-- A side with at least as many pixels as tiles has no empty tile. -/
theorem edge_lt_edge (hn : 0 < n) (h : n ≤ size) (i : ℕ) : edge size n i < edge size n (i + 1) := by
  have hstep : edge size n i + 1 = (i * size + n) / n := (Nat.add_div_right _ hn).symm
  have hle : (i * size + n) / n ≤ (i + 1) * size / n :=
    Nat.div_le_div_right (by rw [Nat.succ_mul]; omega)
  have hedge : edge size n (i + 1) = (i + 1) * size / n := rfl
  omega

/-- The last tile of a side is never empty. -/
theorem edge_last_lt (hn : 0 < n) (hsize : 0 < size) : edge size n (n - 1) < edge size n n := by
  have hwhole : edge size n n = size := Nat.mul_div_cancel_left size hn
  rw [hwhole, edge, Nat.div_lt_iff_lt_mul hn, Nat.mul_comm size n]
  exact Nat.mul_lt_mul_of_pos_right (by omega) hsize

/-- With more tiles than pixels the first edge is at zero. -/
theorem edge_one (h : size < n) : edge size n 1 = 0 := by
  rw [edge, Nat.one_mul]
  exact Nat.div_eq_of_lt h

end Edges

/-- The pictures that are scored. -/
structure Image.Bounded (image : Image) : Prop where
  width_pos : 0 < image.width
  width_le : image.width ≤ 65535
  height_pos : 0 < image.height
  height_le : image.height ≤ 65535

/-- A picture with its grid. -/
structure Admitted (image : Image) (gridSize : ℕ) : Prop extends image.Bounded where
  grid_pos : 0 < gridSize
  grid_le : gridSize ≤ maxSliderGrid

/-- A permutation of the tiles, as far as the seams need one. -/
structure Tiles (gridSize : ℕ) (mapping : List ℕ) : Prop where
  length : mapping.length = gridSize * gridSize
  lt : ∀ i ∈ mapping, i < gridSize * gridSize

theorem splitSteps_grid {steps tail : List ℕ} {gridSize attempts : ℕ}
    (h : splitSteps steps = .ok (gridSize, tail, attempts)) :
    0 < gridSize ∧ gridSize ≤ maxSliderGrid := by
  rw [splitSteps] at h
  split at h
  · cases h
  simp only at h
  split_ifs at h <;> simp only [Except.ok.injEq, Prod.mk.injEq] at h <;> omega

theorem Tiles.range (gridSize : ℕ) : Tiles gridSize (List.range (gridSize * gridSize)) :=
  ⟨List.length_range, fun _ => List.mem_range.mp⟩

theorem Tiles.swap {gridSize a b : ℕ} {mapping : List ℕ} (h : Tiles gridSize mapping)
    (ha : a < gridSize * gridSize) (hb : b < gridSize * gridSize) :
    Tiles gridSize (Slider.swap mapping a b) := by
  have hmem : ∀ i, i < gridSize * gridSize → mapping.getD i 0 ∈ mapping := by
    intro i hi
    rw [List.getD_eq_getElem?_getD, List.getElem?_eq_getElem (h.length ▸ hi), Option.getD_some]
    exact List.getElem_mem _
  refine ⟨?_, fun i hi => ?_⟩
  · rw [Slider.swap, List.length_set, List.length_set, h.length]
  · rcases List.mem_or_eq_of_mem_set hi with hi | rfl
    · rcases List.mem_or_eq_of_mem_set hi with hi | rfl
      · exact h.lt i hi
      · exact h.lt _ (hmem b hb)
    · exact h.lt _ (hmem a ha)

theorem Tiles.swapPairs {gridSize : ℕ} {swaps : List ℕ} : ∀ {mapping mapping' : List ℕ},
    Tiles gridSize mapping →
      Slider.swapPairs (gridSize * gridSize) mapping swaps = .ok mapping' →
        Tiles gridSize mapping' := by
  induction swaps using List.twoStepInduction with
  | nil =>
    intro mapping mapping' h heq
    rw [Slider.swapPairs] at heq
    · exact Except.ok.inj heq ▸ h
    · intro a b rest hpair
      cases hpair
  | singleton a =>
    intro mapping mapping' h heq
    rw [Slider.swapPairs] at heq
    · exact Except.ok.inj heq ▸ h
    · intro a b rest hpair
      cases hpair
  | cons_cons a b swaps ih =>
    intro mapping mapping' h heq
    rw [Slider.swapPairs] at heq
    split at heq
    · cases heq
    next hin => exact ih (h.swap (by omega) (by omega)) heq

/-- What `apply_swaps` returns maps tiles to tiles. -/
theorem tiles_applySwaps {gridSize : ℕ} {swaps mapping : List ℕ}
    (h : applySwaps gridSize swaps = .ok mapping) : Tiles gridSize mapping := by
  rw [applySwaps] at h
  split at h
  · cases h
  next tileCount hcount =>
    obtain ⟨-, rfl⟩ := mul_eq_some.mp hcount
    split at h
    · cases h
    split at h
    · cases h
    exact (Tiles.range gridSize).swapPairs h

variable {image : Image} {gridSize : ℕ} {mapping : List ℕ} {diff : Pixel → Pixel → ℕ}

/-- The rectangle of the tile in a column and a row. -/
def tile (image : Image) (gridSize column row : ℕ) : Rect where
  minX := edge image.width gridSize column
  minY := edge image.height gridSize row
  maxX := edge image.width gridSize (column + 1)
  maxY := edge image.height gridSize (row + 1)

theorem tile_width (column row : ℕ) : (tile image gridSize column row).width =
    some (edge image.width gridSize (column + 1) - edge image.width gridSize column) :=
  sub_eq (edge_mono _ _ (Nat.le_succ column))

theorem tile_height (column row : ℕ) : (tile image gridSize column row).height =
    some (edge image.height gridSize (row + 1) - edge image.height gridSize row) :=
  sub_eq (edge_mono _ _ (Nat.le_succ row))

theorem mul_small {a b : ℕ} (ha : a ≤ 16) (hb : b ≤ 65535) : mul u32Bound a b = some (a * b) := by
  refine mul_eq (Nat.lt_of_le_of_lt (Nat.mul_le_mul ha hb) ?_)
  show 16 * 65535 < 2 ^ 32
  omega

theorem tileRect_eq (h : Admitted image gridSize) {index : ℕ}
    (hindex : index < gridSize * gridSize) :
    tileRect image gridSize index =
      some (tile image gridSize (index % gridSize) (index / gridSize)) := by
  have hcolumn : index % gridSize < gridSize := Nat.mod_lt _ h.grid_pos
  have hrow : index / gridSize < gridSize := Nat.div_lt_of_lt_mul hindex
  have hgrid : gridSize ≤ 16 := h.grid_le
  have hu32 : u32Bound = 2 ^ 32 := rfl
  rw [tileRect]
  simp only [Option.bind_eq_bind]
  rw [mul_small (by omega) h.width_le, Option.bind_some, mul_small (by omega) h.height_le,
    Option.bind_some, add_eq (by omega), Option.bind_some, mul_small (by omega) h.width_le,
    Option.bind_some, add_eq (by omega), Option.bind_some, mul_small (by omega) h.height_le,
    Option.bind_some]
  rfl

/-- The index of a tile gives its column and its row. -/
theorem index_of_tile {column : ℕ} (row : ℕ) (hcolumn : column < gridSize) :
    (row * gridSize + column) % gridSize = column ∧
      (row * gridSize + column) / gridSize = row := by
  rw [Nat.mul_comm row gridSize]
  exact ⟨by rw [Nat.mul_add_mod, Nat.mod_eq_of_lt hcolumn],
    by rw [Nat.mul_add_div (by omega), Nat.div_eq_of_lt hcolumn, Nat.add_zero]⟩

theorem index_lt {column row : ℕ} (hcolumn : column < gridSize) (hrow : row < gridSize) :
    row * gridSize + column < gridSize * gridSize := by
  have hle : (row + 1) * gridSize ≤ gridSize * gridSize := Nat.mul_le_mul_right gridSize hrow
  rw [Nat.succ_mul] at hle
  omega

/-- The tile that is shown in a column and a row, and the one whose pixels are shown there. -/
theorem tiles_at (h : Admitted image gridSize) (hmap : Tiles gridSize mapping) {column row : ℕ}
    (hcolumn : column < gridSize) (hrow : row < gridSize) :
    tileRect image gridSize (row * gridSize + column) = some (tile image gridSize column row) ∧
      ∃ i, mapping[row * gridSize + column]? = some i ∧
        ∃ column' < gridSize, ∃ row' < gridSize,
          tileRect image gridSize i = some (tile image gridSize column' row') := by
  have hlt := index_lt hcolumn hrow
  obtain ⟨hmod, hdiv⟩ := index_of_tile row hcolumn
  have hin : row * gridSize + column < mapping.length := hmap.length ▸ hlt
  have hsource := hmap.lt _ (List.getElem_mem hin)
  exact ⟨by rw [tileRect_eq h hlt, hmod, hdiv], _, List.getElem?_eq_getElem hin, _,
    Nat.mod_lt mapping[row * gridSize + column] h.grid_pos, _, Nat.div_lt_of_lt_mul hsource,
    tileRect_eq h hsource⟩

/-! ### One pixel -/

/-- A coordinate inside the shown tile, or on its edge, has a coordinate in the picture. -/
theorem sampleAt_lt {limit start stop sourceMin sourceMax x : ℕ} (hlimit : 0 < limit)
    (hle : limit ≤ 65535) (hx : start ≤ x) (hin : x < max stop (start + 1)) (hstop : stop ≤ limit)
    (hsource : sourceMin ≤ sourceMax) (hmax : sourceMax ≤ limit) :
    ∃ y < limit, sampleAt limit start (stop - start) sourceMin (sourceMax - sourceMin) x =
      some y := by
  have hu32 : u32Bound = 2 ^ 32 := rfl
  have hproduct : (x - start) * (sourceMax - sourceMin) ≤ 65535 * 65535 :=
    Nat.mul_le_mul (by omega) (by omega)
  have hquotient : (x - start) * (sourceMax - sourceMin) / max (stop - start) 1 ≤
      sourceMax - sourceMin := by
    refine Nat.div_le_of_le_mul ?_
    exact Nat.mul_le_mul_right _ (by omega)
  refine ⟨min (sourceMin + (x - start) * (sourceMax - sourceMin) / max (stop - start) 1)
    (limit - 1), by omega, ?_⟩
  rw [sampleAt]
  simp only [Option.bind_eq_bind]
  rw [sub_eq hx, Option.bind_some, mul_eq (by omega), Option.bind_some, add_eq (by omega),
    Option.bind_some]
  rfl

/-- A place of a shown tile, or of its first line of pixels when it is empty. -/
def Within (start stop x : ℕ) : Prop := start ≤ x ∧ x < max stop (start + 1)

theorem isSome_sample (h : Admitted image gridSize) {column row column' row' x y : ℕ}
    (hcolumn : column < gridSize) (hrow : row < gridSize) (hcolumn' : column' < gridSize)
    (hrow' : row' < gridSize)
    (hx : Within (tile image gridSize column row).minX (tile image gridSize column row).maxX x)
    (hy : Within (tile image gridSize column row).minY (tile image gridSize column row).maxY y) :
    (sample image (tile image gridSize column row) (tile image gridSize column' row') x y).isSome := by
  obtain ⟨sx, hsx, hsampleX⟩ := sampleAt_lt h.width_pos h.width_le hx.1 hx.2
    (edge_le_size hcolumn) (edge_mono _ _ (Nat.le_succ column')) (edge_le_size hcolumn')
  obtain ⟨sy, hsy, hsampleY⟩ := sampleAt_lt h.height_pos h.height_le hy.1 hy.2
    (edge_le_size hrow) (edge_mono _ _ (Nat.le_succ row')) (edge_le_size hrow')
  rw [sample]
  simp only [Option.bind_eq_bind]
  rw [tile_width, Option.bind_some, tile_width, Option.bind_some, tile_height, tile_height]
  simp only [tile] at hsampleX hsampleY ⊢
  rw [hsampleX, Option.bind_some, Option.bind_some, Option.bind_some, hsampleY, Option.bind_some,
    Image.getPixel, if_pos ⟨hsx, hsy⟩]
  rfl

/-! ### The seams -/

/-- In a picture with enough pixels every edge is compared. -/
theorem isSome_rightSeam (h : Admitted image gridSize) (hmap : Tiles gridSize mapping)
    (hwide : gridSize ≤ image.width) {row column : ℕ} (hrow : row < gridSize)
    (hcolumn : column + 1 < gridSize) (score : ℕ) :
    (rightSeam diff image gridSize mapping row score column).isSome := by
  obtain ⟨hleft, i, hi, ci, hci, ri, hri, hleft'⟩ := tiles_at h hmap (show column < gridSize by omega) hrow
  obtain ⟨hright, j, hj, cj, hcj, rj, hrj, hright'⟩ := tiles_at h hmap hcolumn hrow
  rw [← Nat.add_assoc] at hright hj
  have htall := edge_mono image.height gridSize (Nat.le_succ row)
  have hstep := edge_lt_edge h.grid_pos hwide column
  have hhigh : edge image.height gridSize (row + 1) ≤ image.height := edge_le_size hrow
  have hlimit := h.height_le
  have hu32 : u32Bound = 2 ^ 32 := rfl
  rw [rightSeam]
  simp only [Option.bind_eq_bind]
  rw [hleft, Option.bind_some, hright, Option.bind_some, hi, Option.bind_some, hleft',
    Option.bind_some, hj, Option.bind_some, hright', Option.bind_some, tile_height,
    Option.bind_some, tile_height, Option.bind_some]
  refine isSome_foldlM (fun offset hoffset score => ?_) score
  have hlines : offset < edge image.height gridSize (row + 1) - edge image.height gridSize row := by
    have hmin := List.mem_range.mp hoffset
    exact Nat.lt_of_lt_of_le hmin (Nat.min_le_left _ _)
  have hy : Within (edge image.height gridSize row) (edge image.height gridSize (row + 1))
      (edge image.height gridSize row + offset) := ⟨by omega, by omega⟩
  have hlastColumn : Within (edge image.width gridSize column)
      (edge image.width gridSize (column + 1)) (edge image.width gridSize (column + 1) - 1) :=
    ⟨by omega, by omega⟩
  have hfirstColumn : Within (edge image.width gridSize (column + 1))
      (edge image.width gridSize (column + 1 + 1)) (edge image.width gridSize (column + 1)) :=
    ⟨Nat.le_refl _, by omega⟩
  obtain ⟨left, hleftPixel⟩ := Option.isSome_iff_exists.mp
    (isSome_sample h (show column < gridSize by omega) hrow hci hri hlastColumn hy)
  obtain ⟨right, hrightPixel⟩ := Option.isSome_iff_exists.mp
    (isSome_sample h hcolumn hrow hcj hrj hfirstColumn hy)
  have hlast : sub (edge image.width gridSize (column + 1)) 1 =
      some (edge image.width gridSize (column + 1) - 1) := sub_eq (by omega)
  simp only [tile] at hleftPixel hrightPixel ⊢
  rw [add_eq (by omega), Option.bind_some, hlast, Option.bind_some, hleftPixel, Option.bind_some,
    hrightPixel, Option.bind_some]
  rfl

theorem isSome_bottomSeam (h : Admitted image gridSize) (hmap : Tiles gridSize mapping)
    (htall : gridSize ≤ image.height) {row column : ℕ} (hrow : row + 1 < gridSize)
    (hcolumn : column < gridSize) (score : ℕ) :
    (bottomSeam diff image gridSize mapping row score column).isSome := by
  obtain ⟨htop, i, hi, ci, hci, ri, hri, htop'⟩ :=
    tiles_at h hmap hcolumn (show row < gridSize by omega)
  obtain ⟨hbottom, j, hj, cj, hcj, rj, hrj, hbottom'⟩ := tiles_at h hmap hcolumn hrow
  have hwide : edge image.width gridSize (column + 1) ≤ image.width := edge_le_size hcolumn
  have hstep := edge_lt_edge h.grid_pos htall row
  have hlimit := h.width_le
  have hu32 : u32Bound = 2 ^ 32 := rfl
  rw [bottomSeam]
  simp only [Option.bind_eq_bind]
  rw [htop, Option.bind_some, hbottom, Option.bind_some, hi, Option.bind_some, htop',
    Option.bind_some, hj, Option.bind_some, hbottom', Option.bind_some, tile_width,
    Option.bind_some, tile_width, Option.bind_some]
  refine isSome_foldlM (fun offset hoffset score => ?_) score
  have hcolumns : offset <
      edge image.width gridSize (column + 1) - edge image.width gridSize column := by
    have hmin := List.mem_range.mp hoffset
    exact Nat.lt_of_lt_of_le hmin (Nat.min_le_left _ _)
  have hx : Within (edge image.width gridSize column) (edge image.width gridSize (column + 1))
      (edge image.width gridSize column + offset) := ⟨by omega, by omega⟩
  have hlastRow : Within (edge image.height gridSize row)
      (edge image.height gridSize (row + 1)) (edge image.height gridSize (row + 1) - 1) :=
    ⟨by omega, by omega⟩
  have hfirstRow : Within (edge image.height gridSize (row + 1))
      (edge image.height gridSize (row + 1 + 1)) (edge image.height gridSize (row + 1)) :=
    ⟨Nat.le_refl _, by omega⟩
  obtain ⟨top, htopPixel⟩ := Option.isSome_iff_exists.mp
    (isSome_sample h hcolumn (show row < gridSize by omega) hci hri hx hlastRow)
  obtain ⟨bottom, hbottomPixel⟩ := Option.isSome_iff_exists.mp
    (isSome_sample h hcolumn hrow hcj hrj hx hfirstRow)
  have hlast : sub (edge image.height gridSize (row + 1)) 1 =
      some (edge image.height gridSize (row + 1) - 1) := sub_eq (by omega)
  simp only [tile] at htopPixel hbottomPixel ⊢
  rw [add_eq (by omega), Option.bind_some, hlast, Option.bind_some, htopPixel, Option.bind_some,
    hbottomPixel, Option.bind_some]
  rfl

/-- With fewer columns of pixels than of tiles, the first edge of the last row is at zero: there
is no pixel to its left. -/
theorem rightSeam_eq_none (h : Admitted image gridSize) (hmap : Tiles gridSize mapping)
    (hnarrow : image.width < gridSize) (score : ℕ) :
    rightSeam diff image gridSize mapping (gridSize - 1) score 0 = none := by
  have hpos := h.grid_pos
  have hwidth := h.width_pos
  have hrow : gridSize - 1 < gridSize := by omega
  obtain ⟨hleft, i, hi, ci, -, ri, -, hleft'⟩ := tiles_at h hmap hpos hrow
  obtain ⟨hright, j, hj, cj, -, rj, -, hright'⟩ :=
    tiles_at h hmap (show 0 + 1 < gridSize by omega) hrow
  rw [← Nat.add_assoc] at hright hj
  have hlines := edge_last_lt hpos h.height_pos
  have hnext : gridSize - 1 + 1 = gridSize := by omega
  rw [rightSeam]
  simp only [Option.bind_eq_bind]
  rw [hleft, Option.bind_some, hright, Option.bind_some, hi, Option.bind_some, hleft',
    Option.bind_some, hj, Option.bind_some, hright', Option.bind_some, tile_height,
    Option.bind_some, tile_height, Option.bind_some, Nat.min_self, hnext]
  refine foldlM_eq_none (List.mem_range.mpr (Nat.sub_pos_of_lt hlines)) (fun score => ?_) score
  have hzero : sub (tile image gridSize 0 (gridSize - 1)).maxX 1 = none := by
    rw [show (tile image gridSize 0 (gridSize - 1)).maxX = 0 from edge_one hnarrow]
    rfl
  rw [hzero]
  exact Option.bind_eq_none_iff.mpr fun _ _ => rfl

theorem bottomSeam_eq_none (h : Admitted image gridSize) (hmap : Tiles gridSize mapping)
    (hlow : image.height < gridSize) (score : ℕ) :
    bottomSeam diff image gridSize mapping 0 score (gridSize - 1) = none := by
  have hpos := h.grid_pos
  have hheight := h.height_pos
  have hcolumn : gridSize - 1 < gridSize := by omega
  obtain ⟨htop, i, hi, ci, -, ri, -, htop'⟩ := tiles_at h hmap hcolumn hpos
  obtain ⟨hbottom, j, hj, cj, -, rj, -, hbottom'⟩ :=
    tiles_at h hmap hcolumn (show 0 + 1 < gridSize by omega)
  have hcolumns := edge_last_lt hpos h.width_pos
  have hnext : gridSize - 1 + 1 = gridSize := by omega
  rw [bottomSeam]
  simp only [Option.bind_eq_bind]
  rw [htop, Option.bind_some, hbottom, Option.bind_some, hi, Option.bind_some, htop',
    Option.bind_some, hj, Option.bind_some, hbottom', Option.bind_some, tile_width,
    Option.bind_some, tile_width, Option.bind_some, Nat.min_self, hnext]
  refine foldlM_eq_none (List.mem_range.mpr (Nat.sub_pos_of_lt hcolumns)) (fun score => ?_) score
  have hzero : sub (tile image gridSize (gridSize - 1) 0).maxY 1 = none := by
    rw [show (tile image gridSize (gridSize - 1) 0).maxY = 0 from edge_one hlow]
    rfl
  rw [hzero]
  exact Option.bind_eq_none_iff.mpr fun _ _ => rfl

/-- The pass over the columns' edges runs through exactly when there are enough columns. -/
theorem isSome_rightSeams_iff (h : Admitted image gridSize) (hmap : Tiles gridSize mapping)
    (score : ℕ) :
    (rightSeams diff image gridSize mapping score).isSome ↔ gridSize ≤ image.width := by
  have hwidth := h.width_pos
  constructor
  · intro hsome
    by_contra hnarrow
    have hrow : gridSize - 1 ∈ List.range gridSize := List.mem_range.mpr (by omega)
    have hcolumn : 0 ∈ List.range (gridSize - 1) := List.mem_range.mpr (by omega)
    have hlast : ∀ score, (List.range (gridSize - 1)).foldlM
        (rightSeam diff image gridSize mapping (gridSize - 1)) score = none :=
      foldlM_eq_none hcolumn (rightSeam_eq_none h hmap (by omega))
    rw [rightSeams, foldlM_eq_none hrow hlast] at hsome
    exact Bool.noConfusion hsome
  · intro hwide
    refine isSome_foldlM (fun row hrow score => isSome_foldlM (fun column hcolumn score => ?_)
      score) score
    have hlt := List.mem_range.mp hcolumn
    exact isSome_rightSeam h hmap hwide (List.mem_range.mp hrow) (by omega) score

theorem isSome_bottomSeams_iff (h : Admitted image gridSize) (hmap : Tiles gridSize mapping)
    (score : ℕ) :
    (bottomSeams diff image gridSize mapping score).isSome ↔ gridSize ≤ image.height := by
  have hheight := h.height_pos
  constructor
  · intro hsome
    by_contra hlow
    have hrow : 0 ∈ List.range (gridSize - 1) := List.mem_range.mpr (by omega)
    have hcolumn : gridSize - 1 ∈ List.range gridSize := List.mem_range.mpr (by omega)
    have hfirst : ∀ score, (List.range gridSize).foldlM
        (bottomSeam diff image gridSize mapping 0) score = none :=
      foldlM_eq_none hcolumn (bottomSeam_eq_none h hmap (by omega))
    rw [bottomSeams, foldlM_eq_none hrow hfirst] at hsome
    exact Bool.noConfusion hsome
  · intro htall
    refine isSome_foldlM (fun row hrow score => isSome_foldlM (fun column hcolumn score => ?_)
      score) score
    have hlt := List.mem_range.mp hrow
    exact isSome_bottomSeam h hmap htall (by omega) (List.mem_range.mp hcolumn) score

/-- A score runs through exactly when there are enough pixels. -/
theorem isSome_seamScore_iff (h : Admitted image gridSize) (hmap : Tiles gridSize mapping) :
    (seamScore diff image gridSize mapping).isSome ↔
      gridSize ≤ image.width ∧ gridSize ≤ image.height := by
  have hright : (rightSeams diff image gridSize mapping 0).isSome ↔ gridSize ≤ image.width :=
    isSome_rightSeams_iff h hmap 0
  rw [seamScore, ← hright]
  cases rightSeams diff image gridSize mapping 0 with
  | none => simp
  | some score => rw [Option.bind_some, isSome_bottomSeams_iff h hmap score]; simp

/-- One black pixel. -/
def onePixel : Image := ⟨1, 1, fun _ _ => ⟨0, 0, 0⟩⟩

/-- Its four tiles have no pixel left of their first edge. -/
theorem seams_of_pixel : applySwaps 2 [0, 3, 1, 2] = .ok [3, 2, 1, 0] ∧
    seamScoreLuma onePixel 2 [3, 2, 1, 0] = none ∧
      seamScoreRgb onePixel 2 [3, 2, 1, 0] = none := ⟨rfl, rfl, rfl⟩

/-- For a grid that `split_steps` accepts and a mapping that `apply_swaps` returns, both scores
keep within `u32` and within the picture exactly when no side has more tiles than pixels. -/
theorem seams_iff (image : Image) (himage : image.Bounded) {steps tail : List ℕ}
    {gridSize attempts : ℕ} (hsteps : splitSteps steps = .ok (gridSize, tail, attempts))
    {swaps mapping : List ℕ} (hmap : applySwaps gridSize swaps = .ok mapping) :
    (seamScoreLuma image gridSize mapping).isSome ∧ (seamScoreRgb image gridSize mapping).isSome ↔
      gridSize ≤ image.width ∧ gridSize ≤ image.height := by
  obtain ⟨hpos, hgrid⟩ := splitSteps_grid hsteps
  have h : Admitted image gridSize := ⟨himage, hpos, hgrid⟩
  have htiles := tiles_applySwaps hmap
  rw [seamScoreLuma, seamScoreRgb, isSome_seamScore_iff h htiles, isSome_seamScore_iff h htiles,
    and_self_iff]

theorem seams_iff_pixel : splitSteps [2, 0, 3, 1, 2] = .ok (2, [0, 3, 1, 2], 4) ∧
    ((seamScoreLuma onePixel 2 [3, 2, 1, 0]).isSome ∧
        (seamScoreRgb onePixel 2 [3, 2, 1, 0]).isSome ↔
      2 ≤ onePixel.width ∧ 2 ≤ onePixel.height) := by
  have hbounded : onePixel.Bounded :=
    ⟨Nat.one_pos, show 1 ≤ 65535 by omega, Nat.one_pos, show 1 ≤ 65535 by omega⟩
  have hsteps : splitSteps [2, 0, 3, 1, 2] = .ok (2, [0, 3, 1, 2], 4) := rfl
  have hmap : applySwaps 2 [0, 3, 1, 2] = .ok [3, 2, 1, 0] := rfl
  exact ⟨hsteps, seams_iff onePixel hbounded hsteps hmap⟩

end Csqtt.Slider
