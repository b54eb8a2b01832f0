import Chip8.Proofs.Rounding
import Chip8.Terminal.Area

/-!
The part of a terminal that is drawn on lies in the terminal and has no more than 65535 cells.

A terminal with more cells has at least 65536, so exact sides would be shorter than those of the
terminal by more than a `2 ^ 18`-th. Four times something is rounded, by a `2 ^ 53`-th at most, and
that is not enough to make up for it.
-/

namespace Chip8.Terminal.Area

open Rounding

/-- The numbers that come up when the sides of the part are computed. -/
structure Computed (width height ratio square rows columns : ℚ) : Prop where
  rounded_ratio : Rounded (width / height) ratio
  rounded_square : Rounded (65535 / ratio) square
  rows_pos : 0 < rows
  rows_sq : (rows * (1 - error)) ^ 2 ≤ square
  rounded_columns : Rounded (rows * ratio) columns

/-- A side is not longer than a bound if its square, times more, is not above that of the bound,
times less. -/
theorem le_of_sq_mul_le {side bound more less : ℚ} (hside : 0 ≤ side) (hbound : 0 ≤ bound)
    (hless : 0 < less) (hslack : less ≤ more) (h : side ^ 2 * more ≤ bound ^ 2 * less) :
    side ≤ bound := by
  have hsq : side ^ 2 * less ≤ bound ^ 2 * less :=
    calc side ^ 2 * less ≤ side ^ 2 * more := by gcongr
      _ ≤ bound ^ 2 * less := h
  exact (sq_le_sq₀ hside hbound).mp (le_of_mul_le_mul_right hsq hless)

namespace Computed

variable {width height ratio square rows columns : ℚ}

theorem ratio_pos (h : Computed width height ratio square rows columns) (hwidth : 0 < width)
    (hheight : 0 < height) : 0 < ratio :=
  h.rounded_ratio.pos (div_pos hwidth hheight)

theorem le_ratio_mul (h : Computed width height ratio square rows columns) (hheight : 0 < height) :
    width * (1 - error) ≤ ratio * height := by
  have hlow := h.rounded_ratio.low
  calc width * (1 - error) = width / height * (1 - error) * height := by field_simp
    _ ≤ ratio * height := by gcongr

theorem ratio_mul_le (h : Computed width height ratio square rows columns) (hheight : 0 < height) :
    ratio * height ≤ width * (1 + error) := by
  have hhigh := h.rounded_ratio.high
  calc ratio * height ≤ width / height * (1 + error) * height := by gcongr
    _ = width * (1 + error) := by field_simp

/-- The square of the rows, times the proportion, is about the number of cells. -/
theorem rows_sq_mul_ratio (h : Computed width height ratio square rows columns)
    (hratio : 0 < ratio) : (rows * (1 - error)) ^ 2 * ratio ≤ 65535 * (1 + error) := by
  have hsquare : (rows * (1 - error)) ^ 2 ≤ 65535 / ratio * (1 + error) :=
    h.rows_sq.trans h.rounded_square.high
  calc (rows * (1 - error)) ^ 2 * ratio ≤ 65535 / ratio * (1 + error) * ratio := by gcongr
    _ = 65535 * (1 + error) := by field_simp

theorem rows_le (h : Computed width height ratio square rows columns) (hwidth : 0 < width)
    (hheight : 0 < height) (hcells : 65536 ≤ width * height) : rows ≤ height := by
  have hratio := h.ratio_pos hwidth hheight
  have hbelow := h.le_ratio_mul hheight
  have hfound := h.rows_sq_mul_ratio hratio
  have hshare := one_sub_error_pos.le
  have hchain : rows ^ 2 * (65536 * (1 - error) ^ 3) ≤ height ^ 2 * (65535 * (1 + error)) :=
    calc rows ^ 2 * (65536 * (1 - error) ^ 3)
        ≤ rows ^ 2 * (width * height * (1 - error) ^ 3) := by gcongr
      _ = (rows * (1 - error)) ^ 2 * (width * (1 - error)) * height := by ring
      _ ≤ (rows * (1 - error)) ^ 2 * (ratio * height) * height := by gcongr
      _ = (rows * (1 - error)) ^ 2 * ratio * height ^ 2 := by ring
      _ ≤ 65535 * (1 + error) * height ^ 2 := by gcongr
      _ = height ^ 2 * (65535 * (1 + error)) := by ring
  have hslack : 65535 * (1 + error) ≤ 65536 * (1 - error) ^ 3 := by norm_num [error]
  have hpositive : 0 < 65535 * (1 + error) := by norm_num [error]
  exact le_of_sq_mul_le h.rows_pos.le hheight.le hpositive hslack hchain

theorem columns_pos (h : Computed width height ratio square rows columns) (hratio : 0 < ratio) :
    0 < columns :=
  h.rounded_columns.pos (mul_pos h.rows_pos hratio)

theorem columns_le (h : Computed width height ratio square rows columns) (hwidth : 0 < width)
    (hheight : 0 < height) (hcells : 65536 ≤ width * height) : columns ≤ width := by
  have hratio := h.ratio_pos hwidth hheight
  have hcolumns := h.columns_pos hratio
  have habove := h.ratio_mul_le hheight
  have hfound := h.rows_sq_mul_ratio hratio
  have hproduct := h.rounded_columns.high
  have herror := error_nonneg
  have hchain : columns ^ 2 * (65536 * (1 - error) ^ 2) ≤ width ^ 2 * (65535 * (1 + error) ^ 4) :=
    calc columns ^ 2 * (65536 * (1 - error) ^ 2)
        ≤ (rows * ratio * (1 + error)) ^ 2 * (width * height * (1 - error) ^ 2) := by gcongr
      _ = (rows * (1 - error)) ^ 2 * ratio * (ratio * height * width * (1 + error) ^ 2) := by ring
      _ ≤ 65535 * (1 + error) * (width * (1 + error) * width * (1 + error) ^ 2) := by gcongr
      _ = width ^ 2 * (65535 * (1 + error) ^ 4) := by ring
  have hslack : 65535 * (1 + error) ^ 4 ≤ 65536 * (1 - error) ^ 2 := by norm_num [error]
  have hpositive : 0 < 65535 * (1 + error) ^ 4 := by norm_num [error]
  exact le_of_sq_mul_le hcolumns.le hwidth.le hpositive hslack hchain

theorem area_lt (h : Computed width height ratio square rows columns) (hratio : 0 < ratio) :
    columns * rows < 65536 := by
  have hrows := h.rows_pos
  have hfound := h.rows_sq_mul_ratio hratio
  have hproduct := h.rounded_columns.high
  have herror := error_nonneg
  have hchain : columns * rows * (1 - error) ^ 2 ≤ 65535 * (1 + error) ^ 2 :=
    calc columns * rows * (1 - error) ^ 2
        ≤ rows * ratio * (1 + error) * rows * (1 - error) ^ 2 := by gcongr
      _ = (rows * (1 - error)) ^ 2 * ratio * (1 + error) := by ring
      _ ≤ 65535 * (1 + error) * (1 + error) := by gcongr
      _ = 65535 * (1 + error) ^ 2 := by ring
  have hslack : 65535 * (1 + error) ^ 2 < 65536 * (1 - error) ^ 2 := by norm_num [error]
  have hpositive : 0 < (1 - error) ^ 2 := pow_pos one_sub_error_pos 2
  exact lt_of_mul_lt_mul_right (hchain.trans_lt hslack) hpositive.le

end Computed

theorem toNat_floor_le {q : ℚ} (hq : 0 ≤ q) : (q.floor.toNat : ℚ) ≤ q := by
  have hfloor : 0 ≤ q.floor := Rat.le_floor_iff.mpr (by exact_mod_cast hq)
  have hcast : ((q.floor.toNat : Int) : ℚ) = q.floor := by rw [Int.toNat_of_nonneg hfloor]
  calc (q.floor.toNat : ℚ) = q.floor := by exact_mod_cast hcast
    _ ≤ q := Rat.floor_le q

/-- A part of a terminal that lies in it and does not have too many cells. -/
structure IsPart (width height : Nat) (part : Area) : Prop where
  width : part.width ≤ width
  height : part.height ≤ height
  cells : part.width * part.height ≤ maxCells

theorem isPart_clip {width height : Nat} (h : maxCells < width * height) :
    IsPart width height (clip width height) := by
  have hwidth : (0 : ℚ) < width := by
    exact_mod_cast Nat.pos_of_mul_pos_right (Nat.zero_lt_of_lt h)
  have hheight : (0 : ℚ) < height := by
    exact_mod_cast Nat.pos_of_mul_pos_left (Nat.zero_lt_of_lt h)
  have hcells : (65536 : ℚ) ≤ width * height := by exact_mod_cast h
  have hrounded := rounded_round (div_pos hwidth hheight)
  have hratio := hrounded.pos (div_pos hwidth hheight)
  have hexact : 0 < 65535 / Rounding.round ((width : ℚ) / height) := div_pos (by norm_num) hratio
  obtain ⟨hrows, hroot⟩ := root_bounds ((rounded_round hexact).pos hexact)
  have hcomputed : Computed width height _ _ _ _ :=
    { rounded_ratio := hrounded
      rounded_square := rounded_round hexact
      rows_pos := hrows
      rows_sq := hroot
      rounded_columns := rounded_round (mul_pos hrows hratio) }
  have hcolumnsFloor := toNat_floor_le (hcomputed.columns_pos hratio).le
  have hrowsFloor := toNat_floor_le hrows.le
  refine ⟨?_, ?_, ?_⟩
  · have hcolumns := hcomputed.columns_le hwidth hheight hcells
    exact_mod_cast hcolumnsFloor.trans hcolumns
  · have hrows := hcomputed.rows_le hwidth hheight hcells
    exact_mod_cast hrowsFloor.trans hrows
  · have harea := hcomputed.area_lt hratio
    have hpart := (mul_le_mul hcolumnsFloor hrowsFloor (Nat.cast_nonneg _)
      (hcomputed.columns_pos hratio).le).trans_lt harea
    exact Nat.le_of_lt_succ (by exact_mod_cast hpart)

theorem isPart_ofTerminal (width height : Nat) :
    IsPart width height (ofTerminal width height) := by
  unfold ofTerminal
  split
  · rename_i hfits
    exact ⟨Nat.le_refl width, Nat.le_refl height, hfits⟩
  · rename_i hlarge
    exact isPart_clip (Nat.lt_of_not_le hlarge)

end Chip8.Terminal.Area
