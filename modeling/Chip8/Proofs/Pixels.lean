import Chip8.Framebuffer
import Mathlib.Data.List.FinRange

/-!
The framebuffer as a list of pixels.

A pixel stands in the list at its row times the width plus its column. Inverting a pixel sets the
list at that place.
-/

namespace Chip8.Framebuffer

variable (f : Framebuffer)

/-- The place of a pixel in the list of pixels. -/
def place (x : Fin 64) (y : Fin 32) : Nat := y.val * width + x.val

theorem place_lt_area (x : Fin 64) (y : Fin 32) : place x y < area := by
  have := x.isLt
  have := y.isLt
  simp only [place, area, width, height]
  omega

theorem place_inj {x x' : Fin 64} {y y' : Fin 32} : place x y = place x' y' ↔ x = x' ∧ y = y' := by
  have := x.isLt
  have := x'.isLt
  simp only [place, width, Fin.ext_iff]
  omega

/-- Every place is that of a pixel. -/
theorem exists_place_eq {k : Nat} (hk : k < area) : ∃ x y, place x y = k := by
  have hk : k < 2048 := hk
  refine ⟨⟨k % 64, Nat.mod_lt k (by decide)⟩, ⟨k / 64, by omega⟩, ?_⟩
  simp only [place, width]
  omega

theorem pixels_eq_ofFn :
    f.pixels = List.ofFn fun k : Fin (32 * 64) =>
      f.pixel ⟨k.val % 64, Nat.mod_lt _ (by decide)⟩ ⟨k.val / 64, by omega⟩ := by
  rw [List.ofFn_mul, pixels, List.flatMap_def, List.ofFn_eq_map]
  refine congrArg List.flatten (List.map_congr_left fun y _ => ?_)
  rw [List.ofFn_eq_map]
  refine List.map_congr_left fun x _ => ?_
  have := x.isLt
  congr 1
  · ext
    simp only
    omega
  · ext
    simp only
    omega

theorem length_pixels : f.pixels.length = area := by
  rw [pixels_eq_ofFn, List.length_ofFn]
  rfl

theorem getElem?_pixels (x : Fin 64) (y : Fin 32) : f.pixels[place x y]? = some (f.pixel x y) := by
  have hlt : place x y < 32 * 64 := place_lt_area x y
  have hx := x.isLt
  rw [pixels_eq_ofFn, List.getElem?_ofFn, dif_pos hlt]
  congr 2
  · ext
    simp only [place, width]
    omega
  · ext
    simp only [place, width]
    omega

theorem pixels_clear : f.clear.pixels = f.pixels.map fun _ => false := by
  rw [clear_eq_blank]
  simp [pixels, List.map_flatMap]

theorem pixels_toggle (x : Fin 64) (y : Fin 32) :
    (f.toggle x y).pixels = f.pixels.set (place x y) !f.pixel x y := by
  have hplace : place x y < f.pixels.length := by
    rw [length_pixels]
    exact place_lt_area x y
  apply List.ext_getElem?
  intro k
  by_cases hk : k < area
  · obtain ⟨column, row, rfl⟩ := exists_place_eq hk
    rw [getElem?_pixels, pixel_toggle, List.getElem?_set]
    by_cases hsame : place x y = place column row
    · obtain ⟨rfl, rfl⟩ := place_inj.mp hsame
      simp [hplace]
    · have hother : (column, row) ≠ (x, y) := by
        rintro ⟨rfl, rfl⟩
        exact hsame rfl
      rw [if_neg hsame, getElem?_pixels, decide_eq_false hother, Bool.xor_false]
  · rw [List.getElem?_eq_none, List.getElem?_eq_none]
    · simpa [length_pixels] using hk
    · simpa [length_pixels] using hk

end Chip8.Framebuffer
