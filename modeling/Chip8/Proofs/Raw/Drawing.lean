import Chip8.Proofs.Raw.Chip

/-!
Drawing on plain lists.

`Raw.Chip.draw` takes the sprite into a buffer of fifteen bytes and goes through its rows and
columns; every byte, mask and pixel is looked up with a check. `Machine.draw_raw` says that it draws
what `Machine.draw` draws.
-/

namespace Chip8

namespace Raw

/-- A list of pixels that is drawn on, and whether a set pixel was inverted so far. -/
structure Drawing where
  pixels : List Bool
  collision : Bool

namespace Drawing

/-- Inverts the pixel under one bit of a sprite row, if the bit is set. -/
def plot (d : Drawing) (originX line : Nat) (row : UInt8) (dx : Nat) : Option Drawing := do
  let mask ← shiftRight 0x80 dx
  if row &&& mask = 0 then
    return d
  else
    let column ← add originX dx
    let start ← mul line Framebuffer.width
    let place ← add start (column % Framebuffer.width)
    let pixel ← get d.pixels place
    let pixels ← put d.pixels place !pixel
    return { pixels, collision := d.collision || pixel }

/-- Draws a sprite row, given with its distance from the top of the sprite. -/
def plotRow (d : Drawing) (originX originY : Nat) (row : UInt8 × Nat) : Option Drawing := do
  let line ← add originY row.2
  (List.range Framebuffer.spriteWidth).foldlM
    (fun d dx => d.plot originX (line % Framebuffer.height) row.1 dx) d

def plotRows (d : Drawing) (originX originY : Nat) (rows : List UInt8) : Option Drawing :=
  rows.zipIdx.foldlM (fun d row => d.plotRow originX originY row) d

end Drawing

/-- The most rows of a sprite. -/
def spriteCapacity : Nat := 15

/-- Draws the sprite under the index register. -/
def Chip.draw (c : Chip) (x y height : Nat) : Checked Chip := do
  let buffer := List.replicate spriteCapacity 0
  -- The place of the data is taken before the data are read.
  let _ ← slice buffer 0 height
  let data ← c.read c.index.toNat height
  let buffer ← copy buffer 0 height data
  let originX ← c.register x
  let originY ← c.register y
  let rows ← slice buffer 0 height
  let drawing ← (Drawing.mk c.display false).plotRows originX.toNat originY.toNat rows
  let drawn := { c with display := drawing.pixels, redraw := true }
  drawn.setRegister Machine.flagRegister.val (if drawing.collision then 1 else 0)

end Raw

namespace Framebuffer

open Raw

/-- A drawing laid out on a plain list. -/
def Drawing.raw (d : Drawing) : Raw.Drawing := ⟨d.screen.pixels, d.collision⟩

/-- The mask that a column moves to the right picks the bit of that column. -/
theorem and_mask_eq_zero_iff (byte : UInt8) (dx : Fin spriteWidth) :
    byte &&& (0x80 >>> UInt8.ofNat dx.val) = 0 ↔ byte.toBitVec.getMsbD dx.val = false := by
  have hmask : ((0x80 : UInt8) >>> UInt8.ofNat dx.val).toBitVec = BitVec.twoPow 8 (7 - dx.val) := by
    revert dx
    decide
  have hdx : dx.val < 8 := dx.isLt
  rw [← UInt8.toBitVec_inj, UInt8.toBitVec_and, hmask, BitVec.and_twoPow, BitVec.getMsbD]
  simp only [hdx, decide_true, Bool.true_and, Nat.reduceSub]
  cases byte.toBitVec.getLsbD (7 - dx.val) with
  | false => simp
  | true =>
      simp only [if_true, Bool.true_eq_false, iff_false]
      revert dx
      decide

variable (d : Drawing)

/-- The pixel under a bit is inverted if the bit is set; no bit of the row leads out of the list. -/
theorem Drawing.plot_raw {originX : Nat} (hx : originX < 256) (y : Fin 32) (row : UInt8)
    (dx : Fin spriteWidth) :
    d.raw.plot originX y.val row dx.val =
      some (if row.toBitVec.getMsbD dx.val then d.plot (Fin.ofNat 64 (originX + dx.val), y)
        else d).raw := by
  have hdx : dx.val < 8 := dx.isLt
  rw [Raw.Drawing.plot, shiftRight_of_lt hdx]
  by_cases hbit : row.toBitVec.getMsbD dx.val = false
  · have hmask := (and_mask_eq_zero_iff row dx).mpr hbit
    simp [hmask, hbit]
  · have hmask := mt (and_mask_eq_zero_iff row dx).mp hbit
    let column : Fin 64 := Fin.ofNat 64 (originX + dx.val)
    have hlt : place column y < area := place_lt_area column y
    have harea : area < Move.pointerRange := lt_pointerRange (by decide)
    have hstart : y.val * width ≤ place column y := Nat.le_add_right _ _
    have hplace : add (y.val * width) ((originX + dx.val) % width) = some (place column y) :=
      add_of_lt (Nat.lt_trans hlt harea)
    have hget : get d.screen.pixels (place column y) = some (d.screen.pixel column y) :=
      d.screen.getElem?_pixels column y
    have hput : put d.screen.pixels (place column y) (!d.screen.pixel column y) =
        some (d.screen.toggle column y).pixels := by
      rw [put_of_lt (by rwa [length_pixels]), pixels_toggle]
    rw [Bool.not_eq_false] at hbit
    rw [Option.bind_eq_bind, Option.bind_some, if_neg hmask, if_pos hbit,
      add_of_lt (lt_pointerRange (by omega)), mul_of_lt (by omega)]
    simp only [Option.bind_eq_bind, Option.bind_some, raw, hplace, hget, hput]
    rfl

/-- A row of a sprite is drawn as its pixels are. -/
theorem Drawing.plotRow_raw {originX originY dy : Nat} (hx : originX < 256)
    (hy : originY + dy < Move.pointerRange) (row : UInt8) :
    d.raw.plotRow originX originY (row, dy) =
      some ((rowPixels originX (Fin.ofNat 32 (originY + dy)) row).foldl Drawing.plot d).raw := by
  let y : Fin 32 := Fin.ofNat 32 (originY + dy)
  have hrange : List.range spriteWidth = (List.finRange spriteWidth).map Fin.val :=
    List.map_coe_finRange_eq_range.symm
  rw [Raw.Drawing.plotRow, add_of_lt hy, hrange, rowPixels]
  simp only [Option.bind_eq_bind, Option.bind_some]
  generalize List.finRange spriteWidth = columns
  induction columns generalizing d with
  | nil => rfl
  | cons dx columns ih =>
      rw [List.map_cons, List.foldlM_cons]
      have hplot := d.plot_raw hx y row dx
      have hline : y.val = (originY + dy) % height := rfl
      rw [← hline, hplot, List.filter_cons]
      split
      · exact ih _
      · exact ih _

/-- The rows of a sprite are drawn one after another. -/
theorem Drawing.foldlM_plotRow_raw {originX : Nat} (hx : originX < 256) (originY first : Nat)
    (rows : List UInt8) (hy : originY + first + rows.length < Move.pointerRange) :
    (rows.zipIdx first).foldlM (fun d row => d.plotRow originX originY row) d.raw =
      some (((rows.zipIdx first).flatMap fun (row, dy) =>
        rowPixels originX (Fin.ofNat 32 (originY + dy)) row).foldl Drawing.plot d).raw := by
  induction rows generalizing d first with
  | nil => rfl
  | cons row rows ih =>
      rw [List.length_cons] at hy
      rw [List.zipIdx_cons, List.foldlM_cons, d.plotRow_raw hx (by omega), List.flatMap_cons,
        List.foldl_append]
      exact ih _ _ (by omega)

end Framebuffer

open Raw

/-- Drawing on the layout of a machine does not abort, and draws the same. -/
theorem Machine.draw_raw (m : Machine) (x y : Register) (height : Nibble) :
    m.raw.draw x.val y.val height.val = .of ((m.draw x y height).map raw) := by
  have hindex := m.index.toNat_lt
  have hheight := height.isLt
  have hbuffer : (List.replicate spriteCapacity (0 : UInt8)).length = 15 := List.length_replicate
  have hread := m.read_raw m.index.toNat height.val (lt_pointerRange (by omega))
  rw [Chip.draw, slice_of_le (Nat.zero_le _) (by omega), Checked.lift_some, Checked.of_ok_bind]
  show m.raw.read m.index.toNat height.val >>= _ = _
  rw [hread, draw]
  cases hsprite : m.memory.read m.index.toNat height.val with
  | error fault => rfl
  | ok sprite =>
      have hlength := (Memory.of_read_eq_ok hsprite).1
      have hfits : sprite.length ≤ (List.replicate spriteCapacity (0 : UInt8)).length := by omega
      have horigin := (m.register y).toNat_lt
      have hrows := Framebuffer.Drawing.foldlM_plotRow_raw { screen := m.display }
        (m.register x).toNat_lt (m.register y).toNat 0 sprite (lt_pointerRange (by omega))
      have hdrawn : (Raw.Drawing.mk m.raw.display false).plotRows (m.register x).toNat
          (m.register y).toNat sprite =
          some (m.display.drawSprite (m.register x).toNat (m.register y).toNat sprite).raw := hrows
      rw [← hlength]
      simp only [Except.mapError, Checked.of_ok_bind, copy_zero hfits, Checked.lift_some,
        register_raw, slice_append, hdrawn]
      have hset := setRegister_raw
        { m with
          display := (m.display.drawSprite (m.register x).toNat (m.register y).toNat sprite).screen
          redraw := true }
        flagRegister
      exact congrArg (fun c => (liftM c : Checked Chip)) (hset _)

end Chip8
