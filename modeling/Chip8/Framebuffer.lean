/-!
The framebuffer: 32 rows of 64 pixels.

A row is a word whose most significant bit is the leftmost pixel. A sprite is a list of bytes, one
for each of its rows. Drawing inverts the pixels under its set bits in place, one after another, and
notes whether one of them was set; both axes wrap.
-/

namespace Chip8

structure Framebuffer where
  rows : Vector (BitVec 64) 32
  deriving DecidableEq

namespace Framebuffer

def width : Nat := 64

def height : Nat := 32

def area : Nat := width * height

/-- The pixels in a row of a sprite. -/
def spriteWidth : Nat := 8

def blank : Framebuffer := ⟨Vector.replicate 32 0⟩

def clear (f : Framebuffer) : Framebuffer := ⟨f.rows.map fun _ => 0⟩

/-- A row, its leftmost pixel in the most significant bit. -/
def row (f : Framebuffer) (y : Fin 32) : BitVec 64 :=
  f.rows.get y

def pixel (f : Framebuffer) (x : Fin 64) (y : Fin 32) : Bool :=
  (f.row y).getMsbD x.val

/-- The pixels row by row, each row from the left. -/
def pixels (f : Framebuffer) : List Bool :=
  (List.finRange 32).flatMap fun y => (List.finRange 64).map fun x => f.pixel x y

def toggle (f : Framebuffer) (x : Fin 64) (y : Fin 32) : Framebuffer :=
  ⟨f.rows.set y.val (f.row y ^^^ BitVec.twoPow 64 (63 - x.val)) y.isLt⟩

/-- The pixels under the set bits of a sprite row that starts in column `x`, from the left. -/
def rowPixels (x : Nat) (y : Fin 32) (byte : UInt8) : List (Fin 64 × Fin 32) :=
  ((List.finRange spriteWidth).filter fun dx => byte.toBitVec.getMsbD dx.val).map
    fun dx => (Fin.ofNat 64 (x + dx.val), y)

/-- The pixels under the set bits of a sprite whose top left corner stands at `(x, y)`, in the
order in which they are drawn. -/
def spritePixels (x y : Nat) (sprite : List UInt8) : List (Fin 64 × Fin 32) :=
  sprite.zipIdx.flatMap fun (byte, dy) => rowPixels x (Fin.ofNat 32 (y + dy)) byte

/-- A screen that is drawn on, and whether a set pixel was inverted so far. -/
structure Drawing where
  screen : Framebuffer
  collision : Bool := false

/-- Inverts one more pixel. -/
def Drawing.plot (d : Drawing) (pixel : Fin 64 × Fin 32) : Drawing where
  screen := d.screen.toggle pixel.1 pixel.2
  collision := d.collision || d.screen.pixel pixel.1 pixel.2

/-- Draws a sprite whose top left corner stands at `(x, y)`, pixel by pixel. -/
def drawSprite (f : Framebuffer) (x y : Nat) (sprite : List UInt8) : Drawing :=
  (spritePixels x y sprite).foldl Drawing.plot { screen := f }

@[ext]
theorem ext_row {f g : Framebuffer} (h : ∀ y, f.row y = g.row y) : f = g := by
  obtain ⟨f⟩ := f
  obtain ⟨g⟩ := g
  exact congrArg mk (Vector.ext fun y hy => h ⟨y, hy⟩)

@[simp]
theorem row_blank (y : Fin 32) : blank.row y = 0 := by
  exact Vector.getElem_replicate y.isLt

theorem clear_eq_blank (f : Framebuffer) : f.clear = blank := by
  refine congrArg mk (Vector.ext fun y hy => ?_)
  rw [Vector.getElem_map, Vector.getElem_replicate]

@[simp]
theorem pixel_blank (x : Fin 64) (y : Fin 32) : blank.pixel x y = false := by
  rw [pixel, row_blank]
  exact BitVec.getMsbD_zero

theorem row_toggle (f : Framebuffer) (x : Fin 64) (y row : Fin 32) :
    (f.toggle x y).row row =
      if row = y then f.row y ^^^ BitVec.twoPow 64 (63 - x.val) else f.row row := by
  by_cases h : row = y
  · subst h
    rw [if_pos rfl]
    exact Vector.getElem_set_self row.isLt
  · have hne : y.val ≠ row.val := fun e => h (Fin.ext e.symm)
    rw [if_neg h]
    exact Vector.getElem_set_ne y.isLt row.isLt hne

/-- Inverting a pixel leaves all others as they were. -/
theorem pixel_toggle (f : Framebuffer) (x column : Fin 64) (y row : Fin 32) :
    (f.toggle x y).pixel column row =
      (f.pixel column row ^^ decide ((column, row) = (x, y))) := by
  have hx := x.isLt
  have hc := column.isLt
  rw [pixel, row_toggle]
  by_cases h : row = y
  · subst h
    rw [if_pos rfl, BitVec.getMsbD_xor, BitVec.getMsbD_twoPow, pixel]
    congr 1
    rw [Bool.eq_iff_iff]
    simp only [Bool.and_eq_true, decide_eq_true_eq, Prod.mk.injEq, and_true, Fin.ext_iff]
    omega
  · rw [if_neg h, pixel]
    simp [h]

end Framebuffer

end Chip8
