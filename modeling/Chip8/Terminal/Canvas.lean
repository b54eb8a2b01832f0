import Chip8.Framebuffer

/-!
The picture of a display: points in a plane, and a canvas that lays them on a grid of cells.

A set pixel in column `x` of row `y` is the point `(x, -y)`, so the rows of the display run down the
second axis. The canvas maps its part of the plane linearly, the ends of each axis on the outer
cells. The points are computed here, but the canvas is that of a terminal library that is not part
of this project, and `Canvas` stands in for it.
-/

namespace Chip8.Terminal

/-- A place in the plane; the second axis points upwards. -/
structure Point where
  x : Int
  y : Int
  deriving DecidableEq

/-- The points of the set pixels, in the order of the pixels. -/
def points (pixels : List Bool) : List Point :=
  pixels.zipIdx.filterMap fun (isSet, index) =>
    if isSet then some ⟨(index % Framebuffer.width : Nat), -(index / Framebuffer.width : Nat)⟩
    else none

/-- What the screen pane shows: the points of the display that was handed over last. -/
structure Picture where
  points : List Point
  deriving DecidableEq

namespace Picture

def empty : Picture := ⟨[]⟩

def clear (picture : Picture) : Picture :=
  { picture with points := [] }

def extend (picture : Picture) (points : List Point) : Picture :=
  { picture with points := picture.points ++ points }

/-- Takes the points of a display in place of those of the one before. -/
def update (picture : Picture) (pixels : List Bool) : Picture :=
  picture.clear.extend (Terminal.points pixels)

end Picture

/-- An interval that is laid on a row of cells, its ends on the outer cells. -/
structure Axis where
  low : Int
  high : Int
  cells : Nat
  deriving DecidableEq

/-- The cell of a coordinate at some distance from the end where the cells start. -/
def Axis.cell? (a : Axis) (distance : Int) : Option Nat :=
  if 0 ≤ distance ∧ distance ≤ a.high - a.low then
    some (distance * (a.cells - 1) / (a.high - a.low)).toNat
  else none

/-- A part of the plane that is painted on a grid of cells. It stands in for the canvas of the
terminal library with a block for each point. -/
structure Canvas where
  horizontal : Axis
  vertical : Axis
  deriving DecidableEq

namespace Canvas

/-- The column and the row of a point. Columns start at the low end, rows at the high one. -/
def cell? (canvas : Canvas) (p : Point) : Option (Nat × Nat) :=
  match canvas.horizontal.cell? (p.x - canvas.horizontal.low),
      canvas.vertical.cell? (canvas.vertical.high - p.y) with
  | some column, some row => some (column, row)
  | _, _ => none

/-- What a cell shows that holds a point. -/
def mark : Char := '▄'

def paint (canvas : Canvas) (points : List Point) : List (List Char) :=
  let marked := points.filterMap canvas.cell?
  (List.range canvas.vertical.cells).map fun row =>
    let columns := (marked.filter fun cell => cell.2 == row).map Prod.fst
    (List.range canvas.horizontal.cells).map fun column =>
      if columns.contains column then mark else ' '

/-- The canvas of the framebuffer on a grid of some columns and rows. With as many of them as the
framebuffer has, there is one cell for each pixel. -/
def framebuffer (columns rows : Nat) : Canvas where
  horizontal := ⟨0, Framebuffer.width - 1, columns⟩
  vertical := ⟨1 - Framebuffer.height, 0, rows⟩

end Canvas

end Chip8.Terminal
