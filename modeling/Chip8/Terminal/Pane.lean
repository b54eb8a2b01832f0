/-!
Panes: boxes of fixed size around lines of text that are cut at the inner width.

The boxes, and the drawing of text in them, are the work of a terminal library that is not part of
this project. `Pane` stands in for its bordered blocks, and `Lettering` says what is relied on where
it draws a line of text.
-/

namespace Chip8.Terminal

/-- A text cut to, or filled up to, some columns, with one character in each. -/
def fit (columns : Nat) (text : List Char) : List Char :=
  (text.take columns).rightpad columns ' '

/-- How a line of text is drawn in some columns. A character may take several cells or none, and how
such characters are drawn is left open. -/
structure Lettering where
  /-- The cells that a character takes. -/
  width : Char → Nat
  /-- The cells of a row with a line in it. -/
  draw : (columns : Nat) → List Char → List Char
  /-- Characters that take one cell each stand side by side, as far as there are cells. -/
  draw_of_narrow : ∀ columns text, (∀ character ∈ text, width character = 1) →
    draw columns text = fit columns text

/-- The lettering in which every character takes one cell. -/
def Lettering.plain : Lettering where
  width _ := 1
  draw := fit
  draw_of_narrow _ _ _ := rfl

/-- A box with a title in its border, around rows of cells. Rows that do not fit in are left out. It
stands in for a bordered block of the terminal library and what is drawn inside of it. -/
structure Pane where
  title : String
  width : Nat
  height : Nat
  lines : List (List Char)

namespace Pane

def innerWidth (p : Pane) : Nat := p.width - 2

def innerHeight (p : Pane) : Nat := p.height - 2

/-- The upper border, the title from its second cell on. -/
def top (p : Pane) : List Char :=
  let title := p.title.toList.take p.innerWidth
  '┌' :: title ++ List.replicate (p.innerWidth - title.length) '─' ++ ['┐']

def bottom (p : Pane) : List Char :=
  '└' :: List.replicate p.innerWidth '─' ++ ['┘']

/-- The inside with the border beside it. -/
def body (p : Pane) : List (List Char) :=
  (List.range p.innerHeight).map fun row =>
    '│' :: fit p.innerWidth (p.lines.getD row []) ++ ['│']

/-- The rows of the box. A box that is too small for its border shows the upper left part of it. -/
def rows (p : Pane) : List (List Char) :=
  ((p.top :: p.body ++ [p.bottom]).take p.height).map (·.take p.width)

end Pane

end Chip8.Terminal
