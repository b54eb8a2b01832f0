import Chip8.Rounding

/-!
The part of a terminal that is drawn on.

Which part it is, is decided by a terminal library that is not part of this project; `Area` and what
is computed here stand in for its rectangles.

No more than 65535 cells are drawn on. Of a larger terminal a part is used that has the same
proportions and, before its sides are rounded down, that many cells. The sides are computed with 53
binary digits, which may be seen in them: of 2125 columns and 771 rows 424 and 154 are used, not 425
and 154.
-/

namespace Chip8.Terminal

/-- A number of columns and of rows. It stands in for a rectangle of the terminal library whose
corner is that of the terminal. -/
structure Area where
  width : Nat
  height : Nat
  deriving DecidableEq

namespace Area

/-- The most cells that are drawn on. -/
def maxCells : Nat := UInt16.size - 1

/-- The part of a terminal with too many cells that is drawn on: a stand-in for the way in which the
terminal library makes its rectangles smaller. -/
def clip (width height : Nat) : Area :=
  let ratio := Rounding.round (width / height)
  let rows := Rounding.root (Rounding.round (maxCells / ratio))
  ⟨(Rounding.round (rows * ratio)).floor.toNat, rows.floor.toNat⟩

/-- The part of a terminal that is drawn on, from its upper left corner on, as the terminal library
chooses it. -/
def ofTerminal (width height : Nat) : Area :=
  if width * height ≤ maxCells then ⟨width, height⟩ else clip width height

/-- A terminal without too many cells is drawn on as a whole. -/
theorem ofTerminal_of_le {width height : Nat} (h : width * height ≤ maxCells) :
    ofTerminal width height = ⟨width, height⟩ := by
  rw [ofTerminal, if_pos h]

example : ofTerminal 2125 771 = ⟨424, 154⟩ := by decide +kernel

end Area

end Chip8.Terminal
