import Chip8.Terminal.Area
import Chip8.Terminal.Canvas
import Chip8.Terminal.Pane
import Chip8.Terminal.Status

/-!
The text of the whole terminal: the screen, the status lines to the right of it and the latest
lines of the journal below. Each part is a pane. Which sizes are asked for is decided here; where
there is less room, the sizes stand in for what the layout of the terminal library makes of them.
-/

namespace Chip8.Terminal

namespace Screen

def paneWidth : Nat := Framebuffer.width + 2

def paneHeight : Nat := Framebuffer.height + 2

def display (area : Area) (picture : Picture) : Pane where
  title := "CHIP-8"
  width := min paneWidth area.width
  height := min paneHeight area.height
  lines :=
    (Canvas.framebuffer (min paneWidth area.width - 2) (min paneHeight area.height - 2)).paint
      picture.points

/-- The pane with the status lines, in what is left of the width. -/
def state (lettering : Lettering) (area : Area) (status : List StyledLine) : Pane where
  title := "State"
  width := area.width - paneWidth
  height := min paneHeight area.height
  lines := status.map fun line => lettering.draw (area.width - paneWidth - 2) (lineText line)

/-- The lines of the journal that there is room for. -/
def journalRows (area : Area) : Nat := area.height - paneHeight - 2

/-- The pane with the latest lines of the journal, in what is left of the height. -/
def journal (lettering : Lettering) (area : Area) (journal : Journal) : Pane where
  title := "Log"
  width := area.width
  height := area.height - paneHeight
  lines :=
    (journal.latest (journalRows area)).map fun line =>
      lettering.draw (area.width - 2) line.toList

def cells (lettering : Lettering) (area : Area) (picture : Picture) (status : List StyledLine)
    (log : Journal) : List (List Char) :=
  (display area picture).rows.zipWith (· ++ ·) (state lettering area status).rows
    ++ (journal lettering area log).rows

/-- The rows of a terminal after a machine and a journal have been shown. What is not drawn on
stays empty. -/
def render (width height : Nat) (picture : Picture) (m : Machine) (paused : Bool)
    (log : Journal) (lettering : Lettering := .plain) : List String :=
  let drawn := cells lettering (.ofTerminal width height) picture (status m paused) log
  (drawn.map String.ofList).rightpad height ""

end Screen

end Chip8.Terminal
