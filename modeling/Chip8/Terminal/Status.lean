import Chip8.Summary

/-!
The status lines that stand beside the screen: the mode, the instruction under the program counter,
a pending wait for a key, the summary of the machine and the keys of the emulator.
-/

namespace Chip8.Terminal

/-- How a piece of text stands out. -/
inductive Emphasis where
  | plain
  | bold
  /-- Bold and red. -/
  | alarm
  deriving DecidableEq

structure Span where
  text : String
  emphasis : Emphasis := .plain
  deriving DecidableEq

abbrev StyledLine := List Span

def plainLine (text : String) : StyledLine := [{ text }]

def lineText (line : StyledLine) : List Char :=
  line.flatMap fun span => span.text.toList

/-- The status lines of a machine that runs or is stepped. -/
def status (m : Machine) (paused : Bool) : List StyledLine :=
  [[{ text := if paused then "STEP" else "RUN", emphasis := .bold },
      { text := "  " },
      if m.sound.isActive then { text := "BEEP", emphasis := .alarm } else { text := "    " }],
    plainLine (Hex.numeral 4 m.programCounter.toNat ++ "  " ++ m.currentText)]
    ++ (m.awaiting.toList.map fun x => plainLine ("waiting for a key into " ++ registerName x))
    ++ [plainLine ""]
    ++ m.summary.map plainLine
    ++ [plainLine "", plainLine "Esc quit  P run/step  Space step"]

end Chip8.Terminal
