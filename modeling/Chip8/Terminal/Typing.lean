import Chip8.Journal
import Chip8.Terminal.Keystroke
import Chip8.Text.Quoted

/-!
What is typed: commands to the emulator, and presses of keypad keys.

A terminal reports presses but no releases, so a key counts as held for a fixed time after its
latest press. Commands wait until they are taken. Times are nanoseconds.
-/

namespace Chip8.Terminal

inductive Command where
  | quit
  | step
  | togglePause
  deriving DecidableEq

inductive Meaning where
  | command (command : Command)
  | press (key : Fin 16)
  /-- A character that stands for no key. -/
  | unmapped (c : Char)
  | nothing
  deriving DecidableEq

/-- The meaning of a keystroke. Escape and control-C quit, whatever else is held. -/
def Keystroke.meaning (stroke : Keystroke) : Meaning :=
  match stroke.key with
  | .escape => .command .quit
  | .character c =>
    if c = 'c' && stroke.control then .command .quit
    else if c = ' ' then .command .step
    else if c = 'p' || c = 'P' then .command .togglePause
    else
      match keypadKey? c with
      | some key => .press key
      | none => .unmapped c
  | _ => .nothing

/-- The latest press of each key, and the commands that were not taken yet. -/
structure Typing where
  pressedAt : Vector (Option Nat) 16
  /-- The earliest first. -/
  commands : List Command
  deriving DecidableEq

namespace Typing

/-- How long a key counts as held. -/
def holdTime : Nat := 200000000

def start : Typing := ⟨Vector.replicate 16 none, []⟩

/-- Takes in a keystroke. A character without a meaning is reported. -/
def accept (t : Typing) (stroke : Keystroke) (now : Nat) : Typing × List Record :=
  match stroke.meaning with
  | .command command => ({ t with commands := t.commands ++ [command] }, [])
  | .press key => ({ t with pressedAt := t.pressedAt.set key.val (some now) key.isLt }, [])
  | .unmapped c => (t, [⟨.debug, "the key " ++ Text.quoted c ++ " is not mapped"⟩])
  | .nothing => (t, [])

def acceptAll (t : Typing) (strokes : List Keystroke) (now : Nat) : Typing × List Record :=
  strokes.foldl (fun (typing, records) stroke =>
    let (typing, more) := typing.accept stroke now
    (typing, records ++ more)) (t, [])

/-- Whether a press counts as held: less than the hold time has passed since. A press later than
`now` does. -/
def isFresh (now : Nat) : Option Nat → Bool
  | some pressed => now - pressed < holdTime
  | none => false

def held (t : Typing) (now : Nat) : Keypad :=
  ⟨t.pressedAt.map (isFresh now)⟩

/-- The commands that wait, and the state without them. -/
def takeCommands (t : Typing) : List Command × Typing :=
  (t.commands, { t with commands := [] })

end Typing

end Chip8.Terminal
