import Chip8.Keypad

/-!
Keystrokes of a terminal, and the keys of the keypad that they stand for.

The left block of a typewriter keyboard is laid over the keypad, row by row.
-/

namespace Chip8.Terminal

inductive Key where
  | character (c : Char)
  | escape
  | enter
  | backspace
  | tab
  | backTab
  | left
  | right
  | up
  | down
  | home
  | endOfLine
  | pageUp
  | pageDown
  | insert
  | delete
  | null
  | function (number : Nat)
  deriving DecidableEq

/-- A key and the modifiers held with it. -/
structure Keystroke where
  key : Key
  control : Bool := false
  shift : Bool := false
  alt : Bool := false
  deriving DecidableEq

/-- The block of keys that serves as keypad. -/
def keyBlock : List (List Char) :=
  [['1', '2', '3', '4'],
   ['q', 'w', 'e', 'r'],
   ['a', 's', 'd', 'f'],
   ['z', 'x', 'c', 'v']]

/-- The characters that stand for keys of the keypad. -/
def keymap : List (Char × Fin 16) :=
  keyBlock.flatten.zip Keypad.layout.flatten

/-- The key of the keypad that a character stands for; capitals count as small letters. -/
def keypadKey? (c : Char) : Option (Fin 16) :=
  keymap.lookup c.toLower

/-- The keystroke that a terminal sends as a given character. Control characters stand for a letter
or digit with the control key. -/
def Keystroke.ofChar (c : Char) : Keystroke :=
  if c = '\x1b' then { key := .escape }
  else if c = '\r' || c = '\n' then { key := .enter }
  else if c = '\t' then { key := .tab }
  else if c = '\x7f' then { key := .backspace }
  else if c = '\x00' then { key := .character ' ', control := true }
  else if c.toNat < 0x1B then { key := .character (Char.ofNat (c.toNat + 0x60)), control := true }
  else if c.toNat < 0x20 then { key := .character (Char.ofNat (c.toNat + 0x18)), control := true }
  else { key := .character c, shift := c.isUpper }

end Chip8.Terminal
