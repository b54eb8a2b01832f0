import Chip8.Machine

/-!
The dump of a machine, for reading by people.

Values stand in rows of eight cells, each row behind a label with the first and the last place that
it covers. The memory is shown as big-endian words, sixteen bytes in a row, and a run of rows
without a set bit is folded into one line.
-/

namespace Chip8.Dump

def rowLength : Nat := 8

/-- The columns of a cell: the mark `0x` and four digits. -/
def cellWidth : Nat := 6

/-- The bytes in a row of the memory. -/
def memoryRowLength : Nat := rowLength * Opcode.size

/-- Cuts a list into rows of a given length; the last row may be shorter. -/
def chunks {α : Type} (length : Nat) : List α → List (List α)
  | [] => []
  | a :: rest => (a :: rest.take (length - 1)) :: chunks length (rest.drop (length - 1))
termination_by l => l.length
decreasing_by
  simp only [List.length_drop, List.length_cons]
  omega

/-- The places that a row covers, the last one included. -/
def label (first last : Nat) : String :=
  Hex.numeral 4 first ++ " - " ++ Hex.numeral 4 last ++ " :"

def numberCell (n : Nat) : String :=
  Hex.numeral 4 n

/-- A text in the columns of a cell. -/
def padded (text : String) : String :=
  String.ofList (text.toList.rightpad cellWidth ' ')

/-- The cells of a row behind its label. All cells but the last fill their columns. -/
def rowText (first : Nat) (cells : List String) : String :=
  label first (first + cells.length - 1)
    ++ String.join (cells.dropLast.map fun cell => " " ++ padded cell)
    ++ String.join (cells.getLast?.toList.map fun cell => " " ++ cell)

/-- Rows that follow each other, the first of them at a given place. -/
def rowTexts : (first : Nat) → List (List String) → List String
  | _, [] => []
  | first, row :: rows => rowText first row :: rowTexts (first + row.length) rows

def table (cells : List String) : List String :=
  rowTexts 0 (chunks rowLength cells)

inductive Line where
  /-- One row with its bytes. -/
  | bytes (first last : Nat) (row : List UInt8)
  /-- A run of rows that hold zeros. -/
  | zeros (first last : Nat)
  deriving DecidableEq

/-- The lines of rows that follow each other, the first of them at a given address. A row of zeros
joins the run that starts behind it. -/
def fold : (first : Nat) → List (List UInt8) → List Line
  | _, [] => []
  | first, row :: rows =>
    let last := first + row.length - 1
    let lines := fold (first + row.length) rows
    if row.all (· == 0) then
      match lines with
      | .zeros _ runEnd :: lines => .zeros first runEnd :: lines
      | lines => .zeros first last :: lines
    else .bytes first last row :: lines

def memoryLines (bytes : List UInt8) : List Line :=
  fold 0 (chunks memoryRowLength bytes)

/-- Bytes as big-endian words; an odd last byte is the high half of its word. -/
def words : List UInt8 → List Nat
  | high :: low :: rest => (high.toNat * 256 + low.toNat) :: words rest
  | [high] => [high.toNat * 256]
  | [] => []

/-- A text in the middle of some columns. -/
def centred (columns : Nat) (text : String) : String :=
  let blanks := columns - text.length
  "".pushn ' ' (blanks / 2) ++ text ++ "".pushn ' ' (blanks - blanks / 2)

/-- What stands for a run of zeros: the outer cells of a row, with dots between them. -/
def zeroRun : String :=
  numberCell 0 ++ centred ((cellWidth + 1) * (rowLength - 2) + 1) "..." ++ numberCell 0

def Line.text : Line → String
  | .bytes first last row =>
    label first last ++ String.join ((words row).map fun word => " " ++ numberCell word)
  | .zeros first last => label first last ++ " " ++ zeroRun

/-- A named part of the dump. -/
def headed (name : String) (body : List String) : List String :=
  ("\t" ++ name ++ " :") :: body.map ("\t\t" ++ ·)

/-- All slots of the stack, the earliest call first; free slots hold zero. -/
def stackSlots (stack : List UInt16) : List Nat :=
  (stack.reverse.map UInt16.toNat).rightpad Machine.stackCapacity 0

end Chip8.Dump

namespace Chip8

def Machine.dump (m : Machine) : List String :=
  ["Chipset \x7b"]
    ++ Dump.headed "Program Counter" [Dump.numberCell m.programCounter.toNat]
    ++ Dump.headed "Instruction" [m.currentText]
    ++ Dump.headed "Index Register" [Dump.numberCell m.index.toNat]
    ++ Dump.headed "Delay Timer" [Dump.numberCell m.delay.value.toNat]
    ++ Dump.headed "Sound Timer" [Dump.numberCell m.sound.value.toNat]
    ++ Dump.headed "Memory" ((Dump.memoryLines m.memory.bytes.toList).map Dump.Line.text)
    ++ Dump.headed "Keyboard" (Dump.table (m.keypad.held.toList.map toString))
    ++ Dump.headed "Stack" (Dump.table ((Dump.stackSlots m.stack).map Dump.numberCell))
    ++ Dump.headed "Register"
      (Dump.table (m.registers.toList.map fun value => Dump.numberCell value.toNat))
    ++ ["\x7d"]

def Machine.dumpText (m : Machine) : String :=
  "\n".intercalate m.dump

end Chip8
