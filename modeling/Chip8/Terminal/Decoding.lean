import Chip8.Terminal.Keystroke
import Chip8.Text.Decimal

/-!
The bytes that a terminal sends, and the messages that they spell.

A character is sent in UTF-8. A key without a character is sent as a sequence that starts with an
escape, and an escape in front of a character says that the alt key is held. The escape key itself
sends a lone escape: it is told from the start of a sequence by being the last byte that there is.
What cannot be read is dropped, up to the byte that shows it. Reports of the mouse are skipped;
a report of the cursor's position is a message of its own.
-/

namespace Chip8.Terminal

/-- What a terminal sends. -/
inductive Message where
  | keystroke (stroke : Keystroke)
  | cursorPosition (row column : Nat)
  deriving DecidableEq

/-- The message that a key was pressed alone. -/
def Message.key (key : Key) : Message := .keystroke { key }

/-- What was received of a message that is not complete. -/
inductive Pending where
  | nothing
  | character (alt : Bool) (bytes : List UInt8)
  | escape
  | letter
  | sequence
  | functionLetter
  /-- A sequence and its parameters so far. -/
  | parameters (text : List Char)
  /-- A report of the mouse that lacks some bytes. -/
  | report (missing : Nat)
  /-- A report of the mouse that ends with a letter. -/
  | longReport
  deriving DecidableEq

/-- How many bytes a character has, by the first of them. -/
def encodedLength? (first : UInt8) : Option Nat :=
  if first < 0x80 then some 1
  else if first < 0xC0 then none
  else if first < 0xE0 then some 2
  else if first < 0xF0 then some 3
  else if first < 0xF8 then some 4
  else none

/-- The key that a letter stands for at the end of a sequence. -/
def letterKey? : Char → Option Key
  | 'A' => some .up
  | 'B' => some .down
  | 'C' => some .right
  | 'D' => some .left
  | 'F' => some .endOfLine
  | 'H' => some .home
  | 'P' => some (.function 1)
  | 'Q' => some (.function 2)
  | 'R' => some (.function 3)
  | 'S' => some (.function 4)
  | _ => none

/-- The key that a number stands for in a sequence that ends with a tilde. -/
def numberKey? (n : Nat) : Option Key :=
  if n = 1 || n = 7 then some .home
  else if n = 2 then some .insert
  else if n = 3 then some .delete
  else if n = 4 || n = 8 then some .endOfLine
  else if n = 5 then some .pageUp
  else if n = 6 then some .pageDown
  else if 11 ≤ n && n ≤ 15 then some (.function (n - 10))
  else if 17 ≤ n && n ≤ 21 then some (.function (n - 11))
  else if 23 ≤ n && n ≤ 26 then some (.function (n - 12))
  else if 28 ≤ n && n ≤ 29 then some (.function (n - 15))
  else if 31 ≤ n && n ≤ 34 then some (.function (n - 17))
  else none

/-- A key and the modifiers that a number stands for, one bit each above one. -/
def Keystroke.modified (key : Key) (number : Nat) : Keystroke where
  key
  shift := (number - 1).testBit 0
  alt := (number - 1).testBit 1
  control := (number - 1).testBit 2

/-- The largest number among the parameters of a sequence. -/
def maxParameter : Nat := UInt16.size - 1

/-- The numbers that a semicolon separates; what is no number has no value. -/
def parameterValues (text : List Char) : List (Option Nat) :=
  (text.splitOn ';').map (Text.decimal? maxParameter)

/-- The position of the cursor, if its row and its column are given. -/
def cursorPosition? : List (Option Nat) → Option Message
  | some row :: some column :: _ => some (.cursorPosition row column)
  | _ => none

/-- The message of a sequence with parameters, by its last character. -/
def numberedMessage? (text : List Char) (last : Char) : Option Message :=
  let values := parameterValues text
  if last = 'R' then cursorPosition? values
  else
    let key? := if last = '~' then (values[0]?.join).bind numberKey? else letterKey? last
    key?.map fun key => .keystroke (.modified key (values[1]?.join.getD 1))

/-- The keystroke of a character, with the alt key or without. -/
def characterMessage? (alt : Bool) (bytes : List UInt8) : Option Message :=
  (ByteArray.utf8DecodeChar? ⟨bytes.toArray⟩ 0).map fun c =>
    .keystroke { Keystroke.ofChar c with alt }

namespace Pending

def begin (alt : Bool) (byte : UInt8) : Pending × Option Message :=
  match encodedLength? byte with
  | none => (.nothing, none)
  | some 1 => (.nothing, characterMessage? alt [byte])
  | some _ => (.character alt [byte], none)

def extend (alt : Bool) (bytes : List UInt8) (byte : UInt8) : Pending × Option Message :=
  let received := bytes ++ [byte]
  if byte &&& 0xC0 ≠ 0x80 then (.nothing, none)
  else if (bytes.head?.bind encodedLength?).any (received.length < ·) then
    (.character alt received, none)
  else (.nothing, characterMessage? alt received)

/-- Takes in the byte after the start of a sequence. -/
def openSequence (c : Char) : Pending × Option Message :=
  if c = '[' then (.functionLetter, none)
  else if c = 'M' then (.report 3, none)
  else if c = '<' then (.longReport, none)
  else if c.isDigit then (.parameters [c], none)
  else if c = 'Z' then (.nothing, some (.keystroke { key := .backTab, shift := true }))
  else (.nothing, (letterKey? c).map Message.key)

/-- Takes in a byte: what is pending after it, and the message that it completes. -/
def take (p : Pending) (byte : UInt8) (isLast : Bool) : Pending × Option Message :=
  let c := Char.ofUInt8 byte
  match p with
  | .nothing =>
    if c = '\x1b' then
      if isLast then (.nothing, some (.key .escape)) else (.escape, none)
    else begin false byte
  | .character alt bytes => extend alt bytes byte
  | .escape =>
    if c = '\x1b' then (.nothing, some (.key .escape))
    else if c = 'O' then (.letter, none)
    else if c = '[' then (.sequence, none)
    else begin true byte
  | .letter => (.nothing, (letterKey? c).map Message.key)
  | .sequence => openSequence c
  | .functionLetter =>
    let number := c.toNat - 0x40
    (.nothing, if 'A' ≤ c && c ≤ 'E' then some (.key (.function number)) else none)
  | .parameters text =>
    if '@' ≤ c && c ≤ '~' then (.nothing, numberedMessage? text c)
    else (.parameters (text ++ [c]), none)
  | .report missing => (if missing ≤ 1 then .nothing else .report (missing - 1), none)
  | .longReport => (if c = 'M' || c = 'm' then .nothing else .longReport, none)

/-- Takes in bytes, behind which there may be more or not: what is pending after them, and their
messages. -/
def takeAll (p : Pending) (more : Bool) : (bytes : List UInt8) → Pending × List Message
  | [] => (p, [])
  | byte :: rest =>
    let (next, message?) := p.take byte (rest.isEmpty && !more)
    let (last, messages) := next.takeAll more rest
    (last, message?.toList ++ messages)

end Pending

end Chip8.Terminal
