import Chip8.Terminal.Decoding

/-!
The inbox: what a terminal has sent and nobody has taken yet.

Keystrokes are taken in the order in which they were sent. A report of the cursor's position is no
keystroke, but it ends the taking: what was read along with it waits for the next time.

Bytes are read when no message is left and the terminal has sent something since the last read. A
read takes a limited number of bytes and is repeated only until there is a message, so of a large
burst a part stays unread until the terminal sends again. A read of the full size may have cut a
sequence.
-/

namespace Chip8.Terminal

/-- What a terminal has sent and nobody has taken yet. -/
structure Inbox where
  /-- Bytes that were not read yet. -/
  unread : List UInt8
  /-- Whether the terminal has sent something since the last read. -/
  hasNews : Bool
  /-- What was read of a message that is not complete. -/
  pending : Pending
  /-- What was read, the earliest first. -/
  messages : List Message
  deriving DecidableEq

/-- The keystrokes in front of the first report of the cursor's position, and what is behind it. -/
def keystrokesBefore : List Message → List Keystroke × Option (List Message)
  | [] => ([], none)
  | .cursorPosition .. :: rest => ([], some rest)
  | .keystroke stroke :: rest =>
    let (strokes, behind?) := keystrokesBefore rest
    (stroke :: strokes, behind?)

namespace Inbox

def empty : Inbox := ⟨[], false, .nothing, []⟩

def receive (i : Inbox) (burst : List UInt8) : Inbox :=
  { i with unread := i.unread ++ burst, hasNews := i.hasNews || !burst.isEmpty }

/-- The most bytes that one read takes. -/
def readSize : Nat := 1204

def read (i : Inbox) : Inbox :=
  let (pending, messages) :=
    i.pending.takeAll (readSize ≤ i.unread.length) (i.unread.take readSize)
  { unread := i.unread.drop readSize
    hasNews := false
    pending
    messages := i.messages ++ messages }

theorem length_unread_read (i : Inbox) : i.read.unread.length = i.unread.length - readSize :=
  List.length_drop

/-- Reads until there is a message or nothing left to read. -/
def readMessages (i : Inbox) : Inbox :=
  if i.read.messages = [] ∧ 0 < i.read.unread.length then i.read.readMessages else i.read
termination_by i.unread.length
decreasing_by
  rename_i h
  have shorter := length_unread_read i
  have positive : 0 < readSize := by decide
  omega

/-- Takes the keystrokes up to a report of the cursor's position. -/
def take (i : Inbox) : List Keystroke × Inbox :=
  match keystrokesBefore i.messages with
  | (strokes, some behind) => (strokes, { i with messages := behind })
  | (strokes, none) =>
    let rest : Inbox := { i with messages := [] }
    if i.hasNews then
      let fresh := rest.readMessages
      let (more, behind?) := keystrokesBefore fresh.messages
      (strokes ++ more, { fresh with messages := behind?.getD [] })
    else (strokes, rest)

end Inbox

end Chip8.Terminal
