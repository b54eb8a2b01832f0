import Chip8.Instruction.Assembly
import Chip8.Journal

/-!
What the machine reports about its work while it runs.

An event holds the facts; its level and wording are given by `record`.
-/

namespace Chip8

/-- Something that happened inside the machine. -/
inductive Event where
  /-- An instruction was decoded and is about to take effect. -/
  | decoded (address : UInt16) (opcode : Opcode) (instruction : Instruction)
  | loaded (size : Nat)
  /-- A return address was put on a stack of the given depth. -/
  | pushed (address : UInt16) (depth : Nat)
  /-- A return address was taken from the stack, which leaves the given depth. -/
  | popped (address : UInt16) (depth : Nat)
  | hostRoutineSkipped (address : Address)
  | keyAwaited (x : Register)
  | keyReceived (key : Fin 16) (x : Register)
  deriving DecidableEq

namespace Event

def level : Event → Level
  | .decoded .. => .trace
  | _ => .debug

def text : Event → String
  | .decoded address opcode instruction =>
    Hex.numeral 4 address.toNat ++ ": " ++ Hex.numeral 4 opcode.toNat ++ " " ++ instruction.text
  | .loaded size => "loaded a program of " ++ toString size ++ " bytes"
  | .pushed address depth =>
    "push " ++ Hex.numeral 4 address.toNat ++ " at depth " ++ toString depth
  | .popped address depth =>
    "pop " ++ Hex.numeral 4 address.toNat ++ " at depth " ++ toString depth
  | .hostRoutineSkipped address =>
    "ignoring machine code call to " ++ Hex.numeral 3 address.val
  | .keyAwaited x => "waiting for a key press into " ++ registerName x
  | .keyReceived key x =>
    "resuming with key " ++ Hex.numeral 1 key.val ++ " into " ++ registerName x

/-- The record of an event in a journal. -/
def record (e : Event) : Record := ⟨e.level, e.text⟩

end Event

end Chip8
