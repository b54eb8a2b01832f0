import Chip8.Hex
import Chip8.Instruction.Opcode

/-!
What can go wrong while a program is loaded or executed.

A fault names its cause. Its wording is given by `message` alone, and a fault of a part of the
machine quotes the wording of that part.
-/

namespace Chip8

/-- Faults of an opcode and its operands. -/
inductive OpcodeFault where
  /-- The word is no instruction. -/
  | unsupported (opcode : Opcode)
  /-- The font has glyphs for the sixteen digits only. -/
  | noGlyph (value : UInt8)
  deriving DecidableEq

inductive MemoryFault where
  /-- An address behind the end of a memory of `size` bytes. -/
  | outOfBounds (address size : Nat)
  /-- A program of `size` bytes where only `capacity` bytes fit. -/
  | programTooLarge (size capacity : Nat)
  deriving DecidableEq

inductive StackFault where
  | full
  | empty
  deriving DecidableEq

/-- Everything an operation of the machine can report instead of a result. -/
inductive Fault where
  | opcode (cause : OpcodeFault)
  | memory (cause : MemoryFault)
  | stack (cause : StackFault)
  /-- The keypad has sixteen keys only. -/
  | noSuchKey (key : Nat)
  deriving DecidableEq

def OpcodeFault.message : OpcodeFault → String
  | .unsupported opcode => "An unsupported opcode was used " ++ Hex.numeral 4 opcode.toNat ++ "."
  | .noGlyph value => "There is no font glyph for the value " ++ Hex.numeral 1 value.toNat ++ "."

def MemoryFault.message : MemoryFault → String
  | .outOfBounds address size =>
    "Memory location " ++ Hex.numeral 4 address ++ " is out of bounds, memory len is "
      ++ toString size
  | .programTooLarge size capacity =>
    "The rom has " ++ toString size ++ " bytes, but only " ++ toString capacity
      ++ " bytes fit into memory"

def StackFault.message : StackFault → String
  | .full => "Stack is full!"
  | .empty => "Stack is empty!"

namespace Fault

/-- The wording of the cause that a fault quotes; a missing key has none. -/
def cause? : Fault → Option String
  | .opcode cause => some cause.message
  | .memory cause => some cause.message
  | .stack cause => some cause.message
  | .noSuchKey _ => none

/-- The wording of a fault. -/
def message : Fault → String
  | .opcode cause => "Invalid opcode state '" ++ cause.message ++ "'."
  | .memory cause => "Invalid memory access '" ++ cause.message ++ "'."
  | .stack cause => "Invalid stack state '" ++ cause.message ++ "'."
  | .noSuchKey key => "There is no key with the index " ++ Hex.numeral 1 key ++ "."

end Fault

end Chip8
