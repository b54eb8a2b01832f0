import Chip8.Instruction.Opcode

/-!
The instructions of the machine.

Operands are fields of bounded types, so an instruction that exists has operands in range. Three
groups share one opcode pattern each and are told apart by a code in the opcode: the operations on
two registers, the tests of a key and the operations on one register.
-/

namespace Chip8

/-- An operation on two registers, `8XYN`; the result goes to `VX`. -/
inductive BinaryOp where
  | copy
  | or
  | and
  | xor
  /-- The carry goes to `VF`. -/
  | add
  /-- `VX - VY`; `VF` is one when nothing is borrowed. -/
  | subtract
  /-- `VX` moves right by one place; the lowest bit goes to `VF`. -/
  | shiftRight
  /-- `VY - VX`; `VF` is one when nothing is borrowed. -/
  | subtractFrom
  /-- `VX` moves left by one place; the highest bit goes to `VF`. -/
  | shiftLeft
  deriving DecidableEq

/-- A test of the key that a register names, `EXKK`. -/
inductive KeyTest where
  | held
  | released
  deriving DecidableEq

/-- An operation on one register, `FXKK`. -/
inductive UnaryOp where
  | readDelay
  | awaitKey
  | setDelay
  | setSound
  | addToIndex
  | pointAtGlyph
  | storeDecimal
  | storeRegisters
  | loadRegisters
  deriving DecidableEq

/-- A decoded instruction. -/
inductive Instruction where
  /-- `00E0` -/
  | clearDisplay
  /-- `00EE` -/
  | leave
  /-- `0NNN`, a routine of the host processor, which this machine skips -/
  | hostRoutine (address : Address)
  /-- `1NNN` -/
  | jump (address : Address)
  /-- `2NNN` -/
  | call (address : Address)
  /-- `3XKK` -/
  | skipIfByte (x : Register) (byte : UInt8)
  /-- `4XKK` -/
  | skipUnlessByte (x : Register) (byte : UInt8)
  /-- `5XY0` -/
  | skipIfSame (x y : Register)
  /-- `6XKK` -/
  | loadByte (x : Register) (byte : UInt8)
  /-- `7XKK` -/
  | addByte (x : Register) (byte : UInt8)
  /-- `8XYN` -/
  | binary (op : BinaryOp) (x y : Register)
  /-- `9XY0` -/
  | skipUnlessSame (x y : Register)
  /-- `ANNN` -/
  | loadIndex (address : Address)
  /-- `BNNN` -/
  | jumpOffset (address : Address)
  /-- `CXKK` -/
  | random (x : Register) (mask : UInt8)
  /-- `DXYN` -/
  | draw (x y : Register) (height : Nibble)
  /-- `EXKK` -/
  | skipOnKey (test : KeyTest) (x : Register)
  /-- `FXKK` -/
  | unary (op : UnaryOp) (x : Register)
  deriving DecidableEq

def BinaryOp.code : BinaryOp → Nat
  | .copy => 0x0
  | .or => 0x1
  | .and => 0x2
  | .xor => 0x3
  | .add => 0x4
  | .subtract => 0x5
  | .shiftRight => 0x6
  | .subtractFrom => 0x7
  | .shiftLeft => 0xE

def BinaryOp.ofCode? : Nat → Option BinaryOp
  | 0x0 => some .copy
  | 0x1 => some .or
  | 0x2 => some .and
  | 0x3 => some .xor
  | 0x4 => some .add
  | 0x5 => some .subtract
  | 0x6 => some .shiftRight
  | 0x7 => some .subtractFrom
  | 0xE => some .shiftLeft
  | _ => none

def KeyTest.code : KeyTest → Nat
  | .held => 0x9E
  | .released => 0xA1

def KeyTest.ofCode? : Nat → Option KeyTest
  | 0x9E => some .held
  | 0xA1 => some .released
  | _ => none

def UnaryOp.code : UnaryOp → Nat
  | .readDelay => 0x07
  | .awaitKey => 0x0A
  | .setDelay => 0x15
  | .setSound => 0x18
  | .addToIndex => 0x1E
  | .pointAtGlyph => 0x29
  | .storeDecimal => 0x33
  | .storeRegisters => 0x55
  | .loadRegisters => 0x65

def UnaryOp.ofCode? : Nat → Option UnaryOp
  | 0x07 => some .readDelay
  | 0x0A => some .awaitKey
  | 0x15 => some .setDelay
  | 0x18 => some .setSound
  | 0x1E => some .addToIndex
  | 0x29 => some .pointAtGlyph
  | 0x33 => some .storeDecimal
  | 0x55 => some .storeRegisters
  | 0x65 => some .loadRegisters
  | _ => none

end Chip8
