import Chip8.Fault
import Chip8.Instruction.Basic

/-!
Decoding opcodes to instructions, and encoding instructions as opcodes.

`Instruction.ofParts?` reads the highest nibble first; `decode` fails on the words that no
instruction has. `Instruction.encode` writes the pattern that stands at each constructor of
`Instruction`.
-/

namespace Chip8

/-- The instruction that an opcode with these parts stands for, if there is one. -/
def Instruction.ofParts? (o : Opcode) (group : Nat) (address : Address) (x y : Register)
    (nibble : Nibble) (byte : UInt8) : Option Instruction :=
  match group with
  | 0x0 =>
    if o = 0x00E0 then some .clearDisplay
    else if o = 0x00EE then some .leave
    else some (.hostRoutine address)
  | 0x1 => some (.jump address)
  | 0x2 => some (.call address)
  | 0x3 => some (.skipIfByte x byte)
  | 0x4 => some (.skipUnlessByte x byte)
  | 0x5 => if nibble.val = 0 then some (.skipIfSame x y) else none
  | 0x6 => some (.loadByte x byte)
  | 0x7 => some (.addByte x byte)
  | 0x8 => (BinaryOp.ofCode? nibble.val).map (.binary · x y)
  | 0x9 => if nibble.val = 0 then some (.skipUnlessSame x y) else none
  | 0xA => some (.loadIndex address)
  | 0xB => some (.jumpOffset address)
  | 0xC => some (.random x byte)
  | 0xD => some (.draw x y nibble)
  | 0xE => (KeyTest.ofCode? byte.toNat).map (.skipOnKey · x)
  | _ => (UnaryOp.ofCode? byte.toNat).map (.unary · x)

/-- The instruction an opcode stands for. -/
def decode (o : Opcode) : Except OpcodeFault Instruction :=
  match Instruction.ofParts? o o.group.val o.address o.x o.y o.nibble o.byte with
  | some instruction => .ok instruction
  | none => .error (.unsupported o)

/-- The opcode of an instruction. -/
def Instruction.encode : Instruction → Opcode
  | .clearDisplay => 0x00E0
  | .leave => 0x00EE
  | .hostRoutine address => Opcode.ofAddress 0x0 address
  | .jump address => Opcode.ofAddress 0x1 address
  | .call address => Opcode.ofAddress 0x2 address
  | .skipIfByte x byte => Opcode.ofByte 0x3 x byte.toNat
  | .skipUnlessByte x byte => Opcode.ofByte 0x4 x byte.toNat
  | .skipIfSame x y => Opcode.ofNibble 0x5 x y 0
  | .loadByte x byte => Opcode.ofByte 0x6 x byte.toNat
  | .addByte x byte => Opcode.ofByte 0x7 x byte.toNat
  | .binary op x y => Opcode.ofNibble 0x8 x y op.code
  | .skipUnlessSame x y => Opcode.ofNibble 0x9 x y 0
  | .loadIndex address => Opcode.ofAddress 0xA address
  | .jumpOffset address => Opcode.ofAddress 0xB address
  | .random x mask => Opcode.ofByte 0xC x mask.toNat
  | .draw x y height => Opcode.ofNibble 0xD x y height.val
  | .skipOnKey test x => Opcode.ofByte 0xE x test.code
  | .unary op x => Opcode.ofByte 0xF x op.code

end Chip8
