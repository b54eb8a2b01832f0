import Chip8.Hex
import Chip8.Instruction.Basic

/-!
The conventional assembly text of instructions: a mnemonic and its operands, numbers in
hexadecimal. Addresses have three places and bytes two.
-/

namespace Chip8

/-- The name of a data register, `V0` to `VF`. -/
def registerName (x : Register) : String :=
  "V" ++ String.ofList (Hex.digits 1 x.val)

namespace Instruction

def oneOperand (mnemonic operand : String) : String :=
  mnemonic ++ " " ++ operand

def twoOperands (mnemonic first second : String) : String :=
  mnemonic ++ " " ++ first ++ ", " ++ second

/-- Addresses have three places. -/
def addressText (address : Address) : String :=
  Hex.numeral 3 address.val

/-- Bytes have two places. -/
def byteText (byte : UInt8) : String :=
  Hex.numeral 2 byte.toNat

/-- The text of an operation on two registers; a shift names only the register it shifts. -/
def binaryText (x y : Register) : BinaryOp → String
  | .copy => twoOperands "LD" (registerName x) (registerName y)
  | .or => twoOperands "OR" (registerName x) (registerName y)
  | .and => twoOperands "AND" (registerName x) (registerName y)
  | .xor => twoOperands "XOR" (registerName x) (registerName y)
  | .add => twoOperands "ADD" (registerName x) (registerName y)
  | .subtract => twoOperands "SUB" (registerName x) (registerName y)
  | .shiftRight => oneOperand "SHR" (registerName x)
  | .subtractFrom => twoOperands "SUBN" (registerName x) (registerName y)
  | .shiftLeft => oneOperand "SHL" (registerName x)

def unaryText (x : Register) : UnaryOp → String
  | .readDelay => twoOperands "LD" (registerName x) "DT"
  | .awaitKey => twoOperands "LD" (registerName x) "K"
  | .setDelay => twoOperands "LD" "DT" (registerName x)
  | .setSound => twoOperands "LD" "ST" (registerName x)
  | .addToIndex => twoOperands "ADD" "I" (registerName x)
  | .pointAtGlyph => twoOperands "LD" "F" (registerName x)
  | .storeDecimal => twoOperands "LD" "B" (registerName x)
  | .storeRegisters => twoOperands "LD" "[I]" (registerName x)
  | .loadRegisters => twoOperands "LD" (registerName x) "[I]"

def text : Instruction → String
  | .clearDisplay => "CLS"
  | .leave => "RET"
  | .hostRoutine address => oneOperand "SYS" (addressText address)
  | .jump address => oneOperand "JP" (addressText address)
  | .call address => oneOperand "CALL" (addressText address)
  | .skipIfByte x byte => twoOperands "SE" (registerName x) (byteText byte)
  | .skipUnlessByte x byte => twoOperands "SNE" (registerName x) (byteText byte)
  | .skipIfSame x y => twoOperands "SE" (registerName x) (registerName y)
  | .loadByte x byte => twoOperands "LD" (registerName x) (byteText byte)
  | .addByte x byte => twoOperands "ADD" (registerName x) (byteText byte)
  | .binary op x y => binaryText x y op
  | .skipUnlessSame x y => twoOperands "SNE" (registerName x) (registerName y)
  | .loadIndex address => twoOperands "LD" "I" (addressText address)
  | .jumpOffset address => twoOperands "JP" "V0" (addressText address)
  | .random x mask => twoOperands "RND" (registerName x) (byteText mask)
  | .draw x y height =>
    twoOperands "DRW" (registerName x) (registerName y ++ ", " ++ Hex.numeral 1 height.val)
  | .skipOnKey .held x => oneOperand "SKP" (registerName x)
  | .skipOnKey .released x => oneOperand "SKNP" (registerName x)
  | .unary op x => unaryText x op

end Instruction

end Chip8
