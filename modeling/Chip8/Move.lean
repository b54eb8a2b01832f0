import Chip8.Memory

/-!
Moves of the program counter.

Jumps are checked against the memory. Moves forward are not: what lies behind the memory is found
out by the next fetch.
-/

namespace Chip8

/-- Where the program counter goes after an instruction. -/
inductive Move where
  | stay
  /-- To the following opcode. -/
  | next
  /-- Past the following opcode. -/
  | skip
  | jump (address : Nat)
  deriving DecidableEq

namespace Move

/-- The number of addresses that a pointer of the host can hold. -/
def pointerRange : Nat := UInt64.size

def skipIf (condition : Bool) : Move :=
  if condition then .skip else .next

/-- Where a move from `pointer` leads. -/
def target (pointer : Nat) : Move → Except MemoryFault Nat
  | .stay => .ok pointer
  | .next => .ok ((pointer + Opcode.size) % pointerRange)
  | .skip => .ok ((pointer + 2 * Opcode.size) % pointerRange)
  | .jump address =>
    if address < Memory.size then .ok address else .error (.outOfBounds address Memory.size)

end Move

end Chip8
