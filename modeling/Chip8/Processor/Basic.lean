import Chip8.Machine
import Chip8.RandomTape

/-!
The processor: a machine and the tape of random bytes that its program reads.
-/

namespace Chip8

/-- What a step asks of whoever drives the processor. -/
inductive Signal where
  | proceed
  /-- The program waits for a key. -/
  | wait
  | draw
  deriving DecidableEq

/-- A machine and its source of random bytes. -/
structure Processor where
  machine : Machine
  tape : RandomTape

namespace Processor

def withMachine (p : Processor) (machine : Machine) : Processor :=
  { p with machine }

end Processor

end Chip8
