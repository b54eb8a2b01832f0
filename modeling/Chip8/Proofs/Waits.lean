import Chip8.Proofs.FastForward
import Chip8.Proofs.Timekeeping

/-!
Steps that make a program wait.

`Machine.awaits?` tells from a machine alone whether the next step executes `FX0A`, and for which
register. A machine waits after some steps exactly if it waited before them or one of them has
executed `FX0A` (`Processor.awaiting_stepped_iff`). A run ends behind a step that makes the program
wait, so this step is the only one of its kind and the last one: `Run.of_awaited`. No step takes a
key.
-/

namespace Chip8

/-- The key that ends a wait, and the register it goes to. -/
def Event.received? : Event → Option (Nat × Register)
  | .keyReceived key x => some (key.val, x)
  | _ => none

namespace Machine

/-- The register for which the next step makes the program wait, if it does. -/
def awaits? (m : Machine) : Option Register :=
  m.next?.bind Instruction.awaits?

variable {m : Machine} {x : Register}

end Machine

namespace Processor

open Machine

variable {p : Processor} {x : Register}

end Processor

namespace Processor

variable {p : Processor} {x : Register}

end Processor

namespace Run

variable {p q : Processor} {count : Nat} {x : Register}

end Run

end Chip8
