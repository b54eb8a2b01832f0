import Chip8.Processor.Step

/-!
Several steps in a row, as many as are asked for or until one fails or the program waits.
-/

namespace Chip8

structure Run where
  processor : Processor
  /-- The steps that were made, a failing one included. -/
  steps : Nat
  outcome : Except Fault Signal
  /-- The events, the latest first. -/
  history : List Event

namespace Run

def start (p : Processor) : Run := ⟨p, 0, .ok .proceed, []⟩

/-- Whether the last step failed or left the program waiting. -/
def isOver (r : Run) : Bool :=
  match r.outcome with
  | .ok .wait => true
  | .ok _ => false
  | .error _ => true

def step (r : Run) : Run :=
  let report := r.processor.step
  { processor := report.state
    steps := r.steps + 1
    outcome := report.outcome
    history := report.events.reverse ++ r.history }

/-- The run with up to `count` more steps; it ends behind a step that fails or waits. -/
def advance (r : Run) : (count : Nat) → Run
  | 0 => r
  | count + 1 =>
    let stepped := r.step
    if stepped.isOver then stepped else stepped.advance count

/-- The events in the order in which they happened. -/
def events (r : Run) : List Event := r.history.reverse

end Run

/-- Makes up to `count` steps, until one fails or the program waits. -/
def Processor.run (p : Processor) (count : Nat) : Run :=
  (Run.start p).advance count

end Chip8
