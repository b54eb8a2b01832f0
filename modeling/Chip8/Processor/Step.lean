import Chip8.Processor.Effect

/-!
Executing a program, one instruction at a time.

`execute` lets an instruction take effect and then moves the program counter, which fails if the
target lies outside the memory. `step` executes the instruction under the program counter, and
nothing while the program waits for a key. `Processor.Request` names the operations on a processor,
so a history of it is a list of requests.
-/

namespace Chip8

namespace Processor

/-- Executes an instruction: its effect, then the move of the program counter. -/
def execute (p : Processor) (instruction : Instruction) : Report Processor Signal :=
  match p.effect instruction with
  | .error fault => { outcome := .error fault, state := p }
  | .ok effect =>
    match effect.processor.machine.move effect.move with
    | .error fault =>
      { outcome := .error fault, state := effect.processor, events := effect.events }
    | .ok machine =>
      { outcome := .ok effect.signal
        state := effect.processor.withMachine machine
        events := effect.events }

/-- Executes the instruction under the program counter, unless the program waits for a key. -/
def step (p : Processor) : Report Processor Signal :=
  if p.machine.awaiting.isSome then { outcome := .ok .wait, state := p }
  else
    match p.machine.fetch with
    | .error fault => { outcome := .error fault, state := p }
    | .ok opcode =>
      match decode opcode with
      | .error fault => { outcome := .error (.opcode fault), state := p }
      | .ok instruction =>
        let report := p.execute instruction
        { report with
          events := .decoded p.machine.programCounter opcode instruction :: report.events }

inductive Request where
  | step
  | machine (request : Machine.Request)

/-- Carries out an operation; only a step yields a signal. -/
def handle (p : Processor) : Request → Report Processor (Option Signal)
  | .step => p.step.map id some
  | .machine request => (p.machine.handle request).map p.withMachine fun _ => none

end Processor

end Chip8
