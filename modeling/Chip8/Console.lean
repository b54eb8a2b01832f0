import Chip8.Processor.Run

/-!
The console: a processor that is driven frame by frame and connected to a keypad and a display.

A frame reads the keys, makes a fixed number of steps, lets the timers tick and hands the display
over if it changed. A frame that fails stops at the failing step: nothing ticks, nothing is handed
over and the frame is not counted.
-/

namespace Chip8

/-- A processor, its speed and a count of the frames it has completed. -/
structure Console where
  processor : Processor
  /-- The steps between two ticks of the timers. -/
  cyclesPerFrame : Nat
  /-- The count has 64 binary digits and starts again at zero behind the last number. -/
  counter : UInt64

/-- What a console does in answer to a request. -/
structure Exchange extends Report Console (Option Signal) where
  /-- The display that was handed over, if any. -/
  shown : Option Framebuffer := none

/-- Takes over the keys that are held, and gives the lowest of them to a program that waits. -/
def Machine.poll (m : Machine) (keys : Keypad) : Machine × List Event :=
  let polled := { m with keypad := keys }
  match keys.lowest? with
  | some key => polled.receive key
  | none => (polled, [])

/-- Hands the display over if it changed. -/
def Machine.present (m : Machine) : Machine × Option Framebuffer :=
  if m.redraw then (m.clearRedraw, some m.display) else (m, none)

namespace Console

/-- The steps of a program per second, unless another number is asked for. -/
def defaultHertz : Nat := 500

/-- The largest number of steps in a frame. -/
def maxCycles : Nat := UInt32.size - 1

/-- The steps in a frame for a number of steps per second: at least one. -/
def cyclesOfHertz (hertz : Nat) : Nat :=
  min (max (hertz / Countdown.rate) 1) maxCycles

def start (processor : Processor) (cyclesPerFrame : Nat) : Console :=
  { processor, cyclesPerFrame, counter := 0 }

def machine (c : Console) : Machine := c.processor.machine

/-- The frames that are counted. -/
def frames (c : Console) : Nat := c.counter.toNat

def withMachine (c : Console) (machine : Machine) : Console :=
  { c with processor := c.processor.withMachine machine }

def poll (c : Console) (keys : Keypad) : Console × List Event :=
  let (machine, events) := c.machine.poll keys
  (c.withMachine machine, events)

/-- Runs a frame while some keys are held. The signal is that of its last step. -/
def frame (c : Console) (keys : Keypad) : Exchange :=
  let (polled, events) := c.poll keys
  let run := polled.processor.run c.cyclesPerFrame
  match run.outcome with
  | .error fault =>
    { outcome := .error fault
      state := { c with processor := run.processor }
      events := events ++ run.events }
  | .ok signal =>
    let (machine, shown) := run.processor.machine.tick.present
    { outcome := .ok (some signal)
      state := { c with processor := run.processor.withMachine machine, counter := c.counter + 1 }
      events := events ++ run.events
      shown }

/-- Makes a single step while some keys are held; the timers do not tick. -/
def advance (c : Console) (keys : Keypad) : Exchange :=
  let (polled, events) := c.poll keys
  let report := polled.processor.step
  match report.outcome with
  | .error fault =>
    { outcome := .error fault
      state := { c with processor := report.state }
      events := events ++ report.events }
  | .ok signal =>
    let (machine, shown) := report.state.machine.present
    { outcome := .ok (some signal)
      state := { c with processor := report.state.withMachine machine }
      events := events ++ report.events
      shown }

inductive Request where
  | frame (keys : Keypad)
  | advance (keys : Keypad)
  | machine (request : Machine.Request)

def handle (c : Console) : Request → Exchange
  | .frame keys => c.frame keys
  | .advance keys => c.advance keys
  | .machine request =>
    { (c.machine.handle request).map c.withMachine fun _ => none with }

end Console

end Chip8
