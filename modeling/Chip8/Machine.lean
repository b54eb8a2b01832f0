import Chip8.Countdown
import Chip8.Font
import Chip8.Framebuffer
import Chip8.Instruction.Coding
import Chip8.Keypad
import Chip8.Move
import Chip8.Report

/-!
The machine: everything a program can see, and the operations on it other than executing a program.

`Machine.Request` names these operations and `Machine.handle` answers them, so a history of the
machine is a list of requests.
-/

namespace Chip8

structure Machine where
  memory : Memory
  /-- The data registers `V0` to `VF`; some instructions use `VF` as a flag. -/
  registers : Vector UInt8 16
  /-- The index register `I`. -/
  index : UInt16
  /-- The address of the next instruction. -/
  programCounter : UInt16
  /-- The return addresses of the calls that are open, the latest first. -/
  stack : List UInt16
  delay : Countdown
  sound : Countdown
  display : Framebuffer
  /-- Set when the display changed, until a consumer clears it. -/
  redraw : Bool
  keypad : Keypad
  /-- The register that receives the next key, while the program waits for one. -/
  awaiting : Option Register
  deriving DecidableEq

namespace Machine

def registerCount : Nat := 16

/-- The register that serves as a flag, `VF`. -/
def flagRegister : Register := ⟨15, by decide⟩

/-- The register that is added to the address of an offset jump, `V0`. -/
def offsetRegister : Register := ⟨0, by decide⟩

/-- The most calls that can be open. -/
def stackCapacity : Nat := 16

/-- The machine when it is switched on: the font is in memory, all else is empty. -/
def initial : Machine where
  memory := Memory.zeros.place Font.base Font.bytes
  registers := Vector.replicate 16 0
  index := 0
  programCounter := UInt16.ofNat Memory.programStart
  stack := []
  delay := .done
  sound := .done
  display := .blank
  redraw := false
  keypad := .released
  awaiting := none

/-- Clears the machine part by part and copies the font again; the program is lost. -/
def reset (m : Machine) : Machine where
  memory := m.memory.clear.place Font.base Font.bytes
  registers := m.registers.map fun _ => 0
  index := 0
  programCounter := UInt16.ofNat Memory.programStart
  stack := []
  delay := .done
  sound := .done
  display := m.display.clear
  redraw := false
  keypad := m.keypad.releaseAll
  awaiting := none

def register (m : Machine) (x : Register) : UInt8 :=
  m.registers.get x

def setRegister (m : Machine) (x : Register) (value : UInt8) : Machine :=
  { m with registers := m.registers.set x.val value x.isLt }

/-- Copies a program into memory, if it fits. -/
def load (m : Machine) (program : List UInt8) : Report Machine Unit :=
  if program.length ≤ Memory.programCapacity then
    { outcome := .ok ()
      state := { m with memory := m.memory.place Memory.programStart program }
      events := [.loaded program.length] }
  else
    { outcome := .error (.memory (.programTooLarge program.length Memory.programCapacity))
      state := m }

/-- A machine that is switched on with a program. -/
def withProgram (program : List UInt8) : Except Fault Machine :=
  let loaded := initial.load program
  loaded.outcome.map fun () => loaded.state

def fetch (m : Machine) : Except Fault Opcode :=
  (m.memory.fetch m.programCounter.toNat).mapError .memory

def current (m : Machine) : Except Fault Instruction :=
  match m.fetch with
  | .ok opcode => (decode opcode).mapError .opcode
  | .error fault => .error fault

/-- The text of the instruction under the program counter, or what is wrong with it. -/
def currentText (m : Machine) : String :=
  match m.current with
  | .ok instruction => instruction.text
  | .error fault => fault.message

def tick (m : Machine) : Machine :=
  { m with delay := m.delay.tick, sound := m.sound.tick }

def setKey (m : Machine) (key : Nat) (down : Bool) : Except Fault Machine :=
  (m.keypad.set key down).map fun keypad => { m with keypad }

def toggleKey (m : Machine) (key : Nat) : Except Fault Machine :=
  (m.keypad.toggle key).map fun keypad => { m with keypad }

/-- Gives a key to the program, if it waits for one. -/
def receive (m : Machine) (key : Fin 16) : Machine × List Event :=
  match m.awaiting with
  | some x =>
    ({ m.setRegister x (UInt8.ofNat key.val) with awaiting := none }, [.keyReceived key x])
  | none => (m, [])

/-- Ends a wait for a key, if the number is that of a key. -/
def resume (m : Machine) (key : Nat) : Report Machine Unit :=
  if h : key < 16 then
    let (machine, events) := m.receive ⟨key, h⟩
    { outcome := .ok (), state := machine, events }
  else
    { outcome := .error (.noSuchKey key), state := m }

/-- The machine whose display has been shown. -/
def clearRedraw (m : Machine) : Machine :=
  { m with redraw := false }

/-- Moves the program counter, which holds sixteen bits of the target. -/
def move (m : Machine) (step : Move) : Except Fault Machine :=
  match step.target m.programCounter.toNat with
  | .ok target => .ok { m with programCounter := UInt16.ofNat target }
  | .error fault => .error (.memory fault)

inductive Request where
  | tick
  | setKeypad (keypad : Keypad)
  | setKey (key : Nat) (down : Bool)
  | toggleKey (key : Nat)
  | resume (key : Nat)
  | clearRedraw
  | reset
  | load (program : List UInt8)
  | move (step : Move)

def handle (m : Machine) : Request → Report Machine Unit
  | .tick => .done m.tick
  | .setKeypad keypad => .done { m with keypad }
  | .setKey key down => .ofExcept m (m.setKey key down)
  | .toggleKey key => .ofExcept m (m.toggleKey key)
  | .resume key => m.resume key
  | .clearRedraw => .done m.clearRedraw
  | .reset => .done m.reset
  | .load program => m.load program
  | .move step => .ofExcept m (m.move step)

end Machine

end Chip8
