import Chip8.Processor.Basic

/-!
What instructions do, apart from moving the program counter.

An effect is the processor that an instruction leaves, the move that the program counter shall make
and what is reported. An instruction that fails has no effect: its operands are checked before
anything is changed.
-/

namespace Chip8

/-- What an instruction does before the program counter moves. -/
structure Effect where
  processor : Processor
  move : Move := .next
  signal : Signal := .proceed
  events : List Event := []

/-- The result of an operation on two bytes, and its flag if it has one. -/
def BinaryOp.apply (x y : UInt8) : BinaryOp → UInt8 × Option UInt8
  | .copy => (y, none)
  | .or => (x ||| y, none)
  | .and => (x &&& y, none)
  | .xor => (x ^^^ y, none)
  | .add => (x + y, some (if x.toNat + y.toNat < 256 then 0 else 1))
  | .subtract => (x - y, some (if y ≤ x then 1 else 0))
  | .shiftRight => (x >>> 1, some (x &&& 1))
  | .subtractFrom => (y - x, some (if x ≤ y then 1 else 0))
  | .shiftLeft => (x <<< 1, some (x >>> 7))

/-- The hundreds, tens and ones of a byte. -/
def decimalDigits (value : UInt8) : List UInt8 :=
  [value / 100, value / 10 % 10, value % 10]

namespace Machine

/-- Sets `VX` to the result of an operation, then `VF` to its flag: the flag wins where both are
the same register. -/
def binary (m : Machine) (op : BinaryOp) (x y : Register) : Machine :=
  match op.apply (m.register x) (m.register y) with
  | (result, none) => m.setRegister x result
  | (result, some flag) => (m.setRegister x result).setRegister flagRegister flag

/-- Opens a call: the address behind the call goes on the stack. The address has to lie inside the
memory, which is checked before the room on the stack. -/
def pushReturn (m : Machine) : Except Fault (Machine × List Event) :=
  let address := m.programCounter.toNat + Opcode.size
  if Memory.size ≤ address then .error (.memory (.outOfBounds address Memory.size))
  else if m.stack.length = stackCapacity then .error (.stack .full)
  else
    .ok ({ m with stack := UInt16.ofNat address :: m.stack },
      [.pushed (UInt16.ofNat address) m.stack.length])

/-- Closes the latest call: its return address, and the machine without it. -/
def popReturn (m : Machine) : Except Fault (UInt16 × Machine × List Event) :=
  match m.stack with
  | [] => .error (.stack .empty)
  | address :: stack => .ok (address, { m with stack }, [.popped address stack.length])

def clearDisplay (m : Machine) : Machine :=
  { m with display := m.display.clear, redraw := true }

/-- Where an offset jump leads: `V0` is added to its address. -/
def offsetTarget (m : Machine) (address : Address) : Nat :=
  (m.register offsetRegister).toNat + address.val

/-- Draws the sprite under the index register; `VF` is one if a set pixel was inverted. -/
def draw (m : Machine) (x y : Register) (height : Nibble) : Except Fault Machine :=
  match m.memory.read m.index.toNat height.val with
  | .error fault => .error (.memory fault)
  | .ok sprite =>
    let drawing := m.display.drawSprite (m.register x).toNat (m.register y).toNat sprite
    let drawn := { m with display := drawing.screen, redraw := true }
    .ok (drawn.setRegister flagRegister (if drawing.collision then 1 else 0))

def store (m : Machine) (data : List UInt8) : Except Fault Machine :=
  match m.memory.write m.index.toNat data with
  | .error fault => .error (.memory fault)
  | .ok memory => .ok { m with memory }

/-- Fills the registers `V0` to `VX` from the index register on. -/
def loadRegisters (m : Machine) (x : Register) : Except Fault Machine :=
  match m.memory.read m.index.toNat (x.val + 1) with
  | .error fault => .error (.memory fault)
  | .ok data =>
    .ok { m with registers := Vector.ofFn fun k => data.getD k.val (m.register k) }

end Machine

namespace Processor

def unaryEffect (p : Processor) (x : Register) : UnaryOp → Except Fault Effect
  | .readDelay => .ok { processor := p.withMachine (p.machine.setRegister x p.machine.delay.value) }
  | .awaitKey =>
    .ok { processor := p.withMachine { p.machine with awaiting := some x }
          signal := .wait
          events := [.keyAwaited x] }
  | .setDelay =>
    .ok { processor := p.withMachine { p.machine with delay := ⟨p.machine.register x⟩ } }
  | .setSound =>
    .ok { processor := p.withMachine { p.machine with sound := ⟨p.machine.register x⟩ } }
  | .addToIndex =>
    let index := p.machine.index + (p.machine.register x).toUInt16
    .ok { processor := p.withMachine { p.machine with index } }
  | .pointAtGlyph =>
    let digit := p.machine.register x
    if digit.toNat < 16 then
      let index := UInt16.ofNat (Font.glyphAddress digit.toNat)
      .ok { processor := p.withMachine { p.machine with index } }
    else .error (.opcode (.noGlyph digit))
  | .storeDecimal =>
    (p.machine.store (decimalDigits (p.machine.register x))).map
      fun machine => { processor := p.withMachine machine }
  | .storeRegisters =>
    (p.machine.store (p.machine.registers.toList.take (x.val + 1))).map
      fun machine => { processor := p.withMachine machine }
  | .loadRegisters =>
    (p.machine.loadRegisters x).map fun machine => { processor := p.withMachine machine }

def effect (p : Processor) : Instruction → Except Fault Effect
  | .clearDisplay =>
    .ok { processor := p.withMachine p.machine.clearDisplay, signal := .draw }
  | .leave =>
    p.machine.popReturn.map fun (address, machine, events) =>
      { processor := p.withMachine machine, move := .jump address.toNat, events }
  | .hostRoutine address => .ok { processor := p, events := [.hostRoutineSkipped address] }
  | .jump address => .ok { processor := p, move := .jump address.val }
  | .call address =>
    p.machine.pushReturn.map fun (machine, events) =>
      { processor := p.withMachine machine, move := .jump address.val, events }
  | .skipIfByte x byte => .ok { processor := p, move := .skipIf (p.machine.register x == byte) }
  | .skipUnlessByte x byte => .ok { processor := p, move := .skipIf (p.machine.register x != byte) }
  | .skipIfSame x y =>
    .ok { processor := p, move := .skipIf (p.machine.register x == p.machine.register y) }
  | .loadByte x byte => .ok { processor := p.withMachine (p.machine.setRegister x byte) }
  | .addByte x byte =>
    .ok { processor := p.withMachine (p.machine.setRegister x (p.machine.register x + byte)) }
  | .binary op x y => .ok { processor := p.withMachine (p.machine.binary op x y) }
  | .skipUnlessSame x y =>
    .ok { processor := p, move := .skipIf (p.machine.register x != p.machine.register y) }
  | .loadIndex address =>
    .ok { processor := p.withMachine { p.machine with index := UInt16.ofNat address.val } }
  | .jumpOffset address =>
    .ok { processor := p, move := .jump (p.machine.offsetTarget address) }
  | .random x mask =>
    .ok { processor :=
            { machine := p.machine.setRegister x (mask &&& p.tape.current)
              tape := p.tape.advance } }
  | .draw x y height =>
    (p.machine.draw x y height).map fun machine =>
      { processor := p.withMachine machine, signal := .draw }
  | .skipOnKey test x =>
    (p.machine.keypad.isHeld (p.machine.register x).toNat).map fun held =>
      { processor := p, move := .skipIf (held == (test = .held)) }
  | .unary op x => p.unaryEffect x op

end Processor

end Chip8
