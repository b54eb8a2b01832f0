import Chip8.Processor.Effect
import Chip8.Proofs.Pixels
import Chip8.Proofs.Raw.Access

/-!
The machine on plain lists.

`Raw.Chip` holds the parts of the machine as lists of any length, and its operations check every
access. `Machine.raw` lays a machine out that way; an operation on the layout never aborts, and
comes to the layout of what the operation on the machine comes to.
-/

namespace Chip8

namespace Raw

@[ext]
structure Chip where
  memory : List UInt8
  registers : List UInt8
  index : UInt16
  programCounter : UInt16
  /-- The return addresses of the calls that are open, the earliest first. -/
  stack : List UInt16
  delay : Countdown
  sound : Countdown
  /-- The pixels row by row, each row from the left. -/
  display : List Bool
  redraw : Bool
  keys : List Bool
  awaiting : Option Nat

namespace Chip

def register (c : Chip) (x : Nat) : Option UInt8 :=
  get c.registers x

def setRegister (c : Chip) (x : Nat) (value : UInt8) : Option Chip :=
  (put c.registers x value).map fun registers => { c with registers }

/-- The end of a range of bytes, if the range lies inside the memory. -/
def checkRange (c : Chip) (first count : Nat) : Checked Nat := do
  let stop ← add first count
  if c.memory.length < stop then
    .of (.error (.memory (.outOfBounds (max first c.memory.length) c.memory.length)))
  else
    return stop

def read (c : Chip) (first count : Nat) : Checked (List UInt8) := do
  let stop ← c.checkRange first count
  slice c.memory first stop

def write (c : Chip) (first : Nat) (data : List UInt8) : Checked Chip := do
  let stop ← c.checkRange first data.length
  let memory ← copy c.memory first stop data
  return { c with memory }

/-- The opcode under the program counter. -/
def fetch (c : Chip) : Checked Opcode := do
  let pointer := c.programCounter.toNat
  let next ← add pointer 1
  if next < c.memory.length then
    let high ← get c.memory pointer
    let low ← get c.memory next
    return Opcode.ofBytes high low
  else
    .of (.error (.memory (.outOfBounds pointer c.memory.length)))

def push (c : Chip) (address : UInt16) : Checked Chip := do
  if c.stack.length = Machine.stackCapacity then
    .of (.error (.stack .full))
  else
    let stack ← append c.stack Machine.stackCapacity address
    return { c with stack }

def pop (c : Chip) : Checked (UInt16 × Chip) :=
  match c.stack.getLast? with
  | some address => return (address, { c with stack := c.stack.dropLast })
  | none => .of (.error (.stack .empty))

/-- Where a move from `pointer` leads. -/
def target (pointer : Nat) : Move → Checked Nat
  | .stay => return pointer
  | .next => add pointer Opcode.size
  | .skip => do
    let distance ← mul 2 Opcode.size
    add pointer distance
  | .jump address =>
    if address < Memory.size then return address
    else .of (.error (.memory (.outOfBounds address Memory.size)))

/-- Moves the program counter, which holds sixteen bits of the target. -/
def move (c : Chip) (step : Move) : Checked Chip := do
  let pointer ← target c.programCounter.toNat step
  return { c with programCounter := UInt16.ofNat pointer }

def isHeld (c : Chip) (key : Nat) : Checked Bool :=
  match c.keys[key]? with
  | some held => return held
  | none => .of (.error (.noSuchKey key))

def setKey (c : Chip) (key : Nat) (down : Bool) : Checked Chip :=
  if key < c.keys.length then return { c with keys := c.keys.set key down }
  else .of (.error (.noSuchKey key))

def toggleKey (c : Chip) (key : Nat) : Checked Chip := do
  let held ← c.isHeld key
  c.setKey key !held

def setKeys (c : Chip) (keys : List Bool) : Checked Chip := do
  let keys ← copy c.keys 0 c.keys.length keys
  return { c with keys }

/-- Ends a wait for a key, if the number is that of a key. -/
def resume (c : Chip) (key : Nat) : Checked Chip := do
  if key < Keypad.size then
    match c.awaiting with
    | some x =>
      let taken := { c with awaiting := none }
      taken.setRegister x (UInt8.ofNat key)
    | none => return c
  else
    .of (.error (.noSuchKey key))

def reset (c : Chip) : Checked Chip := do
  let stop ← add Font.base Font.bytes.length
  let memory ← copy (c.memory.map fun _ => 0) Font.base stop Font.bytes
  return {
    memory
    registers := List.replicate Machine.registerCount 0
    index := 0
    programCounter := UInt16.ofNat Memory.programStart
    stack := []
    delay := .done
    sound := .done
    display := c.display.map fun _ => false
    redraw := false
    keys := List.replicate Keypad.size false
    awaiting := none }

def load (c : Chip) (program : List UInt8) : Checked Chip := do
  if Memory.programCapacity < program.length then
    .of (.error (.memory (.programTooLarge program.length Memory.programCapacity)))
  else
    let stop ← add Memory.programStart program.length
    let memory ← copy c.memory Memory.programStart stop program
    return { c with memory }

def handle (c : Chip) : Machine.Request → Checked Chip
  | .tick => return { c with delay := c.delay.tick, sound := c.sound.tick }
  | .setKeypad keypad => c.setKeys keypad.held.toList
  | .setKey key down => c.setKey key down
  | .toggleKey key => c.toggleKey key
  | .resume key => c.resume key
  | .clearRedraw => return { c with redraw := false }
  | .reset => c.reset
  | .load program => c.load program
  | .move step => c.move step

end Chip

end Raw

/-- The machine laid out on plain lists. -/
def Machine.raw (m : Machine) : Raw.Chip where
  memory := m.memory.bytes.toList
  registers := m.registers.toList
  index := m.index
  programCounter := m.programCounter
  stack := m.stack.reverse
  delay := m.delay
  sound := m.sound
  display := m.display.pixels
  redraw := m.redraw
  keys := m.keypad.held.toList
  awaiting := m.awaiting.map Fin.val

namespace Machine

open Raw

variable (m : Machine)

theorem length_memory_raw : m.raw.memory.length = Memory.size := by
  simp [raw, Memory.size]

theorem length_registers_raw : m.raw.registers.length = registerCount := by
  simp [raw, registerCount]

theorem length_display_raw : m.raw.display.length = Framebuffer.area :=
  m.display.length_pixels

theorem length_keys_raw : m.raw.keys.length = Keypad.size := by
  simp [raw, Keypad.size]

@[simp]
theorem register_raw (x : Register) : m.raw.register x.val = some (m.register x) := by
  simp [Chip.register, Raw.get, raw, register, Vector.get]

@[simp]
theorem setRegister_raw (x : Register) (value : UInt8) :
    m.raw.setRegister x.val value = some (m.setRegister x value).raw := by
  have hx : x.val < m.raw.registers.length := by
    rw [length_registers_raw]
    exact x.isLt
  rw [Chip.setRegister, put_of_lt hx]
  simp [raw, setRegister, Vector.toList_set]

/-- Data that fit are copied to their place. -/
theorem copy_memory_raw {first : Nat} {data : List UInt8}
    (h : first + data.length ≤ Memory.size) :
    copy m.raw.memory first (first + data.length) data =
      some (m.memory.place first data).bytes.toList := by
  rw [copy_of_le (by rwa [length_memory_raw]) rfl, Option.some_inj]
  have hsize : first + data.length ≤ 4096 := h
  apply List.ext_getElem
  · simp [raw]
    omega
  · intro i _ hi
    have hi' : i < 4096 := by simpa using hi
    rw [Vector.getElem_toList, Memory.getElem_place]
    grind [raw]

theorem checkRange_raw {first count : Nat} (h : first + count < Move.pointerRange) :
    m.raw.checkRange first count =
      .of (((Memory.checkRange first count).map fun _ => first + count).mapError .memory) := by
  rw [Chip.checkRange, add_of_lt h, Memory.checkRange]
  by_cases hin : first + count ≤ Memory.size
  · simp [length_memory_raw, hin, Except.map, Except.mapError]
  · simp [length_memory_raw, hin, Nat.lt_of_not_le hin, Except.map, Except.mapError]

theorem read_raw (first count : Nat) (h : first + count < Move.pointerRange) :
    m.raw.read first count = .of ((m.memory.read first count).mapError .memory) := by
  rw [Chip.read, checkRange_raw m h]
  by_cases hin : first + count ≤ Memory.size
  · have hstop : first + count ≤ m.raw.memory.length := by rwa [length_memory_raw]
    rw [Memory.read_of_le _ hin, Memory.checkRange, if_pos hin]
    show (liftM (slice m.raw.memory first (first + count)) : Checked _) = _
    rw [slice_of_le (Nat.le_add_right first count) hstop]
    simp only [Checked.lift_some, List.drop_take, Nat.add_sub_cancel_left]
    simp [raw, Except.mapError]
    rfl
  · have hout := Nat.lt_of_not_le hin
    rw [Memory.read_of_lt _ hout, Memory.checkRange, if_neg hin]
    simp [Except.map, Except.mapError]

theorem write_raw (first : Nat) (data : List UInt8)
    (h : first + data.length < Move.pointerRange) :
    m.raw.write first data =
      .of (((m.memory.write first data).mapError .memory).map
        fun memory => { m with memory }.raw) := by
  rw [Chip.write, checkRange_raw m h]
  by_cases hin : first + data.length ≤ Memory.size
  · rw [Memory.write_of_le _ hin, Memory.checkRange, if_pos hin]
    simp [Except.map, Except.mapError, copy_memory_raw m hin]
    rfl
  · have hout := Nat.lt_of_not_le hin
    rw [Memory.write_of_lt _ hout, Memory.checkRange, if_neg hin]
    simp [Except.map, Except.mapError]

theorem fetch_raw : m.raw.fetch = .of m.fetch := by
  have hsize : m.memory.bytes.toArray.size = 4096 := m.memory.bytes.size_toArray
  have hpointer := m.programCounter.toNat_lt
  have hadd : add m.programCounter.toNat 1 = some (m.programCounter.toNat + 1) :=
    add_of_lt (lt_pointerRange (by omega))
  rw [Chip.fetch, fetch]
  by_cases hin : m.programCounter.toNat + 1 < 4096
  · rw [Memory.fetch_of_lt m.memory hin]
    simp [raw, hadd, hin, Nat.lt_of_succ_lt hin, Raw.get, Except.mapError]
  · rw [Memory.fetch, opcodeAt, dif_neg (by rwa [hsize])]
    simp [raw, hadd, hin, Except.mapError]

theorem push_raw (hdepth : m.stack.length ≤ stackCapacity) (address : UInt16) :
    m.raw.push address =
      .of (if m.stack.length = stackCapacity then .error (.stack .full)
        else .ok { m with stack := address :: m.stack }.raw) := by
  have hlength : m.raw.stack.length = m.stack.length := List.length_reverse
  rw [Chip.push, hlength]
  by_cases hfull : m.stack.length = stackCapacity
  · rw [if_pos hfull, if_pos hfull]
  · have hroom : m.raw.stack.length < stackCapacity := by omega
    rw [if_neg hfull, if_neg hfull, append_of_lt hroom]
    simp [raw]

theorem pop_raw :
    m.raw.pop = .of (m.popReturn.map fun (address, after, _) => (address, after.raw)) := by
  rw [Chip.pop, popReturn]
  cases hstack : m.stack with
  | nil => simp [raw, hstack, Except.map]
  | cons address stack => simp [raw, hstack, Except.map]

theorem target_of_lt {pointer : Nat} (h : pointer < 65536) (step : Move) :
    Chip.target pointer step = .of ((step.target pointer).mapError .memory) := by
  cases step with
  | stay => rfl
  | next =>
      have hlt : pointer + Opcode.size < Move.pointerRange :=
        lt_pointerRange (by rw [Opcode.size]; omega)
      rw [Chip.target, Move.target, add_of_lt hlt, Nat.mod_eq_of_lt hlt]
      rfl
  | skip =>
      have hlt : pointer + 2 * Opcode.size < Move.pointerRange :=
        lt_pointerRange (by rw [Opcode.size]; omega)
      rw [Chip.target, Move.target, mul_of_lt (by decide), Nat.mod_eq_of_lt hlt]
      simp [add_of_lt hlt, Except.mapError]
  | jump address =>
      rw [Chip.target, Move.target]
      split <;> rfl

theorem move_raw (step : Move) : m.raw.move step = .of ((m.move step).map raw) := by
  have hpointer : m.raw.programCounter.toNat < 65536 := m.programCounter.toNat_lt
  rw [Chip.move, target_of_lt hpointer, move]
  show Checked.of ((step.target m.programCounter.toNat).mapError .memory) >>= _ = _
  cases step.target m.programCounter.toNat <;> rfl

theorem isHeld_raw (key : Nat) : m.raw.isHeld key = .of (m.keypad.isHeld key) := by
  rw [Chip.isHeld, Keypad.isHeld]
  by_cases hkey : key < 16
  · simp [raw, hkey]
  · simp [raw, hkey]

theorem setKey_raw (key : Nat) (down : Bool) :
    m.raw.setKey key down = .of ((m.setKey key down).map raw) := by
  rw [Chip.setKey, setKey, Keypad.set, length_keys_raw]
  by_cases hkey : key < 16
  · simp [raw, hkey, Keypad.size, Except.map, Vector.toList_set]
  · simp [hkey, Keypad.size, Except.map]

theorem toggleKey_raw (key : Nat) : m.raw.toggleKey key = .of ((m.toggleKey key).map raw) := by
  rw [Chip.toggleKey, isHeld_raw, toggleKey, Keypad.toggle]
  cases m.keypad.isHeld key with
  | error fault => rfl
  | ok held => exact m.setKey_raw key !held

theorem setKeys_raw (keypad : Keypad) :
    m.raw.setKeys keypad.held.toList = .of (.ok { m with keypad }.raw) := by
  have hlength : keypad.held.toList.length = m.raw.keys.length := by
    rw [length_keys_raw, Vector.length_toList]
    rfl
  rw [Chip.setKeys, copy_of_le (Nat.le_refl _) (by rw [Nat.zero_add, hlength])]
  simp
  rfl

theorem resume_raw (key : Nat) :
    m.raw.resume key = .of ((m.resume key).outcome.map fun _ => (m.resume key).state.raw) := by
  rw [Chip.resume, resume]
  by_cases hkey : key < 16
  · have hkey' : key < Keypad.size := hkey
    rw [if_pos hkey', dif_pos hkey, receive]
    cases hwait : m.awaiting with
    | none => simp [raw, hwait, Except.map]
    | some x =>
        have hset := setRegister_raw { m with awaiting := none } x (UInt8.ofNat key)
        have hraw : m.raw.awaiting = some x.val := by simp [raw, hwait]
        rw [hraw]
        exact congrArg (fun c => (liftM c : Checked Chip)) hset
  · have hkey' : ¬ key < Keypad.size := hkey
    rw [if_neg hkey', dif_neg hkey]
    rfl

theorem reset_raw : m.raw.reset = .of (.ok m.reset.raw) := by
  have hclear : m.raw.memory.map (fun _ => 0) = { m with memory := m.memory.clear }.raw.memory :=
    Vector.toList_map.symm
  rw [Chip.reset, add_of_lt (by decide), hclear, Checked.lift_some, Checked.of_ok_bind,
    copy_memory_raw _ (by decide), Checked.lift_some, Checked.of_ok_bind]
  refine congrArg (fun c => Checked.of (.ok c)) (Chip.ext rfl ?_ rfl rfl rfl rfl rfl ?_ rfl ?_ rfl)
  · show List.replicate 16 0 = (m.registers.map fun _ => 0).toList
    rw [Vector.toList_map, List.map_const', Vector.length_toList]
  · exact m.display.pixels_clear.symm
  · show List.replicate 16 false = (m.keypad.held.map fun _ => false).toList
    rw [Vector.toList_map, List.map_const', Vector.length_toList]

theorem load_raw (program : List UInt8) :
    m.raw.load program =
      .of ((m.load program).outcome.map fun _ => (m.load program).state.raw) := by
  rw [Chip.load, load]
  by_cases hfit : program.length ≤ Memory.programCapacity
  · have hin : Memory.programStart + program.length ≤ Memory.size := by
      have hstart : Memory.programStart ≤ Memory.size := by decide
      rw [Memory.programCapacity] at hfit
      omega
    rw [if_neg (Nat.not_lt.mpr hfit), if_pos hfit,
      add_of_lt (Nat.lt_of_le_of_lt hin (by decide)), Checked.lift_some, Checked.of_ok_bind,
      copy_memory_raw m hin]
    rfl
  · rw [if_pos (Nat.lt_of_not_le hfit), if_neg hfit]
    rfl

/-- A request on the layout of a machine does not abort and comes to the layout of what the request
on the machine comes to. -/
theorem handle_raw (r : Request) :
    m.raw.handle r = .of ((m.handle r).outcome.map fun _ => (m.handle r).state.raw) := by
  cases r with
  | tick | clearRedraw => rfl
  | setKeypad keypad => exact m.setKeys_raw keypad
  | setKey key down =>
      refine (m.setKey_raw key down).trans ?_
      rw [handle]
      cases m.setKey key down <;> rfl
  | toggleKey key =>
      refine (m.toggleKey_raw key).trans ?_
      rw [handle]
      cases m.toggleKey key <;> rfl
  | resume key => exact m.resume_raw key
  | reset => exact m.reset_raw
  | load program => exact m.load_raw program
  | move step =>
      refine (m.move_raw step).trans ?_
      rw [handle]
      cases m.move step <;> rfl

end Machine

end Chip8
