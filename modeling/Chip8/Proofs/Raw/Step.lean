import Chip8.Proofs.Raw.Decode
import Chip8.Proofs.Raw.Drawing
import Chip8.Proofs.CallStack

/-!
Steps on plain lists.

`Raw.Chip.step` is the step of a processor on the layout of its machine: every register, range and
pixel is looked up with a check, sums are checked, and a call needs room on the stack. As long as
the stack of the machine is bounded it never aborts, and it does what `Processor.step` does:
`Processor.step_raw`.
-/

namespace Chip8

namespace Raw

/-- What an instruction does before the program counter moves. -/
structure Effect where
  chip : Chip
  tape : RandomTape
  move : Move := .next
  signal : Signal := .proceed

/-- What a step comes to. -/
structure Stepped where
  outcome : Except Fault Signal
  chip : Chip
  tape : RandomTape

namespace Chip

def binary (c : Chip) (op : BinaryOp) (x y : Nat) : Option Chip := do
  let left ← c.register x
  let right ← c.register y
  let (result, flag) := op.apply left right
  let changed ← c.setRegister x result
  match flag with
  | some flag => changed.setRegister Machine.flagRegister.val flag
  | none => return changed

/-- Opens a call: the address behind the call goes on the stack. -/
def pushReturn (c : Chip) : Checked Chip := do
  let address ← target c.programCounter.toNat .next
  if Memory.size ≤ address then
    .of (.error (.memory (.outOfBounds address Memory.size)))
  else
    c.push (UInt16.ofNat address)

def storeRegisters (c : Chip) (x : Nat) : Checked Chip := do
  let stop ← add x 1
  let data ← slice c.registers 0 stop
  c.write c.index.toNat data

def loadRegisters (c : Chip) (x : Nat) : Checked Chip := do
  let buffer := List.replicate Machine.registerCount 0
  let stop ← add x 1
  -- The place of the data is taken before the data are read.
  let _ ← slice buffer 0 stop
  let data ← c.read c.index.toNat stop
  let buffer ← copy buffer 0 stop data
  let values ← slice buffer 0 stop
  let registers ← copy c.registers 0 stop values
  return { c with registers }

/-- Points the index register at a glyph of the font. -/
def pointAtGlyph (c : Chip) (digit : UInt8) : Checked Chip := do
  if 0xF < digit then
    .of (.error (.opcode (.noGlyph digit)))
  else
    let distance ← mul Font.glyphHeight digit.toNat
    let glyph ← add Font.base distance
    return { c with index := UInt16.ofNat glyph }

def unary (c : Chip) (op : UnaryOp) (x : Nat) : Checked Chip := do
  let value ← c.register x
  match op with
  | .readDelay => c.setRegister x c.delay.value
  | .awaitKey => return { c with awaiting := some x }
  | .setDelay => return { c with delay := ⟨value⟩ }
  | .setSound => return { c with sound := ⟨value⟩ }
  | .addToIndex => return { c with index := c.index + value.toUInt16 }
  | .pointAtGlyph => c.pointAtGlyph value
  | .storeDecimal => c.write c.index.toNat (decimalDigits value)
  | .storeRegisters => c.storeRegisters x
  | .loadRegisters => c.loadRegisters x

def effect (c : Chip) (tape : RandomTape) : Instruction → Checked Effect
  | .clearDisplay =>
    return { chip := { c with display := c.display.map fun _ => false, redraw := true }, tape,
             signal := .draw }
  | .leave => do
    let (address, popped) ← c.pop
    return { chip := popped, tape, move := .jump address.toNat }
  | .hostRoutine _ => return { chip := c, tape }
  | .jump address => return { chip := c, tape, move := .jump address.val }
  | .call address => do
    let pushed ← c.pushReturn
    return { chip := pushed, tape, move := .jump address.val }
  | .skipIfByte x byte => do
    let value ← c.register x.val
    return { chip := c, tape, move := .skipIf (value == byte) }
  | .skipUnlessByte x byte => do
    let value ← c.register x.val
    return { chip := c, tape, move := .skipIf (value != byte) }
  | .skipIfSame x y => do
    let left ← c.register x.val
    let right ← c.register y.val
    return { chip := c, tape, move := .skipIf (left == right) }
  | .loadByte x byte => do
    let chip ← c.setRegister x.val byte
    return { chip, tape }
  | .addByte x byte => do
    let value ← c.register x.val
    let chip ← c.setRegister x.val (value + byte)
    return { chip, tape }
  | .binary op x y => do
    let chip ← c.binary op x.val y.val
    return { chip, tape }
  | .skipUnlessSame x y => do
    let left ← c.register x.val
    let right ← c.register y.val
    return { chip := c, tape, move := .skipIf (left != right) }
  | .loadIndex address => return { chip := { c with index := UInt16.ofNat address.val }, tape }
  | .jumpOffset address => do
    let offset ← c.register Machine.offsetRegister.val
    let target ← add offset.toNat address.val
    return { chip := c, tape, move := .jump target }
  | .random x mask => do
    let chip ← c.setRegister x.val (mask &&& tape.current)
    return { chip, tape := tape.advance }
  | .draw x y height => do
    let chip ← c.draw x.val y.val height.val
    return { chip, tape, signal := .draw }
  | .skipOnKey test x => do
    let key ← c.register x.val
    let held ← c.isHeld key.toNat
    return { chip := c, tape, move := .skipIf (held == (test = .held)) }
  | .unary op x => do
    let chip ← c.unary op x.val
    return { chip, tape, signal := if op = .awaitKey then .wait else .proceed }

/-- Executes an instruction: its effect, then the move of the program counter. -/
def execute (c : Chip) (tape : RandomTape) (instruction : Instruction) : Option Stepped := do
  match ← (c.effect tape instruction).result with
  | .error fault => return ⟨.error fault, c, tape⟩
  | .ok effect =>
    match ← (effect.chip.move effect.move).result with
    | .error fault => return ⟨.error fault, effect.chip, effect.tape⟩
    | .ok chip => return ⟨.ok effect.signal, chip, effect.tape⟩

/-- Executes the instruction under the program counter, unless the program waits for a key. -/
def step (c : Chip) (tape : RandomTape) : Option Stepped := do
  if c.awaiting.isSome then
    return ⟨.ok .wait, c, tape⟩
  else
    match ← c.fetch.result with
    | .error fault => return ⟨.error fault, c, tape⟩
    | .ok opcode =>
      match ← (decode opcode).result with
      | .error fault => return ⟨.error fault, c, tape⟩
      | .ok instruction => c.execute tape instruction

end Chip

end Raw

namespace Machine

open Raw

variable (m : Machine)

theorem binary_raw (op : BinaryOp) (x y : Register) :
    m.raw.binary op x.val y.val = some (m.binary op x y).raw := by
  rw [Chip.binary, register_raw, register_raw, binary]
  simp only [Option.bind_eq_bind, Option.bind_some]
  obtain ⟨result, flag⟩ := op.apply (m.register x) (m.register y)
  cases flag with
  | none => simp
  | some flag => simp

theorem pushReturn_raw (hdepth : m.stack.length ≤ stackCapacity) :
    m.raw.pushReturn = .of (m.pushReturn.map fun (after, _) => after.raw) := by
  have hpointer : m.programCounter.toNat < 65536 := m.programCounter.toNat_lt
  have htarget : Chip.target m.raw.programCounter.toNat .next =
      .of (.ok (m.programCounter.toNat + Opcode.size)) := by
    have hlt : m.programCounter.toNat + Opcode.size < Move.pointerRange :=
      lt_pointerRange (by rw [Opcode.size]; omega)
    refine (target_of_lt hpointer .next).trans ?_
    rw [Move.target, Nat.mod_eq_of_lt hlt]
    rfl
  rw [Chip.pushReturn, htarget, Checked.of_ok_bind, pushReturn]
  by_cases hbehind : Memory.size ≤ m.programCounter.toNat + Opcode.size
  · rw [if_pos hbehind, if_pos hbehind]
    rfl
  · rw [if_neg hbehind, if_neg hbehind, push_raw m hdepth]
    by_cases hfull : m.stack.length = stackCapacity
    · rw [if_pos hfull, if_pos hfull]
      rfl
    · rw [if_neg hfull, if_neg hfull]
      rfl

theorem store_raw {data : List UInt8} (hlength : data.length ≤ 16) :
    m.raw.write m.raw.index.toNat data = .of ((m.store data).map raw) := by
  have hindex := m.index.toNat_lt
  have hwrite := m.write_raw m.index.toNat data (lt_pointerRange (by omega))
  refine hwrite.trans ?_
  rw [store]
  cases m.memory.write m.index.toNat data <;> rfl

theorem storeRegisters_raw (x : Register) :
    m.raw.storeRegisters x.val =
      .of ((m.store (m.registers.toList.take (x.val + 1))).map raw) := by
  have hx := x.isLt
  have hstop : x.val + 1 ≤ m.raw.registers.length := by
    rw [length_registers_raw]
    exact x.isLt
  rw [Chip.storeRegisters, add_of_lt (lt_pointerRange (by omega)), Checked.lift_some,
    Checked.of_ok_bind, slice_of_le (Nat.zero_le _) hstop, Checked.lift_some, Checked.of_ok_bind,
    List.drop_zero]
  refine m.store_raw ?_
  rw [List.length_take]
  omega

/-- Data in place of the first registers, and the others as they were. -/
theorem append_drop_registers {data : List UInt8} (hlength : data.length ≤ 16) :
    data ++ m.registers.toList.drop data.length =
      (Vector.ofFn fun k : Register => data.getD k.val (m.register k)).toList := by
  apply List.ext_getElem
  · simp
    omega
  · intro i _ hi
    have hi' : i < 16 := by simpa using hi
    by_cases hdata : i < data.length
    · simp [hdata, List.getD]
    · simp [List.getElem_append_right (Nat.le_of_not_lt hdata), List.getD, hdata, register,
        Vector.get, Nat.add_sub_cancel' (Nat.le_of_not_lt hdata)]

theorem loadRegisters_raw (x : Register) :
    m.raw.loadRegisters x.val = .of ((m.loadRegisters x).map raw) := by
  have hx := x.isLt
  have hindex := m.index.toNat_lt
  have hbuffer : (List.replicate registerCount (0 : UInt8)).length = 16 := List.length_replicate
  have hread := m.read_raw m.index.toNat (x.val + 1) (lt_pointerRange (by omega))
  rw [Chip.loadRegisters, add_of_lt (lt_pointerRange (by omega)), Checked.lift_some,
    Checked.of_ok_bind, slice_of_le (Nat.zero_le _) (by omega), Checked.lift_some,
    Checked.of_ok_bind]
  show m.raw.read m.index.toNat (x.val + 1) >>= _ = _
  rw [hread, loadRegisters]
  cases hdata : m.memory.read m.index.toNat (x.val + 1) with
  | error fault => rfl
  | ok data =>
      have hlength := (Memory.of_read_eq_ok hdata).1
      have hfits : data.length ≤ (List.replicate registerCount (0 : UInt8)).length := by omega
      have hregisters : data.length ≤ m.raw.registers.length := by
        rw [length_registers_raw, registerCount]
        omega
      rw [← hlength]
      simp only [Except.mapError, Checked.of_ok_bind, copy_zero hfits, copy_zero hregisters,
        Checked.lift_some, slice_append]
      show Checked.of (.ok { m.raw with
        registers := data ++ m.registers.toList.drop data.length }) = _
      rw [m.append_drop_registers (by omega)]
      rfl

theorem pointAtGlyph_raw (digit : UInt8) :
    m.raw.pointAtGlyph digit =
      .of (if digit.toNat < 16 then
          .ok { m with index := UInt16.ofNat (Font.glyphAddress digit.toNat) }.raw
        else .error (.opcode (.noGlyph digit))) := by
  have hdigit : 0xF < digit ↔ ¬ digit.toNat < 16 := by
    rw [UInt8.lt_iff_toNat_lt]
    exact Nat.not_lt.symm
  have hbyte := digit.toNat_lt
  rw [Chip.pointAtGlyph]
  by_cases hlt : digit.toNat < 16
  · have hmul : mul Font.glyphHeight digit.toNat = some (Font.glyphHeight * digit.toNat) :=
      mul_of_lt (lt_pointerRange (by rw [Font.glyphHeight]; omega))
    have hadd : add Font.base (Font.glyphHeight * digit.toNat) =
        some (Font.glyphAddress digit.toNat) :=
      add_of_lt (lt_pointerRange (by rw [Font.glyphHeight, Font.base]; omega))
    rw [if_neg (not_not.mpr hlt ∘ hdigit.mp), if_pos hlt, hmul, Checked.lift_some,
      Checked.of_ok_bind, hadd]
    rfl
  · rw [if_pos (hdigit.mpr hlt), if_neg hlt]

end Machine

/-- The effect of an instruction on the layout of a machine. -/
def Effect.raw (e : Effect) : Raw.Effect where
  chip := e.processor.machine.raw
  tape := e.processor.tape
  move := e.move
  signal := e.signal

/-- What a step comes to, on the layout of the machine that it leaves. -/
def Report.raw (r : Report Processor Signal) : Raw.Stepped where
  outcome := r.outcome
  chip := r.state.machine.raw
  tape := r.state.tape

namespace Processor

open Raw

variable (p : Processor)

theorem unary_raw (op : UnaryOp) (x : Register) :
    (do let chip ← p.machine.raw.unary op x.val
        return { chip, tape := p.tape, signal := if op = .awaitKey then .wait else .proceed } :
      Checked Raw.Effect) = .of ((p.unaryEffect x op).map Effect.raw) := by
  rw [Chip.unary, Machine.register_raw, Checked.lift_some, Checked.of_ok_bind]
  cases op with
  | readDelay =>
      show (liftM (p.machine.raw.setRegister x.val p.machine.delay.value) : Checked Chip) >>= _ = _
      rw [Machine.setRegister_raw]
      rfl
  | pointAtGlyph =>
      show p.machine.raw.pointAtGlyph (p.machine.register x) >>= _ = _
      rw [Machine.pointAtGlyph_raw, unaryEffect]
      split <;> rfl
  | storeDecimal =>
      show p.machine.raw.write p.machine.raw.index.toNat _ >>= _ = _
      rw [p.machine.store_raw (by simp [decimalDigits]), unaryEffect]
      cases p.machine.store (decimalDigits (p.machine.register x)) <;> rfl
  | storeRegisters =>
      show p.machine.raw.storeRegisters x.val >>= _ = _
      rw [p.machine.storeRegisters_raw, unaryEffect]
      cases p.machine.store (p.machine.registers.toList.take (x.val + 1)) <;> rfl
  | loadRegisters =>
      show p.machine.raw.loadRegisters x.val >>= _ = _
      rw [p.machine.loadRegisters_raw, unaryEffect]
      cases p.machine.loadRegisters x <;> rfl
  | awaitKey | setDelay | setSound | addToIndex => rfl

/-- The effect of an instruction on the layout of a machine does not abort, and it is the layout of
the effect on the machine. -/
theorem effect_raw (hdepth : p.machine.stack.length ≤ Machine.stackCapacity) (i : Instruction) :
    p.machine.raw.effect p.tape i = .of ((p.effect i).map Effect.raw) := by
  cases i with
  | clearDisplay =>
      have hclear : p.machine.raw.display.map (fun _ => false) = p.machine.display.clear.pixels :=
        p.machine.display.pixels_clear.symm
      rw [Chip.effect, hclear]
      rfl
  | leave =>
      rw [Chip.effect, Machine.pop_raw, effect]
      cases p.machine.popReturn <;> rfl
  | call address =>
      rw [Chip.effect, p.machine.pushReturn_raw hdepth, effect]
      cases p.machine.pushReturn <;> rfl
  | binary op x y =>
      rw [Chip.effect, Machine.binary_raw]
      rfl
  | draw x y height =>
      rw [Chip.effect, Machine.draw_raw, effect]
      cases p.machine.draw x y height <;> rfl
  | skipOnKey test x =>
      rw [Chip.effect, Machine.register_raw, Checked.lift_some, Checked.of_ok_bind,
        Machine.isHeld_raw, effect]
      cases p.machine.keypad.isHeld (p.machine.register x).toNat <;> rfl
  | jumpOffset address =>
      have haddress := address.isLt
      have hoffset := (p.machine.register Machine.offsetRegister).toNat_lt
      rw [Chip.effect, Machine.register_raw, Checked.lift_some, Checked.of_ok_bind,
        add_of_lt (lt_pointerRange (by omega))]
      rfl
  | unary op x => exact p.unary_raw op x
  | hostRoutine | jump | loadIndex => rfl
  | skipIfByte x byte | skipUnlessByte x byte =>
      rw [Chip.effect, Machine.register_raw]
      rfl
  | skipIfSame x y | skipUnlessSame x y =>
      rw [Chip.effect, Machine.register_raw, Machine.register_raw]
      rfl
  | loadByte x byte | random x byte =>
      rw [Chip.effect, Machine.setRegister_raw]
      rfl
  | addByte x byte =>
      rw [Chip.effect, Machine.register_raw, Checked.lift_some, Checked.of_ok_bind,
        Machine.setRegister_raw]
      rfl

theorem execute_raw (hdepth : p.machine.stack.length ≤ Machine.stackCapacity) (i : Instruction) :
    p.machine.raw.execute p.tape i = some (p.execute i).raw := by
  rw [Chip.execute, p.effect_raw hdepth]
  cases p.executeCase i with
  | refused fault heffect hexecute =>
      rw [hexecute, heffect]
      rfl
  | astray e fault heffect hmove hexecute =>
      have hmoved := e.processor.machine.move_raw e.move
      rw [hmove] at hmoved
      rw [hexecute, heffect]
      show (e.processor.machine.raw.move e.move).result >>= _ = _
      rw [hmoved]
      rfl
  | done e machine heffect hmove hexecute =>
      have hmoved := e.processor.machine.move_raw e.move
      rw [hmove] at hmoved
      rw [hexecute, heffect]
      show (e.processor.machine.raw.move e.move).result >>= _ = _
      rw [hmoved]
      rfl

/-- A step on the layout of a machine with a bounded stack does not abort, and it does what the step
of the processor does. -/
theorem step_raw (hdepth : p.machine.stack.length ≤ Machine.stackCapacity) :
    p.machine.raw.step p.tape = some p.step.raw := by
  cases hwait : p.machine.awaiting with
  | some x =>
      have hraw : p.machine.raw.awaiting.isSome = true := by simp [Machine.raw, hwait]
      rw [Chip.step, if_pos hraw, step_of_awaiting hwait]
      rfl
  | none =>
      have hraw : ¬ p.machine.raw.awaiting.isSome = true := by simp [Machine.raw, hwait]
      rw [Chip.step, if_neg hraw, Machine.fetch_raw]
      cases hfetch : p.machine.fetch with
      | error fault =>
          rw [step_of_current_error hwait (by rw [Machine.current, hfetch])]
          rfl
      | ok opcode =>
          cases hdecode : decode opcode with
          | error fault =>
              have hcurrent : p.machine.current = .error (.opcode fault) := by
                rw [Machine.current, hfetch]
                exact congrArg (Except.mapError Fault.opcode) hdecode
              rw [step_of_current_error hwait hcurrent]
              simp only [Checked.of, Option.bind_eq_bind, Option.bind_some, decode_eq, hdecode]
              rfl
          | ok i =>
              rw [step_of_fetch hwait hfetch hdecode]
              simp only [Checked.of, Option.bind_eq_bind, Option.bind_some, decode_eq, hdecode]
              exact p.execute_raw hdepth i

end Processor

end Chip8
