import Chip8.Proofs.Periphery

/-!
The face of a machine: the sound timer and the mark that the display has changed.

Whoever drives the machine reads the face; programs only write it. So an instruction does the same
whatever the face is: `Processor.effect_reface` goes through the instructions once, and
`Processor.step_reface` says it of a step.
-/

namespace Chip8

namespace Machine

/-- The machine with another face. -/
def reface (m : Machine) (sound : Countdown) (redraw : Bool) : Machine :=
  { m with sound, redraw }

variable (m : Machine) (sound : Countdown) (redraw : Bool)

theorem store_reface (data : List UInt8) :
    (m.reface sound redraw).store data = (m.store data).map (·.reface sound redraw) := by
  simp only [store, reface]
  cases m.memory.write m.index.toNat data <;> rfl

theorem loadRegisters_reface (x : Register) :
    (m.reface sound redraw).loadRegisters x =
      (m.loadRegisters x).map (·.reface sound redraw) := by
  simp only [loadRegisters, reface]
  cases m.memory.read m.index.toNat (x.val + 1) <;> rfl

/-- Drawing sets the mark. -/
theorem draw_reface (x y : Register) (height : Nibble) :
    (m.reface sound redraw).draw x y height =
      (m.draw x y height).map (·.reface sound true) := by
  simp only [draw, reface]
  cases m.memory.read m.index.toNat height.val <;> rfl

theorem pushReturn_reface :
    (m.reface sound redraw).pushReturn =
      m.pushReturn.map fun (after, events) => (after.reface sound redraw, events) := by
  by_cases hbehind : Memory.size ≤ m.programCounter.toNat + Opcode.size
  · simp [pushReturn, reface, hbehind, Except.map]
  · by_cases hfull : m.stack.length = stackCapacity
    · simp [pushReturn, reface, hbehind, hfull, Except.map]
    · simp [pushReturn, reface, hbehind, hfull, Except.map]

theorem popReturn_reface :
    (m.reface sound redraw).popReturn =
      m.popReturn.map fun (address, after, events) =>
        (address, after.reface sound redraw, events) := by
  simp only [popReturn, reface]
  cases m.stack <;> rfl

theorem binary_reface (op : BinaryOp) (x y : Register) :
    (m.reface sound redraw).binary op x y = (m.binary op x y).reface sound redraw := by
  cases op <;> rfl

theorem move_reface (move : Move) :
    (m.reface sound redraw).move move = (m.move move).map (·.reface sound redraw) := by
  simp only [Machine.move, reface]
  cases move.target m.programCounter.toNat <;> rfl

end Machine

namespace Processor

def reface (p : Processor) (sound : Countdown) (redraw : Bool) : Processor :=
  p.withMachine (p.machine.reface sound redraw)

end Processor

def Effect.reface (e : Effect) (sound : Countdown) (redraw : Bool) : Effect :=
  { e with processor := e.processor.reface sound redraw }

namespace Processor

open Machine

variable (p : Processor) (sound : Countdown) (redraw : Bool)

theorem unaryEffect_reface (op : UnaryOp) (x : Register) :
    (p.reface sound redraw).unaryEffect x op =
      (p.unaryEffect x op).map fun e =>
        e.reface (if (Instruction.unary op x).setsSound then e.processor.machine.sound else sound)
          redraw := by
  cases op with
  | pointAtGlyph =>
      show (if (p.machine.register x).toNat < 16 then _ else _) = _
      rw [unaryEffect]
      split <;> rfl
  | storeDecimal =>
      let digits := decimalDigits (p.machine.register x)
      refine (congrArg (Except.map _) (p.machine.store_reface sound redraw digits)).trans ?_
      rw [unaryEffect]
      cases p.machine.store digits <;> rfl
  | storeRegisters =>
      let data := p.machine.registers.toList.take (x.val + 1)
      refine (congrArg (Except.map _) (p.machine.store_reface sound redraw data)).trans ?_
      rw [unaryEffect]
      cases p.machine.store data <;> rfl
  | loadRegisters =>
      refine (congrArg (Except.map _) (p.machine.loadRegisters_reface sound redraw x)).trans ?_
      rw [unaryEffect]
      cases p.machine.loadRegisters x <;> rfl
  | _ => rfl

/-- An instruction does the same under another face; it leaves the sound timer unless it sets it,
and the mark unless it draws. -/
theorem effect_reface (i : Instruction) :
    (p.reface sound redraw).effect i =
      (p.effect i).map fun e =>
        e.reface (if i.setsSound then e.processor.machine.sound else sound)
          (i.draws || redraw) := by
  cases i with
  | clearDisplay =>
      rfl
  | leave =>
      refine (congrArg (Except.map _) (p.machine.popReturn_reface sound redraw)).trans ?_
      rw [effect]
      cases p.machine.popReturn <;> rfl
  | call address =>
      refine (congrArg (Except.map _) (p.machine.pushReturn_reface sound redraw)).trans ?_
      rw [effect]
      cases p.machine.pushReturn <;> rfl
  | binary op x y =>
      exact congrArg (fun m => Except.ok (Effect.mk (p.withMachine m) .next .proceed []))
        (p.machine.binary_reface sound redraw op x y)
  | draw x y height =>
      refine (congrArg (Except.map _) (p.machine.draw_reface sound redraw x y height)).trans ?_
      rw [effect]
      cases p.machine.draw x y height <;> rfl
  | skipOnKey test x =>
      show (p.machine.keypad.isHeld (p.machine.register x).toNat).map _ = _
      rw [effect]
      cases p.machine.keypad.isHeld (p.machine.register x).toNat <;> rfl
  | unary op x =>
      exact unaryEffect_reface p sound redraw op x
  | _ =>
      rfl

theorem sound_reface_of_effect {i : Instruction} {e : Effect} {sound : Countdown}
    (heffect : p.effect i = .ok e) (hsame : sound = p.machine.sound) :
    (if i.setsSound then e.processor.machine.sound else sound) = e.processor.machine.sound := by
  cases hsets : i.setsSound with
  | true => rfl
  | false => exact hsame.trans ((periphery_of_effect heffect).sound hsets).symm

/-- An execution takes the same course under another face. -/
theorem execute_reface (i : Instruction) :
    ∃ sound' redraw', (p.reface sound redraw).execute i =
        { p.execute i with state := (p.execute i).state.reface sound' redraw' } ∧
      (sound = p.machine.sound → sound' = (p.execute i).state.machine.sound) := by
  have hrefaced := p.effect_reface sound redraw i
  cases p.executeCase i with
  | refused fault heffect hexecute =>
      rw [heffect] at hrefaced
      refine ⟨sound, redraw, ?_, ?_⟩
      · rw [hexecute, execute, hrefaced]
        rfl
      · rw [hexecute]
        exact id
  | astray e fault heffect hmove hexecute =>
      rw [heffect] at hrefaced
      let sound' := if i.setsSound then e.processor.machine.sound else sound
      have hmoved := e.processor.machine.move_reface sound' (i.draws || redraw) e.move
      rw [hmove] at hmoved
      refine ⟨sound', i.draws || redraw, ?_, ?_⟩
      · rw [execute_of_move_eq_error hrefaced hmoved, hexecute]
        rfl
      · rw [hexecute]
        exact p.sound_reface_of_effect heffect
  | done e machine heffect hmove hexecute =>
      rw [heffect] at hrefaced
      let sound' := if i.setsSound then e.processor.machine.sound else sound
      have hmoved := e.processor.machine.move_reface sound' (i.draws || redraw) e.move
      rw [hmove] at hmoved
      obtain ⟨target, -, rfl⟩ := of_move_eq_ok hmove
      refine ⟨sound', i.draws || redraw, ?_, ?_⟩
      · rw [execute_of_move_eq_ok hrefaced hmoved, hexecute]
        rfl
      · rw [hexecute]
        exact p.sound_reface_of_effect heffect

/-- A step takes the same course under another face: it comes to the same outcome, reports the same
and leaves a processor that differs in the face at most. -/
theorem step_reface :
    ∃ sound' redraw', (p.reface sound redraw).step =
        { p.step with state := p.step.state.reface sound' redraw' } ∧
      (sound = p.machine.sound → sound' = p.step.state.machine.sound) := by
  cases p.stepCase with
  | waiting hwait hstep =>
      obtain ⟨x, hx⟩ := Option.ne_none_iff_exists'.mp hwait
      refine ⟨sound, redraw, ?_, ?_⟩
      · rw [step_of_awaiting (p := p.reface sound redraw) hx, hstep]
      · rw [hstep]
        exact id
  | unreadable fault hwait hcurrent hstep =>
      refine ⟨sound, redraw, ?_, ?_⟩
      · rw [step_of_current_error (p := p.reface sound redraw) hwait hcurrent, hstep]
      · rw [hstep]
        exact id
  | executes opcode i hi hfetch hstep =>
      obtain ⟨opcode', hfetch', hrefaced⟩ := step_of_executes (p := p.reface sound redraw) hi
      cases hfetch.symm.trans hfetch'
      obtain ⟨sound', redraw', hexecute, hsound⟩ := p.execute_reface sound redraw i
      refine ⟨sound', redraw', ?_, ?_⟩
      · rw [hrefaced, hexecute, hstep]
        rfl
      · rw [hstep]
        exact hsound

end Processor

end Chip8
