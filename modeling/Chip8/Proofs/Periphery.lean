import Chip8.Proofs.Step

/-!
What instructions do to the parts around the program: the keypad, the timers and the wait for a key.

`Processor.Periphery` states it for an effect, together with the signal, and
`Processor.periphery_of_effect` goes through the instructions once. A step signals a wait exactly if
the program waits after it: `Processor.step_wait_iff`.
-/

namespace Chip8

namespace Instruction

/-- The register for which an instruction makes the program wait. -/
def awaits? : Instruction → Option Register
  | .unary .awaitKey x => some x
  | _ => none

def setsDelay : Instruction → Bool
  | .unary .setDelay _ => true
  | _ => false

def setsSound : Instruction → Bool
  | .unary .setSound _ => true
  | _ => false

/-- What the execution of an instruction signals. -/
def signal : Instruction → Signal
  | .clearDisplay | .draw _ _ _ => .draw
  | .unary .awaitKey _ => .wait
  | _ => .proceed

theorem signal_eq_wait_iff (i : Instruction) : i.signal = .wait ↔ i.awaits? ≠ none := by
  cases i with
  | unary op x => cases op <;> simp [signal, awaits?]
  | _ => simp [signal, awaits?]

end Instruction

namespace Processor

open Machine

/-- What an instruction does around the program before the program counter moves, and what it
signals. -/
structure Periphery (i : Instruction) (p : Processor) (e : Effect) : Prop where
  keypad : e.processor.machine.keypad = p.machine.keypad
  awaiting : e.processor.machine.awaiting = i.awaits?.or p.machine.awaiting
  delay : i.setsDelay = false → e.processor.machine.delay = p.machine.delay
  sound : i.setsSound = false → e.processor.machine.sound = p.machine.sound
  signal : e.signal = i.signal

variable {p : Processor} {i : Instruction} {e : Effect}

theorem periphery_of_unaryEffect {op : UnaryOp} {x : Register} (h : p.unaryEffect x op = .ok e) :
    Periphery (.unary op x) p e := by
  cases op with
  | setDelay =>
      cases h
      exact ⟨rfl, rfl, nofun, fun _ => rfl, rfl⟩
  | setSound =>
      cases h
      exact ⟨rfl, rfl, fun _ => rfl, nofun, rfl⟩
  | pointAtGlyph =>
      rw [unaryEffect] at h
      split at h
      · cases h
        exact ⟨rfl, rfl, fun _ => rfl, fun _ => rfl, rfl⟩
      · cases h
  | storeDecimal | storeRegisters =>
      obtain ⟨after, hstore, rfl⟩ := exists_of_map_eq_ok h
      obtain ⟨memory, -, rfl⟩ := of_store_eq_ok hstore
      exact ⟨rfl, rfl, fun _ => rfl, fun _ => rfl, rfl⟩
  | loadRegisters =>
      obtain ⟨after, hload, rfl⟩ := exists_of_map_eq_ok h
      obtain ⟨registers, rfl⟩ := of_loadRegisters_eq_ok hload
      exact ⟨rfl, rfl, fun _ => rfl, fun _ => rfl, rfl⟩
  | _ =>
      cases h
      exact ⟨rfl, rfl, fun _ => rfl, fun _ => rfl, rfl⟩

/-- No instruction touches the keypad, and only the three that are named for it set a timer or make
the program wait. -/
theorem periphery_of_effect (h : p.effect i = .ok e) : Periphery i p e := by
  cases i with
  | leave =>
      obtain ⟨⟨address, after, events⟩, hpop, rfl⟩ := exists_of_map_eq_ok h
      obtain ⟨-, hafter, -⟩ := of_popReturn_eq_ok hpop
      rw [hafter]
      exact ⟨rfl, rfl, fun _ => rfl, fun _ => rfl, rfl⟩
  | call address =>
      obtain ⟨⟨after, events⟩, hpush, rfl⟩ := exists_of_map_eq_ok h
      obtain ⟨-, -, rfl, -⟩ := of_pushReturn_eq_ok hpush
      exact ⟨rfl, rfl, fun _ => rfl, fun _ => rfl, rfl⟩
  | binary op x y =>
      cases h
      simp only [Machine.binary]
      split <;> exact ⟨rfl, rfl, fun _ => rfl, fun _ => rfl, rfl⟩
  | draw x y height =>
      obtain ⟨after, hdraw, rfl⟩ := exists_of_map_eq_ok h
      obtain ⟨sprite, -, rfl⟩ := of_draw_eq_ok hdraw
      exact ⟨rfl, rfl, fun _ => rfl, fun _ => rfl, rfl⟩
  | skipOnKey test x =>
      obtain ⟨held, -, rfl⟩ := exists_of_map_eq_ok h
      exact ⟨rfl, rfl, fun _ => rfl, fun _ => rfl, rfl⟩
  | unary op x => exact periphery_of_unaryEffect h
  | _ =>
      cases h
      exact ⟨rfl, rfl, fun _ => rfl, fun _ => rfl, rfl⟩

/-- An instruction whose jump leaves the memory does not make the program wait. -/
theorem awaits?_of_jump {target : Nat} (h : p.effect i = .ok e) (hmove : e.move = .jump target) :
    i.awaits? = none := by
  cases i with
  | unary op x =>
      rw [move_of_unaryEffect h] at hmove
      cases hmove
  | _ => rfl

theorem keypad_execute (p : Processor) (i : Instruction) :
    (p.execute i).state.machine.keypad = p.machine.keypad := by
  cases p.executeCase i with
  | refused _ _ hexecute => rw [hexecute]
  | astray e _ heffect _ hexecute =>
      rw [hexecute]
      exact (periphery_of_effect heffect).keypad
  | done e machine heffect hmove hexecute =>
      rw [hexecute]
      obtain ⟨target, -, rfl⟩ := of_move_eq_ok hmove
      exact (periphery_of_effect heffect).keypad

theorem keypad_step (p : Processor) : p.step.state.machine.keypad = p.machine.keypad := by
  cases p.stepCase with
  | waiting _ hstep | unreadable _ _ _ hstep => rw [hstep]
  | executes opcode i _ _ hstep =>
      rw [hstep]
      exact keypad_execute p i

/-- A step signals a wait exactly if the program waits after it. -/
theorem step_wait_iff (p : Processor) :
    p.step.outcome = .ok .wait ↔ p.step.state.machine.awaiting ≠ none := by
  cases p.stepCase with
  | waiting hwait hstep =>
      rw [hstep]
      exact iff_of_true rfl hwait
  | unreadable fault hwait _ hstep =>
      rw [hstep]
      exact iff_of_false nofun fun h => h hwait
  | executes opcode i hi _ hstep =>
      rw [hstep]
      cases p.executeCase i with
      | refused fault _ hexecute =>
          rw [hexecute]
          exact iff_of_false nofun fun h => h hi.1
      | astray e fault heffect hmove hexecute =>
          rw [hexecute]
          -- What fails behind its effect is a jump, and no jump waits.
          obtain ⟨target, hjump, -⟩ := of_move_eq_error hmove
          have hawaiting := (periphery_of_effect heffect).awaiting
          rw [awaits?_of_jump heffect hjump, hi.1] at hawaiting
          exact iff_of_false nofun fun h => h hawaiting
      | done e machine heffect hmove hexecute =>
          rw [hexecute]
          obtain ⟨target, -, rfl⟩ := of_move_eq_ok hmove
          obtain ⟨-, hawaiting, -, -, hsignal⟩ := periphery_of_effect heffect
          rw [hi.1, Option.or_none] at hawaiting
          calc
            (Except.ok e.signal : Except Fault Signal) = .ok .wait ↔ i.signal = .wait := by
              rw [hsignal, Except.ok.injEq]
            _ ↔ i.awaits? ≠ none := i.signal_eq_wait_iff
            _ ↔ e.processor.machine.awaiting ≠ none := by rw [hawaiting]

end Processor

end Chip8
