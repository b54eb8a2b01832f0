import Chip8.Console
import Chip8.Proofs.History
import Chip8.Proofs.Periphery

/-!
The two timers.

Only three things touch a timer: the instruction that sets it, a tick and a reset. For instructions
this is one equation: after a step, a timer shows what the step has written to it, and otherwise what
it showed before, whether or not the step succeeds (`Processor.timer_step`).
-/

namespace Chip8

inductive Timer where
  | delay
  | sound
  deriving DecidableEq

/-- The operation that sets a timer. -/
def Timer.setter : Timer → UnaryOp
  | .delay => .setDelay
  | .sound => .setSound

/-- The register from which an instruction sets a timer. -/
def Instruction.source? (t : Timer) : Instruction → Option Register
  | .unary op x => if op = t.setter then some x else none
  | _ => none

namespace Instruction

theorem setsDelay_eq (i : Instruction) : i.setsDelay = (i.source? .delay).isSome := by
  cases i with
  | unary op x => cases op <;> rfl
  | _ => rfl

theorem setsSound_eq (i : Instruction) : i.setsSound = (i.source? .sound).isSome := by
  cases i with
  | unary op x => cases op <;> rfl
  | _ => rfl

end Instruction

namespace Machine

def timer (m : Machine) : Timer → Countdown
  | .delay => m.delay
  | .sound => m.sound

/-- The instruction that the next step executes, if there is one. -/
def next? (m : Machine) : Option Instruction :=
  match m.awaiting with
  | none => m.current.toOption
  | some _ => none

/-- The value that the next step writes to a timer, if it does. -/
def written? (m : Machine) (t : Timer) : Option UInt8 :=
  m.next?.bind fun i => (i.source? t).map m.register

variable {m : Machine} {i : Instruction} {t : Timer}

theorem next?_eq_some_iff : m.next? = some i ↔ m.Executes i := by
  rw [next?, Executes]
  cases hwait : m.awaiting with
  | some x => exact iff_of_false nofun fun h => nomatch h.1
  | none =>
      show m.current.toOption = some i ↔ none = none ∧ m.current = .ok i
      cases m.current with
      | error fault => exact iff_of_false nofun fun h => nomatch h.2
      | ok j =>
          show some j = some i ↔ _
          rw [Option.some.injEq, Except.ok.injEq]
          exact (and_iff_right rfl).symm

theorem written?_of_executes (hi : m.Executes i) :
    m.written? t = (i.source? t).map m.register := by
  rw [written?, next?_eq_some_iff.mpr hi]
  rfl

theorem executes_of_written?_eq_some {value : UInt8} (h : m.written? t = some value) :
    ∃ x, m.Executes (.unary t.setter x) ∧ m.register x = value := by
  obtain ⟨i, hnext, hsource⟩ := Option.bind_eq_some_iff.mp h
  obtain ⟨x, hx, hvalue⟩ := Option.map_eq_some_iff.mp hsource
  refine ⟨x, ?_, hvalue⟩
  unfold Instruction.source? at hx
  split at hx
  · split at hx
    · rename_i hop
      cases hx
      rw [← hop]
      exact next?_eq_some_iff.mp hnext
    · cases hx
  · cases hx

theorem timer_tick (m : Machine) (t : Timer) : m.tick.timer t = (m.timer t).tick := by
  cases t <;> rfl

theorem timer_present (m : Machine) (t : Timer) : m.present.1.timer t = m.timer t := by
  rw [present]
  split <;> rfl

theorem timer_receive (m : Machine) (key : Fin 16) (t : Timer) :
    (m.receive key).1.timer t = m.timer t := by
  rw [receive]
  split <;> rfl

theorem timer_poll (m : Machine) (keys : Keypad) (t : Timer) :
    (m.poll keys).1.timer t = m.timer t := by
  rw [poll]
  cases keys.lowest? with
  | none => rfl
  | some key => exact timer_receive { m with keypad := keys } key t

/-- Only a tick and a reset touch the timers. -/
theorem timer_handle (m : Machine) {r : Request} (htick : r ≠ .tick) (hreset : r ≠ .reset)
    (t : Timer) : (m.handle r).state.timer t = m.timer t := by
  cases r with
  | tick => exact absurd rfl htick
  | reset => exact absurd rfl hreset
  | setKeypad | clearRedraw => rfl
  | setKey key down =>
      rw [handle, setKey]
      cases m.keypad.set key down <;> rfl
  | toggleKey key =>
      rw [handle, toggleKey]
      cases m.keypad.toggle key <;> rfl
  | resume key =>
      rw [handle, resume]
      split
      · exact timer_receive m _ t
      · rfl
  | load program =>
      rw [handle, load]
      split <;> rfl
  | move step =>
      rw [handle, move]
      cases step.target m.programCounter.toNat <;> rfl

end Machine

namespace Processor

open Machine

variable {p : Processor} {i : Instruction} {t : Timer}

theorem timer_of_effect {e : Effect} (h : p.effect i = .ok e) (hsource : i.source? t = none) :
    e.processor.machine.timer t = p.machine.timer t := by
  have hperiphery := periphery_of_effect h
  cases t with
  | delay =>
      refine hperiphery.delay ?_
      rw [i.setsDelay_eq, hsource]
      rfl
  | sound =>
      refine hperiphery.sound ?_
      rw [i.setsSound_eq, hsource]
      rfl

theorem timer_execute (hsource : i.source? t = none) :
    (p.execute i).state.machine.timer t = p.machine.timer t := by
  cases p.executeCase i with
  | refused _ _ hexecute => rw [hexecute]
  | astray e _ heffect _ hexecute =>
      rw [hexecute]
      exact timer_of_effect heffect hsource
  | done e machine heffect hmove hexecute =>
      rw [hexecute]
      obtain ⟨target, -, rfl⟩ := of_move_eq_ok hmove
      exact timer_of_effect heffect hsource

/-- A step changes a timer only if it writes to it, and a write always succeeds. -/
theorem timer_step (p : Processor) (t : Timer) :
    p.step.state.machine.timer t =
      match p.machine.written? t with
      | some value => ⟨value⟩
      | none => p.machine.timer t := by
  cases hwritten : p.machine.written? t with
  | some value =>
      obtain ⟨x, hi, rfl⟩ := executes_of_written?_eq_some hwritten
      obtain ⟨opcode, -, hstep⟩ := step_of_executes hi
      rw [hstep]
      cases t <;> rfl
  | none =>
      cases p.stepCase with
      | waiting _ hstep | unreadable _ _ _ hstep => rw [hstep]
      | executes opcode i hi _ hstep =>
          rw [hstep]
          rw [written?_of_executes hi] at hwritten
          exact timer_execute (Option.map_eq_none_iff.mp hwritten)

/-- `FX07` always succeeds and loads what the delay timer shows. -/
theorem step_readDelay {x : Register} (hi : p.machine.Executes (.unary .readDelay x)) :
    p.step.outcome = .ok .proceed ∧
      p.step.state.machine.register x = (p.machine.timer .delay).value := by
  obtain ⟨opcode, -, hstep⟩ := step_of_executes hi
  rw [hstep]
  refine ⟨rfl, ?_⟩
  exact (register_of_registers_eq (m := p.machine) rfl x).trans (if_pos rfl)

end Processor

end Chip8
