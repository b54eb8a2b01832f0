import Chip8.Proofs.Counter
import Chip8.Proofs.Waits

/-!
The steps of a console, whatever asks for them.

A frame, a single step and a step of the machine inside differ in how many steps they make and in
what happens around them. `Console.ActRun` is what they have in common: some processor makes a run,
and behind it only the timers and the mark of the display may differ. What is known of a run is thus
known of every act that makes steps: which step is the first, and that a step that executes `FX0A`
is the last.
-/

namespace Chip8

namespace Console

open Machine

namespace Act

/-- The keys that are held while the console is called. -/
def keys? : Act → Option Keypad
  | .frame keys | .advance keys => some keys
  | .machine _ => none

end Act

variable {c : Console} {keys : Keypad} {act : Act} {p : Processor} {x : Register}

/-- An act that makes steps is a run of the processor that makes them, but for what happens around
it: the frame that is counted, the timers and the mark of the display. -/
structure ActRun (c : Console) (act : Act) (p : Processor) (count : Nat) : Prop where
  beats : c.beats act = p.stepBeats (p.run count).steps ∨
    c.beats act = .frame :: p.stepBeats (p.run count).steps
  outcome : (c.perform act).outcome = (p.run count).outcome.map some
  events : ∀ keys, act.keys? = some keys →
    (c.perform act).events = (c.poll keys).2 ++ (p.run count).events
  machine : ∃ delay sound redraw, (c.perform act).state.machine =
    { (p.run count).processor.machine with delay, sound, redraw }

namespace ActRun

variable {count : Nat} {q : Processor} {later earlier : List Beat}

theorem contents (h : c.ActRun act p count) :
    SameContents (p.run count).processor.machine (c.perform act).state.machine := by
  obtain ⟨delay, sound, redraw, hmachine⟩ := h.machine
  rw [hmachine]
  exact ⟨rfl, rfl, rfl, rfl, rfl, rfl⟩

/-- No step changes the keys. -/
theorem keypad (h : c.ActRun act p count) :
    (c.perform act).state.machine.keypad = p.machine.keypad := by
  obtain ⟨delay, sound, redraw, hmachine⟩ := h.machine
  rw [hmachine]
  show (p.run count).processor.machine.keypad = _
  rw [Run.processor_run, p.keypad_stepped]

end ActRun

end Console

end Chip8
