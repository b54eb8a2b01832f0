import Chip8.Proofs.Face
import Chip8.Proofs.KeyWait

/-!
Indifference to the face, over whole histories.

What a program computes depends neither on the sound timer nor on whether the display has been
handed over. `Machine.handle_reface` says it of the operations on a machine and
`Processor.handle_reface` of the requests to a processor. So two processors that differ in the face
alone answer any requests alike, and they differ in the face alone afterwards:
`Processor.SameButFace.answers_eq`.
-/

namespace Chip8

namespace Machine

variable (m : Machine) (sound : Countdown) (redraw : Bool)

theorem setKey_reface (key : Nat) (down : Bool) :
    (m.reface sound redraw).setKey key down =
      (m.setKey key down).map (·.reface sound redraw) := by
  simp only [setKey, reface]
  cases m.keypad.set key down <;> rfl

theorem toggleKey_reface (key : Nat) :
    (m.reface sound redraw).toggleKey key =
      (m.toggleKey key).map (·.reface sound redraw) := by
  simp only [toggleKey, reface]
  cases m.keypad.toggle key <;> rfl

theorem ofExcept_reface (result : Except Fault Machine) :
    Report.ofExcept (m.reface sound redraw) (result.map (·.reface sound redraw)) =
      { Report.ofExcept m result with
        state := (Report.ofExcept m result).state.reface sound redraw } := by
  cases result <;> rfl

theorem resume_reface (key : Nat) :
    (m.reface sound redraw).resume key =
      { m.resume key with state := (m.resume key).state.reface sound redraw } := by
  by_cases hkey : key < 16
  · cases hwait : m.awaiting with
    | none =>
        rw [resume_of_awaiting_eq_none hwait hkey,
          resume_of_awaiting_eq_none (m := m.reface sound redraw) hwait hkey]
    | some x =>
        rw [resume_of_awaiting_eq_some hwait hkey,
          resume_of_awaiting_eq_some (m := m.reface sound redraw) hwait hkey]
        rfl
  · rw [resume_of_le m (Nat.le_of_not_lt hkey), resume_of_le _ (Nat.le_of_not_lt hkey)]

theorem load_reface (program : List UInt8) :
    (m.reface sound redraw).load program =
      { m.load program with state := (m.load program).state.reface sound redraw } := by
  rw [load, load]
  split <;> rfl

/-- An operation on a machine does the same under another face. A tick and the two operations that
are made for the mark leave a face of their own. -/
theorem handle_reface (r : Request) :
    ∃ sound' redraw', (m.reface sound redraw).handle r =
      { m.handle r with state := (m.handle r).state.reface sound' redraw' } := by
  cases r with
  | tick => exact ⟨sound.tick, redraw, rfl⟩
  | setKeypad keypad => exact ⟨sound, redraw, rfl⟩
  | setKey key down =>
      refine ⟨sound, redraw, ?_⟩
      rw [handle, handle, setKey_reface, ofExcept_reface]
  | toggleKey key =>
      refine ⟨sound, redraw, ?_⟩
      rw [handle, handle, toggleKey_reface, ofExcept_reface]
  | resume key => exact ⟨sound, redraw, m.resume_reface sound redraw key⟩
  | clearRedraw => exact ⟨sound, false, rfl⟩
  | reset => exact ⟨.done, false, rfl⟩
  | load program => exact ⟨sound, redraw, m.load_reface sound redraw program⟩
  | move step =>
      refine ⟨sound, redraw, ?_⟩
      rw [handle, handle, move_reface, ofExcept_reface]

end Machine

namespace Processor

/-- A request is answered alike under another face. -/
theorem handle_reface (p : Processor) (sound : Countdown) (redraw : Bool) (request : Request) :
    ∃ sound' redraw', (p.reface sound redraw).handle request =
      { p.handle request with state := (p.handle request).state.reface sound' redraw' } := by
  cases request with
  | step =>
      obtain ⟨sound', redraw', hstep, -⟩ := p.step_reface sound redraw
      refine ⟨sound', redraw', ?_⟩
      rw [handle, handle, hstep]
      rfl
  | machine r =>
      obtain ⟨sound', redraw', hhandle⟩ := p.machine.handle_reface sound redraw r
      refine ⟨sound', redraw', ?_⟩
      show ((p.machine.reface sound redraw).handle r).map _ _ = _
      rw [hhandle]
      rfl

/-- What some requests come to, one after another: their outcomes and what they report. -/
def answers (p : Processor) : List Request → List (Except Fault (Option Signal) × List Event)
  | [] => []
  | request :: requests =>
    ((p.handle request).outcome, (p.handle request).events) ::
      (p.handle request).state.answers requests

/-- Two processors that differ at most in the sound timer and in the mark that the display has
changed. -/
def SameButFace (p q : Processor) : Prop :=
  q = { p with machine := { p.machine with sound := q.machine.sound, redraw := q.machine.redraw } }

theorem sameButFace_reface (p : Processor) (sound : Countdown) (redraw : Bool) :
    SameButFace p (p.reface sound redraw) := rfl

theorem SameButFace.handle {p q : Processor} (h : SameButFace p q) (request : Request) :
    (q.handle request).outcome = (p.handle request).outcome ∧
      (q.handle request).events = (p.handle request).events ∧
      SameButFace (p.handle request).state (q.handle request).state := by
  have hq : q = p.reface q.machine.sound q.machine.redraw := h
  obtain ⟨sound, redraw, hhandle⟩ :=
    p.handle_reface q.machine.sound q.machine.redraw request
  rw [← hq] at hhandle
  rw [hhandle]
  exact ⟨rfl, rfl, sameButFace_reface _ sound redraw⟩

/-- Two processors that differ in the face alone and read the same random bytes answer any requests
alike, one after another, and still differ in the face alone afterwards. -/
theorem SameButFace.answers_eq {p q : Processor} (h : SameButFace p q) (requests : List Request) :
    q.answers requests = p.answers requests ∧
      SameButFace (p.after requests) (q.after requests) := by
  induction requests generalizing p q with
  | nil => exact ⟨rfl, h⟩
  | cons request requests ih =>
      obtain ⟨houtcome, hevents, hstate⟩ := h.handle request
      obtain ⟨hanswers, hafter⟩ := ih hstate
      refine ⟨?_, hafter⟩
      rw [answers, answers, houtcome, hevents, hanswers]

/-- The program `00 E0 00 EE` clears the screen and returns without a call. It does so on a machine
that beeps and has a display to hand over just as on a silent one. -/
theorem answers_eq_beeping :
    let m := Machine.initial.after [.request (.load [0x00, 0xE0, 0x00, 0xEE])]
    let p : Processor := ⟨m, .cycle #[]⟩
    let q : Processor := p.reface ⟨9⟩ true
    let requests : List Request := [.step, .machine .tick, .machine .clearRedraw, .step]
    p.SameButFace q ∧ p.machine ≠ q.machine ∧
      (q.answers requests).map Prod.fst =
        [.ok (some .draw), .ok none, .ok none, .error (.stack .empty)] ∧
      (q.after requests).machine.programCounter = 0x202 := by
  intro m p q requests
  obtain ⟨memory, hload, hfetch⟩ :=
    Machine.load_initial [0x00, 0xE0, 0x00, 0xEE] (by decide)
  have hm : m = { Machine.initial with memory } := hload
  clear_value m
  subst hm
  let cleared : Machine :=
    { Machine.initial with
      memory
      programCounter := 0x202
      display := Machine.initial.display.clear
      redraw := true }
  have hclear : p.handle .step = ⟨.ok (some .draw), ⟨cleared, .cycle #[]⟩,
      [.decoded 0x200 (.ofBytes 0x00 0xE0) .clearDisplay]⟩ := by
    rw [handle, step_of_fetch (p := p) (i := .clearDisplay) rfl
      (Machine.fetch_of_memory (hfetch 0 (by decide))) rfl]
    rfl
  let stopped : Processor := ⟨cleared.tick.clearRedraw, .cycle #[]⟩
  have hreturn : stopped.handle .step = ⟨.error (.stack .empty), stopped,
      [.decoded 0x202 (.ofBytes 0x00 0xEE) .leave]⟩ := by
    rw [handle, step_of_fetch (p := stopped) (i := .leave) rfl
      (Machine.fetch_of_memory (hfetch 2 (by decide))) rfl]
    rfl
  have hface : p.SameButFace q := sameButFace_reface p _ _
  obtain ⟨hanswers, hafter⟩ := hface.answers_eq requests
  refine ⟨hface, fun h => ?_, ?_, ?_⟩
  · cases congrArg Machine.redraw h
  · calc
      (q.answers requests).map Prod.fst = (p.answers requests).map Prod.fst := by rw [hanswers]
      _ = .ok (some .draw) :: .ok none :: .ok none :: (stopped.answers [.step]).map Prod.fst := by
        simp only [requests, answers, hclear]
        rfl
      _ = [.ok (some .draw), .ok none, .ok none, .error (.stack .empty)] := by
        simp only [answers, hreturn]
        rfl
  · calc
      (q.after requests).machine.programCounter = (p.after requests).machine.programCounter := by
        rw [hafter]
      _ = (stopped.after [.step]).machine.programCounter := by
        simp only [requests, after, List.foldl_cons, hclear]
        rfl
      _ = 0x202 := by
        simp only [after, List.foldl_cons, hreturn]
        rfl

end Processor

end Chip8
