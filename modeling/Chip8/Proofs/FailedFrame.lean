import Chip8.Proofs.CallStack
import Chip8.Proofs.Stride
import Chip8.Proofs.Viewing

/-!
Frames that fail.

A frame that fails has polled the keys and made the steps up to the one that fails, which changes
nothing. There it stays: the keys are known and the program does not wait, so a frame with the same
keys fails in its first step and leaves everything as it is. `Console.Reachable.frame_error` says so
for any number of repetitions.
-/

namespace Chip8

namespace Machine

/-- What a processor is asked for leads from reachable machines to reachable machines. -/
theorem Reachable.processor_after {p : Processor} (hp : p.machine.Reachable)
    (requests : List Processor.Request) : (p.after requests).machine.Reachable := by
  induction requests generalizing p with
  | nil => exact hp
  | cons request requests ih =>
      cases request with
      | step => exact ih (hp.perform (.step p.tape))
      | machine request => exact ih (hp.perform (.request request))

theorem Reachable.present {m : Machine} (hm : m.Reachable) : m.present.1.Reachable := by
  rw [Machine.present]
  split
  · exact hm.perform (.request .clearRedraw)
  · exact hm

end Machine

/-- What polling asks of a processor: to take over the keys and to go on with the lowest of them. -/
def Keypad.requests (keys : Keypad) : List Processor.Request :=
  .machine (.setKeypad keys) ::
    keys.lowest?.toList.map fun key => .machine (.resume key.val)

namespace Console

theorem poll_eq_after (c : Console) (keys : Keypad) :
    (c.poll keys).1 = { c with processor := c.processor.after keys.requests } := by
  rw [Keypad.requests, poll, Machine.poll]
  cases keys.lowest? with
  | none => rfl
  | some key =>
      show _ = Console.mk (c.processor.withMachine
        (Machine.resume { c.machine with keypad := keys } key.val).state) _ _
      rw [Machine.resume, dif_pos key.isLt]
      rfl

/-- The console after some acts. -/
def after (c : Console) (acts : List Act) : Console :=
  acts.foldl (fun c act => (c.perform act).state) c

theorem after_cons (c : Console) (act : Act) (acts : List Act) :
    c.after (act :: acts) = (c.perform act).state.after acts := rfl

theorem after_append (c : Console) (first second : List Act) :
    c.after (first ++ second) = (c.after first).after second :=
  List.foldl_append

theorem after_frame (c : Console) (keys : Keypad) (acts : List Act) :
    c.after (.frame keys :: acts) = (c.frame keys).state.after acts := rfl

/-- A console that some acts lead to from the start of a reachable machine. -/
inductive Reachable : Console → Prop
  | start {m : Machine} (hm : m.Reachable) (tape : RandomTape) (cyclesPerFrame : Nat) :
      Reachable (.start ⟨m, tape⟩ cyclesPerFrame)
  | perform {c : Console} (hc : Reachable c) (act : Act) : Reachable (c.perform act).state

theorem reachable_poll {c : Console} (hc : c.machine.Reachable) (keys : Keypad) :
    (c.poll keys).1.machine.Reachable := by
  rw [poll_eq_after]
  exact Machine.Reachable.processor_after (p := c.processor) hc keys.requests

theorem reachable_frame {c : Console} (hc : c.machine.Reachable) (keys : Keypad) :
    (c.frame keys).state.machine.Reachable := by
  let polled := (c.poll keys).1.processor
  have hrun : (polled.run c.cyclesPerFrame).processor.machine.Reachable := by
    rw [Run.processor_run]
    exact Machine.Reachable.processor_after (p := polled) (reachable_poll hc keys) _
  cases houtcome : (polled.run c.cyclesPerFrame).outcome with
  | error fault =>
      rw [frame_of_run_error houtcome]
      exact hrun
  | ok signal =>
      rw [frame_of_run_ok houtcome]
      exact (hrun.perform (.request .tick)).present

theorem reachable_advance {c : Console} (hc : c.machine.Reachable) (keys : Keypad) :
    (c.advance keys).state.machine.Reachable := by
  let polled := (c.poll keys).1.processor
  have hstep : polled.step.state.machine.Reachable :=
    (reachable_poll hc keys).perform (.step polled.tape)
  cases houtcome : polled.step.outcome with
  | error fault =>
      rw [advance_of_step_error houtcome]
      exact hstep
  | ok signal =>
      rw [advance_of_step_ok houtcome]
      exact hstep.present

/-- The machine inside a reachable console is reachable. -/
theorem Reachable.machine {c : Console} (hc : c.Reachable) : c.machine.Reachable := by
  induction hc with
  | start hm tape cyclesPerFrame => exact hm
  | perform _ act ih =>
      cases act with
      | frame keys => exact reachable_frame ih keys
      | advance keys => exact reachable_advance ih keys
      | machine act => exact ih.perform act

/-- A frame fails where its run fails. -/
theorem run_of_frame_error {c : Console} {keys : Keypad} {fault : Fault}
    (h : (c.frame keys).outcome = .error fault) :
    ((c.poll keys).1.processor.run c.cyclesPerFrame).outcome = .error fault := by
  cases houtcome : ((c.poll keys).1.processor.run c.cyclesPerFrame).outcome with
  | error other =>
      rw [frame_of_run_error houtcome] at h
      cases h
      rfl
  | ok signal =>
      rw [frame_of_run_ok houtcome] at h
      cases h

/-- A console on which a frame fails in its first step and changes nothing. -/
structure Stuck (c : Console) (keys : Keypad) (fault : Fault) : Prop where
  outcome : (c.frame keys).outcome = .error fault
  state : (c.frame keys).state = c
  shown : (c.frame keys).shown = none
  steps : ((c.poll keys).1.processor.run c.cyclesPerFrame).steps = 1

theorem stuck_of_step_error {c : Console} {keys : Keypad} {fault : Fault}
    (hcycles : 0 < c.cyclesPerFrame) (hkeypad : c.machine.keypad = keys)
    (hstep : c.processor.step.outcome = .error fault)
    (hstate : c.processor.step.state = c.processor) : c.Stuck keys fault := by
  have hawaiting : c.machine.awaiting = none := Processor.awaiting_of_step_eq_error hstep
  have hpoll : (c.poll keys).1 = c := poll_eq_self hkeypad hawaiting
  have hrun : (c.poll keys).1.processor.run c.cyclesPerFrame = (Run.start c.processor).step := by
    rw [hpoll]
    exact Run.run_of_step_error hcycles hstep
  have houtcome : ((c.poll keys).1.processor.run c.cyclesPerFrame).outcome = .error fault := by
    rw [hrun]
    exact hstep
  have hframe := frame_of_run_error houtcome
  refine ⟨?_, ?_, ?_, ?_⟩
  · rw [hframe]
  · rw [hframe, hrun]
    exact congrArg (fun processor => { c with processor }) hstate
  · rw [hframe]
  · rw [hrun]
    rfl

/-- A stuck console is stuck for ever. -/
theorem Stuck.after {c : Console} {keys : Keypad} {fault : Fault} (h : c.Stuck keys fault)
    (retries : Nat) : c.after (List.replicate retries (.frame keys)) = c := by
  induction retries with
  | zero => rfl
  | succ retries ih =>
      rw [List.replicate_succ, after_frame, h.state, ih]

/-- A frame that fails leaves the console behind the steps that succeeded: the keys are polled,
fewer steps than a frame has were made, each of which went on, and the next one is what fails.
Nothing ticks, nothing is handed over and the frame is not counted. Repeated with the same keys,
however often, the frame fails with the same fault in its first step and changes nothing. -/
theorem Reachable.frame_error {c : Console} (hc : c.Reachable) {keys : Keypad} {fault : Fault}
    (h : (c.frame keys).outcome = .error fault) :
    let polled := c.processor.after keys.requests
    let failed := (c.frame keys).state
    (∃ done < c.cyclesPerFrame,
      (∀ k < done, ∃ signal, signal ≠ .wait ∧ (polled.stepped k).step.outcome = .ok signal) ∧
      (polled.stepped done).step.outcome = .error fault ∧
      failed = { c with processor := polled.stepped done }) ∧
    (c.frame keys).shown = none ∧
    ∀ retries : Nat,
      let again := failed.after (List.replicate retries (.frame keys))
      again = failed ∧ (again.frame keys).outcome = .error fault ∧
        (again.frame keys).state = failed ∧ (again.frame keys).shown = none ∧
        ((again.poll keys).1.processor.run again.cyclesPerFrame).steps = 1 := by
  intro polled failed
  have hrun := run_of_frame_error h
  have hframe := frame_of_run_error hrun
  have hpolled : (c.poll keys).1.processor = polled := by rw [poll_eq_after]
  rw [hpolled] at hrun hframe
  obtain ⟨done, hdone, hgoes, hfails, hprocessor⟩ := Run.of_run_eq_error hrun
  have hreach : (polled.stepped done).machine.Reachable :=
    (hc.machine.processor_after keys.requests).processor_after (List.replicate done .step)
  -- The step that fails changes nothing, so the console stands where the last success has led it.
  have hunchanged : (polled.stepped done).step.state = polled.stepped done :=
    hreach.step_error_unchanged _ hfails
  have hfailed : failed = { c with processor := polled.stepped done } := by
    show (c.frame keys).state = _
    rw [hframe, hprocessor, hunchanged]
  have hkeypad : failed.machine.keypad = keys := by
    rw [hfailed]
    show (polled.stepped done).machine.keypad = keys
    rw [Processor.keypad_stepped, ← hpolled]
    exact c.machine.keypad_poll keys
  have hstuck : failed.Stuck keys fault := by
    refine stuck_of_step_error ?_ hkeypad ?_ ?_
    · rw [hfailed]
      exact Nat.zero_lt_of_lt hdone
    · rw [hfailed]
      exact hfails
    · rw [hfailed]
      exact hunchanged
  refine ⟨⟨done, hdone, hgoes, hfails, hfailed⟩, ?_, fun retries => ?_⟩
  · rw [hframe]
  · intro again
    have hagain : again = failed := hstuck.after retries
    rw [hagain]
    exact ⟨rfl, hstuck.outcome, hstuck.state, hstuck.shown, hstuck.steps⟩

/-- The program `F0 0A 71 07 00 EE` waits for a key. In the next frame it is given the key 5, adds
to a register and returns without a call; there it stays. -/
theorem frame_error_lone_return :
    let m := Machine.initial.after
      [.request (.load [0xF0, 0x0A, 0x71, 0x07, 0x00, 0xEE]), .step (.cycle #[])]
    let c : Console := .start ⟨m, .cycle #[]⟩ 8
    let keys : Keypad := ⟨Keypad.released.held.set 5 true⟩
    let failed := (c.frame keys).state
    c.Reachable ∧ (c.frame keys).outcome = .error (.stack .empty) ∧
      failed.machine.register 0 = 5 ∧ failed.machine.register 1 = 7 ∧
      failed.after (List.replicate 3 (.frame keys)) = failed := by
  intro m c keys failed
  have hreach : c.Reachable := .start (Machine.Reachable.initial.after _) _ 8
  obtain ⟨memory, hload, hfetch⟩ :=
    Machine.load_initial [0xF0, 0x0A, 0x71, 0x07, 0x00, 0xEE] (by decide)
  let tape : RandomTape := .cycle #[]
  let loaded : Machine := { Machine.initial with memory }
  let waiting : Machine := { loaded with awaiting := some 0, programCounter := 0x202 }
  let resumed : Machine := { loaded.setRegister 0 5 with keypad := keys, programCounter := 0x202 }
  let added : Machine := { resumed.setRegister 1 7 with programCounter := 0x204 }
  have hwait : loaded.fetch = .ok (.ofBytes 0xF0 0x0A) :=
    Machine.fetch_of_memory (hfetch 0 (by decide))
  have hadd : resumed.fetch = .ok (.ofBytes 0x71 0x07) :=
    Machine.fetch_of_memory (hfetch 2 (by decide))
  have hreturn : added.fetch = .ok (.ofBytes 0x00 0xEE) :=
    Machine.fetch_of_memory (hfetch 4 (by decide))
  have hm : m = waiting := by
    show Machine.initial.after _ = _
    rw [Machine.after_cons, hload, Machine.after_cons,
      Machine.perform_step_of_fetch (m := loaded) (i := .unary .awaitKey 0) rfl hwait rfl]
    rfl
  clear_value m
  have hfirst : Processor.step ⟨resumed, tape⟩ = ⟨.ok .proceed, ⟨added, tape⟩,
      [.decoded 0x202 (.ofBytes 0x71 0x07) (.addByte 1 7)]⟩ := by
    rw [Processor.step_of_fetch (p := ⟨resumed, tape⟩) (i := .addByte 1 7) rfl hadd rfl]
    rfl
  have hsecond : Processor.step ⟨added, tape⟩ = ⟨.error (.stack .empty), ⟨added, tape⟩,
      [.decoded 0x204 (.ofBytes 0x00 0xEE) .leave]⟩ := by
    rw [Processor.step_of_fetch (p := ⟨added, tape⟩) (i := .leave) rfl hreturn rfl]
    rfl
  have hrun : Processor.run ⟨resumed, tape⟩ 8 = ⟨⟨added, tape⟩, 2, .error (.stack .empty),
      [.decoded 0x204 (.ofBytes 0x00 0xEE) .leave,
        .decoded 0x202 (.ofBytes 0x71 0x07) (.addByte 1 7)]⟩ := by
    simp only [Processor.run, Run.advance, Run.step, Run.start, hfirst, hsecond, Run.isOver]
    rfl
  have hpoll : (c.poll keys).1.processor = ⟨resumed, tape⟩ := by
    have hlowest : keys.lowest? = some 5 := by decide
    show Processor.mk (m.poll keys).1 tape = _
    rw [hm, Machine.poll, hlowest]
    rfl
  have hpolled : (c.poll keys).1.processor.run c.cyclesPerFrame = _ :=
    (congrArg (fun polled => polled.run 8) hpoll).trans hrun
  have hframe : c.frame keys = _ := frame_of_run_error (congrArg Run.outcome hpolled)
  have hfails : (c.frame keys).outcome = .error (.stack .empty) := by rw [hframe]
  have hfailed : failed.machine = added := by
    show (c.frame keys).state.processor.machine = _
    rw [hframe, hpolled]
  obtain ⟨-, -, hretries⟩ := hreach.frame_error hfails
  obtain ⟨hagain, -⟩ := hretries 3
  refine ⟨hreach, hfails, ?_, ?_, hagain⟩
  · rw [hfailed]
    rfl
  · rw [hfailed]
    rfl

end Console

end Chip8
