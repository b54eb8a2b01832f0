import Chip8.Proofs.Tape

/-!
The random bytes that a console reads.

A command is a request to a console or a step of the processor inside. `Console.course` lists the
processors in front of all the steps that some commands make. Each of these steps that keeps bits of
a random byte reads one byte, in order, and only through its mask, so the commands come to the same
with every tape that shows the same bits under the masks: `Console.random_bytes_through_masks`.
-/

namespace Chip8

namespace Console

open RandomTape Processor

/-- Something that is asked of a console or of the processor inside. -/
inductive Command where
  | request (request : Request)
  | step

def obey (c : Console) : Command → Exchange
  | .request request => c.handle request
  | .step => { c.processor.step.map (fun processor => { c with processor }) some with }

/-- The processor in front of each step that a command makes. -/
def steps (c : Console) : Command → List Processor
  | .request (.frame keys) =>
    let polled := (c.poll keys).1.processor
    polled.course (polled.run c.cyclesPerFrame).steps
  | .request (.advance keys) => [(c.poll keys).1.processor]
  | .request (.machine _) => []
  | .step => [c.processor]

/-- What a console does in answer to some commands. -/
def exchanges (c : Console) : List Command → List Exchange
  | [] => []
  | command :: commands => c.obey command :: (c.obey command).state.exchanges commands

/-- The processor in front of each step that some commands make. -/
def course (c : Console) : List Command → List Processor
  | [] => []
  | command :: commands => c.steps command ++ (c.obey command).state.course commands

/-- The console that some commands lead to. -/
def obeyed (c : Console) (commands : List Command) : Console :=
  commands.foldl (fun c command => (c.obey command).state) c

/-- The console with another tape. -/
def withTape (c : Console) (tape : RandomTape) : Console :=
  { c with processor := c.processor.withTape tape }

end Console

/-- The exchange with another tape. -/
def Exchange.withTape (x : Exchange) (tape : RandomTape) : Exchange :=
  { x with state := x.state.withTape tape }

/-- The exchange without its tape. -/
def Exchange.tapeless (x : Exchange) : Exchange :=
  x.withTape (.cycle #[])

namespace Console

open RandomTape Processor

/-- Two consoles that do the same in answer to some commands, tapes apart, and go through the same
machines. -/
structure SameCourse (commands : List Command) (c d : Console) : Prop where
  exchanges : (d.exchanges commands).map Exchange.tapeless =
    (c.exchanges commands).map Exchange.tapeless
  machines : (d.course commands).map Processor.machine =
    (c.course commands).map Processor.machine

variable {c : Console} {tape : RandomTape}

theorem frame_withTape {keys : Keypad}
    (h : c.processor.tape.SameUnder (masks (c.steps (.request (.frame keys)))) tape) :
    (c.withTape tape).frame keys =
      (c.frame keys).withTape
        (tape.skip (masks (c.steps (.request (.frame keys)))).length) := by
  let polled := (c.poll keys).1.processor
  have hrun : (((c.withTape tape).poll keys).1.processor).run (c.withTape tape).cyclesPerFrame =
      (polled.run c.cyclesPerFrame).withTape
        (tape.skip (masks (c.steps (.request (.frame keys)))).length) :=
    run_withTape (p := polled) h
  cases houtcome : (polled.run c.cyclesPerFrame).outcome with
  | error fault =>
      have houtcome' := (congrArg Run.outcome hrun).trans houtcome
      rw [frame_of_run_error houtcome, frame_of_run_error houtcome', hrun]
      rfl
  | ok signal =>
      have houtcome' := (congrArg Run.outcome hrun).trans houtcome
      rw [frame_of_run_ok houtcome, frame_of_run_ok houtcome', hrun]
      rfl

theorem advance_withTape {keys : Keypad}
    (h : c.processor.tape.SameUnder (masks (c.steps (.request (.advance keys)))) tape) :
    (c.withTape tape).advance keys =
      (c.advance keys).withTape
        (tape.skip (masks (c.steps (.request (.advance keys)))).length) := by
  let polled := (c.poll keys).1.processor
  have hmasks : masks (c.steps (.request (.advance keys))) = polled.machine.mask?.toList :=
    polled.masks_course_one
  rw [hmasks] at h ⊢
  have hstep : ((c.withTape tape).poll keys).1.processor.step = _ :=
    step_withTape (p := polled) h
  cases houtcome : polled.step.outcome with
  | error fault =>
      have houtcome' := (congrArg Report.outcome hstep).trans houtcome
      rw [advance_of_step_error houtcome, advance_of_step_error houtcome', hstep]
      rfl
  | ok signal =>
      have houtcome' := (congrArg Report.outcome hstep).trans houtcome
      rw [advance_of_step_ok houtcome, advance_of_step_ok houtcome', hstep]
      rfl

/-- A command does the same with a tape that shows the same bits under the masks of its steps. -/
theorem obey_withTape {command : Command}
    (h : c.processor.tape.SameUnder (masks (c.steps command)) tape) :
    (c.withTape tape).obey command =
      (c.obey command).withTape (tape.skip (masks (c.steps command)).length) := by
  cases command with
  | request request =>
      cases request with
      | frame keys => exact frame_withTape h
      | advance keys => exact advance_withTape h
      | machine request => rfl
  | step =>
      have hmasks : masks (c.steps .step) = c.processor.machine.mask?.toList :=
        c.processor.masks_course_one
      rw [hmasks] at h ⊢
      have hprocessor : (c.withTape tape).processor = c.processor.withTape tape := rfl
      rw [obey, hprocessor, step_withTape h]
      rfl

theorem machines_steps_withTape {command : Command}
    (h : c.processor.tape.SameUnder (masks (c.steps command)) tape) :
    ((c.withTape tape).steps command).map Processor.machine =
      (c.steps command).map Processor.machine := by
  cases command with
  | request request =>
      cases request with
      | frame keys =>
          let polled := (c.poll keys).1.processor
          have hsteps : ((polled.withTape tape).run c.cyclesPerFrame).steps =
              (polled.run c.cyclesPerFrame).steps := by
            rw [run_withTape h]
            rfl
          show ((polled.withTape tape).course
            ((polled.withTape tape).run c.cyclesPerFrame).steps).map Processor.machine = _
          rw [hsteps]
          exact machines_course_withTape h
      | advance keys => rfl
      | machine request => rfl
  | step => rfl

/-- The steps of a command read the tape. -/
theorem reads_obey (c : Console) (command : Command) :
    Reads (c.steps command) c.processor.tape (c.obey command).state.processor.tape := by
  cases command with
  | request request =>
      cases request with
      | frame keys =>
          have hreads := reads_run (c.poll keys).1.processor c.cyclesPerFrame
          cases houtcome : ((c.poll keys).1.processor.run c.cyclesPerFrame).outcome with
          | error fault =>
              rw [obey, handle, frame_of_run_error houtcome]
              exact hreads
          | ok signal =>
              rw [obey, handle, frame_of_run_ok houtcome]
              exact hreads
      | advance keys =>
          have hreads := reads_singleton (c.poll keys).1.processor
          cases houtcome : (c.poll keys).1.processor.step.outcome with
          | error fault =>
              rw [obey, handle, advance_of_step_error houtcome]
              exact hreads
          | ok signal =>
              rw [obey, handle, advance_of_step_ok houtcome]
              exact hreads
      | machine request => exact reads_nil c.processor.tape
  | step => exact reads_singleton c.processor

/-- The steps of some commands read the tape. -/
theorem reads_obeyed (c : Console) (commands : List Command) :
    Reads (c.course commands) c.processor.tape (c.obeyed commands).processor.tape := by
  induction commands generalizing c with
  | nil => exact reads_nil c.processor.tape
  | cons command commands ih => exact (c.reads_obey command).append (ih (c.obey command).state)

/-- Commands do the same with a tape that shows the same bits under the masks of their steps. -/
theorem sameCourse_withTape {commands : List Command}
    (h : c.processor.tape.SameUnder (masks (c.course commands)) tape) :
    SameCourse commands c (c.withTape tape) := by
  induction commands generalizing c tape with
  | nil => exact ⟨rfl, rfl⟩
  | cons command commands ih =>
      rw [course, masks_append] at h
      obtain ⟨hfirst, hrest⟩ := sameUnder_append h
      rw [← (c.reads_obey command).after] at hrest
      obtain ⟨hexchanges, hmachines⟩ := ih hrest
      have hobey := obey_withTape hfirst
      have hstate := congrArg (fun x => x.toReport.state) hobey
      constructor
      · rw [exchanges, exchanges, List.map_cons, List.map_cons, hobey]
        exact congrArg _ hexchanges
      · rw [course, course, List.map_append, List.map_append, machines_steps_withTape hfirst, hobey]
        exact congrArg _ hmachines

/-- The commands that a console is given read a byte of its tape for each step that keeps bits of a
random byte, one behind the other. Every tape that shows the same bits under the masks of these
steps leads to the same exchanges and through the same machines; if no mask keeps a bit, then every
tape does. -/
theorem random_bytes_through_masks (c : Console) (commands : List Command) :
    Reads (c.course commands) c.processor.tape (c.obeyed commands).processor.tape ∧
      (∀ tape, c.processor.tape.SameUnder (masks (c.course commands)) tape →
        SameCourse commands c (c.withTape tape)) ∧
      ((∀ mask ∈ masks (c.course commands), mask = 0) →
        ∀ tape, SameCourse commands c (c.withTape tape)) := by
  refine ⟨c.reads_obeyed commands, fun tape h => sameCourse_withTape h, fun hmasks tape => ?_⟩
  refine sameCourse_withTape fun k hk => ?_
  rw [hmasks _ (List.getElem_mem hk), UInt8.and_zero, UInt8.and_zero]

/-- The program `C0 0F C1 00` keeps half of the first byte and nothing of the second one: the tape
with `35` instead of `A5` does for the first step, and every tape for the second one. -/
theorem random_bytes_through_masks_half_a_byte :
    let m := Machine.initial.after [.request (.load [0xC0, 0x0F, 0xC1, 0x00])]
    let c : Console := .start ⟨m, .cycle #[0xA5]⟩ 1
    let first : List Command := [.step]
    let second : List Command := [.request (.advance .released)]
    let d := c.obeyed first
    masks (c.course first) = [0x0F] ∧ masks (d.course second) = [0x00] ∧
      d.processor.tape.position = 1 ∧ SameCourse first c (c.withTape (.cycle #[0x35])) ∧
      ∀ tape, SameCourse second d (d.withTape tape) := by
  intro m c first second d
  obtain ⟨memory, hload, hfetch⟩ :=
    Machine.load_initial [0xC0, 0x0F, 0xC1, 0x00] (by decide)
  have hm : m = { Machine.initial with memory } := hload
  clear_value m
  subst hm
  have hfirst : c.machine.Executes (.random 0 0x0F) :=
    Machine.executes_of_fetch rfl (Machine.fetch_of_memory (hfetch 0 (by decide))) rfl
  let stepped : Machine :=
    { c.machine.setRegister 0 (0x0F &&& c.processor.tape.current) with programCounter := 0x202 }
  have hd : d = { c with processor := ⟨stepped, c.processor.tape.advance⟩ } := by
    show Console.mk c.processor.step.state _ _ = _
    rw [step_of_fetch (p := c.processor) (i := .random 0 0x0F) rfl
      (Machine.fetch_of_memory (hfetch 0 (by decide))) rfl]
    rfl
  have hsecond : stepped.Executes (.random 1 0x00) :=
    Machine.executes_of_fetch rfl (Machine.fetch_of_memory (hfetch 2 (by decide))) rfl
  have hmasks : masks (c.course first) = [0x0F] := by
    show masks (c.processor.course 1) = _
    rw [masks_course_one]
    exact congrArg Option.toList (Machine.mask?_of_executes hfirst)
  have hmasks' : masks (d.course second) = [0x00] := by
    show masks ((d.poll .released).1.processor.course 1) = _
    rw [masks_course_one, hd]
    exact congrArg Option.toList (Machine.mask?_of_executes hsecond)
  obtain ⟨-, hsame, -⟩ := c.random_bytes_through_masks first
  obtain ⟨-, -, hall⟩ := d.random_bytes_through_masks second
  refine ⟨hmasks, hmasks', ?_, hsame _ ?_, hall ?_⟩
  · rw [hd]
    rfl
  · rw [hmasks]
    intro k hk
    obtain rfl := Nat.lt_one_iff.mp hk
    show (cycle #[0x35]).current &&& 0x0F = (cycle #[0xA5]).current &&& 0x0F
    decide
  · rw [hmasks']
    exact fun mask hmask => List.mem_singleton.mp hmask

end Console

end Chip8
