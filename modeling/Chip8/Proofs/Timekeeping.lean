import Chip8.Proofs.Stride
import Chip8.Proofs.Timers
import Chip8.Proofs.Viewing

/-!
The timers of a console over whole runs.

A console is watched together with its beats: the steps of its program, the frames that succeeded
and the ticks that were asked for. What a timer shows follows from the beats alone: it is the value
that was written last, less the ticks since then. `OnTime` is the invariant. It is kept by every
beat, hence by the steps of a frame and by a frame, whether it succeeds, waits or fails, and it holds
in the middle of a frame as well: `Console.Timed.on_time`.
-/

namespace Chip8

/-- What the time of a console is made of. -/
inductive Beat where
  /-- A step of this processor, whether or not it succeeds. -/
  | step (p : Processor)
  /-- A frame that has succeeded. -/
  | frame
  /-- A tick that was asked for outside of a frame. -/
  | tick

namespace Beat

/-- The value that is written to a timer. -/
def written? (t : Timer) : Beat → Option UInt8
  | .step p => p.machine.written? t
  | .frame | .tick => none

/-- Whether the timers tick. -/
def ticks : Beat → Bool
  | .step _ => false
  | .frame | .tick => true

def isFrame : Beat → Bool
  | .frame => true
  | .step _ | .tick => false

end Beat

namespace Timer

/-! What the beats, the latest first, say about a timer. -/

/-- The value that was written last; the timer starts at zero. -/
def lastWritten (t : Timer) (beats : List Beat) : UInt8 :=
  (beats.findSome? (Beat.written? t)).getD 0

/-- The ticks since the timer was written. -/
def ticksSince (t : Timer) (beats : List Beat) : Nat :=
  (beats.takeWhile fun b => (b.written? t).isNone).countP Beat.ticks

/-- What is left of the last value. -/
def remaining (t : Timer) (beats : List Beat) : Nat :=
  (t.lastWritten beats).toNat - t.ticksSince beats

variable {t : Timer} {b : Beat} {beats : List Beat}

theorem remaining_of_written {value : UInt8} (h : b.written? t = some value) :
    t.remaining (b :: beats) = value.toNat := by
  rw [remaining, lastWritten, ticksSince, List.findSome?_cons, List.takeWhile_cons, h]
  rfl

theorem remaining_of_not_written (h : b.written? t = none) :
    t.remaining (b :: beats) = t.remaining beats - if b.ticks then 1 else 0 := by
  rw [remaining, lastWritten, ticksSince, List.findSome?_cons, List.takeWhile_cons, h]
  show (t.lastWritten beats).toNat - List.countP _ (b :: _) = _
  rw [List.countP_cons, ← Nat.sub_sub]
  rfl

end Timer

/-- The timers of a machine show what the beats that led to it say, and so they did before each of
its steps. -/
structure OnTime (beats : List Beat) (m : Machine) : Prop where
  now : ∀ t, (m.timer t).value.toNat = t.remaining beats
  before : ∀ p past, .step p :: past <:+ beats →
    ∀ t, (p.machine.timer t).value.toNat = t.remaining past

namespace OnTime

variable {beats : List Beat} {m : Machine} {p : Processor}

theorem start (hdone : ∀ t, m.timer t = .done) : OnTime [] m where
  now t := by
    rw [hdone t]
    rfl
  before p past h := nomatch List.suffix_nil.mp h

theorem of_timer_eq (h : OnTime beats m) {after : Machine}
    (htimer : ∀ t, after.timer t = m.timer t) : OnTime beats after where
  now t := by
    rw [htimer]
    exact h.now t
  before := h.before

theorem step (h : OnTime beats p.machine) : OnTime (.step p :: beats) p.step.state.machine where
  now t := by
    rw [p.timer_step]
    cases hwritten : p.machine.written? t with
    | some value => exact (Timer.remaining_of_written (b := .step p) hwritten).symm
    | none => exact (h.now t).trans (Timer.remaining_of_not_written (b := .step p) hwritten).symm
  before q past hsuffix := by
    rcases List.suffix_cons_iff.mp hsuffix with heq | hsuffix
    · cases heq
      exact h.now
    · exact h.before q past hsuffix

theorem tick (h : OnTime beats m) {b : Beat} (hticks : b.ticks = true) :
    OnTime (b :: beats) m.tick := by
  have hwritten : ∀ t, b.written? t = none := by
    intro t
    cases b with
    | step p => cases hticks
    | frame | tick => rfl
  refine ⟨fun t => ?_, fun q past hsuffix => ?_⟩
  · rw [Timer.remaining_of_not_written (hwritten t), if_pos hticks, m.timer_tick,
      Countdown.toNat_value_tick, h.now]
  · rcases List.suffix_cons_iff.mp hsuffix with heq | hsuffix
    · cases heq
      cases hticks
    · exact h.before q past hsuffix

end OnTime

/-- Some steps of a processor as beats, the latest first. -/
def Processor.stepBeats (p : Processor) : (count : Nat) → List Beat
  | 0 => []
  | count + 1 => .step (p.stepped count) :: p.stepBeats count

theorem OnTime.steps {beats : List Beat} {p : Processor} (h : OnTime beats p.machine)
    (count : Nat) : OnTime (p.stepBeats count ++ beats) (p.stepped count).machine := by
  induction count with
  | zero => exact h
  | succ count ih =>
      rw [p.stepped_succ']
      exact ih.step

theorem Processor.countP_stepBeats (p : Processor) (count : Nat) :
    (p.stepBeats count).countP Beat.isFrame = 0 := by
  induction count with
  | zero => rfl
  | succ count ih => exact ih

namespace Console

/-- The beats of an act, the latest first. A frame is a beat of its own once it has succeeded. -/
def beats (c : Console) : Act → List Beat
  | .frame keys =>
    let polled := (c.poll keys).1.processor
    let made := polled.stepBeats (polled.run c.cyclesPerFrame).steps
    match (c.frame keys).outcome with
    | .ok _ => .frame :: made
    | .error _ => made
  | .advance keys => [.step (c.poll keys).1.processor]
  | .machine (.step tape) => [.step ⟨c.machine, tape⟩]
  | .machine (.request .tick) => [.tick]
  | .machine (.request _) => []

theorem beats_of_frame_error {c : Console} {keys : Keypad} {fault : Fault}
    (h : (c.frame keys).outcome = .error fault) :
    let polled := (c.poll keys).1.processor
    c.beats (.frame keys) = polled.stepBeats (polled.run c.cyclesPerFrame).steps := by
  simp only [beats, h]

theorem beats_of_frame_ok {c : Console} {keys : Keypad} {signal : Option Signal}
    (h : (c.frame keys).outcome = .ok signal) :
    let polled := (c.poll keys).1.processor
    c.beats (.frame keys) = .frame :: polled.stepBeats (polled.run c.cyclesPerFrame).steps := by
  simp only [beats, h]

/-- A console and the beats that have led to it, the latest first. -/
structure Timed where
  console : Console
  beats : List Beat

namespace Timed

def start (c : Console) : Timed := ⟨c, []⟩

/-- Does something to the console and notes its beats. -/
def perform (v : Timed) (act : Act) : Timed where
  console := (v.console.perform act).state
  beats := v.console.beats act ++ v.beats

def after (v : Timed) (acts : List Act) : Timed :=
  acts.foldl perform v

theorem after_cons (v : Timed) (act : Act) (acts : List Act) :
    v.after (act :: acts) = (v.perform act).after acts := rfl

/-- The timers are on time, and the completed frames have been counted. -/
structure Kept (v : Timed) : Prop where
  onTime : OnTime v.beats v.console.machine
  counter : v.console.counter = UInt64.ofNat (v.beats.countP Beat.isFrame)

variable {v : Timed}

theorem onTime_poll (hv : OnTime v.beats v.console.machine) (keys : Keypad) :
    OnTime v.beats (v.console.poll keys).1.processor.machine :=
  hv.of_timer_eq (v.console.machine.timer_poll keys)

theorem Kept.frame (hv : v.Kept) (keys : Keypad) : (v.perform (.frame keys)).Kept := by
  let polled := (v.console.poll keys).1.processor
  let run := polled.run v.console.cyclesPerFrame
  have hsteps : OnTime (polled.stepBeats run.steps ++ v.beats) run.processor.machine := by
    rw [Run.processor_run]
    exact (onTime_poll hv.onTime keys).steps run.steps
  have hcount : (polled.stepBeats run.steps ++ v.beats).countP Beat.isFrame =
      v.beats.countP Beat.isFrame := by
    rw [List.countP_append, polled.countP_stepBeats, Nat.zero_add]
  cases houtcome : run.outcome with
  | error fault =>
      have hframe := frame_of_run_error houtcome
      have hbeats := beats_of_frame_error (congrArg (fun e : Exchange => e.outcome) hframe)
      rw [perform, hbeats]
      constructor
      · show OnTime _ (v.console.frame keys).state.machine
        rw [hframe]
        exact hsteps
      · show (v.console.frame keys).state.counter = _
        rw [hframe, hcount]
        exact hv.counter
  | ok signal =>
      have hframe := frame_of_run_ok houtcome
      have hbeats := beats_of_frame_ok (congrArg (fun e : Exchange => e.outcome) hframe)
      rw [perform, hbeats]
      constructor
      · show OnTime _ (v.console.frame keys).state.machine
        rw [hframe]
        exact (hsteps.tick rfl).of_timer_eq (Machine.timer_present _)
      · show (v.console.frame keys).state.counter =
          UInt64.ofNat (List.countP _ (.frame :: (_ ++ v.beats)))
        rw [hframe, List.countP_cons_of_pos rfl, hcount, UInt64.ofNat_add, ← hv.counter]
        rfl

theorem Kept.advance (hv : v.Kept) (keys : Keypad) : (v.perform (.advance keys)).Kept := by
  let polled := (v.console.poll keys).1.processor
  have hstep : OnTime (.step polled :: v.beats) polled.step.state.machine :=
    (onTime_poll hv.onTime keys).step
  cases houtcome : polled.step.outcome with
  | error fault =>
      have hadvance := advance_of_step_error houtcome
      constructor
      · show OnTime _ (v.console.advance keys).state.machine
        rw [hadvance]
        exact hstep
      · show (v.console.advance keys).state.counter = _
        rw [hadvance]
        exact hv.counter
  | ok signal =>
      have hadvance := advance_of_step_ok houtcome
      constructor
      · show OnTime _ (v.console.advance keys).state.machine
        rw [hadvance]
        exact hstep.of_timer_eq (Machine.timer_present _)
      · show (v.console.advance keys).state.counter = _
        rw [hadvance]
        exact hv.counter

theorem Kept.perform (hv : v.Kept) {act : Act} (hreset : act ≠ .machine (.request .reset)) :
    (v.perform act).Kept := by
  cases act with
  | frame keys => exact hv.frame keys
  | advance keys => exact hv.advance keys
  | machine act =>
      cases act with
      | step tape => exact ⟨OnTime.step (p := ⟨v.console.machine, tape⟩) hv.onTime, hv.counter⟩
      | request r =>
          by_cases htick : r = .tick
          · subst htick
            exact ⟨hv.onTime.tick rfl, hv.counter⟩
          · have hbeats : v.console.beats (.machine (.request r)) = [] := by
              cases r with
              | tick => exact absurd rfl htick
              | _ => rfl
            rw [Timed.perform, hbeats]
            refine ⟨hv.onTime.of_timer_eq ?_, hv.counter⟩
            exact v.console.machine.timer_handle htick fun h => hreset (by rw [h])

theorem Kept.after (hv : v.Kept) {acts : List Act}
    (hreset : ∀ act ∈ acts, act ≠ .machine (.request .reset)) : (v.after acts).Kept := by
  induction acts generalizing v with
  | nil => exact hv
  | cons act acts ih =>
      obtain ⟨hact, hrest⟩ := List.forall_mem_cons.mp hreset
      exact ih (hv.perform hact) hrest

/-- The account of time. A console whose timers start at zero has counted the frames that
succeeded, modulo the size of its count, whatever was done to it short of a reset. Each timer shows
the value that was written to it last, less the ticks since then, at the end and before every step
on the way; and an instruction that reads the delay timer succeeds and loads just that. -/
theorem on_time (p : Processor) (cyclesPerFrame : Nat) (hdone : ∀ t, p.machine.timer t = .done)
    {acts : List Act} (hreset : ∀ act ∈ acts, act ≠ .machine (.request .reset)) :
    let v := (start (.start p cyclesPerFrame)).after acts
    v.console.frames = v.beats.countP Beat.isFrame % UInt64.size ∧
    (∀ t, (v.console.machine.timer t).value.toNat =
      (t.lastWritten v.beats).toNat - t.ticksSince v.beats) ∧
    ∀ q past, .step q :: past <:+ v.beats →
      (∀ t, (q.machine.timer t).value.toNat = (t.lastWritten past).toNat - t.ticksSince past) ∧
      ∀ x, q.machine.Executes (.unary .readDelay x) →
        q.step.outcome = .ok .proceed ∧
          (q.step.state.machine.register x).toNat =
            (Timer.delay.lastWritten past).toNat - Timer.delay.ticksSince past := by
  intro v
  have hstart : (start (.start p cyclesPerFrame)).Kept := ⟨.start hdone, rfl⟩
  have hv : v.Kept := hstart.after hreset
  have hframes : v.console.frames = v.beats.countP Beat.isFrame % UInt64.size :=
    (congrArg UInt64.toNat hv.counter).trans UInt64.toNat_ofNat'
  refine ⟨hframes, hv.onTime.now, fun q past hsuffix => ?_⟩
  have hbefore := hv.onTime.before q past hsuffix
  refine ⟨hbefore, fun x hi => ?_⟩
  obtain ⟨houtcome, hregister⟩ := Processor.step_readDelay hi
  refine ⟨houtcome, ?_⟩
  rw [hregister]
  exact hbefore .delay

/-- The program `F0 15 F1 07` sets the delay timer to five and reads it in the same frame. It reads
five, and the frame leaves four. -/
theorem on_time_within_frame :
    let program := [0xF0, 0x15, 0xF1, 0x07]
    let memory := Memory.zeros.place Memory.programStart program
    let m : Machine := { Machine.initial.setRegister 0 5 with memory }
    let tape : RandomTape := .cycle #[]
    let v := (start (.start ⟨m, tape⟩ 2)).after [.frame .released]
    v.console.frames = 1 ∧ (v.console.machine.timer .delay).value.toNat = 4 ∧
      (v.console.machine.register 1).toNat = 5 := by
  intro program memory m tape v
  have hfetch : ∀ (k : Nat) (hk : k + 1 < program.length),
      memory.fetch (Memory.programStart + k) = .ok (.ofBytes program[k] program[k + 1]) :=
    fun k hk => Memory.fetch_place _ hk (by decide)
  clear_value memory
  let counting : Machine := { m with delay := ⟨5⟩, programCounter := 0x202 }
  let read : Machine := { counting.setRegister 1 5 with programCounter := 0x204 }
  have hfirst : m.fetch = .ok (.ofBytes 0xF0 0x15) := Machine.fetch_of_memory (hfetch 0 (by decide))
  have hsecond : counting.fetch = .ok (.ofBytes 0xF1 0x07) :=
    Machine.fetch_of_memory (hfetch 2 (by decide))
  have hset : Processor.step ⟨m, tape⟩ = ⟨.ok .proceed, ⟨counting, tape⟩,
      [.decoded 0x200 (.ofBytes 0xF0 0x15) (.unary .setDelay 0)]⟩ := by
    rw [Processor.step_of_fetch (p := ⟨m, tape⟩) (i := .unary .setDelay 0) rfl hfirst rfl]
    rfl
  have hread : Processor.step ⟨counting, tape⟩ = ⟨.ok .proceed, ⟨read, tape⟩,
      [.decoded 0x202 (.ofBytes 0xF1 0x07) (.unary .readDelay 1)]⟩ := by
    rw [Processor.step_of_fetch (p := ⟨counting, tape⟩) (i := .unary .readDelay 1) rfl hsecond rfl]
    rfl
  have hrun : Processor.run ⟨m, tape⟩ 2 = ⟨⟨read, tape⟩, 2, .ok .proceed,
      [.decoded 0x202 (.ofBytes 0xF1 0x07) (.unary .readDelay 1),
        .decoded 0x200 (.ofBytes 0xF0 0x15) (.unary .setDelay 0)]⟩ := by
    simp only [Processor.run, Run.advance, Run.step, Run.start, hset, hread, Run.isOver]
    rfl
  let c : Console := .start ⟨m, tape⟩ 2
  have hpoll : (c.poll .released).1 = c := poll_eq_self rfl rfl
  have hpolled : (c.poll .released).1.processor.run c.cyclesPerFrame = _ :=
    (congrArg (fun polled => polled.processor.run 2) hpoll).trans hrun
  have hframe : c.frame .released = _ := frame_of_run_ok (congrArg Run.outcome hpolled)
  let past : List Beat := [.step ⟨m, tape⟩]
  have hbeats : v.beats = .frame :: .step ⟨counting, tape⟩ :: past := by
    show c.beats (.frame .released) ++ [] = _
    rw [beats_of_frame_ok (congrArg (fun e : Exchange => e.outcome) hframe), hpolled, hpoll]
    show [Beat.frame, .step (Processor.step ⟨m, tape⟩).state, .step ⟨m, tape⟩] = _
    rw [hset]
  have hsets : m.Executes (.unary .setDelay 0) := Machine.executes_of_fetch rfl hfirst rfl
  have hwritten : (Beat.step ⟨m, tape⟩).written? .delay = some 5 :=
    Machine.written?_of_executes hsets
  have hpast : Timer.delay.remaining past = 5 := Timer.remaining_of_written hwritten
  have hreads : counting.Executes (.unary .readDelay 1) :=
    Machine.executes_of_fetch rfl hsecond rfl
  have hunwritten : (Beat.step ⟨counting, tape⟩).written? .delay = none :=
    Machine.written?_of_executes hreads
  have hdone : ∀ t, m.timer t = .done := by
    intro t
    cases t <;> rfl
  have hreset : ∀ act ∈ [Act.frame .released], act ≠ .machine (.request .reset) := by simp
  obtain ⟨hframes, hnow, hbefore⟩ := on_time ⟨m, tape⟩ 2 hdone hreset
  refine ⟨?_, ?_, ?_⟩
  · refine hframes.trans ?_
    show v.beats.countP Beat.isFrame % UInt64.size = 1
    rw [hbeats]
    rfl
  · refine (hnow .delay).trans ?_
    show Timer.delay.remaining v.beats = 4
    rw [hbeats, Timer.remaining_of_not_written rfl, Timer.remaining_of_not_written hunwritten,
      hpast]
    rfl
  · have hsuffix : .step ⟨counting, tape⟩ :: past <:+ v.beats := by
      rw [hbeats]
      exact List.suffix_cons _ _
    obtain ⟨-, hloaded⟩ := (hbefore ⟨counting, tape⟩ past hsuffix).2 1 hreads
    rw [hread] at hloaded
    show ((c.frame .released).state.machine.register 1).toNat = 5
    rw [hframe, hpolled]
    exact hloaded.trans hpast

end Timed

end Console

end Chip8
