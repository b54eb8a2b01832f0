import Chip8.Playback
import Chip8.Proofs.Face
import Chip8.Proofs.Redraw

/-!
Single steps keep up with a frame.

A console that is asked for single steps polls the keys before each of them and hands the display
over after each of them, where a frame does both once. Polling again changes nothing, and the mark
does not influence the program, so the machines differ in the mark at most: `Playback.Follows` is
the relation between the steps of a frame and as many single steps, and
`Console.play_advance_eq_frame` what it comes to.
-/

namespace Chip8

namespace Machine

/-- Two machines that differ at most in the mark that the display has changed. -/
def SameButMark (a b : Machine) : Prop :=
  b = { a with redraw := b.redraw }

theorem SameButMark.trans {a b c : Machine} (hab : SameButMark a b) (hbc : SameButMark b c) :
    SameButMark a c := by
  rw [SameButMark, hab] at hbc
  exact hbc

theorem sameButMark_present (m : Machine) : SameButMark m m.present.1 := by
  rw [present]
  split <;> rfl

/-- Polling keys that are already known changes nothing unless the program waits. -/
theorem poll_eq_self {m : Machine} {keys : Keypad} (hkeypad : m.keypad = keys)
    (hwait : m.awaiting = none) : (m.poll keys).1 = m := by
  subst hkeypad
  rw [poll]
  cases m.keypad.lowest? with
  | none => rfl
  | some key =>
      show (m.receive key).1 = m
      rw [receive, hwait]

theorem keypad_poll (m : Machine) (keys : Keypad) : (m.poll keys).1.keypad = keys := by
  rw [poll]
  cases keys.lowest? with
  | none => rfl
  | some key =>
      simp only [receive]
      split <;> rfl

/-- Without a mark on one of two machines that are otherwise the same, handing the display over
makes them the same. -/
theorem SameButMark.tick_eq {a b : Machine} (h : SameButMark a b) (hmark : b.redraw = false) :
    b.tick = a.tick.present.1 := by
  rw [h, hmark, present]
  show { a.tick with redraw := false } = _
  split
  · rfl
  · rename_i hunmarked
    show { a.tick with redraw := false } = a.tick
    rw [← Bool.eq_false_iff.mpr hunmarked]

end Machine

namespace Processor

open Machine

/-- The mark does not influence a step. -/
theorem step_of_sameButMark {p q : Processor} (hmachine : SameButMark p.machine q.machine)
    (htape : q.tape = p.tape) :
    q.step.outcome = p.step.outcome ∧ q.step.events = p.step.events ∧
      SameButMark p.step.state.machine q.step.state.machine ∧
      q.step.state.tape = p.step.state.tape := by
  have hq : q = p.reface p.machine.sound q.machine.redraw := by
    obtain ⟨machine, tape⟩ := q
    cases htape
    exact congrArg (Processor.mk · p.tape) hmachine
  obtain ⟨sound, redraw, hstep, hsound⟩ := p.step_reface p.machine.sound q.machine.redraw
  rw [← hq] at hstep
  rw [hstep, hsound rfl]
  exact ⟨rfl, rfl, rfl, rfl⟩

end Processor

namespace Run

theorem advance_succ_of_isOver {r : Run} (h : r.step.isOver = true) (count : Nat) :
    r.advance (count + 1) = r.step := by
  rw [advance]
  exact if_pos h

theorem advance_succ_of_not_isOver {r : Run} (h : r.step.isOver = false) (count : Nat) :
    r.advance (count + 1) = r.step.advance count := by
  rw [advance]
  exact if_neg (Bool.eq_false_iff.mp h)

theorem isOver_eq_false {r : Run} {signal : Signal} (h : r.outcome = .ok signal)
    (hwait : signal ≠ .wait) : r.isOver = false := by
  rw [isOver, h]
  cases signal with
  | wait => exact absurd rfl hwait
  | proceed | draw => rfl

end Run

namespace Playback

theorem advance_succ_of_error {b : Playback} {request : Console.Request} {fault : Fault}
    (h : (b.step request).outcome = .error fault) (count : Nat) :
    b.advance request (count + 1) = b.step request := by
  simp only [advance, h]

theorem advance_succ_of_ok {b : Playback} {request : Console.Request} {signal : Option Signal}
    (h : (b.step request).outcome = .ok signal) (count : Nat) :
    b.advance request (count + 1) = (b.step request).advance request count := by
  simp only [advance, h]

/-- Making a request again and again stops at the first failure: every shorter playback succeeds,
and one that succeeds has made them all. -/
theorem exists_advance_eq (b : Playback) (request : Console.Request) {start : Option Signal}
    (hstart : b.outcome = .ok start) (count : Nat) :
    ∃ tries ≤ count, (b.advance request count).tries = b.tries + tries ∧
      b.advance request tries = b.advance request count ∧
      (∀ k < tries, ∃ signal, (b.advance request k).outcome = .ok signal) ∧
      ∀ signal, (b.advance request count).outcome = .ok signal → tries = count := by
  induction count generalizing b start with
  | zero => exact ⟨0, Nat.le_refl 0, rfl, rfl, nofun, fun _ _ => rfl⟩
  | succ count ih =>
      cases hstep : (b.step request).outcome with
      | error fault =>
          have hadvance := advance_succ_of_error hstep
          refine ⟨1, Nat.le_add_left 1 count, ?_, ?_, ?_, ?_⟩
          · rw [hadvance]
            rfl
          · rw [hadvance, hadvance]
          · intro k hk
            rw [Nat.lt_one_iff.mp hk]
            exact ⟨start, hstart⟩
          · intro signal hok
            rw [hadvance, hstep] at hok
            cases hok
      | ok signal =>
          have hadvance := advance_succ_of_ok hstep
          obtain ⟨tries, hle, htries, heq, hshorter, hall⟩ := ih (b.step request) hstep
          refine ⟨tries + 1, Nat.succ_le_succ hle, ?_, ?_, ?_, ?_⟩
          · rw [hadvance, htries]
            show b.tries + 1 + tries = b.tries + (tries + 1)
            omega
          · rw [hadvance, hadvance, heq]
          · intro k hk
            cases k with
            | zero => exact ⟨start, hstart⟩
            | succ k =>
                rw [hadvance]
                exact hshorter k (Nat.lt_of_succ_lt_succ hk)
          · intro last hlast
            rw [hadvance] at hlast
            rw [hall last hlast]

/-- The display that is handed over to a viewer who has been shown some displays before. -/
def latest (m : Machine) (shown : List Framebuffer) : Option Framebuffer :=
  if m.redraw then some m.display else shown.head?

/-- Single steps of `c` that are about to make the step that the run of a frame is about to make. -/
structure Follows (c : Console) (keys : Keypad) (r : Run) (b : Playback) : Prop where
  console : b.console = { c with processor := b.console.processor }
  tries : b.tries = r.steps
  machine : Machine.SameButMark r.processor.machine (b.console.machine.poll keys).1
  tape : b.console.processor.tape = r.processor.tape
  keypad : r.processor.machine.keypad = keys
  shown : latest (b.console.machine.poll keys).1 b.shown = latest r.processor.machine []

/-- Single steps of `c` that have just made the step that the run of a frame has just made. -/
structure Agrees (c : Console) (r : Run) (b : Playback) : Prop where
  console : b.console = { c with processor := b.console.processor }
  tries : b.tries = r.steps
  outcome : b.outcome = r.outcome.map some
  machine : Machine.SameButMark r.processor.machine b.console.machine
  tape : b.console.processor.tape = r.processor.tape
  shown : ∀ signal, r.outcome = .ok signal →
    b.console.machine.redraw = false ∧ b.shown.head? = latest r.processor.machine []

variable {c : Console} {keys : Keypad} {r : Run} {b : Playback}

theorem follows_start (c : Console) (keys : Keypad) :
    Follows c keys (.start (c.poll keys).1.processor) (.start c) where
  console := rfl
  tries := rfl
  machine := rfl
  tape := rfl
  keypad := c.machine.keypad_poll keys
  shown := rfl

theorem head?_shown_present (m : Machine) (shown : List Framebuffer) :
    (m.present.2.toList ++ shown).head? = latest m shown := by
  rw [Machine.shown_present, latest]
  split <;> rfl

/-- A step that draws on one of two machines draws on the other, so who follows the marks sees the
same display whether or not it has been handed over before. -/
theorem latest_eq_of_step {m m' n n' : Machine} {shown : List Framebuffer} {drawn : Bool}
    (hbefore : Machine.SameButMark m m') (hafter : Machine.SameButMark n n')
    (hm : n.redraw = (m.redraw || drawn)) (hm' : n'.redraw = (m'.redraw || drawn))
    (hmarked : Machine.Marked m' n') (h : latest m' shown = latest m []) :
    latest n' shown = latest n [] := by
  have hdisplay : n'.display = n.display := by rw [hafter]
  have hdisplay' : m'.display = m.display := by rw [hbefore]
  rw [latest, latest] at h ⊢
  cases hdrawn : drawn with
  | true =>
      rw [hdrawn, Bool.or_true] at hm hm'
      rw [if_pos hm, if_pos hm', hdisplay]
  | false =>
      rw [hdrawn, Bool.or_false] at hm hm'
      rw [hm, hm']
      cases hmark' : m'.redraw with
      | true =>
          rw [hmark', if_pos rfl] at h
          cases hmark : m.redraw with
          | true => rw [if_pos rfl, if_pos rfl, hdisplay]
          | false =>
              rw [hmark] at h
              cases h
      | false =>
          -- Nothing was drawn, so the display that was handed over before is still the latest.
          have hkept : n.display = m.display := by
            rw [← hdisplay, ← hdisplay']
            exact hmarked.display (hm'.trans hmark')
          rw [hmark'] at h
          rw [hkept]
          exact h

/-- A single step makes the step of the run. -/
theorem Follows.step (h : Follows c keys r b) : Agrees c r.step (b.step (.advance keys)) := by
  let polled := (b.console.poll keys).1.processor
  have hmachine : Machine.SameButMark r.processor.machine polled.machine := h.machine
  obtain ⟨houtcome, hevents, hstate, htape⟩ := Processor.step_of_sameButMark hmachine h.tape
  cases hsignal : polled.step.outcome with
  | error fault =>
      have hadvance : b.console.handle (.advance keys) = _ := Console.advance_of_step_error hsignal
      have hfailed : r.step.outcome = .error fault := houtcome.symm.trans hsignal
      refine ⟨?_, ?_, ?_, ?_, ?_, ?_⟩
      · rw [Playback.step, hadvance, h.console]
      · exact congrArg (· + 1) h.tries
      · rw [Playback.step, hadvance, hfailed]
        rfl
      · rw [Playback.step, hadvance]
        exact hstate
      · rw [Playback.step, hadvance]
        exact htape
      · intro signal hok
        cases hfailed.symm.trans hok
  | ok signal =>
      have hadvance : b.console.handle (.advance keys) = _ := Console.advance_of_step_ok hsignal
      have hdone : r.step.outcome = .ok signal := houtcome.symm.trans hsignal
      refine ⟨?_, ?_, ?_, ?_, ?_, ?_⟩
      · rw [Playback.step, hadvance, h.console]
      · exact congrArg (· + 1) h.tries
      · rw [Playback.step, hadvance, hdone]
        rfl
      · rw [Playback.step, hadvance]
        exact hstate.trans (Machine.sameButMark_present _)
      · rw [Playback.step, hadvance]
        exact htape
      · intro _ _
        have hdrawn := Processor.redraw_step (p := r.processor) hdone
        have hdrawn' := Processor.redraw_step hsignal
        rw [hevents] at hdrawn'
        rw [Playback.step, hadvance, head?_shown_present]
        exact ⟨Machine.redraw_present _,
          latest_eq_of_step hmachine hstate hdrawn hdrawn' (Processor.marked_step polled) h.shown⟩

/-- Behind a step that neither fails nor waits, polling changes nothing. -/
theorem Agrees.follows {signal : Signal} (h : Agrees c r b) (hok : r.outcome = .ok signal)
    (hkeypad : r.processor.machine.keypad = keys) (hwait : r.processor.machine.awaiting = none) :
    Follows c keys r b := by
  obtain ⟨hmark, hshown⟩ := h.shown signal hok
  have hmachine := h.machine
  have hpoll : (b.console.machine.poll keys).1 = b.console.machine := by
    refine Machine.poll_eq_self ?_ ?_
    · rw [hmachine]
      exact hkeypad
    · rw [hmachine]
      exact hwait
  refine ⟨h.console, h.tries, ?_, h.tape, hkeypad, ?_⟩
  · rw [hpoll]
    exact hmachine
  · rw [hpoll, ← hshown, latest, hmark]
    rfl

/-- Single steps keep up with a run that does not end waiting. -/
theorem Follows.advance (h : Follows c keys r b) (count : Nat)
    (hwait : (r.advance (count + 1)).outcome ≠ .ok .wait) :
    Agrees c (r.advance (count + 1)) (b.advance (.advance keys) (count + 1)) := by
  induction count generalizing r b with
  | zero =>
      have hb : b.advance (.advance keys) 1 = b.step (.advance keys) := by
        cases hstep : (b.step (.advance keys)).outcome with
        | error fault => exact advance_succ_of_error hstep 0
        | ok signal => exact advance_succ_of_ok hstep 0
      have hr : r.advance 1 = r.step := by
        cases hover : r.step.isOver with
        | true => exact Run.advance_succ_of_isOver hover 0
        | false => exact Run.advance_succ_of_not_isOver hover 0
      rw [hb, hr]
      exact h.step
  | succ count ih =>
      have hagrees := h.step
      have houtcome := hagrees.outcome
      cases hstep : r.step.outcome with
      | error fault =>
          rw [hstep] at houtcome
          have hover : r.step.isOver = true := by rw [Run.isOver, hstep]
          rw [Run.advance_succ_of_isOver hover, advance_succ_of_error houtcome]
          exact hagrees
      | ok signal =>
          rw [hstep] at houtcome
          have hsignal : signal ≠ .wait := by
            rintro rfl
            have hover : r.step.isOver = true := by rw [Run.isOver, hstep]
            rw [Run.advance_succ_of_isOver hover] at hwait
            exact hwait hstep
          have hgoes : r.step.isOver = false := Run.isOver_eq_false hstep hsignal
          rw [Run.advance_succ_of_not_isOver hgoes] at hwait ⊢
          rw [advance_succ_of_ok houtcome]
          have hkeypad : r.step.processor.machine.keypad = keys :=
            r.processor.keypad_step.trans h.keypad
          have hawaiting : r.step.processor.machine.awaiting = none := by
            refine Decidable.of_not_not fun hawaits => ?_
            have hwaits : r.step.outcome = .ok .wait := r.processor.step_wait_iff.mpr hawaits
            rw [hstep, Except.ok.injEq] at hwaits
            exact hsignal hwaits
          exact ih (hagrees.follows hstep hkeypad hawaiting) hwait

theorem Agrees.console_eq (h : Agrees c r b) :
    b.console = { c with processor := r.processor.withMachine b.console.machine } := by
  rw [Processor.withMachine, ← h.tape]
  exact h.console

/-- With one more tick, the single steps lead to the console that the frame leads to, before it is
counted. -/
theorem Agrees.withMachine_tick_eq {signal : Signal} (h : Agrees c r b)
    (hok : r.outcome = .ok signal) :
    b.console.withMachine b.console.machine.tick =
      { c with processor := r.processor.withMachine r.processor.machine.tick.present.1 } := by
  have htick := h.machine.tick_eq (h.shown signal hok).1
  have hspeed : b.console.cyclesPerFrame = c.cyclesPerFrame := by rw [h.console]
  have hcounter : b.console.counter = c.counter := by rw [h.console]
  show Console.mk ⟨b.console.machine.tick, b.console.processor.tape⟩ b.console.cyclesPerFrame
      b.console.counter =
    Console.mk ⟨r.processor.machine.tick.present.1, r.processor.tape⟩ c.cyclesPerFrame c.counter
  rw [htick, h.tape, hspeed, hcounter]

end Playback

namespace Console

theorem one_le_cyclesOfHertz (hertz : Nat) : 1 ≤ cyclesOfHertz hertz := by
  refine Nat.le_min.mpr ⟨Nat.le_max_right _ _, ?_⟩
  decide

/-- As many single steps as a frame makes agree with the run of the frame. -/
theorem agrees_play {c : Console} {keys : Keypad} (hcycles : 1 ≤ c.cyclesPerFrame)
    (hwait : ((c.poll keys).1.processor.run c.cyclesPerFrame).outcome ≠ .ok .wait) :
    Playback.Agrees c ((c.poll keys).1.processor.run c.cyclesPerFrame)
      (c.play (.advance keys) c.cyclesPerFrame) := by
  obtain ⟨count, hcount⟩ : ∃ count, c.cyclesPerFrame = count + 1 :=
    Nat.exists_eq_succ_of_ne_zero (Nat.one_le_iff_ne_zero.mp hcycles)
  rw [hcount] at hwait ⊢
  exact (Playback.follows_start c keys).advance count hwait

/-- As many single steps as a frame makes do what the frame does, unless the program waits in it.
If the frame succeeds, so do all of them; what the frame does on top is to let the timers tick and
to be counted, and the display it hands over is the last one that they hand over. If it fails, the
same step fails with the same fault, and the machines differ at most in the mark that the display
has changed. -/
theorem play_advance_eq_frame (c : Console) (keys : Keypad) (hcycles : 1 ≤ c.cyclesPerFrame)
    (hwait : (c.frame keys).outcome ≠ .ok (some .wait)) :
    let frame := c.frame keys
    let run := (c.poll keys).1.processor.run c.cyclesPerFrame
    let played := c.play (.advance keys) c.cyclesPerFrame
    played.outcome = frame.outcome ∧ played.tries = run.steps ∧
    c.play (.advance keys) run.steps = played ∧
    (∀ k < run.steps, ∃ signal, (c.play (.advance keys) k).outcome = .ok signal) ∧
    (∀ signal, frame.outcome = .ok signal →
      run.steps = c.cyclesPerFrame ∧
      frame.state =
        { played.console.withMachine played.console.machine.tick with
          counter := played.console.counter + 1 } ∧
      played.shown.head? = frame.shown) ∧
    (∀ fault, frame.outcome = .error fault →
      frame.state.machine.SameButMark played.console.machine ∧
      played.console = frame.state.withMachine played.console.machine) := by
  intro frame run played
  have hoff : run.outcome ≠ .ok .wait := by
    intro hrun
    refine hwait ?_
    rw [frame_of_run_ok hrun]
  have hagrees : Playback.Agrees c run played := agrees_play hcycles hoff
  obtain ⟨tries, -, htries, heq, hshorter, hall⟩ :=
    (Playback.start c).exists_advance_eq (.advance keys) rfl c.cyclesPerFrame
  have hsteps : tries = run.steps := by
    rw [← hagrees.tries]
    exact (Nat.zero_add tries).symm.trans htries.symm
  subst hsteps
  have houtcome := hagrees.outcome
  cases hrun : run.outcome with
  | error fault =>
      have hframe : frame = _ := frame_of_run_error hrun
      rw [hrun] at houtcome
      rw [hframe]
      refine ⟨houtcome, hagrees.tries, heq, hshorter, nofun, ?_⟩
      intro _ _
      exact ⟨hagrees.machine, hagrees.console_eq⟩
  | ok signal =>
      have hframe : frame = _ := frame_of_run_ok hrun
      rw [hrun] at houtcome
      obtain ⟨-, hshown⟩ := hagrees.shown signal hrun
      rw [hframe]
      refine ⟨houtcome, hagrees.tries, heq, hshorter, ?_, nofun⟩
      intro _ _
      refine ⟨hall _ houtcome, ?_, ?_⟩
      · have hcounter : played.console.counter = c.counter := by rw [hagrees.console]
        rw [hagrees.withMachine_tick_eq hrun, hcounter]
      · rw [hshown, Machine.shown_present]
        rfl

/-- The program clears the screen, loads a register and returns without a call. With two steps in
a frame it gets through the first frame, with three it does not. -/
theorem play_advance_eq_frame_lone_return :
    let m := Machine.initial.after [.request (.load [0x00, 0xE0, 0x60, 0x07, 0x00, 0xEE])]
    let c (hertz : Nat) : Console := .start ⟨m, .cycle #[]⟩ (cyclesOfHertz hertz)
    let played (hertz : Nat) := (c hertz).play (.advance .released) (c hertz).cyclesPerFrame
    1 ≤ (c 120).cyclesPerFrame ∧ ((c 120).frame .released).outcome = .ok (some .proceed) ∧
      (played 120).outcome = .ok (some .proceed) ∧ (played 120).shown.head? = some .blank ∧
      1 ≤ (c 180).cyclesPerFrame ∧ ((c 180).frame .released).outcome = .error (.stack .empty) ∧
      (played 180).outcome = .error (.stack .empty) ∧ (played 180).tries = 3 ∧
      (played 180).console.machine.register 0 = 7 := by
  intro m c played
  obtain ⟨memory, hload, hfetch⟩ :=
    Machine.load_initial [0x00, 0xE0, 0x60, 0x07, 0x00, 0xEE] (by decide)
  have hm : m = { Machine.initial with memory } := hload
  clear_value m
  let tape : RandomTape := .cycle #[]
  let cleared : Machine := { m.clearDisplay with programCounter := 0x202 }
  let loaded : Machine := { cleared.setRegister 0 7 with programCounter := 0x204 }
  have hclear : m.fetch = .ok (.ofBytes 0x00 0xE0) := by
    rw [hm]
    exact congrArg (Except.mapError Fault.memory) (hfetch 0 (by decide))
  have hregister : cleared.fetch = .ok (.ofBytes 0x60 0x07) := by
    simp only [cleared, hm]
    exact congrArg (Except.mapError Fault.memory) (hfetch 2 (by decide))
  have hreturn : loaded.fetch = .ok (.ofBytes 0x00 0xEE) := by
    simp only [loaded, cleared, hm]
    exact congrArg (Except.mapError Fault.memory) (hfetch 4 (by decide))
  have hfirst : Processor.step ⟨m, tape⟩ =
      ⟨.ok .draw, ⟨cleared, tape⟩,
        [.decoded m.programCounter (.ofBytes 0x00 0xE0) .clearDisplay]⟩ := by
    rw [Processor.step_of_fetch (p := ⟨m, tape⟩) (i := .clearDisplay)
      (congrArg Machine.awaiting hm) hclear rfl]
    simp only [cleared, hm]
    rfl
  have hsecond : Processor.step ⟨cleared, tape⟩ =
      ⟨.ok .proceed, ⟨loaded, tape⟩, [.decoded 0x202 (.ofBytes 0x60 0x07) (.loadByte 0 7)]⟩ := by
    rw [Processor.step_of_fetch (p := ⟨cleared, tape⟩) (i := .loadByte 0 7)
      (congrArg Machine.awaiting hm) hregister rfl]
    rfl
  have hthird : Processor.step ⟨loaded, tape⟩ =
      ⟨.error (.stack .empty), ⟨loaded, tape⟩,
        [.decoded 0x204 (.ofBytes 0x00 0xEE) .leave]⟩ := by
    rw [Processor.step_of_fetch (p := ⟨loaded, tape⟩) (i := .leave)
      (congrArg Machine.awaiting hm) hreturn rfl]
    simp only [loaded, cleared, hm]
    rfl
  have hpoll : ∀ hertz, ((c hertz).poll .released).1.processor = ⟨m, tape⟩ := by
    intro hertz
    have hsame : (m.poll .released).1 = m := by
      refine Machine.poll_eq_self ?_ (congrArg Machine.awaiting hm)
      rw [hm]
      rfl
    exact congrArg (Processor.mk · tape) hsame
  have hrun₂ : Processor.run ⟨m, tape⟩ 2 = ⟨⟨loaded, tape⟩, 2, .ok .proceed,
      [.decoded 0x202 (.ofBytes 0x60 0x07) (.loadByte 0 7),
        .decoded m.programCounter (.ofBytes 0x00 0xE0) .clearDisplay]⟩ := by
    simp only [Processor.run, Run.advance, Run.step, Run.start, hfirst, hsecond, Run.isOver]
    rfl
  have hrun₃ : Processor.run ⟨m, tape⟩ 3 = ⟨⟨loaded, tape⟩, 3, .error (.stack .empty),
      [.decoded 0x204 (.ofBytes 0x00 0xEE) .leave,
        .decoded 0x202 (.ofBytes 0x60 0x07) (.loadByte 0 7),
        .decoded m.programCounter (.ofBytes 0x00 0xE0) .clearDisplay]⟩ := by
    simp only [Processor.run, Run.advance, Run.step, Run.start, hfirst, hsecond, hthird,
      Run.isOver]
    rfl
  have hsucceeded : (((c 120).poll .released).1.processor.run (c 120).cyclesPerFrame).outcome =
      .ok .proceed := by
    rw [hpoll]
    exact congrArg Run.outcome hrun₂
  have hfailed : (((c 180).poll .released).1.processor.run (c 180).cyclesPerFrame).outcome =
      .error (.stack .empty) := by
    rw [hpoll]
    exact congrArg Run.outcome hrun₃
  have hframe₂ := frame_of_run_ok hsucceeded
  have hframe₃ := frame_of_run_error hfailed
  have hok : ((c 120).frame .released).outcome = .ok (some .proceed) := by rw [hframe₂]
  have herror : ((c 180).frame .released).outcome = .error (.stack .empty) := by rw [hframe₃]
  obtain ⟨houtcome₂, -, -, -, hsuccess, -⟩ :=
    play_advance_eq_frame (c 120) .released (one_le_cyclesOfHertz 120) (by simp [hok])
  obtain ⟨houtcome₃, htries, -, -, -, hfailure⟩ :=
    play_advance_eq_frame (c 180) .released (one_le_cyclesOfHertz 180) (by simp [herror])
  obtain ⟨-, -, hshown⟩ := hsuccess _ hok
  obtain ⟨hmachine, -⟩ := hfailure _ herror
  refine ⟨one_le_cyclesOfHertz 120, hok, houtcome₂.trans hok, ?_, one_le_cyclesOfHertz 180, herror,
    houtcome₃.trans herror, ?_, ?_⟩
  · rw [hshown, hframe₂, hpoll]
    show (Processor.run ⟨m, tape⟩ 2).processor.machine.tick.present.2 = _
    rw [hrun₂]
    exact congrArg some (Framebuffer.clear_eq_blank _)
  · rw [htries, hpoll]
    exact congrArg Run.steps hrun₃
  · show (played 180).console.machine.registers.get 0 = 7
    rw [hmachine, hframe₃, hpoll]
    show (Processor.run ⟨m, tape⟩ 3).processor.machine.registers.get 0 = 7
    rw [hrun₃]
    simp only [loaded, cleared, hm]
    rfl

end Console

end Chip8
