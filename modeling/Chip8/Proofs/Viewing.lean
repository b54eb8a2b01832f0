import Chip8.Proofs.Redraw

/-!
What the viewer of a console sees.

A console is watched together with the screen that it handed over last. The invariant is
`Viewed.Coherent`: as long as the mark is not set, the viewer sees the display as it is. It is kept by
the two calls of the console and by every act on the machine inside but the two that clear the mark.
`Console.Viewed.redraw_coherent` is the result.
-/

namespace Chip8

namespace Console

/-- Something that is done to a console: one of its two calls, or an act on the machine inside. -/
inductive Act where
  | frame (keys : Keypad)
  | advance (keys : Keypad)
  | machine (act : Machine.Act)

namespace Act

/-- Whether the console itself is called. -/
def isCall : Act → Bool
  | .frame _ | .advance _ => true
  | .machine _ => false

/-- Whether the mark is left to the calls of the console. -/
def leavesMark : Act → Bool
  | .machine (.request .reset) | .machine (.request .clearRedraw) => false
  | _ => true

end Act

/-- Does something to a console; only its calls hand the display over. -/
def perform (c : Console) : Act → Exchange
  | .frame keys => c.frame keys
  | .advance keys => c.advance keys
  | .machine act => { (c.machine.perform act).map c.withMachine id with }

theorem callCase (c : Console) {call : Act} (hcall : call.isCall = true) :
    c.CallCase (c.perform call) := by
  cases call with
  | frame keys => exact callCase_frame c keys
  | advance keys => exact callCase_advance c keys
  | machine act => cases hcall

theorem marked_perform_machine (c : Console) {act : Machine.Act}
    (hmark : (Act.machine act).leavesMark = true) :
    Machine.Marked c.machine (c.perform (.machine act)).state.machine := by
  refine Machine.marked_perform c.machine (fun h => ?_) (fun h => ?_)
  · subst h
    cases hmark
  · subst h
    cases hmark

/-- A console and the screen that it handed over last. -/
structure Viewed where
  console : Console
  seen : Framebuffer

namespace Viewed

/-- A console that has handed nothing over yet; the viewer knows its display. -/
def start (c : Console) : Viewed := ⟨c, c.machine.display⟩

/-- Does something to the console under view. -/
def perform (v : Viewed) (act : Act) : Viewed where
  console := (v.console.perform act).state
  seen := (v.console.perform act).shown.getD v.seen

/-- The view after some acts. -/
def after (v : Viewed) (acts : List Act) : Viewed :=
  acts.foldl perform v

/-- Without the mark, the display is the screen that was handed over last. -/
def Coherent (v : Viewed) : Prop :=
  v.console.machine.redraw = false → v.console.machine.display = v.seen

/-- Every call among some acts fails. -/
def CallsFail (v : Viewed) : List Act → Prop
  | [] => True
  | act :: acts =>
    (act.isCall = true → ∃ fault, (v.console.perform act).outcome = .error fault) ∧
      (v.perform act).CallsFail acts

/-- A call that succeeds hands the display over if the mark was set or an instruction has drawn. -/
theorem perform_of_ok {v : Viewed} (hv : v.Coherent) {call : Act} (hcall : call.isCall = true)
    {signal : Option Signal} (hok : (v.console.perform call).outcome = .ok signal) :
    (v.perform call).console.machine.redraw = false ∧
      (v.perform call).console.machine.display = (v.perform call).seen ∧
      (v.console.perform call).shown =
        if v.console.machine.redraw || (v.console.perform call).events.any Event.draws then
          some (v.perform call).console.machine.display
        else none := by
  cases v.console.callCase hcall with
  | failed fault houtcome _ _ =>
      rw [hok] at houtcome
      cases houtcome
  | succeeded _ drawn _ hmarked hredraw hstate hshown =>
      have hdisplay : (v.perform call).console.machine.display = drawn.display := by
        rw [← drawn.display_present, ← hstate]
        rfl
      rw [drawn.shown_present] at hshown
      refine ⟨?_, ?_, ?_⟩
      · rw [← drawn.redraw_present, ← hstate]
        rfl
      · rw [hdisplay, perform, hshown]
        split
        · rfl
        · rename_i hunset
          have hfalse := Bool.eq_false_iff.mpr hunset
          rw [hmarked.display hfalse]
          exact hv (hmarked.redraw_eq_false hfalse)
      · rw [hshown, hredraw, hdisplay]

/-- A call that fails hands nothing over and leaves the mark. -/
theorem perform_of_error {v : Viewed} {call : Act} (hcall : call.isCall = true) {fault : Fault}
    (herror : (v.console.perform call).outcome = .error fault) :
    (v.console.perform call).shown = none ∧
      Machine.Marked v.console.machine (v.perform call).console.machine := by
  cases v.console.callCase hcall with
  | failed _ _ hmarked hshown => exact ⟨hshown, hmarked⟩
  | succeeded _ _ houtcome _ _ _ _ =>
      rw [herror] at houtcome
      cases houtcome

theorem Coherent.of_marked {v next : Viewed} (hv : v.Coherent)
    (hmarked : Machine.Marked v.console.machine next.console.machine) (hseen : next.seen = v.seen) :
    next.Coherent := by
  intro hfalse
  rw [hmarked.display hfalse, hseen]
  exact hv (hmarked.redraw_eq_false hfalse)

theorem Coherent.perform {v : Viewed} (hv : v.Coherent) {act : Act}
    (hmark : act.leavesMark = true) : (v.perform act).Coherent := by
  cases hcall : act.isCall with
  | true =>
      cases houtcome : (v.console.perform act).outcome with
      | error fault =>
          obtain ⟨hshown, hmarked⟩ := perform_of_error hcall houtcome
          refine hv.of_marked hmarked ?_
          rw [Viewed.perform, hshown]
          rfl
      | ok signal =>
          obtain ⟨-, hdisplay, -⟩ := perform_of_ok hv hcall houtcome
          exact fun _ => hdisplay
  | false =>
      cases act with
      | frame keys | advance keys => cases hcall
      | machine act => exact hv.of_marked (v.console.marked_perform_machine hmark) rfl

theorem Coherent.after {v : Viewed} (hv : v.Coherent) {acts : List Act}
    (hmark : ∀ act ∈ acts, act.leavesMark = true) : (v.after acts).Coherent := by
  induction acts generalizing v with
  | nil => exact hv
  | cons act acts ih =>
      obtain ⟨hact, hrest⟩ := List.forall_mem_cons.mp hmark
      exact ih (hv.perform hact) hrest

/-- The mark stays set as long as no call succeeds. -/
theorem CallsFail.redraw_after {v : Viewed} {acts : List Act} (hfail : v.CallsFail acts)
    (hmark : ∀ act ∈ acts, act.leavesMark = true) (hpending : v.console.machine.redraw = true) :
    (v.after acts).console.machine.redraw = true := by
  induction acts generalizing v with
  | nil => exact hpending
  | cons act acts ih =>
      obtain ⟨hact, hrest⟩ := List.forall_mem_cons.mp hmark
      obtain ⟨herror, hfail⟩ := hfail
      refine ih hfail hrest ?_
      cases hcall : act.isCall with
      | true =>
          obtain ⟨fault, hfault⟩ := herror hcall
          exact (perform_of_error hcall hfault).2.pending hpending
      | false =>
          cases act with
          | frame keys | advance keys => cases hcall
          | machine act => exact (v.console.marked_perform_machine hact).pending hpending

/-- Redraw coherence: after any frames, single steps and acts on the machine that do not clear the
mark, an unmarked display is the screen that was handed over last. A call that succeeds leaves no
mark and hands over one screen or none, as the mark was set or an instruction has drawn; a call that
fails hands over none, and a mark that is set waits for the next call that succeeds. -/
theorem redraw_coherent (c : Console) {acts : List Act}
    (hmark : ∀ act ∈ acts, act.leavesMark = true) :
    let v := (start c).after acts
    (v.console.machine.redraw = false → v.console.machine.display = v.seen) ∧
    (∀ call : Act, call.isCall = true →
      let exchange := v.console.perform call
      let next := v.perform call
      (∀ signal, exchange.outcome = .ok signal →
        next.console.machine.redraw = false ∧ next.console.machine.display = next.seen ∧
          exchange.shown =
            if v.console.machine.redraw || exchange.events.any Event.draws then
              some next.console.machine.display
            else none) ∧
      (∀ fault, exchange.outcome = .error fault →
        exchange.shown = none ∧
          (v.console.machine.redraw = true → next.console.machine.redraw = true))) ∧
    (v.console.machine.redraw = true →
      ∀ later : List Act, (∀ act ∈ later, act.leavesMark = true) → v.CallsFail later →
        ∀ call : Act, call.isCall = true →
          let pending := v.after later
          let exchange := pending.console.perform call
          pending.console.machine.redraw = true ∧
            ∀ signal, exchange.outcome = .ok signal →
              exchange.shown = some exchange.state.machine.display) := by
  intro v
  have hv : v.Coherent := Coherent.after (v := start c) (fun _ => rfl) hmark
  refine ⟨hv, fun call hcall => ⟨fun signal hok => ?_, fun fault herror => ?_⟩, ?_⟩
  · exact perform_of_ok hv hcall hok
  · obtain ⟨hshown, hmarked⟩ := perform_of_error hcall herror
    exact ⟨hshown, hmarked.pending⟩
  · intro hpending later hlater hfail call hcall pending exchange
    have hstill : pending.console.machine.redraw = true := hfail.redraw_after hlater hpending
    refine ⟨hstill, fun signal hok => ?_⟩
    have hpendingCoherent : pending.Coherent := hv.after hlater
    obtain ⟨-, -, hshown⟩ := perform_of_ok hpendingCoherent hcall hok
    rw [hstill, Bool.true_or, if_pos rfl] at hshown
    exact hshown

/-- A frame clears the screen and fails in its second step: nothing is handed over until a later
call succeeds. -/
theorem redraw_coherent_failed_frame :
    let program := [0x00, 0xE0, 0x00, 0xEE, 0x12, 0x04]
    let memory := Memory.zeros.place Memory.programStart program
    let m : Machine := { Machine.initial with memory, display := Framebuffer.blank.toggle 0 0 }
    let tape : RandomTape := .cycle #[]
    let c : Console := .start ⟨m, tape⟩ 2
    let v := (start c).after [.frame .released]
    let w := v.after [.machine (.request (.move .next))]
    v.seen = Framebuffer.blank.toggle 0 0 ∧ v.console.machine.display = .blank ∧
      w.console.machine.redraw = true ∧
      (w.console.perform (.advance .released)).shown = some .blank := by
  intro program memory m tape c v w
  have hfetch : ∀ (k : Nat) (hk : k + 1 < program.length),
      memory.fetch (Memory.programStart + k) = .ok (.ofBytes program[k] program[k + 1]) :=
    fun k hk => Memory.fetch_place _ hk (by decide)
  clear_value memory
  let cleared (programCounter : UInt16) : Machine := { m.clearDisplay with programCounter }
  have hclear : m.fetch = .ok (.ofBytes 0x00 0xE0) :=
    congrArg (Except.mapError Fault.memory) (hfetch 0 (by decide))
  have hreturn : (cleared 0x202).fetch = .ok (.ofBytes 0x00 0xEE) :=
    congrArg (Except.mapError Fault.memory) (hfetch 2 (by decide))
  have hjump : (cleared 0x204).fetch = .ok (.ofBytes 0x12 0x04) :=
    congrArg (Except.mapError Fault.memory) (hfetch 4 (by decide))
  have hfirst : Processor.step ⟨m, tape⟩ =
      ⟨.ok .draw, ⟨cleared 0x202, tape⟩, [.decoded 0x200 (.ofBytes 0x00 0xE0) .clearDisplay]⟩ := by
    rw [Processor.step_of_fetch (p := ⟨m, tape⟩) (i := .clearDisplay) rfl hclear rfl]
    rfl
  have hsecond : Processor.step ⟨cleared 0x202, tape⟩ =
      ⟨.error (.stack .empty), ⟨cleared 0x202, tape⟩,
        [.decoded 0x202 (.ofBytes 0x00 0xEE) .leave]⟩ := by
    rw [Processor.step_of_fetch (p := ⟨cleared 0x202, tape⟩) (i := .leave) rfl hreturn rfl]
    rfl
  have hthird : Processor.step ⟨cleared 0x204, tape⟩ =
      ⟨.ok .proceed, ⟨cleared 0x204, tape⟩,
        [.decoded 0x204 (.ofBytes 0x12 0x04) (.jump 0x204)]⟩ := by
    rw [Processor.step_of_fetch (p := ⟨cleared 0x204, tape⟩) (i := .jump 0x204) rfl hjump rfl]
    rfl
  have hrun : Processor.run ⟨m, tape⟩ 2 = ⟨⟨cleared 0x202, tape⟩, 2, .error (.stack .empty),
      [.decoded 0x202 (.ofBytes 0x00 0xEE) .leave,
        .decoded 0x200 (.ofBytes 0x00 0xE0) .clearDisplay]⟩ := by
    simp only [Processor.run, Run.advance, Run.step, Run.start, hfirst, hsecond, Run.isOver]
    rfl
  have hfailed : (c.poll .released).1.processor.run c.cyclesPerFrame = _ := hrun
  have hframe : c.perform (.frame .released) = _ :=
    frame_of_run_error (congrArg Run.outcome hfailed)
  have hv : v = ⟨.start ⟨cleared 0x202, tape⟩ 2, Framebuffer.blank.toggle 0 0⟩ := by
    show Viewed.mk _ _ = _
    simp only [start, hframe, hfailed]
    rfl
  have hw : w = ⟨.start ⟨cleared 0x204, tape⟩ 2, Framebuffer.blank.toggle 0 0⟩ := by
    show Viewed.perform v _ = _
    rw [hv]
    rfl
  let jumping : Console := .start ⟨cleared 0x204, tape⟩ 2
  have hjumped : (jumping.poll .released).1.processor.step = _ := hthird
  have hok : (jumping.poll .released).1.processor.step.outcome = .ok .proceed :=
    congrArg Report.outcome hjumped
  have hcall : w.console.perform (.advance .released) = jumping.advance .released := by
    rw [hw]
    rfl
  have hadvance := hcall.trans (advance_of_step_ok (c := jumping) hok)
  have hframes : ∀ act ∈ [Act.frame .released], act.leavesMark = true := by
    simp [Act.leavesMark]
  have hskips : ∀ act ∈ [Act.machine (.request (.move .next))], act.leavesMark = true := by
    simp [Act.leavesMark]
  obtain ⟨-, -, hwaits⟩ := redraw_coherent c hframes
  obtain ⟨-, hshown⟩ := hwaits (congrArg (fun v => v.console.machine.redraw) hv)
    [.machine (.request (.move .next))] hskips ⟨fun h => absurd h Bool.false_ne_true, trivial⟩
    (.advance .released) rfl
  refine ⟨?_, ?_, ?_, ?_⟩
  · rw [hv]
  · rw [hv]
    exact Framebuffer.clear_eq_blank _
  · rw [hw]
    rfl
  · have hdisplay : (w.console.perform (.advance .released)).state.machine.display = .blank := by
      rw [hadvance, hjumped]
      exact Framebuffer.clear_eq_blank _
    exact (hshown _ (congrArg (fun e : Exchange => e.outcome) hadvance)).trans
      (congrArg some hdisplay)

end Viewed

end Console

end Chip8
