import Chip8.Console
import Chip8.Proofs.History

/-!
The mark that the display has changed.

`Machine.Marked` says that nothing was drawn without setting the mark and that nobody has cleared
it. It holds between the start and the end of every step, whether or not it succeeds, and so of every
run of steps. A run that succeeds sets the mark exactly if one of its instructions draws, which is
read off its events.
-/

namespace Chip8

/-- The report of an instruction that changes the screen. -/
def Event.draws : Event → Bool
  | .decoded _ _ i => i.draws
  | _ => false

namespace Machine

/-- The mark has not been cleared on the way, and without it the display is what it was. -/
structure Marked (before after : Machine) : Prop where
  pending : before.redraw = true → after.redraw = true
  display : after.redraw = false → after.display = before.display

theorem Marked.refl (m : Machine) : Marked m m := ⟨id, fun _ => rfl⟩

theorem Marked.redraw_eq_false {before after : Machine} (h : Marked before after)
    (hafter : after.redraw = false) : before.redraw = false := by
  cases hbefore : before.redraw with
  | false => rfl
  | true =>
      rw [h.pending hbefore] at hafter
      cases hafter

theorem Marked.trans {a b c : Machine} (hab : Marked a b) (hbc : Marked b c) : Marked a c where
  pending h := hbc.pending (hab.pending h)
  display h := (hbc.display h).trans (hab.display (hbc.redraw_eq_false h))

theorem Quiet.marked {before after : Machine} (h : Quiet before after) : Marked before after where
  pending hbefore := h.redraw.trans hbefore
  display _ := h.display

theorem Footprint.marked {i : Instruction} {before after : Machine}
    (h : Footprint i before after) : Marked before after where
  pending hbefore := by
    rw [h.redraw, hbefore]
    rfl
  display hafter := by
    rw [h.redraw, Bool.or_eq_false_iff] at hafter
    exact h.display hafter.2

end Machine

namespace Processor

open Machine

variable {p : Processor} {i : Instruction} {e : Effect} {signal : Signal}

/-- What an instruction reports of its own is no report of drawing. -/
theorem not_draws_of_effect (h : p.effect i = .ok e) : e.events.any Event.draws = false := by
  refine List.any_eq_false.mpr fun event hmem hdraws => ?_
  have hlevel := level_of_effect h event hmem
  cases event with
  | decoded => cases hlevel
  | _ => cases hdraws

theorem marked_execute (p : Processor) (i : Instruction) :
    Marked p.machine (p.execute i).state.machine := by
  cases p.executeCase i with
  | refused _ _ hexecute =>
      rw [hexecute]
      exact .refl p.machine
  | astray e _ heffect _ hexecute =>
      rw [hexecute]
      exact (footprint_of_effect heffect).marked
  | done e machine heffect hmove hexecute =>
      rw [hexecute]
      obtain ⟨target, -, rfl⟩ := of_move_eq_ok hmove
      have hmarked := (footprint_of_effect heffect).marked
      exact ⟨hmarked.pending, hmarked.display⟩

/-- A step draws only with the mark. -/
theorem marked_step (p : Processor) : Marked p.machine p.step.state.machine := by
  cases p.stepCase with
  | waiting _ hstep | unreadable _ _ _ hstep =>
      rw [hstep]
      exact .refl p.machine
  | executes opcode i _ _ hstep =>
      rw [hstep]
      exact marked_execute p i

theorem redraw_execute (h : (p.execute i).outcome = .ok signal) :
    (p.execute i).state.machine.redraw = (p.machine.redraw || i.draws) ∧
      (p.execute i).events.any Event.draws = false := by
  cases p.executeCase i with
  | refused _ _ hexecute | astray _ _ _ _ hexecute =>
      rw [hexecute] at h
      cases h
  | done e machine heffect hmove hexecute =>
      rw [hexecute]
      obtain ⟨target, -, rfl⟩ := of_move_eq_ok hmove
      exact ⟨(footprint_of_effect heffect).redraw, not_draws_of_effect heffect⟩

/-- A step that succeeds sets the mark if it reports an instruction that draws. -/
theorem redraw_step (h : p.step.outcome = .ok signal) :
    p.step.state.machine.redraw = (p.machine.redraw || p.step.events.any Event.draws) := by
  cases p.stepCase with
  | waiting _ hstep =>
      rw [hstep]
      exact (Bool.or_false _).symm
  | unreadable _ _ _ hstep =>
      rw [hstep] at h
      cases h
  | executes opcode i _ _ hstep =>
      rw [hstep] at h ⊢
      obtain ⟨hredraw, hevents⟩ := redraw_execute h
      rw [List.any_cons, hevents, Bool.or_false]
      exact hredraw

end Processor

namespace Run

open Machine

/-- A run draws only with the mark. -/
theorem marked_advance (r : Run) (count : Nat) :
    Marked r.processor.machine (r.advance count).processor.machine := by
  induction count generalizing r with
  | zero => exact .refl _
  | succ count ih =>
      have hstep : Marked r.processor.machine r.step.processor.machine :=
        Processor.marked_step r.processor
      rw [advance]
      split
      · exact hstep
      · exact hstep.trans (ih r.step)

/-- The mark tells whether it was set when the run began or an instruction since then draws. -/
def Traced (m : Machine) (r : Run) : Prop :=
  r.processor.machine.redraw = (m.redraw || r.history.any Event.draws)

theorem Traced.step {m : Machine} {r : Run} (hr : r.Traced m) {signal : Signal}
    (h : r.step.outcome = .ok signal) : r.step.Traced m := by
  have hredraw := Processor.redraw_step (p := r.processor) h
  rw [hr, Bool.or_assoc] at hredraw
  rw [Traced, Run.step, List.any_append, List.any_reverse, Bool.or_comm (List.any _ _)]
  exact hredraw

theorem Traced.advance {m : Machine} {r : Run} (hr : r.Traced m) {count : Nat} {signal : Signal}
    (h : (r.advance count).outcome = .ok signal) : (r.advance count).Traced m := by
  induction count generalizing r with
  | zero => exact hr
  | succ count ih =>
      rw [Run.advance] at h ⊢
      cases houtcome : r.step.outcome with
      | error fault => simp [isOver, houtcome] at h
      | ok last =>
          have hstep := hr.step houtcome
          split at h
          · rename_i hover
            rw [if_pos hover]
            exact hstep
          · rename_i hgoes
            rw [if_neg hgoes]
            exact ih hstep h

end Run

namespace Machine

theorem quiet_poll (m : Machine) (keys : Keypad) : Quiet m (m.poll keys).1 := by
  rw [poll]
  cases keys.lowest? with
  | none => exact ⟨rfl, rfl, rfl⟩
  | some key =>
      have hreceive := quiet_receive { m with keypad := keys } key
      exact ⟨hreceive.stack, hreceive.display, hreceive.redraw⟩

theorem events_poll (m : Machine) (keys : Keypad) : (m.poll keys).2.any Event.draws = false := by
  rw [poll]
  cases keys.lowest? with
  | none => rfl
  | some key =>
      simp only [receive]
      split <;> rfl

/-- Every act draws only with the mark, and only two requests clear it. -/
theorem marked_perform (m : Machine) {act : Act} (hreset : act ≠ .request .reset)
    (hclear : act ≠ .request .clearRedraw) : Marked m (m.perform act).state := by
  cases act with
  | step tape => exact Processor.marked_step ⟨m, tape⟩
  | request request =>
      refine (quiet_handle m ?_ ?_).marked
      · exact fun h => hreset (congrArg Act.request h)
      · exact fun h => hclear (congrArg Act.request h)

theorem redraw_present (m : Machine) : m.present.1.redraw = false := by
  rw [present]
  split
  · rfl
  · rename_i h
    exact Bool.eq_false_iff.mpr h

theorem display_present (m : Machine) : m.present.1.display = m.display := by
  rw [present]
  split <;> rfl

theorem shown_present (m : Machine) :
    m.present.2 = if m.redraw then some m.display else none := by
  rw [present]
  split <;> rfl

end Machine

namespace Console

open Machine

/-- What a frame or a single step comes to, as far as the display is concerned. -/
inductive CallCase (c : Console) (exchange : Exchange) : Prop
  /-- The call fails and hands nothing over. -/
  | failed (fault : Fault) (houtcome : exchange.outcome = .error fault)
      (hmarked : Marked c.machine exchange.state.machine) (hshown : exchange.shown = none)
  /-- The call leads to a machine whose display is handed over if the mark is set. -/
  | succeeded (signal : Option Signal) (drawn : Machine) (houtcome : exchange.outcome = .ok signal)
      (hmarked : Marked c.machine drawn)
      (hredraw : drawn.redraw = (c.machine.redraw || exchange.events.any Event.draws))
      (hstate : exchange.state.machine = drawn.present.1) (hshown : exchange.shown = drawn.present.2)

theorem frame_of_run_error {c : Console} {keys : Keypad} {fault : Fault}
    (h : ((c.poll keys).1.processor.run c.cyclesPerFrame).outcome = .error fault) :
    let run := (c.poll keys).1.processor.run c.cyclesPerFrame
    c.frame keys =
      { outcome := .error fault
        state := { c with processor := run.processor }
        events := (c.poll keys).2 ++ run.events } := by
  simp only [frame]
  rw [h]

theorem frame_of_run_ok {c : Console} {keys : Keypad} {signal : Signal}
    (h : ((c.poll keys).1.processor.run c.cyclesPerFrame).outcome = .ok signal) :
    let run := (c.poll keys).1.processor.run c.cyclesPerFrame
    c.frame keys =
      { outcome := .ok (some signal)
        state :=
          { c with
            processor := run.processor.withMachine run.processor.machine.tick.present.1
            counter := c.counter + 1 }
        events := (c.poll keys).2 ++ run.events
        shown := run.processor.machine.tick.present.2 } := by
  simp only [frame]
  rw [h]

theorem advance_of_step_error {c : Console} {keys : Keypad} {fault : Fault}
    (h : (c.poll keys).1.processor.step.outcome = .error fault) :
    let report := (c.poll keys).1.processor.step
    c.advance keys =
      { outcome := .error fault
        state := { c with processor := report.state }
        events := (c.poll keys).2 ++ report.events } := by
  simp only [advance]
  rw [h]

theorem advance_of_step_ok {c : Console} {keys : Keypad} {signal : Signal}
    (h : (c.poll keys).1.processor.step.outcome = .ok signal) :
    let report := (c.poll keys).1.processor.step
    c.advance keys =
      { outcome := .ok (some signal)
        state := { c with processor := report.state.withMachine report.state.machine.present.1 }
        events := (c.poll keys).2 ++ report.events
        shown := report.state.machine.present.2 } := by
  simp only [advance]
  rw [h]

theorem quiet_poll (c : Console) (keys : Keypad) : Quiet c.machine (c.poll keys).1.machine :=
  c.machine.quiet_poll keys

theorem events_poll (c : Console) (keys : Keypad) : (c.poll keys).2.any Event.draws = false :=
  c.machine.events_poll keys

theorem callCase_frame (c : Console) (keys : Keypad) : c.CallCase (c.frame keys) := by
  let polled := (c.poll keys).1.processor
  have hpoll : Quiet c.machine polled.machine := quiet_poll c keys
  have hrun : Marked c.machine (polled.run c.cyclesPerFrame).processor.machine :=
    hpoll.marked.trans (Run.marked_advance (.start polled) c.cyclesPerFrame)
  cases houtcome : (polled.run c.cyclesPerFrame).outcome with
  | error fault =>
      rw [frame_of_run_error houtcome]
      exact .failed fault rfl hrun rfl
  | ok signal =>
      have htraced : (polled.run c.cyclesPerFrame).Traced polled.machine :=
        Run.Traced.advance (r := .start polled) (Bool.or_false _).symm houtcome
      rw [frame_of_run_ok houtcome]
      refine .succeeded (some signal) (polled.run c.cyclesPerFrame).processor.machine.tick rfl ?_ ?_
        rfl rfl
      · exact ⟨hrun.pending, hrun.display⟩
      · rw [List.any_append, events_poll, Bool.false_or, Run.events, List.any_reverse,
          ← hpoll.redraw]
        exact htraced

theorem callCase_advance (c : Console) (keys : Keypad) : c.CallCase (c.advance keys) := by
  let polled := (c.poll keys).1.processor
  have hpoll : Quiet c.machine polled.machine := quiet_poll c keys
  have hstep : Marked c.machine polled.step.state.machine :=
    hpoll.marked.trans (Processor.marked_step polled)
  cases houtcome : polled.step.outcome with
  | error fault =>
      rw [advance_of_step_error houtcome]
      exact .failed fault rfl hstep rfl
  | ok signal =>
      rw [advance_of_step_ok houtcome]
      refine .succeeded (some signal) polled.step.state.machine rfl hstep ?_ rfl rfl
      rw [List.any_append, events_poll, Bool.false_or, ← hpoll.redraw]
      exact Processor.redraw_step houtcome

end Console

end Chip8
