import Chip8.Proofs.Stride
import Chip8.Proofs.Timers

/-!
The random bytes that steps read.

An instruction reads a byte off the tape only to keep some of its bits: `Machine.mask?` tells from a
machine alone which bits the next step keeps, if it reads a byte at all. So a step does the same
with every tape that shows the same bits under this mask, and it leaves the tape one byte farther on
exactly if there is a mask: `Processor.step_withTape`. For steps in a row `Processor.Reads` says
which bytes they read, and `Processor.run_withTape` that a run does the same with every tape that
shows the same bits under all its masks.
-/

namespace Chip8

namespace RandomTape

/-- The tape with its head `count` bytes farther on. -/
def skip (t : RandomTape) (count : Nat) : RandomTape :=
  { t with position := t.position + count }

/-- Two tapes that show the same bits under some masks: the first byte under the first mask, and so
on. -/
def SameUnder (masks : List UInt8) (t u : RandomTape) : Prop :=
  ∀ (k : Nat) (hk : k < masks.length),
    (u.skip k).current &&& masks[k] = (t.skip k).current &&& masks[k]

theorem skip_skip (t : RandomTape) (a b : Nat) : (t.skip a).skip b = t.skip (a + b) :=
  congrArg (RandomTape.mk t.byteAt) (Nat.add_assoc t.position a b)

theorem SameUnder.refl (masks : List UInt8) (t : RandomTape) : t.SameUnder masks t :=
  fun _ _ => rfl

theorem sameUnder_append {a b : List UInt8} {t u : RandomTape} (h : t.SameUnder (a ++ b) u) :
    t.SameUnder a u ∧ (t.skip a.length).SameUnder b (u.skip a.length) := by
  constructor
  · intro k hk
    have hall := h k (by rw [List.length_append]; omega)
    rwa [List.getElem_append_left hk] at hall
  · intro k hk
    have hall := h (a.length + k) (by rw [List.length_append]; omega)
    rw [List.getElem_append_right (Nat.le_add_right _ _)] at hall
    simpa only [skip_skip, Nat.add_sub_cancel_left] using hall

/-- The places of the tape that `a + b` bytes are read from. -/
theorem map_skip_range_add (t : RandomTape) (a b : Nat) :
    (List.range (a + b)).map t.skip =
      (List.range a).map t.skip ++ (List.range b).map (t.skip a).skip := by
  rw [List.range_add, List.map_append, List.map_map]
  congr 1
  exact List.map_congr_left fun k _ => (t.skip_skip a k).symm

end RandomTape

/-- The bits that an instruction keeps of a random byte, if it reads one. -/
def Instruction.mask? : Instruction → Option UInt8
  | .random _ mask => some mask
  | _ => none

/-- The bits that the next step keeps of a random byte, if it reads one. -/
def Machine.mask? (m : Machine) : Option UInt8 :=
  m.next?.bind Instruction.mask?

theorem Machine.mask?_of_executes {m : Machine} {i : Instruction} (hi : m.Executes i) :
    m.mask? = i.mask? := by
  rw [mask?, next?_eq_some_iff.mpr hi]
  rfl

theorem Machine.mask?_of_awaiting {m : Machine} (hwait : m.awaiting ≠ none) :
    m.mask? = none := by
  obtain ⟨x, hx⟩ := Option.ne_none_iff_exists'.mp hwait
  simp only [mask?, next?, hx, Option.bind_none]

theorem Machine.mask?_of_current_error {m : Machine} {fault : Fault}
    (hwait : m.awaiting = none) (hcurrent : m.current = .error fault) : m.mask? = none := by
  simp only [mask?, next?, hwait, hcurrent]
  rfl

namespace Processor

/-- The processor with another tape. -/
def withTape (p : Processor) (tape : RandomTape) : Processor :=
  { p with tape }

end Processor

def Effect.withTape (e : Effect) (tape : RandomTape) : Effect :=
  { e with processor := e.processor.withTape tape }

namespace Processor

open RandomTape

variable {p : Processor} {i : Instruction} {tape : RandomTape}

/-- An effect that comes from a result which does not depend on the tape. -/
theorem map_withTape {α : Type} {result : Except Fault α} {f g : α → Effect}
    {before after : Except Fault Effect} (hbefore : before = result.map f)
    (hafter : after = result.map g) (hg : ∀ a, g a = (f a).withTape tape) :
    after = before.map (·.withTape tape) := by
  rw [hbefore, hafter]
  cases result with
  | error fault => rfl
  | ok a => exact congrArg Except.ok (hg a)

theorem unaryEffect_withTape (op : UnaryOp) (x : Register) :
    (p.withTape tape).unaryEffect x op = (p.unaryEffect x op).map (·.withTape tape) := by
  cases op with
  | pointAtGlyph =>
      show (if (p.machine.register x).toNat < 16 then _ else _) = _
      rw [unaryEffect]
      split <;> rfl
  | storeDecimal | storeRegisters | loadRegisters => exact map_withTape rfl rfl fun _ => rfl
  | _ => rfl

/-- An instruction does the same with a tape that shows the same bits under its mask. -/
theorem effect_withTape (h : p.tape.SameUnder i.mask?.toList tape) :
    (p.withTape tape).effect i =
      (p.effect i).map (·.withTape (tape.skip i.mask?.toList.length)) := by
  cases i with
  | random x mask =>
      -- The byte itself is kept nowhere, only its bits under the mask.
      have hbits : mask &&& tape.current = mask &&& p.tape.current := by
        rw [UInt8.and_comm mask, UInt8.and_comm mask]
        exact h 0 Nat.zero_lt_one
      show Except.ok (Effect.mk ⟨p.machine.setRegister x (mask &&& tape.current), _⟩ _ _ _) = _
      rw [hbits]
      rfl
  | leave | call | draw | skipOnKey => exact map_withTape rfl rfl fun _ => rfl
  | unary op x => exact unaryEffect_withTape op x
  | _ => rfl

theorem mask?_of_effect_error {fault : Fault} (h : p.effect i = .error fault) :
    i.mask? = none := by
  cases i with
  | random x mask => cases h
  | _ => rfl

theorem execute_withTape (h : p.tape.SameUnder i.mask?.toList tape) :
    (p.withTape tape).execute i =
      { p.execute i with
        state := (p.execute i).state.withTape (tape.skip i.mask?.toList.length) } := by
  have heffect' := effect_withTape h
  cases p.executeCase i with
  | refused fault heffect hexecute =>
      rw [heffect] at heffect'
      rw [execute, heffect', hexecute, mask?_of_effect_error heffect]
      rfl
  | astray e fault heffect hmove hexecute =>
      rw [heffect] at heffect'
      rw [execute_of_move_eq_error heffect' hmove, hexecute]
      rfl
  | done e machine heffect hmove hexecute =>
      rw [heffect] at heffect'
      rw [execute_of_move_eq_ok heffect' hmove, hexecute]
      rfl

/-- A step does the same with a tape that shows the same bits under its mask, and reads a byte
exactly if it has one. -/
theorem step_withTape (h : p.tape.SameUnder p.machine.mask?.toList tape) :
    (p.withTape tape).step =
      { p.step with
        state := p.step.state.withTape (tape.skip p.machine.mask?.toList.length) } := by
  cases p.stepCase with
  | waiting hwait hstep =>
      obtain ⟨x, hx⟩ := Option.ne_none_iff_exists'.mp hwait
      rw [step_of_awaiting (p := p.withTape tape) hx, hstep, Machine.mask?_of_awaiting hwait]
      rfl
  | unreadable fault hwait hcurrent hstep =>
      rw [step_of_current_error (p := p.withTape tape) hwait hcurrent, hstep,
        Machine.mask?_of_current_error hwait hcurrent]
      rfl
  | executes opcode i hi hfetch hstep =>
      obtain ⟨opcode', hfetch', hstep'⟩ := step_of_executes (p := p.withTape tape) hi
      cases hfetch.symm.trans hfetch'
      rw [Machine.mask?_of_executes hi] at h ⊢
      rw [hstep', execute_withTape h, hstep]
      rfl

/-- How far a step moves the tape. -/
theorem tape_step (p : Processor) :
    p.step.state.tape = p.tape.skip p.machine.mask?.toList.length := by
  have hsame := step_withTape (SameUnder.refl p.machine.mask?.toList p.tape)
  exact congrArg (fun r => r.state.tape) hsame

/-- Some steps in a row: the processor in front of each of them. -/
def course (p : Processor) : (count : Nat) → List Processor
  | 0 => []
  | count + 1 => p :: p.step.state.course count

/-- The masks of the random bytes that some steps read, in their order. -/
def masks (steps : List Processor) : List UInt8 :=
  steps.filterMap fun p => p.machine.mask?

theorem masks_append (first second : List Processor) :
    masks (first ++ second) = masks first ++ masks second :=
  List.filterMap_append

theorem masks_course_succ (p : Processor) (count : Nat) :
    masks (p.course (count + 1)) =
      p.machine.mask?.toList ++ masks (p.step.state.course count) := by
  rw [course, masks, List.filterMap_cons]
  cases p.machine.mask? <;> rfl

theorem masks_course_one (p : Processor) : masks (p.course 1) = p.machine.mask?.toList :=
  (masks_course_succ p 0).trans (List.append_nil _)

/-- Some steps read a tape from one place to another: a byte for each step that has a mask, one
behind the other. -/
structure Reads (steps : List Processor) (before after : RandomTape) : Prop where
  after : after = before.skip (masks steps).length
  places : (steps.filter fun p => p.machine.mask?.isSome).map Processor.tape =
    (List.range (masks steps).length).map before.skip

theorem reads_nil (t : RandomTape) : Reads [] t t := ⟨rfl, rfl⟩

theorem Reads.append {first second : List Processor} {t u v : RandomTape} (hfirst : Reads first t u)
    (hsecond : Reads second u v) : Reads (first ++ second) t v := by
  have hlength :
      (masks (first ++ second)).length = (masks first).length + (masks second).length := by
    rw [masks_append, List.length_append]
  constructor
  · rw [hlength, hsecond.after, hfirst.after, skip_skip]
  · rw [hlength, map_skip_range_add, ← hfirst.after, ← hfirst.places, ← hsecond.places,
      List.filter_append, List.map_append]

theorem reads_singleton (p : Processor) : Reads [p] p.tape p.step.state.tape := by
  constructor
  · rw [tape_step]
    exact congrArg (fun masks : List UInt8 => p.tape.skip masks.length) p.masks_course_one.symm
  · rw [masks, List.filter_cons, List.filterMap_cons]
    cases p.machine.mask? <;> rfl

theorem reads_course (p : Processor) (count : Nat) :
    Reads (p.course count) p.tape (p.stepped count).tape := by
  induction count generalizing p with
  | zero => exact reads_nil p.tape
  | succ count ih => exact (reads_singleton p).append (ih p.step.state)

/-- The steps of a run read the tape. -/
theorem reads_run (p : Processor) (count : Nat) :
    Reads (p.course (p.run count).steps) p.tape (p.run count).processor.tape := by
  rw [Run.processor_run]
  exact reads_course p (p.run count).steps

/-- The same machines are in front of steps in a row with a tape that shows the same bits under
their masks. -/
theorem machines_course_withTape {count : Nat}
    (h : p.tape.SameUnder (masks (p.course count)) tape) :
    ((p.withTape tape).course count).map machine = (p.course count).map machine := by
  induction count generalizing p tape with
  | zero => rfl
  | succ count ih =>
      rw [masks_course_succ] at h
      obtain ⟨hfirst, hrest⟩ := sameUnder_append h
      rw [← tape_step] at hrest
      have hstep := congrArg Report.state (step_withTape hfirst)
      rw [course, course, List.map_cons, List.map_cons, hstep, ih hrest]
      rfl

end Processor

namespace Run

open RandomTape Processor

/-- The run with another tape. -/
def withTape (r : Run) (tape : RandomTape) : Run :=
  { r with processor := r.processor.withTape tape }

theorem step_withTape {r : Run} {tape : RandomTape}
    (h : r.processor.tape.SameUnder r.processor.machine.mask?.toList tape) :
    (r.withTape tape).step =
      r.step.withTape (tape.skip r.processor.machine.mask?.toList.length) := by
  have hprocessor : (r.withTape tape).processor = r.processor.withTape tape := rfl
  rw [step, hprocessor, Processor.step_withTape h]
  rfl

/-- Going on with a run makes some steps, which are the same with a tape that shows the same bits
under their masks. -/
theorem exists_advance_withTape (r : Run) (count : Nat) :
    ∃ made, (r.advance count).steps = r.steps + made ∧
      ∀ tape, r.processor.tape.SameUnder (masks (r.processor.course made)) tape →
        (r.withTape tape).advance count =
          (r.advance count).withTape (tape.skip (masks (r.processor.course made)).length) := by
  induction count generalizing r with
  | zero => exact ⟨0, rfl, fun tape _ => rfl⟩
  | succ count ih =>
      cases hover : r.step.isOver with
      | true =>
          -- The outcome of the first step ends the run, with either tape.
          rw [advance_succ_of_isOver hover]
          refine ⟨1, rfl, fun tape h => ?_⟩
          rw [masks_course_one] at h ⊢
          have hstep := step_withTape h
          rw [advance_succ_of_isOver (by rw [hstep]; exact hover), hstep]
      | false =>
          -- The run behind the first step starts where that step has left the tape.
          rw [advance_succ_of_not_isOver hover]
          obtain ⟨made, hsteps, hadvance⟩ := ih r.step
          refine ⟨made + 1, ?_, fun tape h => ?_⟩
          · rw [hsteps]
            show r.steps + 1 + made = r.steps + (made + 1)
            omega
          · rw [masks_course_succ] at h ⊢
            obtain ⟨hfirst, hrest⟩ := sameUnder_append h
            rw [← tape_step] at hrest
            have hstep := step_withTape hfirst
            rw [advance_succ_of_not_isOver (by rw [hstep]; exact hover), hstep,
              hadvance _ hrest, List.length_append, skip_skip]
            rfl

end Run

namespace Processor

open RandomTape

/-- A run does the same with a tape that shows the same bits under the masks of its steps. -/
theorem run_withTape {p : Processor} {count : Nat} {tape : RandomTape}
    (h : p.tape.SameUnder (masks (p.course (p.run count).steps)) tape) :
    (p.withTape tape).run count =
      (p.run count).withTape (tape.skip (masks (p.course (p.run count).steps)).length) := by
  obtain ⟨made, hsteps, hadvance⟩ := (Run.start p).exists_advance_withTape count
  have hmade : (p.run count).steps = made := hsteps.trans (Nat.zero_add made)
  rw [hmade] at h ⊢
  exact hadvance tape h

end Processor

end Chip8
