import Chip8.Proofs.KeyWait
import Chip8.Proofs.SingleStep

/-!
Several steps of a processor in a row.

`Processor.stepped` makes them regardless of how they go. A run stops at a step that fails or waits,
so it is some of these steps: `Run.exists_stop` says which, and that all of them but the last one go
on.
-/

namespace Chip8

namespace Processor

/-- The processor after some steps. -/
def stepped (p : Processor) (count : Nat) : Processor :=
  p.after (List.replicate count .step)

/-- The next step succeeds and does not wait. -/
def GoesOn (p : Processor) : Prop :=
  ∃ signal, signal ≠ .wait ∧ p.step.outcome = .ok signal

theorem after_append (p : Processor) (first second : List Request) :
    p.after (first ++ second) = (p.after first).after second :=
  List.foldl_append

/-- The last step behind the others. -/
theorem stepped_succ' (p : Processor) (count : Nat) :
    p.stepped (count + 1) = (p.stepped count).step.state := by
  rw [stepped, List.replicate_succ', after_append]
  rfl

theorem keypad_stepped (p : Processor) (count : Nat) :
    (p.stepped count).machine.keypad = p.machine.keypad := by
  induction count with
  | zero => rfl
  | succ count ih => rw [stepped_succ', keypad_step, ih]

theorem awaiting_of_step_eq_error {p : Processor} {fault : Fault}
    (h : p.step.outcome = .error fault) : p.machine.awaiting = none := by
  cases hwait : p.machine.awaiting with
  | none => rfl
  | some x =>
      rw [step_of_awaiting hwait] at h
      cases h

end Processor

namespace Run

theorem goesOn_of_isOver_eq_false {r : Run} (h : r.step.isOver = false) : r.processor.GoesOn := by
  rw [isOver] at h
  split at h
  · cases h
  · rename_i signal hsignal houtcome
    exact ⟨signal, hsignal, houtcome⟩
  · cases h

/-- A run of up to `count` steps stops behind `made` of them. -/
structure Stop (r : Run) (count made : Nat) : Prop where
  steps : (r.advance count).steps = r.steps + made
  processor : (r.advance count).processor = r.processor.stepped made
  le : made ≤ count
  goes : ∀ k, k + 1 < made → (r.processor.stepped k).GoesOn
  outcome : made = 0 ∧ (r.advance count).outcome = r.outcome ∨
    ∃ k, made = k + 1 ∧ (r.advance count).outcome = (r.processor.stepped k).step.outcome

theorem exists_stop (r : Run) (count : Nat) : ∃ made, r.Stop count made := by
  induction count generalizing r with
  | zero => exact ⟨0, rfl, rfl, Nat.le_refl 0, nofun, .inl ⟨rfl, rfl⟩⟩
  | succ count ih =>
      cases hover : r.step.isOver with
      | true =>
          have hadvance := advance_succ_of_isOver hover count
          refine ⟨1, ?_, ?_, Nat.le_add_left 1 count, fun k hk => by omega, .inr ⟨0, rfl, ?_⟩⟩
          · rw [hadvance]
            rfl
          · rw [hadvance]
            rfl
          · rw [hadvance]
            rfl
      | false =>
          -- The first step goes on, so the run is that step and the shorter run behind it.
          have hadvance := advance_succ_of_not_isOver hover count
          obtain ⟨made, hsteps, hprocessor, hle, hgoes, houtcome⟩ := ih r.step
          refine ⟨made + 1, ?_, ?_, Nat.succ_le_succ hle, ?_, ?_⟩
          · rw [hadvance, hsteps]
            show r.steps + 1 + made = r.steps + (made + 1)
            omega
          · rw [hadvance, hprocessor]
            rfl
          · intro k hk
            cases k with
            | zero => exact goesOn_of_isOver_eq_false hover
            | succ k => exact hgoes k (Nat.lt_of_succ_lt_succ hk)
          · rw [hadvance]
            rcases houtcome with ⟨rfl, houtcome⟩ | ⟨k, rfl, houtcome⟩
            · exact .inr ⟨0, rfl, houtcome⟩
            · exact .inr ⟨k + 1, rfl, houtcome⟩

theorem processor_run (p : Processor) (count : Nat) :
    (p.run count).processor = p.stepped (p.run count).steps := by
  obtain ⟨made, hsteps, hprocessor, -⟩ := (Run.start p).exists_stop count
  have hmade : (p.run count).steps = made := hsteps.trans (Nat.zero_add made)
  rw [hmade]
  exact hprocessor

/-- A run that fails has made steps that go on, up to the one that fails. -/
theorem of_run_eq_error {p : Processor} {count : Nat} {fault : Fault}
    (h : (p.run count).outcome = .error fault) :
    ∃ done < count, (∀ k < done, (p.stepped k).GoesOn) ∧
      (p.stepped done).step.outcome = .error fault ∧
      (p.run count).processor = (p.stepped done).step.state := by
  obtain ⟨made, -, hprocessor, hle, hgoes, houtcome⟩ := (Run.start p).exists_stop count
  rcases houtcome with ⟨-, houtcome⟩ | ⟨done, rfl, houtcome⟩
  · cases houtcome.symm.trans h
  · exact ⟨done, hle, fun k hk => hgoes k (Nat.succ_lt_succ hk), houtcome.symm.trans h,
      hprocessor.trans (p.stepped_succ' done)⟩

/-- A run whose first step fails is that step. -/
theorem run_of_step_error {p : Processor} {count : Nat} {fault : Fault} (hcount : 0 < count)
    (h : p.step.outcome = .error fault) : p.run count = (Run.start p).step := by
  obtain ⟨rest, rfl⟩ : ∃ rest, count = rest + 1 := ⟨count - 1, by omega⟩
  refine advance_succ_of_isOver ?_ rest
  have houtcome : (Run.start p).step.outcome = .error fault := h
  rw [isOver, houtcome]

end Run

/-- Polling keys that are already known changes nothing unless the program waits. -/
theorem Console.poll_eq_self {c : Console} {keys : Keypad} (hkeypad : c.machine.keypad = keys)
    (hwait : c.machine.awaiting = none) : (c.poll keys).1 = c :=
  congrArg c.withMachine (Machine.poll_eq_self hkeypad hwait)

end Chip8
