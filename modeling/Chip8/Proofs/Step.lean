import Chip8.Proofs.Effect
import Chip8.Processor.Step

/-!
The ways in which a step can go.

`Processor.stepCase` and `Processor.executeCase` say once what a step and an execution come to.
A step that fails changes nothing as long as the addresses on the stack lie inside the memory:
`Processor.state_eq_of_step_error`.
-/

namespace Chip8

namespace Machine

/-- The next step executes an instruction: the program does not wait, and the instruction stands
under the program counter. -/
def Executes (m : Machine) (i : Instruction) : Prop :=
  m.awaiting = none ∧ m.current = .ok i

theorem Executes.unique {m : Machine} {i j : Instruction} (hi : m.Executes i)
    (hj : m.Executes j) : i = j :=
  Except.ok.inj (hi.2.symm.trans hj.2)

theorem fetch_of_memory {m : Machine} {opcode : Opcode}
    (h : m.memory.fetch m.programCounter.toNat = .ok opcode) : m.fetch = .ok opcode := by
  rw [Machine.fetch, h]
  rfl

theorem executes_of_fetch {m : Machine} {opcode : Opcode} {i : Instruction}
    (hwait : m.awaiting = none) (hfetch : m.fetch = .ok opcode)
    (hdecode : decode opcode = .ok i) : m.Executes i := by
  refine ⟨hwait, ?_⟩
  simp only [current, hfetch, hdecode]
  rfl

theorem Executes.programCounter_lt {m : Machine} {i : Instruction} (hi : m.Executes i) :
    m.programCounter.toNat + 1 < Memory.size := by
  have hcurrent := hi.2
  rw [current, fetch] at hcurrent
  cases hfetch : m.memory.fetch m.programCounter.toNat with
  | error fault =>
      rw [hfetch] at hcurrent
      cases hcurrent
  | ok opcode => exact Memory.lt_of_fetch_eq_ok hfetch

/-- The address behind an instruction that is executed fits into a word. -/
theorem Executes.toNat_next {m : Machine} {i : Instruction} (hi : m.Executes i) :
    (UInt16.ofNat ((m.programCounter.toNat + Opcode.size) % Move.pointerRange)).toNat =
      m.programCounter.toNat + 2 := by
  have hlt : m.programCounter.toNat + 1 < 4096 := hi.programCounter_lt
  have hpointer : m.programCounter.toNat + Opcode.size < Move.pointerRange :=
    Nat.lt_trans (Nat.succ_lt_succ hlt) (by decide)
  rw [Nat.mod_eq_of_lt hpointer]
  exact UInt16.toNat_ofNat_of_lt' (Nat.lt_trans (Nat.succ_lt_succ hlt) (by decide))

/-- The move of the program counter fails only on a jump out of the memory. -/
theorem of_move_eq_error {m : Machine} {move : Move} {fault : Fault}
    (h : m.move move = .error fault) : ∃ target, move = .jump target ∧ Memory.size ≤ target := by
  cases move with
  | jump target =>
      refine ⟨target, rfl, Nat.le_of_not_lt fun hlt => ?_⟩
      rw [Machine.move, Move.target, if_pos hlt] at h
      cases h
  | stay | next | skip => cases h

/-- The move of the program counter changes nothing else. -/
theorem of_move_eq_ok {m after : Machine} {move : Move} (h : m.move move = .ok after) :
    ∃ target, move.target m.programCounter.toNat = .ok target ∧
      after = { m with programCounter := UInt16.ofNat target } := by
  rw [Machine.move] at h
  split at h
  · rename_i target htarget
    cases h
    exact ⟨target, htarget, rfl⟩
  · cases h

theorem of_move_jump_eq_ok {m after : Machine} {target : Nat}
    (h : m.move (.jump target) = .ok after) :
    after = { m with programCounter := UInt16.ofNat target } := by
  obtain ⟨found, htarget, rfl⟩ := of_move_eq_ok h
  rw [Move.target] at htarget
  split at htarget
  · cases htarget
    rfl
  · cases htarget

end Machine

namespace Processor

/-- What an execution comes to. -/
inductive ExecuteCase (p : Processor) (i : Instruction) : Prop
  /-- The instruction has no effect. -/
  | refused (fault : Fault) (heffect : p.effect i = .error fault)
      (hexecute : p.execute i = { outcome := .error fault, state := p })
  /-- The instruction has taken effect, and the program counter cannot move. -/
  | astray (e : Effect) (fault : Fault) (heffect : p.effect i = .ok e)
      (hmove : e.processor.machine.move e.move = .error fault)
      (hexecute : p.execute i =
        { outcome := .error fault, state := e.processor, events := e.events })
  | done (e : Effect) (machine : Machine) (heffect : p.effect i = .ok e)
      (hmove : e.processor.machine.move e.move = .ok machine)
      (hexecute : p.execute i =
        { outcome := .ok e.signal, state := e.processor.withMachine machine, events := e.events })

theorem execute_of_move_eq_error {p : Processor} {i : Instruction} {e : Effect} {fault : Fault}
    (heffect : p.effect i = .ok e) (hmove : e.processor.machine.move e.move = .error fault) :
    p.execute i = { outcome := .error fault, state := e.processor, events := e.events } := by
  simp only [execute, heffect, hmove]

theorem execute_of_move_eq_ok {p : Processor} {i : Instruction} {e : Effect} {machine : Machine}
    (heffect : p.effect i = .ok e) (hmove : e.processor.machine.move e.move = .ok machine) :
    p.execute i =
      { outcome := .ok e.signal, state := e.processor.withMachine machine, events := e.events } := by
  simp only [execute, heffect, hmove]

theorem executeCase (p : Processor) (i : Instruction) : p.ExecuteCase i := by
  cases heffect : p.effect i with
  | error fault => exact .refused fault heffect (by rw [execute, heffect])
  | ok e =>
      cases hmove : e.processor.machine.move e.move with
      | error fault =>
          exact .astray e fault heffect hmove (execute_of_move_eq_error heffect hmove)
      | ok machine =>
          exact .done e machine heffect hmove (execute_of_move_eq_ok heffect hmove)

/-- What a step comes to. -/
inductive StepCase (p : Processor) : Prop
  | waiting (hwait : p.machine.awaiting ≠ none)
      (hstep : p.step = { outcome := .ok .wait, state := p })
  /-- There is no instruction under the program counter. -/
  | unreadable (fault : Fault) (hwait : p.machine.awaiting = none)
      (hcurrent : p.machine.current = .error fault)
      (hstep : p.step = { outcome := .error fault, state := p })
  | executes (opcode : Opcode) (i : Instruction) (hi : p.machine.Executes i)
      (hfetch : p.machine.fetch = .ok opcode)
      (hstep : p.step =
        { p.execute i with
          events := .decoded p.machine.programCounter opcode i :: (p.execute i).events })

theorem step_of_fetch {p : Processor} {opcode : Opcode} {i : Instruction}
    (hwait : p.machine.awaiting = none) (hfetch : p.machine.fetch = .ok opcode)
    (hdecode : decode opcode = .ok i) :
    p.step =
      { p.execute i with
        events := .decoded p.machine.programCounter opcode i :: (p.execute i).events } := by
  simp [step, hwait, hfetch, hdecode]

theorem stepCase (p : Processor) : p.StepCase := by
  cases hwait : p.machine.awaiting with
  | some x => exact .waiting (by simp [hwait]) (by simp [step, hwait])
  | none =>
      cases hfetch : p.machine.fetch with
      | error fault =>
          refine .unreadable fault hwait ?_ ?_
          · rw [Machine.current, hfetch]
          · simp [step, hwait, hfetch]
      | ok opcode =>
          cases hdecode : decode opcode with
          | error fault =>
              refine .unreadable (.opcode fault) hwait ?_ ?_
              · simp only [Machine.current, hfetch, hdecode]
                rfl
              · simp [step, hwait, hfetch, hdecode]
          | ok i =>
              exact .executes opcode i (Machine.executes_of_fetch hwait hfetch hdecode) hfetch
                (step_of_fetch hwait hfetch hdecode)

/-- A step of a program that waits does nothing. -/
theorem step_of_awaiting {p : Processor} {x : Register} (hwait : p.machine.awaiting = some x) :
    p.step = { outcome := .ok .wait, state := p } := by
  cases p.stepCase with
  | waiting _ hstep => exact hstep
  | unreadable _ hnone _ _ =>
      rw [hwait] at hnone
      cases hnone
  | executes _ _ hi _ _ =>
      have hnone := hi.1
      rw [hwait] at hnone
      cases hnone

/-- A step without an instruction under the program counter does nothing. -/
theorem step_of_current_error {p : Processor} {fault : Fault} (hwait : p.machine.awaiting = none)
    (hcurrent : p.machine.current = .error fault) :
    p.step = { outcome := .error fault, state := p } := by
  cases p.stepCase with
  | waiting hsome _ => exact absurd hwait hsome
  | unreadable fault' _ hcurrent' hstep =>
      cases hcurrent.symm.trans hcurrent'
      exact hstep
  | executes _ _ hi _ _ => cases hcurrent.symm.trans hi.2

/-- A step is the execution of the instruction under the program counter, which it reports. -/
theorem step_of_executes {p : Processor} {i : Instruction} (hi : p.machine.Executes i) :
    ∃ opcode, p.machine.fetch = .ok opcode ∧ p.step =
      { p.execute i with
        events := .decoded p.machine.programCounter opcode i :: (p.execute i).events } := by
  cases p.stepCase with
  | waiting hwait _ => exact absurd hi.1 hwait
  | unreadable _ _ hcurrent _ =>
      rw [hi.2] at hcurrent
      cases hcurrent
  | executes opcode j hj hfetch hstep =>
      cases hi.unique hj
      exact ⟨opcode, hfetch, hstep⟩

theorem of_execute_eq_ok {p : Processor} {i : Instruction} {signal : Signal}
    (h : (p.execute i).outcome = .ok signal) :
    ∃ e machine, p.effect i = .ok e ∧ e.processor.machine.move e.move = .ok machine ∧
      signal = e.signal ∧ (p.execute i).state = e.processor.withMachine machine := by
  cases p.executeCase i with
  | refused _ _ hexecute | astray _ _ _ _ hexecute =>
      rw [hexecute] at h
      cases h
  | done e machine heffect hmove hexecute =>
      rw [hexecute] at h ⊢
      exact ⟨e, machine, heffect, hmove, (Except.ok.inj h).symm, rfl⟩

/-- What a step leaves when it has executed an instruction. -/
theorem of_step_eq_ok {p : Processor} {i : Instruction} {signal : Signal}
    (hi : p.machine.Executes i) (h : p.step.outcome = .ok signal) :
    ∃ e machine, p.effect i = .ok e ∧ e.processor.machine.move e.move = .ok machine ∧
      signal = e.signal ∧ p.step.state = e.processor.withMachine machine := by
  obtain ⟨opcode, -, hstep⟩ := step_of_executes hi
  rw [hstep] at h ⊢
  exact of_execute_eq_ok h

/-- The execution of an instruction that is followed by the next one. -/
theorem execute_of_next {p : Processor} {i : Instruction} {e : Effect}
    (heffect : p.effect i = .ok e) (hmove : e.move = .next) :
    (p.execute i).outcome = .ok e.signal ∧
      ∃ programCounter, (p.execute i).state =
        e.processor.withMachine { e.processor.machine with programCounter } := by
  have hmoved : ∃ programCounter, e.processor.machine.move e.move =
      .ok { e.processor.machine with programCounter } := by
    rw [hmove]
    exact ⟨_, rfl⟩
  obtain ⟨programCounter, hmoved⟩ := hmoved
  rw [execute_of_move_eq_ok heffect hmoved]
  exact ⟨rfl, programCounter, rfl⟩

/-- A step that executes an instruction which is followed by the next one. -/
theorem step_of_next {p : Processor} {i : Instruction} {e : Effect} (hi : p.machine.Executes i)
    (heffect : p.effect i = .ok e) (hmove : e.move = .next) :
    p.step.outcome = .ok e.signal ∧
      ∃ programCounter,
        p.step.state = e.processor.withMachine { e.processor.machine with programCounter } := by
  obtain ⟨opcode, -, hstep⟩ := step_of_executes hi
  rw [hstep]
  exact execute_of_next heffect hmove

/-- An execution that fails changes nothing and reports nothing. What would fail behind an effect is
a return to an address outside the memory. -/
theorem execute_eq_of_error {p : Processor} {i : Instruction} {fault : Fault}
    (hstack : ∀ address ∈ p.machine.stack, address.toNat < Memory.size)
    (h : (p.execute i).outcome = .error fault) :
    p.execute i = { outcome := .error fault, state := p } := by
  cases p.executeCase i with
  | refused _ _ hexecute =>
      rw [hexecute] at h ⊢
      cases h
      rfl
  | astray e _ heffect hmove hexecute =>
      rw [hexecute] at h ⊢
      obtain ⟨target, hjump, houtside⟩ := Machine.of_move_eq_error hmove
      rcases jump_of_effect heffect hjump with hinside | ⟨address, hmem, rfl⟩ | ⟨hsame, hevents⟩
      · omega
      · have := hstack address hmem
        omega
      · cases h
        rw [hsame, hevents]
  | done _ _ _ _ hexecute =>
      rw [hexecute] at h
      cases h

theorem state_eq_of_step_error {p : Processor} {fault : Fault}
    (hstack : ∀ address ∈ p.machine.stack, address.toNat < Memory.size)
    (h : p.step.outcome = .error fault) : p.step.state = p := by
  cases p.stepCase with
  | waiting _ hstep | unreadable _ _ _ hstep => rw [hstep]
  | executes opcode i _ _ hstep =>
      rw [hstep] at h ⊢
      exact congrArg Report.state (execute_eq_of_error hstack h)

end Processor

end Chip8
