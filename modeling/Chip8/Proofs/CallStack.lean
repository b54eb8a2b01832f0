import Chip8.Proofs.History

/-!
The call stack of reachable machines.

`Machine.StackBounded` is the invariant: a return address lies inside the memory, so that a return
never fails once it has taken its address from the stack. It follows that a step that fails leaves
the processor as it was, and that the return which closes a call leads behind that call.
-/

namespace Chip8

/-- Addresses of the memory fit into a word. -/
theorem toNat_ofNat_of_inside {address : Nat} (h : address < Memory.size) :
    (UInt16.ofNat address).toNat = address :=
  UInt16.toNat_ofNat_of_lt' (Nat.lt_trans h (by decide))

namespace Processor

variable {p : Processor} {signal : Signal}

/-- A call that succeeds puts the address behind it on the stack. -/
theorem step_call {address : Address} (hi : p.machine.Executes (.call address))
    (h : p.step.outcome = .ok signal) :
    p.machine.programCounter.toNat + Opcode.size < Memory.size ∧
      p.machine.stack.length ≠ Machine.stackCapacity ∧
      p.step.state.machine.stack =
        UInt16.ofNat (p.machine.programCounter.toNat + Opcode.size) :: p.machine.stack := by
  obtain ⟨e, machine, heffect, hmove, -, hstate⟩ := of_step_eq_ok hi h
  obtain ⟨⟨pushed, events⟩, hpush, rfl⟩ := exists_of_map_eq_ok heffect
  obtain ⟨hinside, hroom, rfl, -⟩ := Machine.of_pushReturn_eq_ok hpush
  obtain ⟨target, -, rfl⟩ := Machine.of_move_eq_ok hmove
  rw [hstate]
  exact ⟨hinside, hroom, rfl⟩

/-- A return that succeeds leads to the address that it takes from the stack. -/
theorem step_leave (hi : p.machine.Executes .leave) (h : p.step.outcome = .ok signal) :
    p.machine.stack = p.step.state.machine.programCounter :: p.step.state.machine.stack := by
  obtain ⟨e, machine, heffect, hmove, -, hstate⟩ := of_step_eq_ok hi h
  obtain ⟨⟨address, popped, events⟩, hpop, rfl⟩ := exists_of_map_eq_ok heffect
  obtain ⟨hstack, -, -⟩ := Machine.of_popReturn_eq_ok hpop
  have hmachine := Machine.of_move_jump_eq_ok hmove
  rw [hstate, hstack, hmachine, UInt16.ofNat_toNat]
  rfl

/-- No other instruction changes the stack. -/
theorem stack_step_of_executes {i : Instruction} (hi : p.machine.Executes i)
    (huses : i.usesStack = false) (h : p.step.outcome = .ok signal) :
    p.step.state.machine.stack = p.machine.stack := by
  obtain ⟨e, machine, heffect, hmove, -, hstate⟩ := of_step_eq_ok hi h
  obtain ⟨target, -, rfl⟩ := Machine.of_move_eq_ok hmove
  rw [hstate]
  exact (footprint_of_effect heffect).stack huses

end Processor

namespace Machine

/-- No more calls are open than there is room for, and every return address lies behind a call and
inside the memory. -/
structure StackBounded (m : Machine) : Prop where
  depth : m.stack.length ≤ stackCapacity
  inside : ∀ address ∈ m.stack, Opcode.size ≤ address.toNat ∧ address.toNat < Memory.size

theorem StackBounded.of_stack_eq {m after : Machine} (hm : m.StackBounded)
    (h : after.stack = m.stack) : after.StackBounded where
  depth := h ▸ hm.depth
  inside := h ▸ hm.inside

theorem stackBounded_of_empty {m : Machine} (h : m.stack = []) : m.StackBounded where
  depth := by
    rw [h]
    exact Nat.zero_le _
  inside address hmem := by
    rw [h] at hmem
    cases hmem

theorem stackBounded_initial : initial.StackBounded :=
  stackBounded_of_empty rfl

end Machine

namespace Processor

variable {p : Processor}

/-- What a step does to the stack. -/
inductive StackCase (p : Processor) : Prop
  | same (hstack : p.step.state.machine.stack = p.machine.stack)
  | opened (hinside : p.machine.programCounter.toNat + Opcode.size < Memory.size)
      (hroom : p.machine.stack.length ≠ Machine.stackCapacity)
      (hstack : p.step.state.machine.stack =
        UInt16.ofNat (p.machine.programCounter.toNat + Opcode.size) :: p.machine.stack)
  | closed (hi : p.machine.Executes .leave) (signal : Signal) (hok : p.step.outcome = .ok signal)
      (hstack : p.machine.stack =
        p.step.state.machine.programCounter :: p.step.state.machine.stack)

theorem stackCase (hp : p.machine.StackBounded) : p.StackCase := by
  cases hstep : p.step.outcome with
  | error fault =>
      -- Without the bound, a return that fails would keep the address it took.
      have hstate := state_eq_of_step_error (fun address hmem => (hp.inside address hmem).2) hstep
      exact .same (by rw [hstate])
  | ok signal =>
      cases p.stepCase with
      | waiting _ hwaiting => exact .same (by rw [hwaiting])
      | unreadable _ _ _ hunreadable => exact .same (by rw [hunreadable])
      | executes opcode i hi _ _ =>
          cases huses : i.usesStack with
          | false => exact .same (stack_step_of_executes hi huses hstep)
          | true =>
              cases i with
              | leave => exact .closed hi signal hstep (step_leave hi hstep)
              | call address =>
                  obtain ⟨hinside, hroom, hstack⟩ := step_call hi hstep
                  exact .opened hinside hroom hstack
              | _ => cases huses

theorem stackBounded_step (hp : p.machine.StackBounded) : p.step.state.machine.StackBounded := by
  cases stackCase hp with
  | same hstack => exact hp.of_stack_eq hstack
  | opened hinside hroom hstack =>
      have hdepth := hp.depth
      constructor
      · rw [hstack, List.length_cons]
        omega
      · rw [hstack]
        refine List.forall_mem_cons.mpr ⟨?_, hp.inside⟩
        rw [toNat_ofNat_of_inside hinside]
        exact ⟨Nat.le_add_left _ _, hinside⟩
  | closed hi signal hok hstack =>
      have hdepth := hp.depth
      have hinside := hp.inside
      rw [hstack] at hdepth hinside
      exact ⟨Nat.le_of_succ_le hdepth, fun address hmem =>
        hinside address (List.mem_cons_of_mem _ hmem)⟩

end Processor

namespace Machine

theorem StackBounded.handle {m : Machine} (hm : m.StackBounded) (r : Request) :
    (m.handle r).state.StackBounded := by
  by_cases hreset : r = .reset
  · subst hreset
    exact stackBounded_initial.of_stack_eq rfl
  · exact hm.of_stack_eq (stack_handle m hreset)

theorem StackBounded.perform {m : Machine} (hm : m.StackBounded) (act : Act) :
    (m.perform act).state.StackBounded := by
  cases act with
  | step tape => exact Processor.stackBounded_step (p := ⟨m, tape⟩) hm
  | request request => exact hm.handle request

theorem StackBounded.after {m : Machine} (hm : m.StackBounded) (acts : List Act) :
    (m.after acts).StackBounded := by
  induction acts generalizing m with
  | nil => exact hm
  | cons act acts ih => exact ih (hm.perform act)

/-- Every machine that a history leads to has a bounded stack. -/
theorem Reachable.stackBounded {m : Machine} (hm : m.Reachable) : m.StackBounded := by
  induction hm with
  | initial => exact stackBounded_initial
  | perform _ act ih => exact ih.perform act

/-- A step that fails leaves the machine and the tape as they were, whatever the machine has been
through and whatever the fault. -/
theorem Reachable.step_error_unchanged {m : Machine} (hm : m.Reachable) (tape : RandomTape)
    {fault : Fault} (h : (Processor.step ⟨m, tape⟩).outcome = .error fault) :
    (Processor.step ⟨m, tape⟩).state = ⟨m, tape⟩ :=
  Processor.state_eq_of_step_error
    (fun address hmem => (hm.stackBounded.inside address hmem).2) h

/-- A program that returns without a call fails in its first step and stays where it is. -/
theorem step_error_unchanged_lone_return :
    let m := initial.after [.request (.load [0x00, 0xEE])]
    m.Reachable ∧ (Processor.step ⟨m, .cycle #[]⟩).outcome = .error (.stack .empty) ∧
      (Processor.step ⟨m, .cycle #[]⟩).state = ⟨m, .cycle #[]⟩ := by
  intro m
  have hreach : m.Reachable := Reachable.initial.after _
  obtain ⟨memory, hload, hfetch⟩ := load_initial [0x00, 0xEE] (by decide)
  have hm : m = { initial with memory } := hload
  have hopcode : m.fetch = .ok (.ofBytes 0x00 0xEE) := by
    rw [hm]
    exact congrArg (Except.mapError Fault.memory) (hfetch 0 (by decide))
  have hfail : (Processor.step ⟨m, .cycle #[]⟩).outcome = .error (.stack .empty) := by
    rw [Processor.step_of_fetch (p := ⟨m, .cycle #[]⟩) (i := .leave) (by rw [hm]; rfl) hopcode rfl,
      hm]
    rfl
  exact ⟨hreach, hfail, hreach.step_error_unchanged _ hfail⟩

end Machine

end Chip8
