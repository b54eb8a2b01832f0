import Chip8.Proofs.CallStack

/-!
Calls and returns match.

While a call is open, its return address and the stack below it stay where they are, whatever is
done to the machine short of a reset. So the first act that brings the stack back to the depth
before the call is the return that closes it, and the program goes on behind the call:
`Machine.Reachable.return_behind_call`.
-/

namespace Chip8

namespace Machine

/-- The stack holds a return address above the return addresses of the calls around it. -/
def CallOpen (ret : UInt16) (outer : List UInt16) (m : Machine) : Prop :=
  ∃ inner, m.stack = inner ++ ret :: outer

theorem CallOpen.of_stack_eq {ret : UInt16} {outer : List UInt16} {m after : Machine}
    (hm : m.CallOpen ret outer) (h : after.stack = m.stack) : after.CallOpen ret outer := by
  obtain ⟨inner, hinner⟩ := hm
  exact ⟨inner, h.trans hinner⟩

theorem CallOpen.length_lt {ret : UInt16} {outer : List UInt16} {m : Machine}
    (hm : m.CallOpen ret outer) : outer.length < m.stack.length := by
  obtain ⟨inner, hinner⟩ := hm
  rw [hinner, List.length_append, List.length_cons]
  omega

/-- An act that closes a call: a step that executes a return, to the return address of the call. -/
structure Closes (ret : UInt16) (outer : List UInt16) (m : Machine) (act : Act) : Prop where
  executes : m.Executes .leave
  step : ∃ tape signal, act = .step tape ∧ (Processor.step ⟨m, tape⟩).outcome = .ok signal
  programCounter : (m.perform act).state.programCounter = ret
  stack : (m.perform act).state.stack = outer

/-- An open call stays open, unless the act closes it. -/
theorem CallOpen.perform {ret : UInt16} {outer : List UInt16} {m : Machine}
    (hm : m.CallOpen ret outer) (hbounded : m.StackBounded) {act : Act}
    (hact : act ≠ .request .reset) :
    (m.perform act).state.CallOpen ret outer ∨ Closes ret outer m act := by
  cases act with
  | request request =>
      exact Or.inl (hm.of_stack_eq (stack_handle m fun h => hact (congrArg Act.request h)))
  | step tape =>
      cases Processor.stackCase (p := ⟨m, tape⟩) hbounded with
      | same hstack => exact Or.inl (hm.of_stack_eq hstack)
      | opened _ _ hstack =>
          obtain ⟨inner, hinner⟩ := hm
          exact Or.inl ⟨_ :: inner, hstack.trans (congrArg (List.cons _) hinner)⟩
      | closed hi signal hok hstack =>
          obtain ⟨inner, hinner⟩ := hm
          rw [hinner] at hstack
          -- The return belongs to the call itself or to one that was opened later.
          cases inner with
          | nil =>
              obtain ⟨hret, houter⟩ := List.cons.inj hstack
              exact Or.inr ⟨hi, ⟨tape, signal, rfl, hok⟩, hret.symm, houter.symm⟩
          | cons address inner =>
              obtain ⟨-, hrest⟩ := List.cons.inj hstack
              exact Or.inl ⟨inner, hrest.symm⟩

/-- A call is open for as long as the stack has not been back at the depth before it. -/
theorem CallOpen.after {ret : UInt16} {outer : List UInt16} {m : Machine} {acts : List Act}
    (hm : m.CallOpen ret outer) (hreach : m.Reachable)
    (hacts : ∀ act ∈ acts, act ≠ .request .reset)
    (hdeeper : ∀ front, front <+: acts → (m.after front).stack.length ≠ outer.length) :
    (m.after acts).CallOpen ret outer := by
  induction acts generalizing m with
  | nil => exact hm
  | cons act acts ih =>
      obtain ⟨hact, hrest⟩ := List.forall_mem_cons.mp hacts
      rw [after_cons]
      rcases hm.perform hreach.stackBounded hact with hopen | hcloses
      · refine ih hopen (hreach.perform act) hrest fun front hfront => ?_
        exact hdeeper (act :: front) (List.prefix_cons_inj act |>.mpr hfront)
      · refine absurd ?_ (hdeeper [act] ⟨acts, rfl⟩)
        rw [after_cons, after_nil, hcloses.stack]

/-- A call that a step executes on a reachable machine is followed by any acts other than a reset.
If the stack is back at its old depth for the first time behind the last of them, then this act is
a step that executes a return, the program goes on behind the call, and the stack is what it was. -/
theorem Reachable.return_behind_call {m : Machine} (hreach : m.Reachable) {tape : RandomTape}
    {address : Address} {signal : Signal} (hcall : m.Executes (.call address))
    (hok : (Processor.step ⟨m, tape⟩).outcome = .ok signal) {acts : List Act} {last : Act}
    (hacts : ∀ act ∈ acts ++ [last], act ≠ .request .reset)
    (hdeeper : ∀ front, front <+: acts →
      (m.after (.step tape :: front)).stack.length ≠ m.stack.length)
    (hback : (m.after (.step tape :: acts ++ [last])).stack.length = m.stack.length) :
    let before := m.after (.step tape :: acts)
    let behind := m.after (.step tape :: acts ++ [last])
    before.Executes .leave ∧
      (∃ tape signal, last = .step tape ∧
        (Processor.step ⟨before, tape⟩).outcome = .ok signal) ∧
      behind.programCounter.toNat = m.programCounter.toNat + 2 ∧ behind.stack = m.stack := by
  intro before behind
  obtain ⟨hinside, -, hpushed⟩ := Processor.step_call (p := ⟨m, tape⟩) hcall hok
  have hbehind : behind = (before.perform last).state := after_append_singleton m _ last
  have hlast : last ≠ .request .reset := hacts last (by simp)
  have hopen : before.CallOpen (UInt16.ofNat (m.programCounter.toNat + Opcode.size)) m.stack :=
    CallOpen.after (m := (m.perform (.step tape)).state) ⟨[], hpushed⟩ (hreach.perform _)
      (fun act hact => hacts act (List.mem_append_left _ hact)) hdeeper
  have hbounded : before.StackBounded := (hreach.after _).stackBounded
  rcases hopen.perform hbounded hlast with hstill | hcloses
  · have hlt := hstill.length_lt
    rw [← hbehind] at hlt
    exact absurd hback (Nat.ne_of_gt hlt)
  · rw [hbehind]
    refine ⟨hcloses.executes, hcloses.step, ?_, hcloses.stack⟩
    rw [hcloses.programCounter]
    exact toNat_ofNat_of_inside hinside

/-- A call within a call: the return of the inner one leaves the outer one open. -/
theorem return_behind_call_nested :
    let program := [0x22, 0x04, 0x00, 0x00, 0x22, 0x08, 0x00, 0xEE, 0x00, 0xEE]
    let step := Act.step (.cycle #[])
    let m := initial.after [.request (.load program)]
    let before := m.after (step :: [step, .request .clearRedraw, step])
    let behind := m.after (step :: [step, .request .clearRedraw, step] ++ [step])
    m.Executes (.call 0x204) ∧ before.stack.length = m.stack.length + 1 ∧
      before.Executes .leave ∧ behind.programCounter.toNat = m.programCounter.toNat + 2 ∧
      behind.stack = m.stack := by
  intro program step m
  have hreach : m.Reachable := Reachable.initial.after _
  obtain ⟨memory, hload, hfetch⟩ := load_initial program (by decide)
  -- The machine differs along the run in its program counter and its stack only.
  let running (pc : UInt16) (stack : List UInt16) : Machine :=
    { initial with memory, programCounter := pc, stack }
  have hm : m = running 0x200 [] := hload
  have hcall : (running 0x200 []).fetch = .ok (.ofBytes 0x22 0x04) :=
    fetch_of_memory (hfetch 0 (by decide))
  have hinner : (running 0x204 [0x202]).fetch = .ok (.ofBytes 0x22 0x08) :=
    fetch_of_memory (hfetch 4 (by decide))
  have hreturn : (running 0x208 [0x206, 0x202]).fetch = .ok (.ofBytes 0x00 0xEE) :=
    fetch_of_memory (hfetch 8 (by decide))
  have hlast : (running 0x206 [0x202]).fetch = .ok (.ofBytes 0x00 0xEE) :=
    fetch_of_memory (hfetch 6 (by decide))
  have h1 : ((running 0x200 []).perform step).state = running 0x204 [0x202] := by
    rw [perform_step_of_fetch (i := .call 0x204) rfl hcall rfl]
    rfl
  have h2 : ((running 0x204 [0x202]).perform step).state = running 0x208 [0x206, 0x202] := by
    rw [perform_step_of_fetch (i := .call 0x208) rfl hinner rfl]
    rfl
  have h3 : ((running 0x208 [0x206, 0x202]).perform (.request .clearRedraw)).state =
      running 0x208 [0x206, 0x202] := rfl
  have h4 : ((running 0x208 [0x206, 0x202]).perform step).state = running 0x206 [0x202] := by
    rw [perform_step_of_fetch (i := .leave) rfl hreturn rfl]
    rfl
  have h5 : ((running 0x206 [0x202]).perform step).state = running 0x202 [] := by
    rw [perform_step_of_fetch (i := .leave) rfl hlast rfl]
    rfl
  rw [← hm] at hcall h1
  have hwait : m.awaiting = none := congrArg Machine.awaiting hm
  have hempty : m.stack = [] := congrArg Machine.stack hm
  have hexecutes : m.Executes (.call 0x204) := executes_of_fetch hwait hcall rfl
  have hok : (Processor.step ⟨m, .cycle #[]⟩).outcome = .ok .proceed := by
    rw [Processor.step_of_fetch (p := ⟨m, .cycle #[]⟩) (i := .call 0x204) hwait hcall rfl, hm]
    rfl
  have hbefore : m.after (step :: [step, .request .clearRedraw, step]) = running 0x206 [0x202] := by
    rw [after_cons, h1, after_cons, h2, after_cons, h3, after_cons, h4, after_nil]
  have hbehind :
      m.after (step :: [step, .request .clearRedraw, step] ++ [step]) = running 0x202 [] := by
    show m.after [step, step, .request .clearRedraw, step, step] = _
    rw [after_cons, h1, after_cons, h2, after_cons, h3, after_cons, h4, after_cons, h5, after_nil]
  have hacts : ∀ act ∈ [step, .request .clearRedraw, step] ++ [step], act ≠ .request .reset := by
    simp [step]
  have hdeeper : ∀ front, front <+: [step, .request .clearRedraw, step] →
      (m.after (step :: front)).stack.length ≠ m.stack.length := by
    intro front hfront
    rw [hempty]
    simp only [List.prefix_cons_iff, List.prefix_nil] at hfront
    rcases hfront with rfl | ⟨_, rfl, rfl | ⟨_, rfl, rfl | ⟨_, rfl, rfl⟩⟩⟩
    · rw [after_cons, h1, after_nil]
      exact Nat.succ_ne_zero 0
    · rw [after_cons, h1, after_cons, h2, after_nil]
      exact Nat.succ_ne_zero 1
    · rw [after_cons, h1, after_cons, h2, after_cons, h3, after_nil]
      exact Nat.succ_ne_zero 1
    · rw [after_cons, h1, after_cons, h2, after_cons, h3, after_cons, h4, after_nil]
      exact Nat.succ_ne_zero 0
  have hback : (m.after (step :: [step, .request .clearRedraw, step] ++ [step])).stack.length =
      m.stack.length := by
    rw [hempty, hbehind]
  obtain ⟨hleave, -, hpc, hstack⟩ := hreach.return_behind_call hexecutes hok hacts hdeeper hback
  refine ⟨hexecutes, ?_, hleave, hpc, hstack⟩
  rw [hempty, hbefore]
  rfl

end Machine

end Chip8
