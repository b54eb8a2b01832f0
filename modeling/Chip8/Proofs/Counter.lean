import Chip8.Proofs.History

/-!
The program counter.

An instruction stands inside the memory, so what it adds to the program counter leads at most two
opcodes behind the memory, and a word holds that. There nothing is fetched any more: until somebody
else moves the program counter, it stays and every step fails.
-/

namespace Chip8

/-- The farthest place that an instruction leads to: the last opcode of the memory can be a skip. -/
def Machine.farthest : Nat := Memory.size + Opcode.size

theorem Move.target_le_farthest {pointer target : Nat} {move : Move}
    (hpointer : pointer + 1 < Memory.size) (h : move.target pointer = .ok target) :
    target ≤ Machine.farthest := by
  have hsize : Memory.size = 4096 := rfl
  have hfar : Machine.farthest = 4098 := rfl
  have hrange : ∀ n, n ≤ 4098 → n % pointerRange = n := fun n hn =>
    Nat.mod_eq_of_lt (Nat.lt_of_le_of_lt hn (by decide))
  cases move with
  | stay =>
      cases h
      omega
  | next =>
      rw [Move.target, Opcode.size, hrange _ (by omega)] at h
      cases h
      omega
  | skip =>
      rw [Move.target, Opcode.size, hrange _ (by omega)] at h
      cases h
      omega
  | jump address =>
      rw [Move.target] at h
      split at h
      · cases h
        omega
      · cases h

namespace Processor

variable {p : Processor} {i : Instruction} {signal : Signal}

/-- After a step that has executed an instruction, the program counter holds the place that the move
of the instruction leads to, and not only its lowest sixteen bits. -/
theorem programCounter_of_step_eq_ok (hi : p.machine.Executes i) (h : p.step.outcome = .ok signal) :
    ∃ e target, p.effect i = .ok e ∧
      e.move.target p.machine.programCounter.toNat = .ok target ∧ target ≤ Machine.farthest ∧
      p.step.state.machine.programCounter.toNat = target := by
  obtain ⟨e, machine, heffect, hmove, -, hstate⟩ := of_step_eq_ok hi h
  obtain ⟨target, htarget, hmachine⟩ := Machine.of_move_eq_ok hmove
  rw [(footprint_of_effect heffect).programCounter] at htarget
  have hle := Move.target_le_farthest hi.programCounter_lt htarget
  refine ⟨e, target, heffect, htarget, hle, ?_⟩
  rw [hstate, hmachine]
  exact UInt16.toNat_ofNat_of_lt' (Nat.lt_of_le_of_lt hle (by decide))

/-- A step that fails leaves the program counter where it is. -/
theorem programCounter_of_step_eq_error {fault : Fault} (h : p.step.outcome = .error fault) :
    p.step.state.machine.programCounter = p.machine.programCounter := by
  cases p.stepCase with
  | waiting _ hstep | unreadable _ _ _ hstep => rw [hstep]
  | executes opcode i _ _ hstep =>
      rw [hstep] at h ⊢
      cases p.executeCase i with
      | refused _ _ hexecute => rw [hexecute]
      | astray e _ heffect _ hexecute =>
          rw [hexecute]
          exact (footprint_of_effect heffect).programCounter
      | done _ _ _ _ hexecute =>
          rw [hexecute] at h
          cases h

/-- Behind the last opcode of the memory, a step that does not wait fails and changes nothing. -/
theorem step_of_le_programCounter (hwait : p.machine.awaiting = none)
    (hpointer : Memory.size ≤ p.machine.programCounter.toNat + 1) :
    p.step =
      { outcome :=
          .error (.memory (.outOfBounds p.machine.programCounter.toNat Memory.size))
        state := p } := by
  have hsize : p.machine.memory.bytes.toArray.size = Memory.size :=
    p.machine.memory.bytes.size_toArray
  refine step_of_current_error hwait ?_
  rw [Machine.current, Machine.fetch, Memory.fetch, opcodeAt, dif_neg (by omega), hsize]
  rfl

end Processor

namespace Machine

/-- The acts that move the program counter without a step. -/
def Act.isMove : Act → Bool
  | .request (.move _) => true
  | _ => false

theorem programCounter_handle (m : Machine) {r : Request} (hmove : (Act.request r).isMove = false)
    (hreset : r ≠ .reset) : (m.handle r).state.programCounter = m.programCounter := by
  cases r with
  | move step => cases hmove
  | reset => exact absurd rfl hreset
  | tick | setKeypad | clearRedraw => rfl
  | setKey key down =>
      rw [handle, setKey]
      cases m.keypad.set key down <;> rfl
  | toggleKey key =>
      rw [handle, toggleKey]
      cases m.keypad.toggle key <;> rfl
  | resume key =>
      rw [handle, resume]
      split
      · simp only [receive]
        cases m.awaiting <;> rfl
      · rfl
  | load program =>
      rw [handle, load]
      split <;> rfl

theorem programCounter_initial_le : initial.programCounter.toNat ≤ farthest := by
  show Memory.programStart ≤ farthest
  decide

/-- Unless it is moved without a step, the program counter stays in reach of the memory. -/
theorem programCounter_perform_le {m : Machine} (hm : m.programCounter.toNat ≤ farthest) {act : Act}
    (hmove : act.isMove = false) : (m.perform act).state.programCounter.toNat ≤ farthest := by
  cases act with
  | step tape =>
      let p : Processor := ⟨m, tape⟩
      show p.step.state.machine.programCounter.toNat ≤ farthest
      cases hstep : p.step.outcome with
      | error fault =>
          rw [Processor.programCounter_of_step_eq_error hstep]
          exact hm
      | ok signal =>
          cases p.stepCase with
          | waiting _ hwaiting =>
              rw [hwaiting]
              exact hm
          | unreadable _ _ _ hunreadable =>
              rw [hunreadable]
              exact hm
          | executes opcode i hi _ _ =>
              obtain ⟨e, target, -, -, hle, htarget⟩ :=
                Processor.programCounter_of_step_eq_ok hi hstep
              rw [htarget]
              exact hle
  | request r =>
      by_cases hreset : r = .reset
      · subst hreset
        show Memory.programStart ≤ farthest
        decide
      · show (m.handle r).state.programCounter.toNat ≤ farthest
        rw [programCounter_handle m hmove hreset]
        exact hm

theorem programCounter_after_le {m : Machine} (hm : m.programCounter.toNat ≤ farthest)
    {acts : List Act} (hmoves : ∀ act ∈ acts, act.isMove = false) :
    (m.after acts).programCounter.toNat ≤ farthest := by
  induction acts generalizing m with
  | nil => exact hm
  | cons act acts ih =>
      obtain ⟨hact, hacts⟩ := List.forall_mem_cons.mp hmoves
      exact ih (programCounter_perform_le hm hact) hacts

/-- Behind the last opcode of the memory, only a move or a reset brings the program counter back. -/
theorem programCounter_perform_of_le {m : Machine} (hm : Memory.size ≤ m.programCounter.toNat + 1)
    {act : Act} (hmove : act.isMove = false) (hreset : act ≠ .request .reset) :
    (m.perform act).state.programCounter = m.programCounter := by
  cases act with
  | step tape =>
      let p : Processor := ⟨m, tape⟩
      show p.step.state.machine.programCounter = m.programCounter
      cases hwait : m.awaiting with
      | none => rw [Processor.step_of_le_programCounter (p := p) hwait hm]
      | some x => rw [Processor.step_of_awaiting (p := p) hwait]
  | request r => exact programCounter_handle m hmove fun h => hreset (congrArg Act.request h)

theorem programCounter_after_of_le {m : Machine} (hm : Memory.size ≤ m.programCounter.toNat + 1)
    {acts : List Act} (hacts : ∀ act ∈ acts, act.isMove = false ∧ act ≠ .request .reset) :
    (m.after acts).programCounter = m.programCounter := by
  induction acts generalizing m with
  | nil => rfl
  | cons act acts ih =>
      obtain ⟨⟨hmove, hreset⟩, hrest⟩ := List.forall_mem_cons.mp hacts
      have hpc := programCounter_perform_of_le hm hmove hreset
      exact (ih (hpc ▸ hm) hrest).trans hpc

end Machine

end Chip8
