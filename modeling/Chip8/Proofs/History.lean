import Chip8.Proofs.Step

/-!
Histories of a machine: steps and requests in any order.

A step reads its random bytes from any tape, so a history covers processors that share a machine.
`Machine.Reachable` holds of the machines that a history leads to from the machine that was switched
on; a loaded program is a request of that history.
-/

namespace Chip8

namespace Machine

/-- Something that is done to a machine. -/
inductive Act where
  /-- A step of a processor with this tape. -/
  | step (tape : RandomTape)
  | request (request : Request)

/-- Does something to a machine; only a step yields a signal. -/
def perform (m : Machine) : Act → Report Machine (Option Signal)
  | .step tape => (Processor.step ⟨m, tape⟩).map Processor.machine some
  | .request request => (m.handle request).map id fun _ => none

/-- The machine after some acts. -/
def after (m : Machine) (acts : List Act) : Machine :=
  acts.foldl (fun m act => (m.perform act).state) m

/-- A machine that some history leads to. -/
inductive Reachable : Machine → Prop
  | initial : Reachable .initial
  | perform {m : Machine} (hm : Reachable m) (act : Act) : Reachable (m.perform act).state

theorem after_nil (m : Machine) : m.after [] = m := rfl

theorem after_cons (m : Machine) (act : Act) (acts : List Act) :
    m.after (act :: acts) = (m.perform act).state.after acts := rfl

theorem after_append (m : Machine) (acts acts' : List Act) :
    m.after (acts ++ acts') = (m.after acts).after acts' :=
  List.foldl_append

theorem after_append_singleton (m : Machine) (acts : List Act) (act : Act) :
    m.after (acts ++ [act]) = ((m.after acts).perform act).state :=
  m.after_append acts [act]

theorem Reachable.after {m : Machine} (hm : m.Reachable) (acts : List Act) :
    (m.after acts).Reachable := by
  induction acts generalizing m with
  | nil => exact hm
  | cons act acts ih => exact ih (hm.perform act)

theorem perform_step_of_fetch {m : Machine} {opcode : Opcode} {i : Instruction}
    (hwait : m.awaiting = none) (hfetch : m.fetch = .ok opcode) (hdecode : decode opcode = .ok i)
    (tape : RandomTape) :
    (m.perform (.step tape)).state = (Processor.execute ⟨m, tape⟩ i).state.machine := by
  rw [perform, Processor.step_of_fetch (p := ⟨m, tape⟩) hwait hfetch hdecode]
  rfl

/-- A program that fits is fetched from where it was loaded. -/
theorem load_initial (program : List UInt8)
    (hfit : program.length ≤ Memory.programCapacity) :
    ∃ memory, (initial.perform (.request (.load program))).state = { initial with memory } ∧
      ∀ (k : Nat) (hk : k + 1 < program.length),
        memory.fetch (Memory.programStart + k) =
          .ok (Opcode.ofBytes program[k] program[k + 1]) := by
  refine ⟨initial.memory.place Memory.programStart program, ?_, fun k hk => ?_⟩
  · show (initial.load program).state = _
    rw [load, if_pos hfit]
  · refine Memory.fetch_place _ hk ?_
    rw [Memory.programCapacity] at hfit
    omega

/-- No program overwrites the font; its first byte is the upper row of the zero. -/
theorem font_of_load (program : List UInt8) :
    (initial.memory.place Memory.programStart program).bytes[0]? = some 0xF0 := by
  rw [Vector.getElem?_eq_getElem (by decide), Memory.getElem_place,
    dif_neg fun h => absurd h.1 (by decide), initial,
    Memory.getElem_place, dif_pos (by decide)]
  rfl

/-- Two machines with the same stack and the same screen. -/
structure Quiet (before after : Machine) : Prop where
  stack : after.stack = before.stack
  display : after.display = before.display
  redraw : after.redraw = before.redraw

theorem Quiet.refl (m : Machine) : Quiet m m := ⟨rfl, rfl, rfl⟩

theorem quiet_ofExcept {m : Machine} {result : Except Fault Machine}
    (h : ∀ new, result = .ok new → Quiet m new) : Quiet m (Report.ofExcept m result).state := by
  cases result with
  | error fault => exact .refl m
  | ok new => exact h new rfl

theorem quiet_receive (m : Machine) (key : Fin 16) : Quiet m (m.receive key).1 := by
  rw [receive]
  split
  · exact ⟨rfl, rfl, rfl⟩
  · exact .refl m

theorem quiet_resume (m : Machine) (key : Nat) : Quiet m (m.resume key).state := by
  rw [resume]
  split
  · exact quiet_receive m _
  · exact .refl m

theorem quiet_load (m : Machine) (program : List UInt8) : Quiet m (m.load program).state := by
  rw [load]
  split
  · exact ⟨rfl, rfl, rfl⟩
  · exact .refl m

/-- Only a reset and the request made for it act on the stack or the screen. -/
theorem quiet_handle (m : Machine) {r : Request} (hreset : r ≠ .reset)
    (hclear : r ≠ .clearRedraw) : Quiet m (m.handle r).state := by
  cases r with
  | reset => exact absurd rfl hreset
  | clearRedraw => exact absurd rfl hclear
  | tick | setKeypad => exact ⟨rfl, rfl, rfl⟩
  | setKey | toggleKey =>
      refine quiet_ofExcept fun new hnew => ?_
      obtain ⟨keypad, -, rfl⟩ := exists_of_map_eq_ok hnew
      exact ⟨rfl, rfl, rfl⟩
  | move step =>
      refine quiet_ofExcept fun new hnew => ?_
      obtain ⟨target, -, rfl⟩ := of_move_eq_ok hnew
      exact ⟨rfl, rfl, rfl⟩
  | resume key => exact quiet_resume m key
  | load program => exact quiet_load m program

theorem stack_handle (m : Machine) {r : Request} (hreset : r ≠ .reset) :
    (m.handle r).state.stack = m.stack := by
  by_cases hclear : r = .clearRedraw
  · subst hclear
    rfl
  · exact (quiet_handle m hreset hclear).stack

theorem display_handle (m : Machine) {r : Request} (hreset : r ≠ .reset) :
    (m.handle r).state.display = m.display := by
  by_cases hclear : r = .clearRedraw
  · subst hclear
    rfl
  · exact (quiet_handle m hreset hclear).display

end Machine

end Chip8
