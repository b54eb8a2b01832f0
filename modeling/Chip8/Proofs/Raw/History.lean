import Chip8.Proofs.CallStack
import Chip8.Proofs.Raw.Dump
import Chip8.Proofs.Raw.Step

/-!
Histories on plain lists.

`Raw.Chip.perform` is an act on the layout of a machine, and `Raw.Chip.ReachedBy` says that a
history from the chip that was switched on leads to a chip. Every such chip is the layout of the
machine that the same history leads to, so nothing that happens to it aborts.
-/

namespace Chip8

namespace Raw.Chip

/-- Does something to a chip; only a step yields a signal. -/
def perform (c : Chip) : Machine.Act → Option (Except Fault (Option Signal) × Chip)
  | .step tape => do
    let stepped ← c.step tape
    return (stepped.outcome.map some, stepped.chip)
  | .request request => do
    match ← (c.handle request).result with
    | .error fault => return (.error fault, c)
    | .ok chip => return (.ok none, chip)

/-- The chip after some acts. -/
def after (c : Chip) : (acts : List Machine.Act) → Option Chip
  | [] => some c
  | act :: acts => do
    let (_, next) ← c.perform act
    next.after acts

/-- The parts of a chip before it is switched on. -/
def blank : Chip where
  memory := List.replicate Memory.size 0
  registers := List.replicate Machine.registerCount 0
  index := 0
  programCounter := UInt16.ofNat Memory.programStart
  stack := []
  delay := .done
  sound := .done
  display := List.replicate Framebuffer.area false
  redraw := false
  keys := List.replicate Keypad.size false
  awaiting := none

/-- Some acts lead from the chip that was switched on to this one. -/
def ReachedBy (c : Chip) (acts : List Machine.Act) : Prop :=
  ∃ on, blank.reset = .of (.ok on) ∧ on.after acts = some c

end Raw.Chip

namespace Machine

open Raw

theorem blank_eq_raw : Chip.blank = { initial with memory := Memory.zeros }.raw := by
  refine Chip.ext ?_ ?_ rfl rfl rfl rfl rfl ?_ rfl ?_ rfl
  · exact Vector.toList_replicate.symm
  · exact Vector.toList_replicate.symm
  · show List.replicate Framebuffer.area false = Framebuffer.blank.pixels
    rw [← Framebuffer.clear_eq_blank .blank, Framebuffer.pixels_clear, List.map_const',
      Framebuffer.length_pixels]
  · exact Vector.toList_replicate.symm

/-- A reset leads to the machine that was switched on. -/
theorem reset_eq_initial (m : Machine) : m.reset = initial := by
  have hregisters : m.registers.map (fun _ => (0 : UInt8)) = Vector.replicate 16 0 := by
    refine Vector.ext fun i hi => ?_
    rw [Vector.getElem_map, Vector.getElem_replicate]
  rw [reset, initial, Memory.clear_eq_zeros, hregisters, Framebuffer.clear_eq_blank,
    Keypad.releaseAll_eq_released]

theorem state_ofExcept {m : Machine} {result : Except Fault Machine} {fault : Fault}
    (h : (Report.ofExcept m result).outcome = .error fault) :
    (Report.ofExcept m result).state = m := by
  cases result with
  | error fault => rfl
  | ok after => cases h

/-- A request that fails changes nothing. -/
theorem state_eq_of_handle_error {m : Machine} {r : Request} {fault : Fault}
    (h : (m.handle r).outcome = .error fault) : (m.handle r).state = m := by
  cases r with
  | tick | setKeypad | clearRedraw | reset => cases h
  | setKey | toggleKey | move => exact state_ofExcept h
  | resume key =>
      rw [handle, resume] at h ⊢
      split at h
      · cases h
      · rename_i hkey
        rw [dif_neg hkey]
  | load program =>
      rw [handle, load] at h ⊢
      split at h
      · cases h
      · rename_i hfit
        rw [if_neg hfit]

/-- An act on the layout of a machine does not abort and does what the act on the machine does. -/
theorem perform_raw {m : Machine} (hm : m.StackBounded) (act : Act) :
    m.raw.perform act = some ((m.perform act).outcome, (m.perform act).state.raw) := by
  cases act with
  | step tape =>
      have hstep := Processor.step_raw ⟨m, tape⟩ hm.depth
      rw [Chip.perform, hstep]
      rfl
  | request r =>
      have hperform : m.perform (.request r) = (m.handle r).map id fun _ => none := rfl
      rw [Chip.perform, handle_raw, hperform, Report.map]
      cases houtcome : (m.handle r).outcome with
      | error fault =>
          rw [state_eq_of_handle_error houtcome]
          rfl
      | ok done => rfl

/-- A history on the layout of a machine does not abort and leads where the history of the machine
leads. -/
theorem after_raw {m : Machine} (hm : m.StackBounded) (acts : List Act) :
    m.raw.after acts = some (m.after acts).raw := by
  induction acts generalizing m with
  | nil => rfl
  | cons act acts ih =>
      rw [Chip.after, perform_raw hm]
      exact ih (hm.perform act)

end Machine

namespace Raw.Chip

theorem reset_blank : blank.reset = .of (.ok Machine.initial.raw) := by
  rw [Machine.blank_eq_raw, Machine.reset_raw, Machine.reset_eq_initial]

/-- Every history leads to a chip: the layout of the machine that it leads to. -/
theorem reachedBy_iff {c : Chip} {acts : List Machine.Act} :
    c.ReachedBy acts ↔ c = (Machine.initial.after acts).raw := by
  have hafter := Machine.after_raw Machine.stackBounded_initial acts
  constructor
  · rintro ⟨on, hon, hc⟩
    rw [reset_blank] at hon
    rw [← Checked.of_ok_inj hon] at hc
    exact Option.some.inj (hc.symm.trans hafter)
  · rintro rfl
    exact ⟨_, reset_blank, hafter⟩

end Raw.Chip

end Chip8
