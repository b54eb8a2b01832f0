import Chip8.Proofs.Raw.History

/-!
A power cycle: a reset, and a program that is loaded after it.

A reset clears the machine part by part and keeps nothing, so a program meets the same machine behind
it as in a machine that was just switched on. Loading a program changes the bytes where the program
lies and nothing else, so what an earlier, longer program left behind them stays. On the layout of a
machine on plain lists the parts are only cleared, not laid out again; there the same holds because
no history changes how long they are (`Machine.after_raw`).
-/

namespace Chip8

/-- A chip that is switched on with a program. -/
def Raw.Chip.withProgram (program : List UInt8) : Checked Chip := do
  let on ← blank.reset
  on.load program

namespace Machine

/-- One machine is another with a program in its place, and nothing else is changed. -/
structure HoldsProgram (before after : Machine) (program : List UInt8) : Prop where
  rest : after = { before with memory := after.memory }
  memory : ∀ address, after.memory.bytes[address]? =
    if 0x200 ≤ address ∧ address < 0x200 + program.length then program[address - 0x200]?
    else before.memory.bytes[address]?

/-- The fault of a program that is longer than the memory behind its start. -/
def tooLarge (program : List UInt8) : Fault :=
  .memory (.programTooLarge program.length 3584)

variable (m : Machine) {program : List UInt8}

theorem load_of_le (h : program.length ≤ 3584) :
    m.load program =
      { outcome := .ok ()
        state := { m with memory := m.memory.place Memory.programStart program }
        events := [.loaded program.length] } :=
  if_pos h

theorem load_of_lt (h : 3584 < program.length) :
    m.load program = { outcome := .error (tooLarge program), state := m } :=
  if_neg (Nat.not_le.mpr h)

theorem holdsProgram_load (h : program.length ≤ 3584) :
    HoldsProgram m (m.load program).state program := by
  rw [load_of_le m h]
  refine ⟨rfl, fun address => ?_⟩
  show (m.memory.place 0x200 program).bytes[address]? = _
  by_cases hsize : address < 4096
  · rw [Vector.getElem?_eq_getElem hsize, Vector.getElem?_eq_getElem hsize, Memory.getElem_place]
    by_cases hin : 0x200 ≤ address ∧ address - 0x200 < program.length
    · have hin' : 0x200 ≤ address ∧ address < 0x200 + program.length := by omega
      rw [dif_pos hin, if_pos hin', List.getElem?_eq_getElem hin.2]
    · have hin' : ¬ (0x200 ≤ address ∧ address < 0x200 + program.length) := by omega
      rw [dif_neg hin, if_neg hin']
  · have hin' : ¬ (0x200 ≤ address ∧ address < 0x200 + program.length) := by omega
    rw [if_neg hin', Vector.getElem?_eq_none (by omega), Vector.getElem?_eq_none (by omega)]

/-- Behind a reset, a program meets the machine that was switched on. -/
theorem load_reset (program : List UInt8) : m.reset.load program = initial.load program := by
  rw [reset_eq_initial]

theorem withProgram_of_le (h : program.length ≤ 3584) :
    withProgram program = .ok (m.reset.load program).state := by
  rw [load_reset, withProgram, load_of_le initial h]
  rfl

theorem withProgram_of_lt (h : 3584 < program.length) :
    withProgram program = .error (tooLarge program) := by
  rw [withProgram, load_of_lt initial h]
  rfl

theorem raw_reset_load (program : List UInt8) :
    (m.raw.reset >>= fun on => on.load program) = Raw.Chip.withProgram program := by
  unfold Raw.Chip.withProgram
  rw [Raw.Chip.reset_blank, reset_raw, reset_eq_initial]

/-- A power cycle brings a machine, whatever its history, to what a new machine with the program is,
or fails with the same fault and leaves the machine that was switched on. The layout on plain lists
comes to the same. Without a reset, loading a program puts it in its place and changes nothing else,
or fails and changes nothing. -/
theorem Reachable.power_cycle {m : Machine} (hm : m.Reachable) (program : List UInt8) :
    (program.length ≤ 3584 ∧ (m.reset.load program).outcome = .ok () ∧
          withProgram program = .ok (m.reset.load program).state ∨
        3584 < program.length ∧ (m.reset.load program).outcome = .error (tooLarge program) ∧
          withProgram program = .error (tooLarge program) ∧
          (m.reset.load program).state = Machine.initial) ∧
      (program.length ≤ 3584 ∧ (m.load program).outcome = .ok () ∧
          HoldsProgram m (m.load program).state program ∨
        3584 < program.length ∧ (m.load program).outcome = .error (tooLarge program) ∧
          (m.load program).state = m) ∧
      (m.raw.reset >>= fun on => on.load program) = Raw.Chip.withProgram program ∧
      m.raw.after [.request .reset, .request (.load program)] =
        some (m.reset.load program).state.raw := by
  refine ⟨?_, ?_, m.raw_reset_load program, after_raw hm.stackBounded _⟩
  · rcases Nat.lt_or_ge 3584 program.length with hlarge | hfit
    · right
      rw [load_of_lt _ hlarge]
      exact ⟨hlarge, rfl, withProgram_of_lt hlarge, m.reset_eq_initial⟩
    · left
      refine ⟨hfit, ?_, withProgram_of_le m hfit⟩
      rw [load_of_le _ hfit]
  · rcases Nat.lt_or_ge 3584 program.length with hlarge | hfit
    · right
      rw [load_of_lt _ hlarge]
      exact ⟨hlarge, rfl, rfl⟩
    · left
      refine ⟨hfit, ?_, holdsProgram_load m hfit⟩
      rw [load_of_le _ hfit]

/-- A machine that waits for a key forgets the wait and its program; a shorter program that is loaded
without a reset leaves the end of the longer one. -/
theorem power_cycle_waiting :
    let m := initial.after [.request (.load [0xF3, 0x0A, 0xFF, 0xFF]), .step (.cycle #[])]
    m.Reachable ∧ m.awaiting = some 3 ∧
      withProgram [0x12, 0x00] = .ok (m.reset.load [0x12, 0x00]).state ∧
      (m.reset.load (List.replicate 3585 0)).state = initial ∧
      HoldsProgram m (m.load [0x12, 0x00]).state [0x12, 0x00] ∧
      (m.load [0x12, 0x00]).state.memory.bytes[0x203]? = some 0xFF := by
  intro m
  have hm : m.Reachable := Reachable.initial.after _
  have hwait : m.awaiting = some 3 := by decide +kernel
  have hlong : (List.replicate 3585 (0 : UInt8)).length = 3585 := List.length_replicate
  refine ⟨hm, hwait, ?_, ?_, ?_, by decide +kernel⟩
  · rcases (hm.power_cycle [0x12, 0x00]).1 with ⟨-, -, hnew⟩ | ⟨hlarge, -⟩
    · exact hnew
    · exact absurd hlarge (by decide)
  · rcases (hm.power_cycle (List.replicate 3585 0)).1 with ⟨hfit, -⟩ | ⟨-, -, -, hstate⟩
    · omega
    · exact hstate
  · rcases (hm.power_cycle [0x12, 0x00]).2.1 with ⟨-, -, hholds⟩ | ⟨hlarge, -⟩
    · exact hholds
    · exact absurd hlarge (by decide)

end Machine

end Chip8
