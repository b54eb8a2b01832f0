import Chip8.Proofs.Counter

/-!
Where the program goes on.

`Machine.skips` tells from a machine alone whether an instruction skips the next one, and
`Machine.successor?` where the program goes on behind it. The two tables are read off the conditions
that the instructions name; `Processor.step_successor` is that every step which succeeds leads
there, and that the instructions which only test or jump do nothing else.
-/

namespace Chip8

/-- The instructions that move the program counter and do nothing else. -/
def Instruction.onlyMoves : Instruction → Bool
  | .hostRoutine _ | .jump _ | .jumpOffset _ => true
  | .skipIfByte _ _ | .skipUnlessByte _ _ | .skipIfSame _ _ | .skipUnlessSame _ _ => true
  | .skipOnKey _ _ => true
  | _ => false

namespace Machine

/-- Whether the key is held whose number a register contains. -/
def holdsKey (m : Machine) (x : Register) : Bool :=
  m.keypad.held[(m.register x).toNat]? = some true

/-- Whether an instruction skips the next one. -/
def skips (m : Machine) : Instruction → Bool
  | .skipIfByte x byte => m.register x = byte
  | .skipUnlessByte x byte => m.register x ≠ byte
  | .skipIfSame x y => m.register x = m.register y
  | .skipUnlessSame x y => m.register x ≠ m.register y
  | .skipOnKey .held x => m.holdsKey x
  | .skipOnKey .released x => !m.holdsKey x
  | _ => false

/-- The address at which the program goes on behind an instruction. A return without a call leads
nowhere. -/
def successor? (m : Machine) : Instruction → Option Nat
  | .leave => m.stack.head?.map UInt16.toNat
  | .jump address | .call address => some address.val
  | .jumpOffset address => some (address.val + (m.register 0).toNat)
  | i => some (m.programCounter.toNat + if m.skips i then 4 else 2)

theorem holdsKey_of_isHeld {m : Machine} {x : Register} {held : Bool}
    (h : m.keypad.isHeld (m.register x).toNat = .ok held) : m.holdsKey x = held := by
  rw [Keypad.isHeld] at h
  split at h
  · rename_i hkey
    cases h
    rw [holdsKey, Vector.getElem?_eq_getElem hkey]
    simp
  · cases h

end Machine

namespace Move

variable {pointer target : Nat}

theorem of_target_jump {address : Nat} (h : (jump address).target pointer = .ok target) :
    target = address := by
  rw [Move.target] at h
  split at h
  · cases h
    rfl
  · cases h

/-- From inside the memory, moves forward do not wrap. -/
theorem of_target_next (hpointer : pointer + 1 < Memory.size)
    (h : Move.next.target pointer = .ok target) : target = pointer + 2 := by
  have hsize : Memory.size = 4096 := rfl
  have hrange : pointer + 2 < pointerRange := Nat.lt_of_lt_of_le (by omega) (by decide : 4098 ≤ _)
  rw [Move.target, Opcode.size, Nat.mod_eq_of_lt hrange] at h
  exact (Except.ok.inj h).symm

theorem of_target_skip (hpointer : pointer + 1 < Memory.size)
    (h : Move.skip.target pointer = .ok target) : target = pointer + 4 := by
  have hsize : Memory.size = 4096 := rfl
  have hrange : pointer + 4 < pointerRange := Nat.lt_of_lt_of_le (by omega) (by decide : 4100 ≤ _)
  rw [Move.target, Opcode.size, Nat.mod_eq_of_lt hrange] at h
  exact (Except.ok.inj h).symm

theorem of_target_skipIf {condition : Bool} (hpointer : pointer + 1 < Memory.size)
    (h : (skipIf condition).target pointer = .ok target) :
    target = pointer + if condition then 4 else 2 := by
  cases condition with
  | false => exact of_target_next hpointer h
  | true => exact of_target_skip hpointer h

end Move

namespace Processor

variable {p : Processor} {i : Instruction} {e : Effect} {target : Nat}

/-- The move of an instruction leads to its successor. -/
theorem successor?_of_effect (hpointer : p.machine.programCounter.toNat + 1 < Memory.size)
    (heffect : p.effect i = .ok e)
    (htarget : e.move.target p.machine.programCounter.toNat = .ok target) :
    p.machine.successor? i = some target := by
  cases i with
  | leave =>
      obtain ⟨⟨address, after, events⟩, hpop, rfl⟩ := exists_of_map_eq_ok heffect
      obtain ⟨hstack, -⟩ := Machine.of_popReturn_eq_ok hpop
      rw [Move.of_target_jump htarget, Machine.successor?, hstack]
      rfl
  | jump address =>
      cases heffect
      rw [Move.of_target_jump htarget]
      rfl
  | call address =>
      obtain ⟨pushed, -, rfl⟩ := exists_of_map_eq_ok heffect
      rw [Move.of_target_jump htarget]
      rfl
  | jumpOffset address =>
      cases heffect
      rw [Move.of_target_jump htarget, Machine.offsetTarget, Nat.add_comm]
      rfl
  | skipIfByte | skipIfSame =>
      cases heffect
      rw [Move.of_target_skipIf hpointer htarget]
      rfl
  | skipUnlessByte | skipUnlessSame =>
      cases heffect
      rw [Move.of_target_skipIf hpointer htarget]
      simp [Machine.successor?, Machine.skips, bne]
  | skipOnKey test x =>
      obtain ⟨held, hheld, rfl⟩ := exists_of_map_eq_ok heffect
      rw [Move.of_target_skipIf hpointer htarget]
      have hkey := Machine.holdsKey_of_isHeld hheld
      cases test with
      | held => simp [Machine.successor?, Machine.skips, hkey]
      | released => simp [Machine.successor?, Machine.skips, hkey]
  | unary op x =>
      rw [move_of_unaryEffect heffect] at htarget
      rw [Move.of_target_next hpointer htarget]
      rfl
  | draw x y height =>
      obtain ⟨drawn, -, rfl⟩ := exists_of_map_eq_ok heffect
      rw [Move.of_target_next hpointer htarget]
      rfl
  | _ =>
      cases heffect
      rw [Move.of_target_next hpointer htarget]
      rfl

theorem processor_of_onlyMoves (hi : i.onlyMoves = true) (heffect : p.effect i = .ok e) :
    e.processor = p := by
  cases i with
  | skipOnKey test x =>
      obtain ⟨held, -, rfl⟩ := exists_of_map_eq_ok heffect
      rfl
  | hostRoutine | jump | jumpOffset | skipIfByte | skipUnlessByte | skipIfSame | skipUnlessSame =>
      cases heffect
      rfl
  | _ => cases hi

/-- The program counter after a step that has executed an instruction. A skip whose condition holds
leads past the next instruction, a jump or a call to its address, an offset jump to the sum of its
address and `V0`, and a return to the latest return address; everything else leads to the next
instruction. The six skips, the two jumps and a routine of the host change nothing else. -/
theorem step_successor {signal : Signal} (hi : p.machine.Executes i)
    (h : p.step.outcome = .ok signal) :
    let programCounter := p.step.state.machine.programCounter
    p.machine.successor? i = some programCounter.toNat ∧
      (i.onlyMoves = true → p.step.state = p.withMachine { p.machine with programCounter }) := by
  intro programCounter
  constructor
  · obtain ⟨e, target, heffect, htarget, -, hpc⟩ := programCounter_of_step_eq_ok hi h
    rw [hpc]
    exact successor?_of_effect hi.programCounter_lt heffect htarget
  · intro hmoves
    obtain ⟨e, machine, heffect, hmove, -, hstate⟩ := of_step_eq_ok hi h
    obtain ⟨target, -, rfl⟩ := Machine.of_move_eq_ok hmove
    rw [processor_of_onlyMoves hmoves heffect] at hstate
    have hpc : programCounter = UInt16.ofNat target :=
      congrArg (fun p : Processor => p.machine.programCounter) hstate
    rw [hstate, hpc]

/-- The program `6A 05 EA A1 EA 9E` while the key 5 is held: the first test of the key does not
skip, the second one does, and both change the program counter and nothing else. -/
theorem step_successor_key_held :
    let m := Machine.initial.after
      [.request (.load [0x6A, 0x05, 0xEA, 0xA1, 0xEA, 0x9E]), .request (.setKey 5 true),
        .step (.cycle #[])]
    let p : Processor := ⟨m, .cycle #[]⟩
    let q := p.step.state
    m.Executes (.skipOnKey .released 10) ∧ p.step.outcome = .ok .proceed ∧
      q.machine = { m with programCounter := 0x204 } ∧
      q.machine.Executes (.skipOnKey .held 10) ∧ q.step.outcome = .ok .proceed ∧
      q.step.state.machine = { m with programCounter := 0x208 } := by
  intro m p q
  obtain ⟨memory, hload, hfetch⟩ :=
    Machine.load_initial [0x6A, 0x05, 0xEA, 0xA1, 0xEA, 0x9E] (by decide)
  let keypad : Keypad := ⟨Keypad.released.held.set 5 true⟩
  let loaded : Machine := { Machine.initial with memory, keypad }
  have hm : m = { loaded.setRegister 10 5 with programCounter := 0x202 } := by
    show Machine.initial.after _ = _
    rw [Machine.after_cons, hload]
    show loaded.after _ = _
    rw [Machine.after_cons,
      Machine.perform_step_of_fetch (m := loaded) (i := .loadByte 10 5) rfl
        (Machine.fetch_of_memory (hfetch 0 (by decide))) rfl]
    rfl
  clear_value m
  have hfirst : m.fetch = .ok (.ofBytes 0xEA 0xA1) := by
    rw [hm]
    exact Machine.fetch_of_memory (hfetch 2 (by decide))
  have hwait : m.awaiting = none := by
    rw [hm]
    rfl
  have hi : m.Executes (.skipOnKey .released 10) := Machine.executes_of_fetch hwait hfirst rfl
  have hok : p.step.outcome = .ok .proceed := by
    rw [step_of_fetch (p := p) (i := .skipOnKey .released 10) hwait hfirst rfl]
    simp only [p, hm]
    rfl
  obtain ⟨hsuccessor, hmoves⟩ := step_successor (p := p) hi hok
  have hq : q.machine = { m with programCounter := 0x204 } := by
    have hnext : m.successor? (.skipOnKey .released 10) = some 0x204 := by
      rw [hm]
      rfl
    have hpc : q.machine.programCounter = 0x204 :=
      UInt16.toNat_inj.mp (Option.some.inj (hsuccessor.symm.trans hnext))
    refine (congrArg Processor.machine (hmoves rfl)).trans ?_
    exact congrArg (fun programCounter => { m with programCounter }) hpc
  have hsecond : q.machine.fetch = .ok (.ofBytes 0xEA 0x9E) := by
    rw [hq, hm]
    exact Machine.fetch_of_memory (hfetch 4 (by decide))
  have hgoes : q.machine.awaiting = none := by
    rw [hq]
    exact hwait
  have hi' : q.machine.Executes (.skipOnKey .held 10) :=
    Machine.executes_of_fetch hgoes hsecond rfl
  have hok' : q.step.outcome = .ok .proceed := by
    rw [step_of_fetch (p := q) (i := .skipOnKey .held 10) hgoes hsecond rfl]
    show (q.execute (.skipOnKey .held 10)).outcome = _
    rw [execute, effect, hq, hm]
    rfl
  obtain ⟨hsuccessor', hmoves'⟩ := step_successor (p := q) hi' hok'
  have hskipped : q.machine.successor? (.skipOnKey .held 10) = some 0x208 := by
    rw [hq, hm]
    rfl
  have hpc' : q.step.state.machine.programCounter = 0x208 :=
    UInt16.toNat_inj.mp (Option.some.inj (hsuccessor'.symm.trans hskipped))
  refine ⟨hi, hok, hq, hi', hok', (congrArg Processor.machine (hmoves' rfl)).trans ?_⟩
  show { q.machine with programCounter := q.step.state.machine.programCounter } = _
  rw [hpc', hq]

end Processor

end Chip8
