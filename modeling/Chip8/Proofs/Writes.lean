import Chip8.Proofs.History
import Chip8.Proofs.Periphery

/-!
What instructions write.

`Machine.Part` lists the parts of a machine, each byte and each register on its own, and
`Instruction.writes` is the table of the parts that an instruction may write. A step that succeeds
leaves all other parts as they were: `Processor.same_of_not_writes`. The program counter stands
apart, since every instruction moves it.
-/

namespace Chip8

/-- Whether an operation on two registers sets `VF`. -/
def BinaryOp.setsFlag : BinaryOp → Bool
  | .copy | .or | .and | .xor => false
  | .add | .subtract | .shiftRight | .subtractFrom | .shiftLeft => true

/-- A part of a machine other than the program counter. -/
inductive Machine.Part where
  | byte (address : Fin 4096)
  | register (r : Register)
  | index
  | stack
  | delay
  | sound
  | display
  | redraw
  | keypad
  | awaiting

/-- Whether two machines have the same content in a part. -/
def Machine.Part.Same (a b : Machine) : Machine.Part → Prop
  | .byte address => b.memory.bytes.get address = a.memory.bytes.get address
  | .register r => b.register r = a.register r
  | .index => b.index = a.index
  | .stack => b.stack = a.stack
  | .delay => b.delay = a.delay
  | .sound => b.sound = a.sound
  | .display => b.display = a.display
  | .redraw => b.redraw = a.redraw
  | .keypad => b.keypad = a.keypad
  | .awaiting => b.awaiting = a.awaiting

namespace Instruction

/-- How many bytes an instruction writes from the index register on. -/
def stored : Instruction → Nat
  | .unary .storeDecimal _ => 3
  | .unary .storeRegisters x => x.val + 1
  | _ => 0

/-- Whether an instruction may write a register. -/
def setsRegister (r : Register) : Instruction → Bool
  | .loadByte x _ | .addByte x _ | .random x _ | .unary .readDelay x => r = x
  | .binary op x _ => r = x || op.setsFlag && r = Machine.flagRegister
  | .draw _ _ _ => r = Machine.flagRegister
  | .unary .loadRegisters x => r ≤ x
  | _ => false

def setsIndex : Instruction → Bool
  | .loadIndex _ | .unary .addToIndex _ | .unary .pointAtGlyph _ => true
  | _ => false

/-- Whether an instruction may write a part of a machine with this index register. -/
def writes (i : Instruction) (index : UInt16) : Machine.Part → Bool
  | .byte address => index.toNat ≤ address.val && address.val < index.toNat + i.stored
  | .register r => i.setsRegister r
  | .index => i.setsIndex
  | .stack => i.usesStack
  | .delay => i.setsDelay
  | .sound => i.setsSound
  | .display | .redraw => i.draws
  | .keypad => false
  | .awaiting => i.awaits?.isSome

theorem signal_eq_draw_iff (i : Instruction) : i.signal = .draw ↔ i.draws = true := by
  cases i with
  | unary op x => cases op <;> simp [signal, draws]
  | _ => simp [signal, draws]

end Instruction

namespace Machine

variable {m after : Machine} {i : Instruction}

/-- What an instruction does to the data of a program: the bytes, the registers and the index
register. -/
structure Rewrites (i : Instruction) (before after : Machine) : Prop where
  memory : ∀ address, i.writes before.index (.byte address) = false →
    after.memory.bytes.get address = before.memory.bytes.get address
  registers : ∀ r, i.setsRegister r = false → after.register r = before.register r
  index : i.setsIndex = false → after.index = before.index

/-- An instruction that leaves the memory and the index register alone. -/
theorem Rewrites.of_registers (hmemory : after.memory = m.memory) (hindex : after.index = m.index)
    (hregisters : ∀ r, i.setsRegister r = false → after.register r = m.register r) :
    Rewrites i m after where
  memory address _ := by rw [hmemory]
  registers := hregisters
  index _ := hindex

/-- An instruction that sets the index register alone. -/
theorem Rewrites.of_index (hmemory : after.memory = m.memory)
    (hregisters : ∀ r, after.register r = m.register r) (hindex : i.setsIndex = true) :
    Rewrites i m after where
  memory address _ := by rw [hmemory]
  registers r _ := hregisters r
  index hnot := by
    rw [hindex] at hnot
    cases hnot

theorem rewrites_setRegister {x : Register} {value : UInt8}
    (hx : ∀ r, i.setsRegister r = false → r ≠ x) : Rewrites i m (m.setRegister x value) := by
  refine .of_registers rfl rfl fun r hr => ?_
  exact (register_of_registers_eq (m := m) rfl r).trans (if_neg (hx r hr))

theorem rewrites_binary (op : BinaryOp) (x y : Register) :
    Rewrites (.binary op x y) m (m.binary op x y) := by
  have hset : ∀ r, (Instruction.binary op x y).setsRegister r = false →
      r ≠ x ∧ (op.setsFlag = true → r ≠ flagRegister) := by
    intro r hr
    simpa [Instruction.setsRegister] using hr
  refine .of_registers ?_ ?_ fun r hr => ?_
  · cases op <;> rfl
  · cases op <;> rfl
  · obtain ⟨hx, hflag⟩ := hset r hr
    have hresult : ∀ value, (m.setRegister x value).register r = m.register r := fun value =>
      (register_of_registers_eq (m := m) rfl r).trans (if_neg hx)
    have hflagged : op.setsFlag = true → ∀ value flag,
        ((m.setRegister x value).setRegister flagRegister flag).register r = m.register r := by
      intro hop value flag
      refine (register_of_registers_eq (m := m.setRegister x value) rfl r).trans ?_
      rw [if_neg (hflag hop), hresult]
    cases op with
    | copy | or | and | xor => exact hresult _
    | add | subtract | shiftRight | subtractFrom | shiftLeft => exact hflagged rfl _ _

/-- Storing bytes writes just those bytes. -/
theorem rewrites_store {data : List UInt8} (h : m.store data = .ok after)
    (hlength : data.length = i.stored) : Rewrites i m after := by
  obtain ⟨memory, hwrite, rfl⟩ := of_store_eq_ok h
  refine ⟨fun address haddress => ?_, fun _ _ => rfl, fun _ => rfl⟩
  obtain ⟨-, rfl⟩ := Memory.of_write_eq_ok hwrite
  have hout : ¬ (m.index.toNat ≤ address.val ∧ address.val - m.index.toNat < data.length) := by
    simp only [Instruction.writes, Bool.and_eq_false_iff, decide_eq_false_iff_not] at haddress
    omega
  exact (Memory.getElem_place _ _ _ _ address.isLt).trans (dif_neg hout)

/-- The registers behind the last one that is loaded keep their contents. -/
theorem rewrites_loadRegisters {x : Register} (h : m.loadRegisters x = .ok after) :
    Rewrites (.unary .loadRegisters x) m after := by
  obtain ⟨data, hread, rfl⟩ := read_of_loadRegisters h
  refine .of_registers rfl rfl fun r hr => ?_
  obtain ⟨hlength, -⟩ := Memory.of_read_eq_ok hread
  have hbehind : ¬ r ≤ x := of_decide_eq_false hr
  have hnone : data.length ≤ r.val := by
    rw [hlength]
    exact Nat.lt_of_not_le hbehind
  exact (get_filledFrom m data r).trans (by rw [List.getElem?_eq_none hnone, Option.getD_none])

end Machine

namespace Processor

open Machine

variable {p : Processor} {i : Instruction} {e : Effect}

theorem rewrites_of_unaryEffect {op : UnaryOp} {x : Register} (h : p.unaryEffect x op = .ok e) :
    Rewrites (.unary op x) p.machine e.processor.machine := by
  cases op with
  | readDelay =>
      cases h
      exact rewrites_setRegister fun r hr => of_decide_eq_false hr
  | addToIndex =>
      cases h
      exact .of_index rfl (fun _ => rfl) rfl
  | pointAtGlyph =>
      rw [unaryEffect] at h
      split at h
      · cases h
        exact .of_index rfl (fun _ => rfl) rfl
      · cases h
  | storeDecimal =>
      obtain ⟨after, hstore, rfl⟩ := exists_of_map_eq_ok h
      exact rewrites_store hstore rfl
  | storeRegisters =>
      obtain ⟨after, hstore, rfl⟩ := exists_of_map_eq_ok h
      refine rewrites_store hstore ?_
      have hx := x.isLt
      rw [List.length_take, Vector.length_toList]
      exact Nat.min_eq_left hx
  | loadRegisters =>
      obtain ⟨after, hload, rfl⟩ := exists_of_map_eq_ok h
      exact rewrites_loadRegisters hload
  | _ =>
      cases h
      exact .of_registers rfl rfl fun _ _ => rfl

/-- The data that an instruction leaves alone. -/
theorem rewrites_of_effect (h : p.effect i = .ok e) :
    Rewrites i p.machine e.processor.machine := by
  cases i with
  | leave =>
      obtain ⟨⟨address, after, events⟩, hpop, rfl⟩ := exists_of_map_eq_ok h
      obtain ⟨-, hafter, -⟩ := of_popReturn_eq_ok hpop
      rw [hafter]
      exact .of_registers rfl rfl fun _ _ => rfl
  | call address =>
      obtain ⟨⟨after, events⟩, hpush, rfl⟩ := exists_of_map_eq_ok h
      obtain ⟨-, -, rfl, -⟩ := of_pushReturn_eq_ok hpush
      exact .of_registers rfl rfl fun _ _ => rfl
  | loadByte | addByte | random =>
      cases h
      exact rewrites_setRegister fun r hr => of_decide_eq_false hr
  | binary op x y =>
      cases h
      exact rewrites_binary op x y
  | loadIndex address =>
      cases h
      exact .of_index rfl (fun _ => rfl) rfl
  | draw x y height =>
      obtain ⟨after, hdraw, rfl⟩ := exists_of_map_eq_ok h
      obtain ⟨sprite, -, rfl⟩ := of_draw_eq_ok hdraw
      refine .of_registers rfl rfl fun r hr => ?_
      exact (register_of_registers_eq (m := p.machine) rfl r).trans (if_neg (of_decide_eq_false hr))
  | skipOnKey test x =>
      obtain ⟨held, -, rfl⟩ := exists_of_map_eq_ok h
      exact .of_registers rfl rfl fun _ _ => rfl
  | unary op x => exact rewrites_of_unaryEffect h
  | _ =>
      cases h
      exact .of_registers rfl rfl fun _ _ => rfl

theorem same_of_effect (h : p.effect i = .ok e) {part : Part}
    (hpart : i.writes p.machine.index part = false) :
    part.Same p.machine e.processor.machine := by
  have hrewrites := rewrites_of_effect h
  have hfootprint := footprint_of_effect h
  have hperiphery := periphery_of_effect h
  cases part with
  | byte address => exact hrewrites.memory address hpart
  | register r => exact hrewrites.registers r hpart
  | index => exact hrewrites.index hpart
  | stack => exact hfootprint.stack hpart
  | delay => exact hperiphery.delay hpart
  | sound => exact hperiphery.sound hpart
  | display => exact hfootprint.display hpart
  | redraw =>
      have hdraws : i.draws = false := hpart
      have hredraw := hfootprint.redraw
      rw [hdraws, Bool.or_false] at hredraw
      exact hredraw
  | keypad => exact hperiphery.keypad
  | awaiting =>
      have hnone : i.awaits? = none := Option.not_isSome_iff_eq_none.mp (Bool.eq_false_iff.mp hpart)
      have hawaiting := hperiphery.awaiting
      rw [hnone, Option.none_or] at hawaiting
      exact hawaiting

/-- A step that executes an instruction leaves every part of the machine as it was, unless the
instruction writes it. It asks for a redraw exactly if the instruction writes the display. -/
theorem same_of_not_writes {signal : Signal} (hi : p.machine.Executes i)
    (hok : p.step.outcome = .ok signal) :
    (∀ part, i.writes p.machine.index part = false →
      part.Same p.machine p.step.state.machine) ∧
    (signal = .draw ↔ i.writes p.machine.index .display = true) := by
  obtain ⟨e, machine, heffect, hmove, hsignal, hstate⟩ := of_step_eq_ok hi hok
  obtain ⟨target, -, rfl⟩ := of_move_eq_ok hmove
  refine ⟨fun part hpart => ?_, ?_⟩
  · rw [hstate]
    have hsame := same_of_effect heffect hpart
    cases part <;> exact hsame
  · rw [hsignal, (periphery_of_effect heffect).signal]
    exact i.signal_eq_draw_iff

/-- The program `A3 00 F1 55` stores two registers from `0x300` on: the byte behind them, the index
register and the registers stay as they were, although the bytes in front of it may change. -/
theorem same_of_not_writes_two_registers :
    let m := Machine.initial.after
      [.request (.load [0xA3, 0x00, 0xF1, 0x55]), .step (.cycle #[])]
    let p : Processor := ⟨m, .cycle #[]⟩
    let stored := p.step.state.machine
    let i : Instruction := .unary .storeRegisters 1
    m.Executes i ∧ p.step.outcome = .ok .proceed ∧
      i.writes m.index (.byte 0x301) = true ∧ i.writes m.index (.byte 0x302) = false ∧
      stored.memory.bytes.get 0x302 = m.memory.bytes.get 0x302 ∧ stored.index = 0x300 ∧
      stored.register 0 = m.register 0 := by
  intro m p stored i
  obtain ⟨memory, hload, hfetch⟩ := load_initial [0xA3, 0x00, 0xF1, 0x55] (by decide)
  let loaded : Machine := { initial with memory }
  have hm : m = { loaded with index := 0x300, programCounter := 0x202 } := by
    show initial.after _ = _
    rw [after_cons, hload, after_cons,
      perform_step_of_fetch (m := loaded) (i := .loadIndex 0x300) rfl
        (fetch_of_memory (hfetch 0 (by decide))) rfl]
    rfl
  clear_value m
  have hindex : m.index = 0x300 := by rw [hm]
  have hi : m.Executes i := by
    rw [hm]
    exact executes_of_fetch rfl (fetch_of_memory (hfetch 2 (by decide))) rfl
  have hok : p.step.outcome = .ok .proceed := by
    obtain ⟨opcode, -, hstep⟩ := step_of_executes (p := p) hi
    rw [hstep]
    show (p.execute i).outcome = _
    simp only [p, hm]
    rfl
  have hwritten : i.writes m.index (.byte 0x301) = true := by
    rw [hindex]
    rfl
  have hspared : i.writes m.index (.byte 0x302) = false := by
    rw [hindex]
    rfl
  obtain ⟨hsame, -⟩ := same_of_not_writes (p := p) hi hok
  exact ⟨hi, hok, hwritten, hspared, hsame (.byte 0x302) hspared,
    (hsame .index rfl).trans hindex, hsame (.register 0) rfl⟩

end Processor

end Chip8
