import Chip8.Proofs.History

/-!
Arithmetic on registers.

`BinaryOp.Computes` states what an operation makes of two bytes as an equation between numbers, in
which a carry, a missing borrow or a bit that was shifted out is accounted for by the flag.
`Machine.Assigned` states where result and flag go: the flag is written last, so it wins where both
go to `VF`. `Processor.step_arithmetic` has both for every step that executes `8XYN`, whichever
registers coincide, and the sum of `7XKK` beside them.
-/

namespace Chip8

namespace BinaryOp

/-- What an operation makes of two bytes: a result and, if it has one, a flag. -/
def Computes (vx vy result : Nat) : BinaryOp → (flag : Option Nat) → Prop
  | .copy, none => result = vy
  | .or, none => ∀ k, result.testBit k = (vx.testBit k || vy.testBit k)
  | .and, none => ∀ k, result.testBit k = (vx.testBit k && vy.testBit k)
  | .xor, none => ∀ k, result.testBit k = (vx.testBit k ^^ vy.testBit k)
  | .add, some flag => 256 * flag + result = vx + vy
  | .subtract, some flag => result + vy = vx + 256 * (1 - flag) ∧ (flag = 1 ↔ vy ≤ vx)
  | .shiftRight, some flag => vx = 2 * result + flag
  | .subtractFrom, some flag => result + vx = vy + 256 * (1 - flag) ∧ (flag = 1 ↔ vx ≤ vy)
  | .shiftLeft, some flag => 2 * vx = 256 * flag + result
  | _, _ => False

variable (x y : UInt8)

/-- A sum of bytes together with its carry. -/
theorem carry_add_toNat_add :
    256 * (if x.toNat + y.toNat < 256 then 0 else 1 : UInt8).toNat + (x + y).toNat =
      x.toNat + y.toNat := by
  have hx := x.toNat_lt
  have hy := y.toNat_lt
  rw [UInt8.toNat_add, apply_ite UInt8.toNat, UInt8.toNat_zero, UInt8.toNat_one]
  split <;> omega

/-- A difference of bytes together with what is borrowed for it. -/
theorem toNat_sub_add :
    (x - y).toNat + y.toNat =
        x.toNat + 256 * (1 - (if y ≤ x then 1 else 0 : UInt8).toNat) ∧
      ((if y ≤ x then 1 else 0 : UInt8).toNat = 1 ↔ y.toNat ≤ x.toNat) := by
  have hx := x.toNat_lt
  have hy := y.toNat_lt
  rw [UInt8.toNat_sub, apply_ite UInt8.toNat, UInt8.toNat_zero, UInt8.toNat_one]
  by_cases hle : y ≤ x
  · rw [if_pos hle]
    rw [UInt8.le_iff_toNat_le] at hle
    omega
  · rw [if_neg hle]
    rw [UInt8.le_iff_toNat_le] at hle
    omega

/-- The lowest bit of a byte and the bits above it. -/
theorem two_mul_toNat_shiftRight : x.toNat = 2 * (x >>> 1).toNat + (x &&& 1).toNat := by
  rw [UInt8.toNat_shiftRight, UInt8.toNat_and]
  show x.toNat = 2 * (x.toNat >>> 1) + (x.toNat &&& 1)
  rw [Nat.shiftRight_eq_div_pow, Nat.and_one_is_mod]
  omega

/-- The highest bit of a byte and the bits below it, all one place farther up. -/
theorem toNat_shiftLeft_add : 2 * x.toNat = 256 * (x >>> 7).toNat + (x <<< 1).toNat := by
  have hx := x.toNat_lt
  rw [UInt8.toNat_shiftLeft, UInt8.toNat_shiftRight]
  show 2 * x.toNat = 256 * (x.toNat >>> 7) + x.toNat <<< 1 % 256
  rw [Nat.shiftRight_eq_div_pow, Nat.shiftLeft_eq]
  omega

theorem computes_apply (op : BinaryOp) :
    op.Computes x.toNat y.toNat (op.apply x y).1.toNat ((op.apply x y).2.map UInt8.toNat) := by
  cases op with
  | copy => rfl
  | or =>
      intro k
      rw [← Nat.testBit_or, ← UInt8.toNat_or]
      rfl
  | and =>
      intro k
      rw [← Nat.testBit_and, ← UInt8.toNat_and]
      rfl
  | xor =>
      intro k
      rw [← Nat.testBit_xor, ← UInt8.toNat_xor]
      rfl
  | add => exact carry_add_toNat_add x y
  | subtract => exact toNat_sub_add x y
  | shiftRight => exact two_mul_toNat_shiftRight x
  | subtractFrom => exact toNat_sub_add y x
  | shiftLeft => exact toNat_shiftLeft_add x

/-- A flag is a single bit. -/
theorem toNat_flag_le_one (op : BinaryOp) {flag : UInt8} (h : (op.apply x y).2 = some flag) :
    flag.toNat ≤ 1 := by
  have hx := x.toNat_lt
  cases op with
  | copy | or | and | xor => cases h
  | add | subtract | subtractFrom =>
      cases h
      split <;> decide
  | shiftRight =>
      cases h
      rw [UInt8.toNat_and]
      exact Nat.and_le_right
  | shiftLeft =>
      cases h
      rw [UInt8.toNat_shiftRight]
      show x.toNat >>> 7 ≤ 1
      rw [Nat.shiftRight_eq_div_pow]
      omega

end BinaryOp

namespace Machine

/-- `VX` has received a result and `VF`, behind it, a flag if there is one. -/
structure Assigned (before after : Machine) (x : Register) (result : UInt8)
    (flag : Option UInt8) : Prop where
  target : after.register x = if x = flagRegister then flag.getD result else result
  flag : x ≠ flagRegister → after.register flagRegister = flag.getD (before.register flagRegister)
  others : ∀ r, r ≠ x → r ≠ flagRegister → after.register r = before.register r

theorem register_setRegister (m : Machine) (x r : Register) (value : UInt8) :
    (m.setRegister x value).register r = if r = x then value else m.register r :=
  register_of_registers_eq rfl r

theorem assigned_binary (m : Machine) (op : BinaryOp) (x y : Register) :
    Assigned m (m.binary op x y) x (op.apply (m.register x) (m.register y)).1
      (op.apply (m.register x) (m.register y)).2 := by
  unfold binary
  split
  · rename_i result happly
    rw [happly]
    constructor
    · simp [register_setRegister]
    · intro hx
      simp [register_setRegister, hx.symm]
    · intro r hr _
      simp [register_setRegister, hr]
  · rename_i result flag happly
    rw [happly]
    constructor
    · simp [register_setRegister]
    · intro _
      simp [register_setRegister]
    · intro r hr hflag
      simp [register_setRegister, hr, hflag]

theorem binary_eq (m : Machine) (op : BinaryOp) (x y : Register) :
    m.binary op x y = { m with registers := (m.binary op x y).registers } := by
  unfold binary
  split <;> rfl

end Machine

namespace Processor

open Machine

variable {p : Processor}

theorem step_binary {op : BinaryOp} {x y : Register} (hi : p.machine.Executes (.binary op x y)) :
    let before := p.machine
    let after := p.step.state.machine
    p.step.outcome = .ok .proceed ∧
      Assigned before after x (op.apply (before.register x) (before.register y)).1
        (op.apply (before.register x) (before.register y)).2 ∧
      p.step.state = p.withMachine
        { before with registers := after.registers, programCounter := after.programCounter } := by
  intro before after
  obtain ⟨houtcome, programCounter, hstate⟩ := step_of_next hi rfl rfl
  have hafter : after = { before.binary op x y with programCounter } :=
    congrArg Processor.machine hstate
  obtain ⟨htarget, hflag, hothers⟩ := assigned_binary before op x y
  refine ⟨houtcome, ?_, ?_⟩
  · rw [hafter]
    exact ⟨htarget, hflag, hothers⟩
  · rw [hstate, hafter, binary_eq before op x y]
    rfl

theorem step_addByte {x : Register} {byte : UInt8} (hi : p.machine.Executes (.addByte x byte)) :
    let before := p.machine
    let after := p.step.state.machine
    p.step.outcome = .ok .proceed ∧
      (∀ r, after.register r = if r = x then before.register x + byte else before.register r) ∧
      p.step.state = p.withMachine
        { before with registers := after.registers, programCounter := after.programCounter } := by
  intro before after
  obtain ⟨houtcome, programCounter, hstate⟩ := step_of_next hi rfl rfl
  have hafter : after = { before.setRegister x (before.register x + byte) with programCounter } :=
    congrArg Processor.machine hstate
  refine ⟨houtcome, fun r => ?_, ?_⟩
  · rw [hafter]
    exact register_setRegister before x r _
  · rw [hstate, hafter]
    rfl

/-- Arithmetic on registers is exact, and the flag is written last. Every `8XYN` succeeds; it makes
of the bytes that were in `VX` and `VY` what its operation computes, puts the result into `VX` and
then the flag into `VF`, and changes no other register. `7XKK` adds modulo 256 and changes no
register but `VX`. Neither touches anything but the registers and the program counter. -/
theorem step_arithmetic (p : Processor) :
    let before := p.machine
    let after := p.step.state.machine
    (∀ op x y, before.Executes (.binary op x y) →
      p.step.outcome = .ok .proceed ∧
      (∃ result flag,
        op.Computes (before.register x).toNat (before.register y).toNat result.toNat
          (flag.map UInt8.toNat) ∧
        (∀ bit, flag = some bit → bit.toNat ≤ 1) ∧ Assigned before after x result flag) ∧
      p.step.state = p.withMachine
        { before with registers := after.registers, programCounter := after.programCounter }) ∧
    (∀ x byte, before.Executes (.addByte x byte) →
      p.step.outcome = .ok .proceed ∧
      (after.register x).toNat = ((before.register x).toNat + byte.toNat) % 256 ∧
      (∀ r, r ≠ x → after.register r = before.register r) ∧
      p.step.state = p.withMachine
        { before with registers := after.registers, programCounter := after.programCounter }) := by
  intro before after
  constructor
  · intro op x y hi
    obtain ⟨houtcome, hassigned, hstate⟩ := step_binary hi
    refine ⟨houtcome, ⟨_, _, BinaryOp.computes_apply _ _ op, ?_, hassigned⟩, hstate⟩
    intro bit hbit
    exact BinaryOp.toNat_flag_le_one _ _ op hbit
  · intro x byte hi
    obtain ⟨houtcome, hregister, hstate⟩ := step_addByte hi
    refine ⟨houtcome, ?_, ?_, hstate⟩
    · rw [hregister, if_pos rfl, UInt8.toNat_add]
    · intro r hr
      rw [hregister, if_neg hr]

/-- The program `6F FF 8F F4 7F FF` adds `VF` to itself, which leaves the carry in it and not the
sum, and then wraps it around to zero. -/
theorem step_arithmetic_flag_twice :
    let m := Machine.initial.after
      [.request (.load [0x6F, 0xFF, 0x8F, 0xF4, 0x7F, 0xFF]), .step (.cycle #[])]
    let p : Processor := ⟨m, .cycle #[]⟩
    let q := p.step.state
    m.Executes (.binary .add 15 15) ∧ (m.register 15).toNat = 255 ∧
      (q.machine.register 15).toNat = 1 ∧ q.machine.Executes (.addByte 15 0xFF) ∧
      (q.step.state.machine.register 15).toNat = 0 := by
  intro m p q
  obtain ⟨memory, hload, hfetch⟩ :=
    load_initial [0x6F, 0xFF, 0x8F, 0xF4, 0x7F, 0xFF] (by decide)
  let loaded : Machine := { initial with memory }
  have hm : m = { loaded.setRegister 15 0xFF with programCounter := 0x202 } := by
    show initial.after _ = _
    rw [after_cons, hload, after_cons,
      perform_step_of_fetch (m := loaded) (i := .loadByte 15 0xFF) rfl
        (fetch_of_memory (hfetch 0 (by decide))) rfl]
    rfl
  clear_value m
  have hsecond : m.fetch = .ok (.ofBytes 0x8F 0xF4) := by
    rw [hm]
    exact fetch_of_memory (hfetch 2 (by decide))
  have hadd : m.Executes (.binary .add 15 15) :=
    executes_of_fetch (congrArg Machine.awaiting hm) hsecond rfl
  have hfull : (m.register 15).toNat = 255 := by
    rw [hm]
    rfl
  obtain ⟨-, ⟨result, flag, hcomputes, hbit, hassigned⟩, -⟩ :=
    p.step_arithmetic.1 .add 15 15 hadd
  have hone : (q.machine.register 15).toNat = 1 := by
    have hresult := result.toNat_lt
    cases flag with
    | none => cases hcomputes
    | some bit =>
        have hsum : 256 * bit.toNat + result.toNat = 255 + 255 := by
          rw [← hfull]
          exact hcomputes
        have htarget : q.machine.register 15 = bit := hassigned.target
        have hle := hbit bit rfl
        rw [htarget]
        omega
  have hq : q.machine = { m.binary .add 15 15 with programCounter := 0x204 } := by
    show p.step.state.machine = _
    rw [step_of_fetch (p := p) (i := .binary .add 15 15) hadd.1 hsecond rfl]
    simp only [p, hm]
    rfl
  have hthird : q.machine.fetch = .ok (.ofBytes 0x7F 0xFF) := by
    rw [hq, hm]
    exact fetch_of_memory (hfetch 4 (by decide))
  have hwait : q.machine.awaiting = none := by
    rw [hq, hm]
    rfl
  have hwrap : q.machine.Executes (.addByte 15 0xFF) := executes_of_fetch hwait hthird rfl
  obtain ⟨-, hzero, -⟩ := q.step_arithmetic.2 15 0xFF hwrap
  refine ⟨hadd, hfull, hone, hwrap, ?_⟩
  rw [hzero, hone]
  rfl

end Processor

end Chip8
