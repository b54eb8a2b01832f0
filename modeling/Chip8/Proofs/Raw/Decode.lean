import Chip8.Instruction.Coding
import Chip8.Proofs.Raw.Access
import Mathlib.Algebra.Ring.Nat

/-!
Decoding with masks and shifts.

`Raw.decode` cuts the parts out of an opcode and checks that they name a register, an address or a
nibble. `Raw.decode_eq` says that they always do and that the result is that of `decode`.
-/

namespace Chip8

namespace Raw

/-- A number below a limit. -/
def bounded (limit n : Nat) : Option (Fin limit) :=
  if h : n < limit then some ⟨n, h⟩ else none

def decode (o : Opcode) : Checked Instruction := do
  let address ← bounded 4096 (o &&& 0x0FFF).toNat
  let x ← bounded 16 ((o &&& 0x0FFF &&& 0xFF00) >>> 8).toNat
  let y ← bounded 16 ((o &&& 0x00F0) >>> 4).toNat
  let nibble ← bounded 16 (o &&& 0x000F).toNat
  let byte := (o &&& 0x00FF).toUInt8
  match Instruction.ofParts? o ((o &&& 0xF000).toNat >>> 12) address x y nibble byte with
  | some instruction => return instruction
  | none => .of (.error (.opcode (.unsupported o)))

theorem bounded_of_eq {limit n : Nat} {i : Fin limit} (h : n = i.val) :
    bounded limit n = some i := by
  subst h
  exact dif_pos i.isLt

variable (o : Opcode)

theorem address_eq : (o &&& 0x0FFF).toNat = o.address.val := by
  rw [UInt16.toNat_and]
  exact Nat.and_two_pow_sub_one_eq_mod o.toNat 12

theorem nibble_eq : (o &&& 0x000F).toNat = o.nibble.val := by
  rw [UInt16.toNat_and]
  exact Nat.and_two_pow_sub_one_eq_mod o.toNat 4

/-- Four bits in the middle of a number. -/
theorem and_shiftRight (n mask shift : Nat) (hmask : mask >>> shift = 2 ^ 4 - 1) :
    (n &&& mask) >>> shift = n / 2 ^ shift % 16 := by
  rw [Nat.shiftRight_and_distrib, hmask, Nat.and_two_pow_sub_one_eq_mod, Nat.shiftRight_eq_div_pow]

theorem y_eq : ((o &&& 0x00F0) >>> 4).toNat = o.y.val := by
  rw [UInt16.toNat_shiftRight, UInt16.toNat_and]
  exact and_shiftRight o.toNat 0x00F0 4 rfl

theorem x_eq : ((o &&& 0x0FFF &&& 0xFF00) >>> 8).toNat = o.x.val := by
  have hmask : (0x0FFF : Opcode) &&& 0xFF00 = 0x0F00 := by decide
  rw [UInt16.and_assoc, hmask, UInt16.toNat_shiftRight, UInt16.toNat_and]
  exact and_shiftRight o.toNat 0x0F00 8 rfl

theorem group_eq : (o &&& 0xF000).toNat >>> 12 = o.group.val := by
  have hword := o.toNat_lt
  rw [UInt16.toNat_and]
  refine (and_shiftRight o.toNat 0xF000 12 rfl).trans (Nat.mod_eq_of_lt ?_)
  omega

theorem byte_eq : (o &&& 0x00FF).toUInt8 = o.byte := by
  rw [← UInt8.toNat_inj, UInt16.toNat_toUInt8, UInt16.toNat_and, Opcode.byte, Opcode.low,
    UInt8.toNat_ofNat']
  exact congrArg (· % 256) (Nat.and_two_pow_sub_one_eq_mod o.toNat 8)

/-- The masks cut the parts out of an opcode, so register numbers and addresses are in range. -/
theorem decode_eq : decode o = .of ((Chip8.decode o).mapError .opcode) := by
  rw [decode, bounded_of_eq (address_eq o), bounded_of_eq (x_eq o), bounded_of_eq (y_eq o),
    bounded_of_eq (nibble_eq o), byte_eq, group_eq, Chip8.decode]
  simp only [Checked.lift_some, Checked.of_ok_bind]
  cases Instruction.ofParts? o o.group.val o.address o.x o.y o.nibble o.byte <;> rfl

end Raw

end Chip8
