/-!
Opcodes: sixteen-bit words whose four nibbles hold the operands of an instruction.

The patterns `TNNN`, `TXKK` and `TXYN` name the parts: the group `T`, an address `NNN`, the
registers `X` and `Y`, a byte `KK` and a nibble `N`.
-/

namespace Chip8

/-- An address that an opcode can name. -/
abbrev Address := Fin 4096

/-- The number of a data register, `V0` to `VF`. -/
abbrev Register := Fin 16

abbrev Nibble := Fin 16

/-- A sixteen-bit instruction word. -/
abbrev Opcode := UInt16

namespace Opcode

/-- The bytes an opcode takes in memory. -/
def size : Nat := 2

/-- The word with the given high and low byte. -/
def ofBytes (high low : UInt8) : Opcode :=
  UInt16.ofNat (high.toNat * 256 + low.toNat)

/-- The byte at the lower address. -/
def high (o : Opcode) : UInt8 :=
  UInt8.ofNat (o.toNat / 256)

/-- The byte at the higher address. -/
def low (o : Opcode) : UInt8 :=
  UInt8.ofNat (o.toNat % 256)

/-- The group `T`, the highest nibble. -/
def group (o : Opcode) : Nibble :=
  ⟨o.toNat / 4096, by have := o.toNat_lt; omega⟩

def address (o : Opcode) : Address :=
  ⟨o.toNat % 4096, by omega⟩

def x (o : Opcode) : Register :=
  ⟨o.toNat / 256 % 16, by omega⟩

def y (o : Opcode) : Register :=
  ⟨o.toNat / 16 % 16, by omega⟩

def nibble (o : Opcode) : Nibble :=
  ⟨o.toNat % 16, by omega⟩

def byte (o : Opcode) : UInt8 :=
  o.low

def ofAddress (group : Nat) (address : Address) : Opcode :=
  UInt16.ofNat (group * 4096 + address.val)

def ofByte (group : Nat) (x : Register) (byte : Nat) : Opcode :=
  UInt16.ofNat (group * 4096 + x.val * 256 + byte)

def ofNibble (group : Nat) (x y : Register) (n : Nat) : Opcode :=
  UInt16.ofNat (group * 4096 + x.val * 256 + y.val * 16 + n)

theorem toNat_ofAddress {group : Nat} (hg : group < 16) (address : Address) :
    (ofAddress group address).toNat = group * 4096 + address.val := by
  have := address.isLt
  rw [ofAddress, UInt16.toNat_ofNat']
  omega

theorem toNat_ofByte {group byte : Nat} (hg : group < 16) (x : Register) (hb : byte < 256) :
    (ofByte group x byte).toNat = group * 4096 + x.val * 256 + byte := by
  have := x.isLt
  rw [ofByte, UInt16.toNat_ofNat']
  omega

theorem toNat_ofNibble {group n : Nat} (hg : group < 16) (x y : Register) (hn : n < 16) :
    (ofNibble group x y n).toNat = group * 4096 + x.val * 256 + y.val * 16 + n := by
  have := x.isLt
  have := y.isLt
  rw [ofNibble, UInt16.toNat_ofNat']
  omega

theorem toNat_ofBytes (high low : UInt8) :
    (ofBytes high low).toNat = high.toNat * 256 + low.toNat := by
  have := high.toNat_lt
  have := low.toNat_lt
  rw [ofBytes, UInt16.toNat_ofNat']
  omega

theorem ofBytes_high_low (o : Opcode) : ofBytes o.high o.low = o := by
  have := o.toNat_lt
  apply UInt16.toNat_inj.1
  rw [toNat_ofBytes, high, low, UInt8.toNat_ofNat', UInt8.toNat_ofNat']
  omega

end Opcode

end Chip8
