import Chip8.Proofs.Coding
import Chip8.Proofs.Raw.Decode
import Chip8.Proofs.Step

/-!
Decoding undoes encoding.

All instructions but two are read off their own words: `decode_encode_iff`. The words without an
instruction are those whose last nibble or byte is not in the table of their group, which is
`Opcode.Unassigned`. `decode_inverts_encode` joins this with what `Chip8.Proofs.Coding` says of the
other direction and carries it to words that lie in memory, high byte first.
-/

namespace Chip8

/-- No instruction has this word: its group needs a nibble or a byte that it does not have. -/
def Opcode.Unassigned (o : Opcode) : Prop :=
  match o.group.val with
  | 0x5 | 0x9 => o.nibble.val ≠ 0
  | 0x8 => 0x8 ≤ o.nibble.val ∧ o.nibble.val ≤ 0xD ∨ o.nibble.val = 0xF
  | 0xE => o.byte.toNat ∉ [0x9E, 0xA1]
  | 0xF => o.byte.toNat ∉ [0x07, 0x0A, 0x15, 0x18, 0x1E, 0x29, 0x33, 0x55, 0x65]
  | _ => False

theorem BinaryOp.ofCode?_eq_none_iff (n : Nibble) :
    ofCode? n.val = none ↔ 0x8 ≤ n.val ∧ n.val ≤ 0xD ∨ n.val = 0xF := by
  decide +revert

theorem KeyTest.ofCode?_eq_none_iff {n : Nat} : ofCode? n = none ↔ n ∉ [0x9E, 0xA1] := by
  unfold ofCode?
  split <;> simp_all

theorem UnaryOp.ofCode?_eq_none_iff {n : Nat} :
    ofCode? n = none ↔ n ∉ [0x07, 0x0A, 0x15, 0x18, 0x1E, 0x29, 0x33, 0x55, 0x65] := by
  unfold ofCode?
  split <;> simp_all

namespace Instruction

theorem ofOpcode?_eq_none_iff {o : Opcode} : ofOpcode? o = none ↔ o.Unassigned := by
  unfold ofOpcode? ofParts? Opcode.Unassigned
  split
  case h_1 hgroup =>
      rw [hgroup]
      refine iff_of_false ?_ not_false
      split
      · nofun
      · split <;> nofun
  case h_2 hgroup | h_3 hgroup | h_4 hgroup | h_5 hgroup | h_7 hgroup | h_8 hgroup | h_11 hgroup |
      h_12 hgroup | h_13 hgroup | h_14 hgroup =>
      rw [hgroup]
      exact iff_of_false nofun not_false
  case h_6 hgroup | h_10 hgroup =>
      rw [hgroup]
      split
      case isTrue hzero => exact iff_of_false nofun (not_not_intro hzero)
      case isFalse hnonzero => exact iff_of_true rfl hnonzero
  case h_9 hgroup =>
      rw [hgroup, Option.map_eq_none_iff]
      exact BinaryOp.ofCode?_eq_none_iff o.nibble
  case h_15 hgroup =>
      rw [hgroup, Option.map_eq_none_iff]
      exact KeyTest.ofCode?_eq_none_iff
  case h_16 =>
      have hgroup : o.group.val = 15 := by
        have hlt := o.group.isLt
        simp only [imp_false] at *
        omega
      rw [hgroup, Option.map_eq_none_iff]
      exact UnaryOp.ofCode?_eq_none_iff

/-- Decoding fails on the words without an instruction, and says which word it was. -/
theorem decode_eq_error_iff {o : Opcode} {fault : OpcodeFault} :
    decode o = .error fault ↔ fault = .unsupported o ∧ o.Unassigned := by
  rw [← ofOpcode?_eq_none_iff]
  constructor
  · intro h
    refine ⟨of_decode_eq_error h, Option.eq_none_iff_forall_ne_some.mpr fun i hi => ?_⟩
    rw [decode_eq_ok_iff.mpr hi] at h
    cases h
  · rintro ⟨rfl, hnone⟩
    rw [decode, ← ofOpcode?, hnone]

theorem isCanonical_iff {i : Instruction} :
    i.isCanonical = true ↔ i ≠ .hostRoutine 0x0E0 ∧ i ≠ .hostRoutine 0x0EE := by
  cases i with
  | hostRoutine a =>
      simp only [isCanonical, decide_eq_true_eq, ne_eq, hostRoutine.injEq, Fin.ext_iff]
      rfl
  | _ => exact iff_of_true rfl ⟨nofun, nofun⟩

/-- The words of two host routines are those of other instructions; every other instruction is read
off its own word. -/
theorem decode_encode_iff {i : Instruction} :
    decode i.encode = .ok i ↔ i ≠ .hostRoutine 0x0E0 ∧ i ≠ .hostRoutine 0x0EE := by
  constructor
  · intro h
    constructor
    · rintro rfl
      cases h.symm.trans (show decode (hostRoutine 0x0E0).encode = .ok .clearDisplay from rfl)
    · rintro rfl
      cases h.symm.trans (show decode (hostRoutine 0x0EE).encode = .ok .leave from rfl)
  · intro h
    exact decode_encode (isCanonical_iff.mpr h)

end Instruction

/-- Some bytes with a word written over them at a place, the high byte first. -/
def putOpcode (bytes : Array UInt8) (pointer : Nat) (o : Opcode) : Array UInt8 :=
  (bytes.setIfInBounds pointer o.high).setIfInBounds (pointer + 1) o.low

theorem opcodeAt_putOpcode {bytes : Array UInt8} {pointer : Nat} (h : pointer + 1 < bytes.size)
    (o : Opcode) : opcodeAt (putOpcode bytes pointer o) pointer = .ok o := by
  have hsize : pointer + 1 < (putOpcode bytes pointer o).size := by
    rwa [putOpcode, Array.size_setIfInBounds, Array.size_setIfInBounds]
  have hfirst : pointer < (bytes.setIfInBounds pointer o.high).size := by
    rw [Array.size_setIfInBounds]
    exact Nat.lt_of_succ_lt h
  have hhigh : (putOpcode bytes pointer o)[pointer] = o.high :=
    (Array.getElem_setIfInBounds_ne hfirst (Nat.succ_ne_self pointer)).trans
      (Array.getElem_setIfInBounds_self hfirst)
  have hlow : (putOpcode bytes pointer o)[pointer + 1] = o.low :=
    Array.getElem_setIfInBounds_self hsize
  rw [opcodeAt, dif_pos hsize, hhigh, hlow, Opcode.ofBytes_high_low]

namespace Machine

/-- The machine with a word under its program counter. -/
def withOpcode (m : Machine) (o : Opcode) : Machine :=
  { m with memory := m.memory.place m.programCounter.toNat [o.high, o.low] }

theorem current_withOpcode {m : Machine} (h : m.programCounter.toNat + 1 < Memory.size)
    {o : Opcode} {i : Instruction} (ho : decode o = .ok i) : (m.withOpcode o).current = .ok i := by
  have hlength : 0 + 1 < [o.high, o.low].length := Nat.one_lt_two
  have hfetch : (m.withOpcode o).fetch = .ok (Opcode.ofBytes o.high o.low) :=
    fetch_of_memory (m.memory.fetch_place hlength h)
  rw [Opcode.ofBytes_high_low] at hfetch
  simp only [current, hfetch, ho]
  rfl

end Machine

/-- Decoding is the inverse of encoding, and it fails on the words that are no encoding. Its masks
and shifts leave no operand out of range. An instruction whose word is written anywhere in memory
is fetched and decoded from there. -/
theorem decode_inverts_encode :
    (∀ i : Instruction,
      decode i.encode = .ok i ↔ i ≠ .hostRoutine 0x0E0 ∧ i ≠ .hostRoutine 0x0EE) ∧
    (∀ o i, decode o = .ok i → i.encode = o ∧ ∀ o', decode o' = .ok i → o' = o) ∧
    (∀ o, Raw.decode o = .of ((decode o).mapError .opcode)) ∧
    (∀ o fault, decode o = .error fault ↔ fault = .unsupported o ∧ o.Unassigned) ∧
    ∀ i : Instruction, i ≠ .hostRoutine 0x0E0 → i ≠ .hostRoutine 0x0EE →
      (∀ (bytes : Array UInt8) (pointer : Nat), pointer + 1 < bytes.size →
        (opcodeAt (putOpcode bytes pointer i.encode) pointer).map decode = .ok (.ok i)) ∧
      ∀ m : Machine, m.programCounter.toNat + 1 < Memory.size →
        (m.withOpcode i.encode).current = .ok i := by
  refine ⟨fun _ => Instruction.decode_encode_iff, fun o i h => ?_, Raw.decode_eq,
    fun _ _ => Instruction.decode_eq_error_iff, fun i hclear hleave => ?_⟩
  · have hencode : i.encode = o := Instruction.encode_of_decode h
    exact ⟨hencode, fun o' h' => (Instruction.encode_of_decode h').symm.trans hencode⟩
  · have hdecode : decode i.encode = .ok i := Instruction.decode_encode_iff.mpr ⟨hclear, hleave⟩
    refine ⟨fun bytes pointer hpointer => ?_, fun m hpc => Machine.current_withOpcode hpc hdecode⟩
    rw [opcodeAt_putOpcode hpointer, Except.map, hdecode]

/-- `D125` in the last two of three bytes and at the start of a program. -/
theorem decode_inverts_encode_draw :
    let i : Instruction := .draw 1 2 5
    i.encode = 0xD125 ∧ decode 0xD125 = .ok i ∧
      (opcodeAt (putOpcode #[0, 0, 0] 1 0xD125) 1).map decode = .ok (.ok i) ∧
      (Machine.initial.withOpcode 0xD125).current = .ok i ∧
      decode 0x5121 = .error (.unsupported 0x5121) := by
  intro i
  obtain ⟨hdecode, hencode, -, hunassigned, hstored⟩ := decode_inverts_encode
  have hi : decode 0xD125 = .ok i := (hdecode i).mpr ⟨nofun, nofun⟩
  obtain ⟨hbytes, hmachine⟩ := hstored i nofun nofun
  have hgroup : Opcode.Unassigned 0x5121 := Nat.one_ne_zero
  exact ⟨(hencode 0xD125 i hi).1, hi, hbytes #[0, 0, 0] 1 (by decide),
    hmachine Machine.initial (by decide), (hunassigned 0x5121 _).mpr ⟨rfl, hgroup⟩⟩

end Chip8
