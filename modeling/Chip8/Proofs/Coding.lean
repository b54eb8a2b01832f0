import Chip8.Instruction.Coding

/-!
Opcodes and instructions.

An opcode is made of its parts in three ways, one for each pattern. So what `decode` reads off an
opcode is what `Instruction.encode` writes into it: `Instruction.encode_of_decode`. Conversely
every encoding is decoded, if not to the same instruction then to another one that claims the word.
The opcodes that `decode` refuses are thus those that encode no instruction:
`exists_encode_eq_iff`.
-/

namespace Chip8

namespace Opcode

variable (o : Opcode)

theorem val_group : o.group.val = o.toNat / 4096 := rfl

theorem val_address : o.address.val = o.toNat % 4096 := rfl

theorem val_x : o.x.val = o.toNat / 256 % 16 := rfl

theorem val_y : o.y.val = o.toNat / 16 % 16 := rfl

theorem val_nibble : o.nibble.val = o.toNat % 16 := rfl

theorem toNat_byte : o.byte.toNat = o.toNat % 256 := by
  rw [byte, low, UInt8.toNat_ofNat']
  omega

theorem ofAddress_eq_self : ofAddress o.group.val o.address = o := by
  apply UInt16.toNat_inj.1
  rw [toNat_ofAddress o.group.isLt, val_group, val_address]
  omega

theorem ofByte_eq_self : ofByte o.group.val o.x o.byte.toNat = o := by
  apply UInt16.toNat_inj.1
  rw [toNat_ofByte o.group.isLt _ o.byte.toNat_lt, val_group, val_x, toNat_byte]
  omega

theorem ofNibble_eq_self : ofNibble o.group.val o.x o.y o.nibble.val = o := by
  apply UInt16.toNat_inj.1
  rw [toNat_ofNibble o.group.isLt _ _ o.nibble.isLt, val_group, val_x, val_y, val_nibble]
  omega

/-! What is read off an opcode that is made of parts. -/

variable {group n : Nat} (hgroup : group < 16) (r s : Register)
include hgroup

theorem val_group_ofAddress (a : Address) : (ofAddress group a).group.val = group := by
  have ha := a.isLt
  rw [val_group, toNat_ofAddress hgroup]
  omega

theorem address_ofAddress (a : Address) : (ofAddress group a).address = a := by
  have ha := a.isLt
  apply Fin.ext
  rw [val_address, toNat_ofAddress hgroup]
  omega

section Byte

variable (hn : n < 256)
include hn

theorem val_group_ofByte : (ofByte group r n).group.val = group := by
  have hr := r.isLt
  rw [val_group, toNat_ofByte hgroup r hn]
  omega

theorem x_ofByte : (ofByte group r n).x = r := by
  have hr := r.isLt
  apply Fin.ext
  rw [val_x, toNat_ofByte hgroup r hn]
  omega

theorem toNat_byte_ofByte : (ofByte group r n).byte.toNat = n := by
  have hr := r.isLt
  rw [toNat_byte, toNat_ofByte hgroup r hn]
  omega

end Byte

section Nibble

variable (hn : n < 16)
include hn

theorem val_group_ofNibble : (ofNibble group r s n).group.val = group := by
  have hr := r.isLt
  have hs := s.isLt
  rw [val_group, toNat_ofNibble hgroup r s hn]
  omega

theorem x_ofNibble : (ofNibble group r s n).x = r := by
  have hr := r.isLt
  have hs := s.isLt
  apply Fin.ext
  rw [val_x, toNat_ofNibble hgroup r s hn]
  omega

theorem y_ofNibble : (ofNibble group r s n).y = s := by
  have hr := r.isLt
  have hs := s.isLt
  apply Fin.ext
  rw [val_y, toNat_ofNibble hgroup r s hn]
  omega

theorem val_nibble_ofNibble : (ofNibble group r s n).nibble.val = n := by
  have hr := r.isLt
  have hs := s.isLt
  rw [val_nibble, toNat_ofNibble hgroup r s hn]
  omega

end Nibble

end Opcode

theorem BinaryOp.code_lt (op : BinaryOp) : op.code < 16 := by
  cases op <;> decide

theorem BinaryOp.ofCode?_eq_some_iff {n : Nat} {op : BinaryOp} :
    ofCode? n = some op ↔ op.code = n := by
  constructor
  · intro h
    unfold ofCode? at h
    split at h <;> cases h <;> rfl
  · rintro rfl
    cases op <;> rfl

theorem KeyTest.code_lt (test : KeyTest) : test.code < 256 := by
  cases test <;> decide

theorem KeyTest.ofCode?_eq_some_iff {n : Nat} {test : KeyTest} :
    ofCode? n = some test ↔ test.code = n := by
  constructor
  · intro h
    unfold ofCode? at h
    split at h <;> cases h <;> rfl
  · rintro rfl
    cases test <;> rfl

theorem UnaryOp.code_lt (op : UnaryOp) : op.code < 256 := by
  cases op <;> decide

theorem UnaryOp.ofCode?_eq_some_iff {n : Nat} {op : UnaryOp} :
    ofCode? n = some op ↔ op.code = n := by
  constructor
  · intro h
    unfold ofCode? at h
    split at h <;> cases h <;> rfl
  · rintro rfl
    cases op <;> rfl

namespace Instruction

/-- The instruction that is read off the parts of an opcode. -/
def ofOpcode? (o : Opcode) : Option Instruction :=
  ofParts? o o.group.val o.address o.x o.y o.nibble o.byte

theorem decode_eq_ok_iff {o : Opcode} {i : Instruction} :
    decode o = .ok i ↔ ofOpcode? o = some i := by
  rw [decode, ← ofOpcode?]
  cases ofOpcode? o with
  | none => exact iff_of_false nofun nofun
  | some j => rw [Except.ok.injEq, Option.some.injEq]

/-- What is wrong with an opcode is always that no instruction has it. -/
theorem of_decode_eq_error {o : Opcode} {fault : OpcodeFault} (h : decode o = .error fault) :
    fault = .unsupported o := by
  rw [decode, ← ofOpcode?] at h
  cases hread : ofOpcode? o with
  | none =>
      rw [hread] at h
      cases h
      rfl
  | some i =>
      rw [hread] at h
      cases h

/-- An opcode is the encoding of the instruction that is read off it. -/
theorem encode_of_ofOpcode? {o : Opcode} {i : Instruction} (h : ofOpcode? o = some i) :
    i.encode = o := by
  have haddress := o.ofAddress_eq_self
  have hbyte := o.ofByte_eq_self
  have hnibble := o.ofNibble_eq_self
  unfold ofOpcode? ofParts? at h
  split at h
  case h_1 hgroup =>
      rw [hgroup] at haddress
      split at h
      · rename_i hclear
        cases h
        exact hclear.symm
      · split at h
        · rename_i hleave
          cases h
          exact hleave.symm
        · cases h
          exact haddress
  case h_2 hgroup | h_3 hgroup | h_11 hgroup | h_12 hgroup =>
      rw [hgroup] at haddress
      cases h
      exact haddress
  case h_4 hgroup | h_5 hgroup | h_7 hgroup | h_8 hgroup | h_13 hgroup =>
      rw [hgroup] at hbyte
      cases h
      exact hbyte
  case h_6 hgroup | h_10 hgroup =>
      split at h
      · rename_i hzero
        rw [hgroup, hzero] at hnibble
        cases h
        exact hnibble
      · cases h
  case h_9 hgroup =>
      obtain ⟨op, hop, rfl⟩ := Option.map_eq_some_iff.mp h
      rw [hgroup, ← BinaryOp.ofCode?_eq_some_iff.mp hop] at hnibble
      exact hnibble
  case h_14 hgroup =>
      rw [hgroup] at hnibble
      cases h
      exact hnibble
  case h_15 hgroup =>
      obtain ⟨test, htest, rfl⟩ := Option.map_eq_some_iff.mp h
      rw [hgroup, ← KeyTest.ofCode?_eq_some_iff.mp htest] at hbyte
      exact hbyte
  case h_16 =>
      have hgroup : o.group.val = 15 := by
        have hlt := o.group.isLt
        simp only [imp_false] at *
        omega
      obtain ⟨op, hop, rfl⟩ := Option.map_eq_some_iff.mp h
      rw [hgroup, ← UnaryOp.ofCode?_eq_some_iff.mp hop] at hbyte
      exact hbyte

/-- Whether an instruction has its word for itself: two addresses of host routines belong to other
instructions. -/
def isCanonical : Instruction → Bool
  | .hostRoutine a => a.val ≠ 0x0E0 ∧ a.val ≠ 0x0EE
  | _ => true

/-- An instruction is read off its encoding. -/
theorem ofOpcode?_encode {i : Instruction} (hi : i.isCanonical = true) :
    ofOpcode? i.encode = some i := by
  cases i with
  | clearDisplay | leave => rfl
  | hostRoutine a =>
      obtain ⟨hclear, hleave⟩ := of_decide_eq_true hi
      have hvalue : (Opcode.ofAddress 0x0 a).toNat = a.val := by
        rw [Opcode.toNat_ofAddress (by decide)]
        omega
      have hnotClear : Opcode.ofAddress 0x0 a ≠ 0x00E0 := fun h => by
        rw [h] at hvalue
        exact hclear hvalue.symm
      have hnotLeave : Opcode.ofAddress 0x0 a ≠ 0x00EE := fun h => by
        rw [h] at hvalue
        exact hleave hvalue.symm
      rw [encode, ofOpcode?, Opcode.val_group_ofAddress (by decide),
        Opcode.address_ofAddress (by decide)]
      simp only [ofParts?, if_neg hnotClear, if_neg hnotLeave]
  | jump a | call a | loadIndex a | jumpOffset a =>
      rw [encode, ofOpcode?, Opcode.val_group_ofAddress (by decide),
        Opcode.address_ofAddress (by decide)]
      rfl
  | skipIfByte x b | skipUnlessByte x b | loadByte x b | addByte x b | random x b =>
      have hb := b.toNat_lt
      rw [encode, ofOpcode?, Opcode.val_group_ofByte (by decide) x hb,
        Opcode.x_ofByte (by decide) x hb,
        UInt8.toNat_inj.mp (Opcode.toNat_byte_ofByte (by decide) x hb)]
      rfl
  | skipIfSame x y | skipUnlessSame x y =>
      rw [encode, ofOpcode?, Opcode.val_group_ofNibble (by decide) x y (by decide),
        Opcode.x_ofNibble (by decide) x y (by decide),
        Opcode.y_ofNibble (by decide) x y (by decide)]
      exact if_pos (Opcode.val_nibble_ofNibble (by decide) x y (by decide))
  | binary op x y =>
      have hop := op.code_lt
      rw [encode, ofOpcode?, Opcode.val_group_ofNibble (by decide) x y hop,
        Opcode.x_ofNibble (by decide) x y hop, Opcode.y_ofNibble (by decide) x y hop]
      show (BinaryOp.ofCode? _).map _ = _
      rw [Opcode.val_nibble_ofNibble (by decide) x y hop, BinaryOp.ofCode?_eq_some_iff.mpr rfl]
      rfl
  | draw x y n =>
      have hn := n.isLt
      rw [encode, ofOpcode?, Opcode.val_group_ofNibble (by decide) x y hn,
        Opcode.x_ofNibble (by decide) x y hn, Opcode.y_ofNibble (by decide) x y hn,
        Fin.ext (Opcode.val_nibble_ofNibble (by decide) x y hn)]
      rfl
  | skipOnKey test x =>
      have htest := test.code_lt
      rw [encode, ofOpcode?, Opcode.val_group_ofByte (by decide) x htest,
        Opcode.x_ofByte (by decide) x htest]
      show (KeyTest.ofCode? _).map _ = _
      rw [Opcode.toNat_byte_ofByte (by decide) x htest, KeyTest.ofCode?_eq_some_iff.mpr rfl]
      rfl
  | unary op x =>
      have hop := op.code_lt
      rw [encode, ofOpcode?, Opcode.val_group_ofByte (by decide) x hop,
        Opcode.x_ofByte (by decide) x hop]
      show (UnaryOp.ofCode? _).map _ = _
      rw [Opcode.toNat_byte_ofByte (by decide) x hop, UnaryOp.ofCode?_eq_some_iff.mpr rfl]
      rfl

theorem decode_encode {i : Instruction} (hi : i.isCanonical = true) : decode i.encode = .ok i :=
  decode_eq_ok_iff.mpr (ofOpcode?_encode hi)

theorem encode_of_decode {o : Opcode} {i : Instruction} (h : decode o = .ok i) : i.encode = o :=
  encode_of_ofOpcode? (decode_eq_ok_iff.mp h)

/-- The two host routines whose words are taken are read as the instructions that took them. -/
theorem exists_encode_eq {i : Instruction} (hi : i.isCanonical = false) :
    ∃ j : Instruction, j.isCanonical = true ∧ j.encode = i.encode := by
  cases i with
  | hostRoutine a =>
      have htaken : a.val = 0x0E0 ∨ a.val = 0x0EE := by
        have hnot := of_decide_eq_false hi
        omega
      rcases htaken with hclear | hleave
      · refine ⟨.clearDisplay, rfl, ?_⟩
        rw [encode, encode, Opcode.ofAddress, hclear]
        rfl
      · refine ⟨.leave, rfl, ?_⟩
        rw [encode, encode, Opcode.ofAddress, hleave]
        rfl
  | _ => cases hi

/-- The instruction set: an opcode is decoded exactly if it is the encoding of an instruction. -/
theorem exists_encode_eq_iff (o : Opcode) :
    (∃ i : Instruction, i.encode = o) ↔ ∃ i, decode o = .ok i := by
  constructor
  · rintro ⟨i, rfl⟩
    cases hi : i.isCanonical with
    | true => exact ⟨i, decode_encode hi⟩
    | false =>
        obtain ⟨j, hj, hencode⟩ := exists_encode_eq hi
        rw [← hencode]
        exact ⟨j, decode_encode hj⟩
  · rintro ⟨i, h⟩
    exact ⟨i, encode_of_decode h⟩

end Instruction

end Chip8
