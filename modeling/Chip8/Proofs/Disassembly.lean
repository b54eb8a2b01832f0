import Chip8.Hex.Lemmas
import Chip8.Processor.Step
import Chip8.Proofs.Coding
import Mathlib.Data.List.Basic

/-!
The assembly text of an instruction determines what the instruction does.

A text is a statement: a mnemonic and operands, written as words with spaces between them. Operands
of different kinds look different, so the words determine the statement:
`Statement.text_injective`. A statement can be read back, which gives the instruction up to the
second register of a shift. No text names this register and no shift reads it, so instructions with
the same text have the same effect. `Instruction.text_eq_iff` says it of opcodes.
-/

namespace Chip8

/-- Names differ if everything that has one is found by it. -/
theorem eq_of_find? {α : Type} {name : α → String} {all : List α} {a b : α}
    (hfind : ∀ a, all.find? (name · = name a) = some a) (h : name a = name b) : a = b := by
  have ha := hfind a
  rw [h, hfind b] at ha
  exact (Option.some.inj ha).symm

/-- The short names of instructions. -/
inductive Mnemonic where
  | cls | ret | sys | jp | call | se | sne | ld | add | or | and | xor | sub | subn | shr | shl
  | rnd | drw | skp | sknp

namespace Mnemonic

def name : Mnemonic → String
  | .cls => "CLS"
  | .ret => "RET"
  | .sys => "SYS"
  | .jp => "JP"
  | .call => "CALL"
  | .se => "SE"
  | .sne => "SNE"
  | .ld => "LD"
  | .add => "ADD"
  | .or => "OR"
  | .and => "AND"
  | .xor => "XOR"
  | .sub => "SUB"
  | .subn => "SUBN"
  | .shr => "SHR"
  | .shl => "SHL"
  | .rnd => "RND"
  | .drw => "DRW"
  | .skp => "SKP"
  | .sknp => "SKNP"

def all : List Mnemonic :=
  [cls, ret, sys, jp, call, se, sne, ld, add, or, and, xor, sub, subn, shr, shl, rnd, drw, skp,
    sknp]

theorem find?_name (m : Mnemonic) : all.find? (·.name = m.name) = some m := by
  cases m <;> rfl

theorem space_not_mem_name (m : Mnemonic) : ' ' ∉ m.name.toList := by
  cases m <;> decide

end Mnemonic

/-- The operands that are neither registers nor numbers. -/
inductive Keyword where
  | delay | sound | key | index | glyph | decimal | memory

namespace Keyword

def name : Keyword → String
  | .delay => "DT"
  | .sound => "ST"
  | .key => "K"
  | .index => "I"
  | .glyph => "F"
  | .decimal => "B"
  | .memory => "[I]"

def all : List Keyword := [delay, sound, key, index, glyph, decimal, memory]

theorem find?_name (k : Keyword) : all.find? (·.name = k.name) = some k := by
  cases k <;> rfl

end Keyword

/-- An operand as it is written. -/
inductive Operand where
  | register (x : Register)
  | address (a : Address)
  | byte (b : UInt8)
  | height (n : Nibble)
  | keyword (k : Keyword)

namespace Operand

def text : Operand → String
  | .register x => registerName x
  | .address a => Instruction.addressText a
  | .byte b => Instruction.byteText b
  | .height n => Hex.numeral 1 n.val
  | .keyword k => k.name

inductive Kind where
  | register | address | byte | height | keyword

def kind : Operand → Kind
  | .register _ => .register
  | .address _ => .address
  | .byte _ => .byte
  | .height _ => .height
  | .keyword _ => .keyword

/-- The kind of an operand, read off its first character and its length. -/
def shownKind (text : List Char) : Kind :=
  match text.head?, text.length with
  | some 'V', _ => .register
  | some '0', 5 => .address
  | some '0', 4 => .byte
  | some '0', 3 => .height
  | _, _ => .keyword

theorem toList_registerName (x : Register) :
    (registerName x).toList = 'V' :: Hex.digits 1 x.val := by
  rw [registerName, String.toList_append, String.toList_ofList, String.toList_ofList]
  rfl

theorem toList_numeral (least n : Nat) :
    (Hex.numeral least n).toList = '0' :: 'x' :: Hex.digits least n := by
  rw [Hex.numeral, String.toList_append, String.toList_ofList, String.toList_ofList]
  rfl

theorem shownKind_text (o : Operand) : shownKind o.text.toList = o.kind := by
  have hnumeral : ∀ {least n}, 0 < least → n < 16 ^ least →
      (Hex.numeral least n).toList.length = least + 2 := fun hleast h => by
    rw [toList_numeral, List.length_cons, List.length_cons, Hex.length_digits hleast h]
  cases o with
  | register x =>
      rw [text, toList_registerName, shownKind, kind, List.head?_cons]
      rfl
  | address a =>
      have hlength : (address a).text.toList.length = 5 := hnumeral (by decide) a.isLt
      rw [shownKind, hlength, text, Instruction.addressText, toList_numeral, List.head?_cons, kind]
      rfl
  | byte b =>
      have hlength : (byte b).text.toList.length = 4 := hnumeral (by decide) b.toNat_lt
      rw [shownKind, hlength, text, Instruction.byteText, toList_numeral, List.head?_cons, kind]
      rfl
  | height n =>
      have hlength : (height n).text.toList.length = 3 := hnumeral (by decide) n.isLt
      rw [shownKind, hlength, text, toList_numeral, List.head?_cons, kind]
      rfl
  | keyword k => cases k <;> rfl

/-- Operands of different kinds look different, and operands of one kind name what they stand
for. -/
theorem text_injective {o p : Operand} (h : o.text = p.text) : o = p := by
  have hkind : o.kind = p.kind := by rw [← shownKind_text, ← shownKind_text, h]
  cases o <;> cases p <;> cases hkind
  case register.register x y =>
    have hdigits := congrArg String.toList h
    rw [text, text, toList_registerName, toList_registerName] at hdigits
    rw [Fin.ext (Hex.digits_inj (List.cons.inj hdigits).2)]
  case address.address a b => rw [Fin.ext (Hex.numeral_inj h)]
  case byte.byte a b => rw [UInt8.toNat_inj.mp (Hex.numeral_inj h)]
  case height.height m n => rw [Fin.ext (Hex.numeral_inj h)]
  case keyword.keyword j k => rw [eq_of_find? Keyword.find?_name h]

theorem space_not_mem_text (o : Operand) : ' ' ∉ o.text.toList := by
  have hnumeral : ∀ least n, ' ' ∉ (Hex.numeral least n).toList := fun least n hmem =>
    absurd (Hex.isAlphanum_of_mem_numeral hmem) (by decide)
  cases o with
  | register x =>
      rw [text, toList_registerName, List.mem_cons, not_or]
      exact ⟨by decide, fun hmem => absurd (Hex.isAlphanum_of_mem_digits hmem) (by decide)⟩
  | address a => exact hnumeral 3 a.val
  | byte b => exact hnumeral 2 b.toNat
  | height n => exact hnumeral 1 n.val
  | keyword k => cases k <;> decide

/-- The words of some operands: all but the last end with a comma. -/
def words : List Operand → List String
  | [] => []
  | [o] => [o.text]
  | o :: operands => (o.text ++ ",") :: words operands

theorem words_cons {operands : List Operand} (h : operands ≠ []) (o : Operand) :
    words (o :: operands) = (o.text ++ ",") :: words operands := by
  cases operands with
  | nil => exact absurd rfl h
  | cons p operands => rfl

theorem words_eq_nil_iff {operands : List Operand} : words operands = [] ↔ operands = [] := by
  cases operands with
  | nil => exact iff_of_true rfl rfl
  | cons o operands => cases operands <;> exact iff_of_false nofun nofun

theorem words_injective {operands others : List Operand} (h : words operands = words others) :
    operands = others := by
  induction operands generalizing others with
  | nil => exact (words_eq_nil_iff.mp h.symm).symm
  | cons o operands ih =>
      cases others with
      | nil => exact absurd (words_eq_nil_iff.mp h) nofun
      | cons p others =>
          by_cases hlast : operands = []
          · by_cases hlast' : others = []
            · subst hlast hlast'
              rw [text_injective (List.cons.inj h).1]
            · rw [hlast, words_cons hlast'] at h
              exact absurd (words_eq_nil_iff.mp (List.cons.inj h).2.symm) hlast'
          · by_cases hlast' : others = []
            · rw [hlast', words_cons hlast] at h
              exact absurd (words_eq_nil_iff.mp (List.cons.inj h).2) hlast
            · rw [words_cons hlast, words_cons hlast'] at h
              obtain ⟨hword, hrest⟩ := List.cons.inj h
              rw [text_injective ((String.append_left_inj ",").mp hword), ih hrest]

theorem space_not_mem_words {operands : List Operand} :
    ∀ word ∈ words operands, ' ' ∉ word.toList := by
  induction operands with
  | nil => exact fun word hword => nomatch hword
  | cons o operands ih =>
      by_cases hlast : operands = []
      · subst hlast
        exact List.forall_mem_singleton.mpr o.space_not_mem_text
      · rw [words_cons hlast]
        refine List.forall_mem_cons.mpr ⟨?_, ih⟩
        rw [String.toList_append, List.mem_append, not_or]
        exact ⟨o.space_not_mem_text, by decide⟩

end Operand

/-- A line of assembly text. -/
structure Statement where
  mnemonic : Mnemonic
  operands : List Operand

namespace Statement

def words (s : Statement) : List String :=
  s.mnemonic.name :: Operand.words s.operands

def text (s : Statement) : String :=
  " ".intercalate s.words

/-- The words of a statement lie between its spaces. -/
theorem splitOn_text (s : Statement) : s.text.toList.splitOn ' ' = s.words.map String.toList := by
  rw [text, String.toList_intercalate]
  refine List.splitOn_intercalate ' ' (List.forall_mem_map.mpr ?_) nofun
  exact List.forall_mem_cons.mpr ⟨s.mnemonic.space_not_mem_name, Operand.space_not_mem_words⟩

theorem text_injective {s t : Statement} (h : s.text = t.text) : s = t := by
  have hchars : s.words.map String.toList = t.words.map String.toList := by
    rw [← s.splitOn_text, ← t.splitOn_text, h]
  have hwords : s.words = t.words :=
    List.map_injective_iff.mpr (fun _ _ => String.toList_injective) hchars
  obtain ⟨hname, hoperands⟩ := List.cons.inj hwords
  obtain ⟨mnemonic, operands⟩ := s
  have hmnemonic := eq_of_find? Mnemonic.find?_name hname
  exact congr (congrArg mk hmnemonic) (Operand.words_injective hoperands)

end Statement

/-- Whether an operation moves a register by one place. -/
def BinaryOp.isShift : BinaryOp → Bool
  | .shiftRight | .shiftLeft => true
  | _ => false

namespace Instruction

/-- The statement that an instruction is written as. -/
def statement : Instruction → Statement
  | .clearDisplay => ⟨.cls, []⟩
  | .leave => ⟨.ret, []⟩
  | .hostRoutine a => ⟨.sys, [.address a]⟩
  | .jump a => ⟨.jp, [.address a]⟩
  | .call a => ⟨.call, [.address a]⟩
  | .skipIfByte x b => ⟨.se, [.register x, .byte b]⟩
  | .skipUnlessByte x b => ⟨.sne, [.register x, .byte b]⟩
  | .skipIfSame x y => ⟨.se, [.register x, .register y]⟩
  | .loadByte x b => ⟨.ld, [.register x, .byte b]⟩
  | .addByte x b => ⟨.add, [.register x, .byte b]⟩
  | .binary .copy x y => ⟨.ld, [.register x, .register y]⟩
  | .binary .or x y => ⟨.or, [.register x, .register y]⟩
  | .binary .and x y => ⟨.and, [.register x, .register y]⟩
  | .binary .xor x y => ⟨.xor, [.register x, .register y]⟩
  | .binary .add x y => ⟨.add, [.register x, .register y]⟩
  | .binary .subtract x y => ⟨.sub, [.register x, .register y]⟩
  | .binary .shiftRight x _ => ⟨.shr, [.register x]⟩
  | .binary .subtractFrom x y => ⟨.subn, [.register x, .register y]⟩
  | .binary .shiftLeft x _ => ⟨.shl, [.register x]⟩
  | .skipUnlessSame x y => ⟨.sne, [.register x, .register y]⟩
  | .loadIndex a => ⟨.ld, [.keyword .index, .address a]⟩
  | .jumpOffset a => ⟨.jp, [.register Machine.offsetRegister, .address a]⟩
  | .random x b => ⟨.rnd, [.register x, .byte b]⟩
  | .draw x y n => ⟨.drw, [.register x, .register y, .height n]⟩
  | .skipOnKey .held x => ⟨.skp, [.register x]⟩
  | .skipOnKey .released x => ⟨.sknp, [.register x]⟩
  | .unary .readDelay x => ⟨.ld, [.register x, .keyword .delay]⟩
  | .unary .awaitKey x => ⟨.ld, [.register x, .keyword .key]⟩
  | .unary .setDelay x => ⟨.ld, [.keyword .delay, .register x]⟩
  | .unary .setSound x => ⟨.ld, [.keyword .sound, .register x]⟩
  | .unary .addToIndex x => ⟨.add, [.keyword .index, .register x]⟩
  | .unary .pointAtGlyph x => ⟨.ld, [.keyword .glyph, .register x]⟩
  | .unary .storeDecimal x => ⟨.ld, [.keyword .decimal, .register x]⟩
  | .unary .storeRegisters x => ⟨.ld, [.keyword .memory, .register x]⟩
  | .unary .loadRegisters x => ⟨.ld, [.register x, .keyword .memory]⟩

/-- The instruction that a statement stands for. The second register of a shift, which is not
written, is taken to be the first. -/
def ofStatement? : Statement → Option Instruction
  | ⟨.cls, []⟩ => some .clearDisplay
  | ⟨.ret, []⟩ => some .leave
  | ⟨.sys, [.address a]⟩ => some (.hostRoutine a)
  | ⟨.jp, [.address a]⟩ => some (.jump a)
  | ⟨.call, [.address a]⟩ => some (.call a)
  | ⟨.se, [.register x, .byte b]⟩ => some (.skipIfByte x b)
  | ⟨.sne, [.register x, .byte b]⟩ => some (.skipUnlessByte x b)
  | ⟨.se, [.register x, .register y]⟩ => some (.skipIfSame x y)
  | ⟨.ld, [.register x, .byte b]⟩ => some (.loadByte x b)
  | ⟨.add, [.register x, .byte b]⟩ => some (.addByte x b)
  | ⟨.ld, [.register x, .register y]⟩ => some (.binary .copy x y)
  | ⟨.or, [.register x, .register y]⟩ => some (.binary .or x y)
  | ⟨.and, [.register x, .register y]⟩ => some (.binary .and x y)
  | ⟨.xor, [.register x, .register y]⟩ => some (.binary .xor x y)
  | ⟨.add, [.register x, .register y]⟩ => some (.binary .add x y)
  | ⟨.sub, [.register x, .register y]⟩ => some (.binary .subtract x y)
  | ⟨.shr, [.register x]⟩ => some (.binary .shiftRight x x)
  | ⟨.subn, [.register x, .register y]⟩ => some (.binary .subtractFrom x y)
  | ⟨.shl, [.register x]⟩ => some (.binary .shiftLeft x x)
  | ⟨.sne, [.register x, .register y]⟩ => some (.skipUnlessSame x y)
  | ⟨.ld, [.keyword .index, .address a]⟩ => some (.loadIndex a)
  | ⟨.jp, [.register _, .address a]⟩ => some (.jumpOffset a)
  | ⟨.rnd, [.register x, .byte b]⟩ => some (.random x b)
  | ⟨.drw, [.register x, .register y, .height n]⟩ => some (.draw x y n)
  | ⟨.skp, [.register x]⟩ => some (.skipOnKey .held x)
  | ⟨.sknp, [.register x]⟩ => some (.skipOnKey .released x)
  | ⟨.ld, [.register x, .keyword .delay]⟩ => some (.unary .readDelay x)
  | ⟨.ld, [.register x, .keyword .key]⟩ => some (.unary .awaitKey x)
  | ⟨.ld, [.keyword .delay, .register x]⟩ => some (.unary .setDelay x)
  | ⟨.ld, [.keyword .sound, .register x]⟩ => some (.unary .setSound x)
  | ⟨.add, [.keyword .index, .register x]⟩ => some (.unary .addToIndex x)
  | ⟨.ld, [.keyword .glyph, .register x]⟩ => some (.unary .pointAtGlyph x)
  | ⟨.ld, [.keyword .decimal, .register x]⟩ => some (.unary .storeDecimal x)
  | ⟨.ld, [.keyword .memory, .register x]⟩ => some (.unary .storeRegisters x)
  | ⟨.ld, [.register x, .keyword .memory]⟩ => some (.unary .loadRegisters x)
  | _ => none

/-- The instruction with the second register of a shift, which is not read, set to the first. -/
def normal : Instruction → Instruction
  | .binary .shiftRight x _ => .binary .shiftRight x x
  | .binary .shiftLeft x _ => .binary .shiftLeft x x
  | i => i

theorem ofStatement?_statement (i : Instruction) : ofStatement? i.statement = some i.normal := by
  cases i with
  | binary op x y => cases op <;> rfl
  | skipOnKey test x => cases test <;> rfl
  | unary op x => cases op <;> rfl
  | _ => rfl

theorem append_comma (a b : String) : a ++ ", " ++ b = a ++ "," ++ " " ++ b := by
  have hcomma : ", " = "," ++ " " := rfl
  rw [hcomma, ← String.append_assoc]

theorem twoOperands_eq (m a b : String) :
    twoOperands m a b = " ".intercalate [m, a ++ ",", b] := by
  show m ++ " " ++ a ++ ", " ++ b = m ++ " " ++ (a ++ ",") ++ " " ++ b
  rw [append_comma, ← String.append_assoc]

theorem threeOperands_eq (m a b c : String) :
    twoOperands m a (b ++ ", " ++ c) = " ".intercalate [m, a ++ ",", b ++ ",", c] := by
  rw [twoOperands_eq, append_comma]
  show m ++ " " ++ (a ++ ",") ++ " " ++ (b ++ "," ++ " " ++ c) =
    m ++ " " ++ (a ++ ",") ++ " " ++ (b ++ ",") ++ " " ++ c
  simp only [String.append_assoc]

/-- The text of an instruction is that of its statement. -/
theorem text_eq (i : Instruction) : i.text = i.statement.text := by
  cases i with
  | clearDisplay | leave => rfl
  | hostRoutine a | jump a | call a => rfl
  | skipIfByte x b | skipUnlessByte x b | loadByte x b | addByte x b | random x b =>
      exact twoOperands_eq _ _ _
  | skipIfSame x y | skipUnlessSame x y => exact twoOperands_eq _ _ _
  | loadIndex a | jumpOffset a => exact twoOperands_eq _ _ _
  | draw x y n => exact threeOperands_eq _ _ _ _
  | skipOnKey test x => cases test <;> rfl
  | binary op x y =>
      cases op
      case shiftRight | shiftLeft => rfl
      all_goals exact twoOperands_eq _ _ _
  | unary op x => cases op <;> exact twoOperands_eq _ _ _

theorem text_normal (i : Instruction) : i.normal.text = i.text := by
  cases i with
  | binary op x y => cases op <;> rfl
  | _ => rfl

/-- Instructions with the same text differ at most in the second register of a shift. -/
theorem text_eq_iff_normal {i j : Instruction} : i.text = j.text ↔ i.normal = j.normal := by
  constructor
  · intro h
    rw [text_eq, text_eq] at h
    apply Option.some.inj
    rw [← ofStatement?_statement, ← ofStatement?_statement, Statement.text_injective h]
  · intro h
    rw [← text_normal i, ← text_normal j, h]

theorem normal_shift {op : BinaryOp} (hop : op.isShift = true) (x y : Register) :
    (binary op x y).normal = binary op x x := by
  cases op <;> cases hop <;> rfl

theorem normal_eq_self_or (i : Instruction) :
    i.normal = i ∨ ∃ op x y, op.isShift = true ∧ i = .binary op x y := by
  cases i with
  | binary op x y =>
      cases op
      case shiftRight | shiftLeft => exact Or.inr ⟨_, x, y, rfl, rfl⟩
      all_goals exact Or.inl rfl
  | _ => exact Or.inl rfl

theorem normal_eq_iff {i j : Instruction} :
    i.normal = j.normal ↔
      i = j ∨ ∃ op x y z, op.isShift = true ∧ i = .binary op x y ∧ j = .binary op x z := by
  constructor
  · intro h
    rcases i.normal_eq_self_or with hi | ⟨op, x, y, hop, rfl⟩
    · rcases j.normal_eq_self_or with hj | ⟨op, x, z, hop, rfl⟩
      · exact Or.inl (by rw [← hi, h, hj])
      · rw [hi, normal_shift hop] at h
        exact Or.inr ⟨op, x, x, z, hop, h, rfl⟩
    · rw [normal_shift hop] at h
      rcases j.normal_eq_self_or with hj | ⟨op', x', z, hop', rfl⟩
      · exact Or.inr ⟨op, x, y, x, hop, rfl, by rw [← hj, ← h]⟩
      · rw [normal_shift hop'] at h
        cases h
        exact Or.inr ⟨op, x, y, z, hop, rfl, rfl⟩
  · rintro (rfl | ⟨op, x, y, z, hop, rfl, rfl⟩)
    · rfl
    · rw [normal_shift hop, normal_shift hop]

/-- The second register of a shift is not read. -/
theorem execute_normal (p : Processor) (i : Instruction) :
    p.execute i.normal = p.execute i := by
  have heffect : p.effect i.normal = p.effect i := by
    cases i with
    | binary op x y => cases op <;> rfl
    | _ => rfl
  rw [Processor.execute, Processor.execute, heffect]

/-- Two opcodes that are decoded have the same text exactly if they are equal or the same shift of
the same register. Then what they do is the same on every processor. -/
theorem text_eq_iff {a b : Opcode} {i j : Instruction} (ha : decode a = .ok i)
    (hb : decode b = .ok j) :
    (i.text = j.text ↔
      a = b ∨
        (∃ x y z, a = Opcode.ofNibble 0x8 x y 0x6 ∧ b = Opcode.ofNibble 0x8 x z 0x6) ∨
        ∃ x y z, a = Opcode.ofNibble 0x8 x y 0xE ∧ b = Opcode.ofNibble 0x8 x z 0xE) ∧
      (i.text = j.text → ∀ p : Processor, p.execute i = p.execute j) := by
  have hencode : i.encode = a := encode_of_decode ha
  have hencode' : j.encode = b := encode_of_decode hb
  constructor
  · rw [text_eq_iff_normal, normal_eq_iff]
    constructor
    · rintro (rfl | ⟨op, x, y, z, hop, rfl, rfl⟩)
      · exact Or.inl (hencode.symm.trans hencode')
      · cases op <;> cases hop
        · exact Or.inr (Or.inl ⟨x, y, z, hencode.symm, hencode'.symm⟩)
        · exact Or.inr (Or.inr ⟨x, y, z, hencode.symm, hencode'.symm⟩)
    · rintro (rfl | ⟨x, y, z, rfl, rfl⟩ | ⟨x, y, z, rfl, rfl⟩)
      · exact Or.inl (Except.ok.inj (ha.symm.trans hb))
      · have hi := ha.symm.trans (decode_encode (i := .binary .shiftRight x y) rfl)
        have hj := hb.symm.trans (decode_encode (i := .binary .shiftRight x z) rfl)
        exact Or.inr ⟨.shiftRight, x, y, z, rfl, Except.ok.inj hi, Except.ok.inj hj⟩
      · have hi := ha.symm.trans (decode_encode (i := .binary .shiftLeft x y) rfl)
        have hj := hb.symm.trans (decode_encode (i := .binary .shiftLeft x z) rfl)
        exact Or.inr ⟨.shiftLeft, x, y, z, rfl, Except.ok.inj hi, Except.ok.inj hj⟩
  · intro h p
    rw [← execute_normal p i, ← execute_normal p j, text_eq_iff_normal.mp h]

theorem text_eq_iff_shr :
    decode 0x8126 = .ok (.binary .shiftRight 1 2) ∧
      decode 0x8136 = .ok (.binary .shiftRight 1 3) ∧
      text (.binary .shiftRight 1 2) = text (.binary .shiftRight 1 3) ∧
      ∀ p : Processor,
        p.execute (.binary .shiftRight 1 2) = p.execute (.binary .shiftRight 1 3) := by
  have ha : decode 0x8126 = .ok (.binary .shiftRight 1 2) := rfl
  have hb : decode 0x8136 = .ok (.binary .shiftRight 1 3) := rfl
  obtain ⟨htext, hexecute⟩ := text_eq_iff ha hb
  have hsame := htext.mpr (Or.inr (Or.inl ⟨1, 2, 3, rfl, rfl⟩))
  exact ⟨ha, hb, hsame, hexecute hsame⟩

end Instruction

end Chip8
