import Chip8.Proofs.Dump.Cells

/-!
The lines of a dump.

No line of a dump contains a line break, whichever instruction or fault it names, so cutting the
text at its line breaks gives the lines back: `Machine.dump_eq_of_dumpText_eq`.
-/

namespace Chip8

/-- A text without a line break. -/
def OneLine (text : String) : Prop :=
  '\n' ∉ text.toList

namespace OneLine

@[simp]
theorem append_iff {a b : String} : OneLine (a ++ b) ↔ OneLine a ∧ OneLine b := by
  rw [OneLine, String.toList_append, List.mem_append, not_or]
  rfl

theorem ofList_iff {text : List Char} : OneLine (String.ofList text) ↔ '\n' ∉ text := by
  rw [OneLine, String.toList_ofList]

theorem join {texts : List String} (h : ∀ text ∈ texts, OneLine text) :
    OneLine (String.join texts) := by
  rw [OneLine, String.toList_join]
  intro hmem
  obtain ⟨text, htext, hbreak⟩ := List.mem_flatMap.mp hmem
  exact h text htext hbreak

@[simp]
theorem numeral (least n : Nat) : OneLine (Hex.numeral least n) :=
  fun h => absurd (Hex.isAlphanum_of_mem_numeral h) (by decide)

@[simp]
theorem toString_nat (n : Nat) : OneLine (toString n) := by
  rw [OneLine, Nat.toString_eq_repr, Nat.toList_repr]
  exact fun h => absurd (Nat.isDigit_of_mem_toDigits (by decide) (by decide) h) (by decide)

theorem toString_bool (b : Bool) : OneLine (toString b) := by
  cases b with
  | false => exact (by decide : '\n' ∉ "false".toList)
  | true => exact (by decide : '\n' ∉ "true".toList)

end OneLine

@[simp]
theorem oneLine_registerName (x : Register) : OneLine (registerName x) := by
  rw [registerName, OneLine.append_iff]
  refine ⟨by simp [OneLine], OneLine.ofList_iff.mpr fun h => ?_⟩
  exact absurd (Hex.isAlphanum_of_mem_digits h) (by decide)

namespace Instruction

@[simp]
theorem oneLine_oneOperand {mnemonic operand : String} :
    OneLine (oneOperand mnemonic operand) ↔ OneLine mnemonic ∧ OneLine operand := by
  have hblank : OneLine " " := by simp [OneLine]
  simp only [oneOperand, OneLine.append_iff, hblank, and_true]

@[simp]
theorem oneLine_twoOperands {mnemonic first second : String} :
    OneLine (twoOperands mnemonic first second) ↔
      (OneLine mnemonic ∧ OneLine first) ∧ OneLine second := by
  have hblank : OneLine " " := by simp [OneLine]
  have hcomma : OneLine ", " := by simp [OneLine]
  simp only [twoOperands, OneLine.append_iff, hblank, hcomma, and_true]

/-- Only the mnemonics and the operands that are no numbers are left to check. -/
theorem oneLine_text (i : Instruction) : OneLine i.text := by
  cases i with
  | binary op x y =>
      cases op <;> simp only [text, binaryText, oneLine_oneOperand, oneLine_twoOperands,
        oneLine_registerName, and_true] <;> simp [OneLine]
  | skipOnKey test x =>
      cases test <;> simp only [text, oneLine_oneOperand, oneLine_registerName, and_true] <;>
        simp [OneLine]
  | unary op x =>
      cases op <;> simp only [text, unaryText, oneLine_twoOperands, oneLine_registerName,
        and_true] <;> simp [OneLine]
  | _ =>
      simp only [text, addressText, byteText, oneLine_oneOperand, oneLine_twoOperands,
        oneLine_registerName, OneLine.append_iff, OneLine.numeral, and_true, true_and]
      simp [OneLine]

end Instruction

namespace Fault

theorem oneLine_opcodeFault (fault : OpcodeFault) : OneLine fault.message := by
  unfold OpcodeFault.message
  split
  all_goals
    simp only [OneLine.append_iff, OneLine.numeral, and_true]
    simp [OneLine]

theorem oneLine_memoryFault (fault : MemoryFault) : OneLine fault.message := by
  unfold MemoryFault.message
  split
  all_goals
    simp only [OneLine.append_iff, OneLine.numeral, OneLine.toString_nat, and_true]
    simp [OneLine]

theorem oneLine_stackFault (fault : StackFault) : OneLine fault.message := by
  unfold StackFault.message
  split
  all_goals simp [OneLine]

theorem oneLine_message (fault : Fault) : OneLine fault.message := by
  unfold message
  split
  all_goals
    simp only [OneLine.append_iff, OneLine.numeral, oneLine_opcodeFault, oneLine_memoryFault,
      oneLine_stackFault, and_true]
    simp [OneLine]

end Fault

theorem Machine.oneLine_currentText (m : Machine) : OneLine m.currentText := by
  rw [currentText]
  split
  · exact Instruction.oneLine_text _
  · exact Fault.oneLine_message _

namespace Dump

@[simp]
theorem oneLine_label (first last : Nat) : OneLine (label first last) := by
  simp only [label, OneLine.append_iff, OneLine.numeral, and_true]
  simp [OneLine]

theorem oneLine_padded {cell : String} (h : OneLine cell) : OneLine (padded cell) := by
  rw [padded, OneLine.ofList_iff, List.rightpad, List.mem_append, not_or]
  exact ⟨h, fun hmem => absurd (List.eq_of_mem_replicate hmem) (by decide)⟩

/-- A blank in front of a cell is no line break. -/
theorem oneLine_join_cells {cells : List String} (h : ∀ c ∈ cells, OneLine c) :
    OneLine (String.join (cells.map (" " ++ ·))) := by
  refine .join (List.forall_mem_map.mpr fun c hc => OneLine.append_iff.mpr ⟨?_, h c hc⟩)
  simp [OneLine]

theorem oneLine_rowText (first : Nat) {cells : List String} (h : ∀ c ∈ cells, OneLine c) :
    OneLine (rowText first cells) := by
  rw [rowText, OneLine.append_iff, OneLine.append_iff]
  refine ⟨⟨oneLine_label _ _, ?_⟩, oneLine_join_cells fun c hc => ?_⟩
  · have hpadded : ∀ c ∈ cells.dropLast.map padded, OneLine c :=
      List.forall_mem_map.mpr fun c hc => oneLine_padded (h c (List.dropLast_subset _ hc))
    have hjoin := oneLine_join_cells hpadded
    rwa [List.map_map] at hjoin
  · exact h c (List.mem_of_getLast? (Option.mem_toList.mp hc))

theorem oneLine_rowTexts {cells : List String} {rows : List (List String)}
    (hrows : Raw.Rows rowLength cells rows) (h : ∀ c ∈ cells, OneLine c) (first : Nat) :
    ∀ line ∈ rowTexts first rows, OneLine line := by
  induction hrows generalizing first with
  | nil => exact fun _ hline => nomatch hline
  | cons row others rows _ _ _ ih =>
      rw [List.forall_mem_append] at h
      exact List.forall_mem_cons.mpr ⟨oneLine_rowText first h.1, ih h.2 _⟩

theorem oneLine_table {cells : List String} (h : ∀ c ∈ cells, OneLine c) :
    ∀ line ∈ table cells, OneLine line :=
  oneLine_rowTexts (Raw.rows_chunks (by decide) cells) h 0

theorem oneLine_table_numberCell {α : Type} (values : List α) (number : α → Nat) :
    ∀ line ∈ table (values.map fun value => numberCell (number value)), OneLine line :=
  oneLine_table (List.forall_mem_map.mpr fun value _ => OneLine.numeral 4 (number value))

theorem Line.oneLine_text (line : Line) : OneLine line.text := by
  cases line with
  | bytes first last row =>
      refine OneLine.append_iff.mpr ⟨oneLine_label first last, ?_⟩
      have hcells : ∀ c ∈ (words row).map numberCell, OneLine c :=
        List.forall_mem_map.mpr fun word _ => OneLine.numeral 4 word
      have hjoin := oneLine_join_cells hcells
      rwa [List.map_map] at hjoin
  | zeros first last =>
      have hblanks : ∀ count, OneLine ("".pushn ' ' count) := by
        intro count
        induction count with
        | zero => exact fun hmem => nomatch hmem
        | succ count ih =>
            show '\n' ∉ (("".pushn ' ' count).push ' ').toList
            rw [String.toList_push, List.mem_append, not_or]
            exact ⟨ih, by decide⟩
      simp only [text, zeroRun, centred, numberCell, OneLine.append_iff, OneLine.numeral,
        oneLine_label, hblanks, true_and, and_true]
      simp [OneLine]

theorem oneLine_headed {name : String} {body : List String} (hname : OneLine name)
    (hbody : ∀ line ∈ body, OneLine line) : ∀ line ∈ headed name body, OneLine line := by
  refine List.forall_mem_cons.mpr ⟨?_, List.forall_mem_map.mpr fun line hline => ?_⟩
  · simp only [OneLine.append_iff, hname, and_true]
    simp [OneLine]
  · simp only [OneLine.append_iff, hbody line hline, and_true]
    simp [OneLine]

end Dump

namespace Machine

open Dump

theorem oneLine_dump (m : Machine) : ∀ line ∈ m.dump, OneLine line := by
  have hkeys : ∀ cell ∈ m.keypad.held.toList.map toString, OneLine cell :=
    List.forall_mem_map.mpr fun held _ => .toString_bool held
  have hnumber : ∀ n, ∀ line ∈ [numberCell n], OneLine line := fun n =>
    List.forall_mem_singleton.mpr (OneLine.numeral 4 n)
  simp only [dump, List.forall_mem_append, List.forall_mem_singleton, and_assoc]
  refine ⟨by simp [OneLine], oneLine_headed ?_ (hnumber _),
    oneLine_headed ?_ (List.forall_mem_singleton.mpr m.oneLine_currentText),
    oneLine_headed ?_ (hnumber _), oneLine_headed ?_ (hnumber _), oneLine_headed ?_ (hnumber _),
    oneLine_headed ?_ (List.forall_mem_map.mpr fun line _ => line.oneLine_text),
    oneLine_headed ?_ (oneLine_table hkeys), oneLine_headed ?_ (oneLine_table_numberCell _ _),
    oneLine_headed ?_ (oneLine_table_numberCell _ _), by simp [OneLine]⟩
  all_goals simp [OneLine]

/-- The text of a dump tells its lines. -/
theorem dump_eq_of_dumpText_eq {m m' : Machine} (h : m.dumpText = m'.dumpText) :
    m.dump = m'.dump := by
  have hlines : ∀ m : Machine, m.dumpText.toList.splitOn '\n' = m.dump.map String.toList := by
    intro m
    rw [dumpText, String.toList_intercalate]
    exact List.splitOn_intercalate '\n' (List.forall_mem_map.mpr m.oneLine_dump) nofun
  refine List.map_injective_iff.mpr (fun _ _ => String.toList_injective) ?_
  rw [← hlines, ← hlines, h]

end Machine

end Chip8
