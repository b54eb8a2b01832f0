import Chip8.Dump
import Chip8.Proofs.Raw.Chip
import Chip8.Proofs.Raw.Decode
import Mathlib.Algebra.Ring.Nat
import Mathlib.Data.List.DropRight

/-!
The dump on plain lists.

`Raw.Chip.dump` writes the dump row by row: the places that a label names are computed from the
number of the row, the spaces behind the last cell are cut off at a place of the text, and a run of
zeros is remembered by its start. All of this is checked. `Machine.dump_raw` says that it never
aborts and writes what `Machine.dump` writes.
-/

namespace Chip8

namespace Raw

open Dump

/-- The bytes that a text takes. -/
def textSize (text : List Char) : Nat := (text.map Char.utf8Size).sum

/-- The first bytes of a text, where they end with a character; a text that is no longer stays as it
is. -/
def truncate : (text : List Char) → (size : Nat) → Option (List Char)
  | [], _ => some []
  | c :: text, size =>
    if size = 0 then some []
    else if c.utf8Size ≤ size then (truncate text (size - c.utf8Size)).map (c :: ·)
    else none

/-- A text without the spaces at its end. -/
def trimEnd (text : List Char) : List Char := text.rdropWhile (· == ' ')

/-- A row of cells with its number. The spaces at its end are cut off. -/
def rowText (cells : List String) (number : Nat) : Option String := do
  let first ← mul number rowLength
  let behind ← add first cells.length
  let last ← sub behind 1
  let text := (label first last ++ String.join (cells.map (" " ++ ·))).toList
  let text ← truncate text (textSize (trimEnd text))
  return String.ofList text

def table (cells : List String) : Option (List String) :=
  (chunks rowLength cells).zipIdx.mapM fun row => rowText row.1 row.2

/-- Two bytes as a word; a single one is the high half of its word. -/
def wordText (bytes : List UInt8) : Option String := do
  let high ← get bytes 0
  let low := bytes[1]?.getD 0
  return numberCell (Opcode.ofBytes high low).toNat

/-- What stands for a run of zeros: the outer cells of a row, with dots between them. -/
def zeroRow : Option String := do
  let cell ← add cellWidth 1
  let inner ← sub rowLength 2
  let width ← mul cell inner
  let gap ← add width 1
  return numberCell 0 ++ centred gap "..." ++ numberCell 0

def zeroLine (first last : Nat) : Option String := do
  let zeros ← zeroRow
  return label first last ++ " " ++ zeros

/-- The line of the zeros from `start` up to the byte in front of `first`, if there are any. -/
def closeRun (start : Option Nat) (first : Nat) : Option (List String) :=
  match start with
  | none => some []
  | some start => do
    let last ← sub first 1
    let line ← zeroLine start last
    return [line]

/-- The lines of the numbered rows of a memory of `length` bytes, while the zeros of the rows before
them are pending from `start` on. -/
def memoryRows (length : Nat) : (start : Option Nat) → (rows : List (List UInt8 × Nat)) →
    Option (List String)
  | _, [] => some []
  | start, (row, number) :: rows => do
    let first ← mul number memoryRowLength
    let behind ← add first row.length
    let last ← sub behind 1
    let next ← add last 1
    if row.all (· == 0) then
      let start := start.getD first
      let lines ← memoryRows length (some start) rows
      if next = length then
        let line ← zeroLine start last
        return line :: lines
      else
        return lines
    else
      let zeros ← closeRun start first
      let words ← (chunks Opcode.size row).mapM wordText
      let lines ← memoryRows length none rows
      return zeros ++ (label first last ++ String.join (words.map (" " ++ ·))) :: lines

namespace Chip

/-- The text of the instruction under the program counter, or what is wrong with it. -/
def currentText (c : Chip) : Option String := do
  match ← c.fetch.result with
  | .error fault => return fault.message
  | .ok opcode =>
    match ← (decode opcode).result with
    | .error fault => return fault.message
    | .ok instruction => return instruction.text

def dump (c : Chip) : Option (List String) := do
  let instruction ← c.currentText
  let memory ← memoryRows c.memory.length none (chunks memoryRowLength c.memory).zipIdx
  let keys ← table (c.keys.map fun held => padded (toString held))
  let slots ← copy (List.replicate Machine.stackCapacity 0) 0 c.stack.length c.stack
  let stack ← table (slots.map fun address => numberCell address.toNat)
  let registers ← table (c.registers.map fun value => numberCell value.toNat)
  return ["Chipset \x7b"]
    ++ headed "Program Counter" [numberCell c.programCounter.toNat]
    ++ headed "Instruction" [instruction]
    ++ headed "Index Register" [numberCell c.index.toNat]
    ++ headed "Delay Timer" [numberCell c.delay.value.toNat]
    ++ headed "Sound Timer" [numberCell c.sound.value.toNat]
    ++ headed "Memory" memory
    ++ headed "Keyboard" keys
    ++ headed "Stack" stack
    ++ headed "Register" registers
    ++ ["\x7d"]

end Chip

theorem truncate_append (text rest : List Char) :
    truncate (text ++ rest) (textSize text) = some text := by
  induction text with
  | nil => cases rest <;> rfl
  | cons c text ih =>
      have hpos := c.utf8Size_pos
      have hsize : textSize (c :: text) = c.utf8Size + textSize text := rfl
      rw [List.cons_append, truncate, hsize, if_neg (by omega), if_pos (by omega),
        Nat.add_sub_cancel_left, ih]
      rfl

/-- A text without the spaces at its end is a part of the text, so it ends with a character. -/
theorem truncate_trimEnd (text : List Char) :
    truncate text (textSize (trimEnd text)) = some (trimEnd text) := by
  obtain ⟨rest, hrest⟩ := List.rdropWhile_prefix (· == ' ') text
  calc
    truncate text (textSize (trimEnd text)) =
        truncate (trimEnd text ++ rest) (textSize (trimEnd text)) := by rw [trimEnd, hrest]
    _ = some (trimEnd text) := truncate_append _ rest

/-- A cell that ends with something else than a space. -/
def Tight (cell : String) : Prop :=
  ∃ init c, cell.toList = init ++ [c] ∧ c ≠ ' '

theorem trimEnd_append_replicate {text : List Char} {c : Char} (hc : c ≠ ' ') (count : Nat) :
    trimEnd (text ++ [c] ++ List.replicate count ' ') = text ++ [c] := by
  induction count with
  | zero =>
      rw [List.replicate_zero, List.append_nil]
      exact List.rdropWhile_concat_neg _ _ _ (by simpa using hc)
  | succ count ih =>
      rw [List.replicate_succ', ← List.append_assoc, trimEnd,
        List.rdropWhile_concat_pos _ _ _ (by simp)]
      exact ih

/-- Behind a tight cell, the spaces that fill its columns are cut off. -/
theorem trimEnd_padded {text cell : String} (hcell : Tight cell) :
    trimEnd (text ++ padded cell).toList = (text ++ cell).toList := by
  obtain ⟨init, c, hinit, hc⟩ := hcell
  rw [String.toList_append, String.toList_append, padded, String.toList_ofList, List.rightpad,
    hinit, ← List.append_assoc, ← List.append_assoc]
  exact trimEnd_append_replicate hc _

theorem rowText_padded {cells : List String} (hcells : cells ≠ []) (htight : ∀ c ∈ cells, Tight c)
    {number : Nat} (hplace : number * rowLength + cells.length < Move.pointerRange) :
    rowText (cells.map padded) number = some (Dump.rowText (number * rowLength) cells) := by
  obtain ⟨init, cell, hinit⟩ := (List.eq_nil_or_concat cells).resolve_left hcells
  rw [List.concat_eq_append] at hinit
  have hcell : Tight cell := htight cell (by simp [hinit])
  have hpos := List.length_pos_iff.mpr hcells
  let first := number * rowLength
  let front := label first (first + cells.length - 1) ++
    String.join (init.map fun cell => " " ++ padded cell) ++ " "
  have hrow : Dump.rowText first cells = front ++ cell := by
    simp [Dump.rowText, front, hinit, String.append_assoc]
  have htext : label first (first + (cells.map padded).length - 1) ++
      String.join ((cells.map padded).map (" " ++ ·)) = front ++ padded cell := by
    simp [front, hinit, String.append_assoc, Function.comp_def]
  have hmul : mul number rowLength = some first := mul_of_lt (by omega)
  have hadd : add first (cells.map padded).length = some (first + (cells.map padded).length) :=
    add_of_lt (by rwa [List.length_map])
  have hsub : sub (first + (cells.map padded).length) 1 =
      some (first + (cells.map padded).length - 1) :=
    sub_of_le (by rw [List.length_map]; omega)
  simp only [rowText, hmul, hadd, hsub, Option.bind_eq_bind, Option.bind_some, htext,
    truncate_trimEnd, trimEnd_padded hcell, String.ofList_toList]
  rw [hrow]
  rfl

/-- The rows of a list: no row is empty, and a row that others follow is full. -/
inductive Rows {α : Type} (length : Nat) : (all : List α) → (rows : List (List α)) → Prop
  | nil : Rows length [] []
  | cons (row others : List α) (rows : List (List α)) (hrow : row ≠ [])
      (hfull : others ≠ [] → row.length = length) (hrows : Rows length others rows) :
      Rows length (row ++ others) (row :: rows)

theorem rows_chunks {α : Type} {length : Nat} (hlength : 0 < length) (all : List α) :
    Rows length all (chunks length all) := by
  induction all using chunks.induct length with
  | case1 =>
      rw [chunks]
      exact .nil
  | case2 a rest ih =>
      have hsplit : a :: rest = (a :: rest.take (length - 1)) ++ rest.drop (length - 1) := by
        rw [List.cons_append, List.take_append_drop]
      rw [chunks, hsplit]
      refine Rows.cons _ _ _ (List.cons_ne_nil _ _) ?_ ih
      intro hothers
      have hlt : length - 1 < rest.length := by
        refine Nat.lt_of_not_le fun hle => hothers ?_
        rw [List.drop_eq_nil_of_le hle]
      rw [List.length_cons, List.length_take]
      omega

theorem Rows.eq_nil {α : Type} {length : Nat} {all : List α} {rows : List (List α)}
    (hrows : Rows length all rows) (hall : all = []) : rows = [] := by
  cases hrows with
  | nil => rfl
  | cons row others rows hrow => exact absurd (List.append_eq_nil_iff.mp hall).1 hrow

theorem chunks_map {α β : Type} (length : Nat) (f : α → β) (all : List α) :
    chunks length (all.map f) = (chunks length all).map (List.map f) := by
  induction all using chunks.induct length with
  | case1 => simp [chunks]
  | case2 a rest ih =>
      rw [List.map_cons, chunks, chunks, List.map_cons, List.map_cons, List.map_take, ← ih,
        List.map_drop]

/-- The rows of a table with numbers from `number` on. -/
theorem mapM_rowText {cells : List String} {rows : List (List String)}
    (hrows : Rows rowLength cells rows) (htight : ∀ c ∈ cells, Tight c) {number : Nat}
    (hplace : number * rowLength + cells.length < Move.pointerRange) :
    ((rows.map (List.map padded)).zipIdx number).mapM (fun row => rowText row.1 row.2) =
      some (rowTexts (number * rowLength) rows) := by
  induction hrows generalizing number with
  | nil => rfl
  | cons row others rows hrow hfull hrows ih =>
      rw [List.length_append] at hplace
      have hhead : rowText (row.map padded) number =
          some (Dump.rowText (number * rowLength) row) :=
        rowText_padded hrow (fun c hc => htight c (List.mem_append_left _ hc)) (by omega)
      have hrest : ((rows.map (List.map padded)).zipIdx (number + 1)).mapM
          (fun row => rowText row.1 row.2) =
          some (rowTexts (number * rowLength + row.length) rows) := by
        by_cases hend : others = []
        · rw [hrows.eq_nil hend]
          rfl
        · have hnext : number * rowLength + row.length = (number + 1) * rowLength := by
            rw [hfull hend, Nat.succ_mul]
          rw [hnext]
          exact ih (fun c hc => htight c (List.mem_append_right _ hc)) (by omega)
      rw [List.map_cons, List.zipIdx_cons, List.mapM_cons, rowTexts, hhead, hrest]
      rfl

/-- A table of cells that fill their columns. -/
theorem table_padded {cells : List String} (htight : ∀ c ∈ cells, Tight c)
    (hlength : cells.length < Move.pointerRange) :
    table (cells.map padded) = some (Dump.table cells) := by
  rw [table, chunks_map]
  exact mapM_rowText (rows_chunks (by decide) cells) htight (by rwa [Nat.zero_mul, Nat.zero_add])

theorem digit_ne_space (n : Nat) : Hex.digit (n % 16) ≠ ' ' := by
  have hall : ∀ d : Fin 16, Hex.digit d.val ≠ ' ' := by decide
  exact hall ⟨n % 16, Nat.mod_lt n (by decide)⟩

/-- A numeral ends with a digit. -/
theorem tight_numberCell (n : Nat) : Tight (numberCell n) := by
  obtain ⟨count, hcount⟩ : ∃ count, max 4 (Hex.width n) = count + 1 :=
    Nat.exists_eq_succ_of_ne_zero (by omega)
  refine ⟨"0x".toList ++ Hex.places count (n / 16), Hex.digit (n % 16), ?_, digit_ne_space n⟩
  rw [numberCell, Hex.numeral, String.toList_append, Hex.digits, hcount, Hex.places,
    List.append_assoc]
  exact congrArg _ String.toList_ofList

/-- A numeral fills its columns. -/
theorem padded_numberCell (n : Nat) : padded (numberCell n) = numberCell n := by
  have hlength : (numberCell n).toList.length = 2 + max 4 (Hex.width n) := by
    rw [numberCell, Hex.numeral, String.toList_append, List.length_append, Hex.digits,
      String.toList_ofList, String.toList_ofList, Hex.length_places]
    rfl
  have hwide : cellWidth - (numberCell n).toList.length = 0 := by
    rw [hlength, cellWidth]
    omega
  rw [padded, List.rightpad, hwide, List.replicate_zero, List.append_nil, String.ofList_toList]

theorem tight_toString (b : Bool) : Tight (toString b) := by
  cases b with
  | false => exact ⟨"fals".toList, 'e', rfl, by decide⟩
  | true => exact ⟨"tru".toList, 'e', rfl, by decide⟩

theorem table_numberCell {numbers : List Nat} (hlength : numbers.length < Move.pointerRange) :
    table (numbers.map numberCell) = some (Dump.table (numbers.map numberCell)) := by
  have htight : ∀ c ∈ numbers.map numberCell, Tight c := by
    intro c hc
    obtain ⟨n, -, rfl⟩ := List.mem_map.mp hc
    exact tight_numberCell n
  have hpadded : (numbers.map numberCell).map padded = numbers.map numberCell := by
    rw [List.map_map]
    exact List.map_congr_left fun n _ => padded_numberCell n
  calc
    table (numbers.map numberCell) = table ((numbers.map numberCell).map padded) := by rw [hpadded]
    _ = some (Dump.table (numbers.map numberCell)) :=
      table_padded htight (by rwa [List.length_map])

/-- The words of a row, two bytes each. -/
theorem mapM_wordText (bytes : List UInt8) :
    (chunks Opcode.size bytes).mapM wordText = some ((words bytes).map numberCell) := by
  have hword : ∀ high low, wordText [high, low] =
      some (numberCell (high.toNat * 256 + low.toNat)) := by
    intro high low
    rw [← Opcode.toNat_ofBytes]
    rfl
  have hlast : ∀ high, wordText [high] = some (numberCell (high.toNat * 256)) := by
    intro high
    have hzero : (Opcode.ofBytes high 0).toNat = high.toNat * 256 := by
      simp [Opcode.toNat_ofBytes]
    rw [← hzero]
    rfl
  induction bytes using words.induct with
  | case1 high low rest ih =>
      have hcut : chunks Opcode.size (high :: low :: rest) =
          [high, low] :: chunks Opcode.size rest := by
        rw [chunks]
        rfl
      rw [hcut, List.mapM_cons, hword, ih, words]
      rfl
  | case2 high =>
      have hcut : chunks Opcode.size [high] = [[high]] := by simp [chunks]
      rw [hcut, List.mapM_cons, hlast, words]
      rfl
  | case3 =>
      rw [chunks]
      rfl

theorem zeroRow_eq : zeroRow = some zeroRun := by
  rw [zeroRow, add_of_lt (by decide), sub_of_le (by decide), zeroRun]
  simp only [Option.bind_eq_bind, Option.bind_some]
  rw [mul_of_lt (by decide), Option.bind_some, add_of_lt (by decide)]
  rfl

theorem zeroLine_eq (first last : Nat) :
    zeroLine first last = some (Line.zeros first last).text := by
  rw [zeroLine, zeroRow_eq]
  rfl

/-- The lines from `first` on when the zeros in front of them are pending from `start` on. -/
def pending (start : Option Nat) (first : Nat) (lines : List Line) : List Line :=
  match start, lines with
  | none, lines => lines
  | some start, .zeros _ last :: lines => .zeros start last :: lines
  | some start, lines => .zeros start (first - 1) :: lines

/-- A row of zeros is pending when the rows behind it are written. -/
theorem fold_zeros {row : List UInt8} (hrow : row.all (· == 0) = true) (first : Nat)
    (rows : List (List UInt8)) :
    fold first (row :: rows) =
      pending (some first) (first + row.length) (fold (first + row.length) rows) := by
  rw [fold, if_pos hrow, pending.eq_def]
  cases fold (first + row.length) rows with
  | nil => rfl
  | cons line lines => cases line <;> rfl

theorem fold_bytes {row : List UInt8} (hrow : ¬ row.all (· == 0) = true) (first : Nat)
    (rows : List (List UInt8)) :
    fold first (row :: rows) =
      .bytes first (first + row.length - 1) row :: fold (first + row.length) rows := by
  rw [fold, if_neg hrow]

theorem pending_pending (start : Option Nat) (first next : Nat) (lines : List Line) :
    pending start first (pending (some first) next lines) =
      pending (some (start.getD first)) next lines := by
  cases start with
  | none => rfl
  | some start =>
      cases lines with
      | nil => rfl
      | cons line lines => cases line <;> rfl

theorem pending_bytes (start : Option Nat) (first last : Nat) (row : List UInt8)
    (lines : List Line) :
    pending start first (.bytes first last row :: lines) =
      pending start first [] ++ .bytes first last row :: lines := by
  cases start <;> rfl

theorem closeRun_eq {start : Option Nat} {first : Nat} (hfirst : start ≠ none → 0 < first) :
    closeRun start first = some ((pending start first []).map Line.text) := by
  cases start with
  | none => rfl
  | some start =>
      rw [closeRun, sub_of_le (hfirst nofun), Option.bind_eq_bind, Option.bind_some, zeroLine_eq]
      rfl

/-- The lines of a memory, from any row on. -/
theorem memoryRows_eq {bytes : List UInt8} {rows : List (List UInt8)}
    (hrows : Rows memoryRowLength bytes rows) {length number : Nat} {start : Option Nat}
    (hlength : number * memoryRowLength + bytes.length = length)
    (hbound : length < Move.pointerRange)
    (hstart : start ≠ none → 0 < number ∧ bytes ≠ []) :
    memoryRows length start (rows.zipIdx number) =
      some ((pending start (number * memoryRowLength) (fold (number * memoryRowLength) rows)).map
        Line.text) := by
  induction hrows generalizing number start with
  | nil =>
      cases start with
      | none => rfl
      | some start => exact absurd rfl (hstart nofun).2
  | cons row others rows hrow hfull hrows ih =>
      let first := number * memoryRowLength
      have hpos := List.length_pos_iff.mpr hrow
      rw [List.length_append] at hlength
      have hmul : mul number memoryRowLength = some first := mul_of_lt (by omega)
      have hadd : add first row.length = some (first + row.length) := add_of_lt (by omega)
      have hsub : sub (first + row.length) 1 = some (first + row.length - 1) :=
        sub_of_le (by omega)
      have hnext : add (first + row.length - 1) 1 = some (first + row.length) := by
        rw [add_of_lt (by omega), Nat.sub_add_cancel (by omega)]
      have hrest : ∀ start : Option Nat, (start ≠ none → others ≠ []) →
          memoryRows length start (rows.zipIdx (number + 1)) =
            some ((pending start (first + row.length)
              (fold (first + row.length) rows)).map Line.text) := by
        intro start hpending
        by_cases hend : others = []
        · cases start with
          | none =>
              rw [hrows.eq_nil hend]
              rfl
          | some start => exact absurd hend (hpending nofun)
        · have hplace : first + row.length = (number + 1) * memoryRowLength := by
            rw [hfull hend, Nat.succ_mul]
          rw [hplace]
          exact ih (by omega) fun hsome => ⟨Nat.succ_pos number, hpending hsome⟩
      rw [List.zipIdx_cons, memoryRows]
      simp only [hmul, hadd, hsub, hnext, Option.bind_eq_bind, Option.bind_some]
      by_cases hzeros : row.all (· == 0) = true
      · rw [if_pos hzeros, fold_zeros hzeros, pending_pending]
        by_cases hend : others = []
        · -- The run ends with the memory.
          have hlast : first + row.length = length := by
            rw [hend, List.length_nil] at hlength
            omega
          rw [hrows.eq_nil hend, hlast]
          simp only [List.zipIdx_nil, memoryRows, Option.bind_some, if_true, zeroLine_eq]
          rfl
        · have hothers := List.length_pos_iff.mpr hend
          rw [hrest _ fun _ => hend, Option.bind_some, if_neg (by omega)]
          rfl
      · have hfirst : start ≠ none → 0 < first := fun hsome =>
          Nat.mul_pos (hstart hsome).1 (by decide)
        rw [if_neg hzeros, fold_bytes hzeros, pending_bytes, closeRun_eq hfirst, mapM_wordText,
          hrest none (absurd rfl), List.map_append, List.map_cons]
        simp only [Option.bind_some, List.map_map]
        rfl

theorem memoryRows_eq_memoryLines {bytes : List UInt8} (hbound : bytes.length < Move.pointerRange) :
    memoryRows bytes.length none (chunks memoryRowLength bytes).zipIdx =
      some ((memoryLines bytes).map Line.text) := by
  have hplace : 0 * memoryRowLength + bytes.length = bytes.length := by
    rw [Nat.zero_mul, Nat.zero_add]
  refine (memoryRows_eq (rows_chunks (by decide) bytes) hplace hbound nofun).trans ?_
  rw [Nat.zero_mul]
  rfl

end Raw

namespace Machine

open Raw Dump

variable (m : Machine)

theorem currentText_raw : m.raw.currentText = some m.currentText := by
  rw [Chip.currentText, fetch_raw, currentText, current]
  cases m.fetch with
  | error fault => rfl
  | ok opcode =>
      simp only [Checked.of, Option.bind_eq_bind, Option.bind_some, decode_eq]
      cases Chip8.decode opcode <;> rfl

/-- The open calls stand in the first slots of the stack. -/
theorem copy_slots (hdepth : m.stack.length ≤ stackCapacity) :
    ∃ slots, copy (List.replicate stackCapacity 0) 0 m.raw.stack.length m.raw.stack = some slots ∧
      slots.map UInt16.toNat = stackSlots m.stack := by
  have hlength : m.raw.stack.length = m.stack.length := List.length_reverse
  have hfits : m.raw.stack.length ≤ (List.replicate stackCapacity (0 : UInt16)).length := by
    rw [hlength, List.length_replicate]
    exact hdepth
  refine ⟨_, copy_zero hfits, ?_⟩
  rw [stackSlots, List.rightpad, List.drop_replicate, List.map_append, List.map_replicate,
    List.length_map, List.length_reverse, hlength]
  rfl

/-- The dump of the layout of a machine does not abort, and it is the dump of the machine. -/
theorem dump_raw (hdepth : m.stack.length ≤ stackCapacity) : m.raw.dump = some m.dump := by
  obtain ⟨slots, hcopy, hslots⟩ := m.copy_slots hdepth
  have hmemory : memoryRows m.raw.memory.length none (chunks memoryRowLength m.raw.memory).zipIdx =
      some ((memoryLines m.raw.memory).map Line.text) := by
    refine memoryRows_eq_memoryLines (lt_pointerRange ?_)
    rw [length_memory_raw]
    decide
  have hkeys : Raw.table (m.raw.keys.map fun held => padded (toString held)) =
      some (Dump.table (m.keypad.held.toList.map toString)) := by
    have htight : ∀ c ∈ m.keypad.held.toList.map toString, Tight c := by
      intro c hc
      obtain ⟨held, -, rfl⟩ := List.mem_map.mp hc
      exact tight_toString held
    have hpadded := table_padded htight (by simpa using lt_pointerRange (by decide))
    rwa [List.map_map] at hpadded
  have hstack : Raw.table (slots.map fun address => numberCell address.toNat) =
      some (Dump.table ((stackSlots m.stack).map numberCell)) := by
    have hlength : (stackSlots m.stack).length < Move.pointerRange := by
      rw [stackSlots, List.rightpad, List.length_append, List.length_replicate, List.length_map,
        List.length_reverse, Nat.add_sub_cancel' hdepth]
      decide
    have hcells := table_numberCell hlength
    rw [← hslots, List.map_map] at hcells
    rw [← hslots, List.map_map]
    exact hcells
  have hregisters : Raw.table (m.raw.registers.map fun value => numberCell value.toNat) =
      some (Dump.table (m.registers.toList.map fun value => numberCell value.toNat)) := by
    have hlength : (m.registers.toList.map UInt8.toNat).length < Move.pointerRange := by
      simpa using lt_pointerRange (by decide)
    have hcells := table_numberCell hlength
    rw [List.map_map] at hcells
    exact hcells
  rw [Chip.dump, currentText_raw, hmemory, hkeys, hcopy]
  simp only [Option.bind_eq_bind, Option.bind_some, hstack, hregisters]
  rfl

end Machine

end Chip8
