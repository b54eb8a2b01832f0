import Chip8.Hex.Lemmas
import Chip8.Proofs.Raw.Dump

/-!
The tables of a dump determine their cells.

Below `0x10000` a numeral takes the columns of one cell, so a label has a fixed length, and in a row
all cells but the last do. Cells of fixed length determine a row as soon as its length is known
(`Dump.eq_of_flatMap_eq`), and the label tells this length. The last cell is not filled up, but it
ends with something else than a space, so nothing of it is lost either: `Dump.eq_of_table_eq`.
-/

namespace Chip8

namespace Dump

open Raw

/-- The numbers that a cell has room for. -/
def cellRange : Nat := 2 ^ 16

theorem length_numberCell {n : Nat} (h : n < cellRange) :
    (numberCell n).toList.length = cellWidth := by
  have hdigits : (Hex.digits 4 n).length = 4 := Hex.length_digits (by decide) h
  rw [numberCell, Hex.numeral, String.toList_append, List.length_append, String.toList_ofList,
    String.toList_ofList, hdigits]
  rfl

/-- A label has a fixed length, so what stands behind it is determined as well. -/
theorem label_append_inj {a b c d : Nat} {s t : List Char} (ha : a < cellRange)
    (hb : b < cellRange) (hc : c < cellRange) (hd : d < cellRange)
    (h : (label a b).toList ++ s = (label c d).toList ++ t) : a = c ∧ b = d ∧ s = t := by
  have hlabel : ∀ first last rest, (label first last).toList ++ rest =
      (numberCell first).toList ++
        (" - ".toList ++ ((numberCell last).toList ++ (" :".toList ++ rest))) := by
    intro first last rest
    simp only [label, numberCell, String.toList_append, List.append_assoc]
  rw [hlabel, hlabel] at h
  obtain ⟨hfirst, h⟩ := List.append_inj h (by rw [length_numberCell ha, length_numberCell hc])
  obtain ⟨hlast, h⟩ := List.append_inj (List.append_cancel_left h)
    (by rw [length_numberCell hb, length_numberCell hd])
  exact ⟨Hex.numeral_inj (String.toList_injective hfirst),
    Hex.numeral_inj (String.toList_injective hlast), List.append_cancel_left h⟩

/-- Texts of fixed length, one behind the other, determine what they stand for and what follows. -/
theorem flatMap_append_inj {α : Type} {text : α → List Char} {width : Nat} {l l' : List α}
    {s t : List Char} (hwidth : ∀ a ∈ l, (text a).length = width)
    (hwidth' : ∀ a ∈ l', (text a).length = width)
    (hinj : ∀ a ∈ l, ∀ b ∈ l', text a = text b → a = b) (hlength : l.length = l'.length)
    (h : l.flatMap text ++ s = l'.flatMap text ++ t) : l = l' ∧ s = t := by
  induction l generalizing l' with
  | nil =>
      obtain rfl := List.length_eq_zero_iff.mp hlength.symm
      exact ⟨rfl, h⟩
  | cons a l ih =>
      cases l' with
      | nil => cases hlength
      | cons b l' =>
          rw [List.forall_mem_cons] at hwidth hwidth'
          simp only [List.flatMap_cons, List.append_assoc] at h
          obtain ⟨hhead, htail⟩ := List.append_inj h (hwidth.1.trans hwidth'.1.symm)
          obtain ⟨hl, hs⟩ := ih hwidth.2 hwidth'.2
            (fun c hc d hd => hinj c (List.mem_cons_of_mem _ hc) d (List.mem_cons_of_mem _ hd))
            (Nat.succ.inj hlength) htail
          exact ⟨congrArg₂ _ (hinj a List.mem_cons_self b List.mem_cons_self hhead) hl, hs⟩

/-- A text that has room in a cell and is not changed by the blanks behind it. -/
structure Fits (cell : String) : Prop where
  tight : Tight cell
  length : cell.toList.length ≤ cellWidth

theorem fits_numberCell {n : Nat} (h : n < cellRange) : Fits (numberCell n) :=
  ⟨tight_numberCell n, Nat.le_of_eq (length_numberCell h)⟩

theorem fits_toString (b : Bool) : Fits (toString b) := by
  refine ⟨tight_toString b, ?_⟩
  cases b <;> decide

/-- A cell as it stands in a row, unless it is the last one. -/
def spaced (cell : String) : List Char :=
  ' ' :: (padded cell).toList

theorem Fits.length_spaced {cell : String} (h : Fits cell) :
    (spaced cell).length = cellWidth + 1 := by
  have hlength := h.length
  rw [spaced, List.length_cons, padded, String.toList_ofList, List.rightpad, List.length_append,
    List.length_replicate]
  omega

theorem Fits.spaced_inj {cell other : String} (hcell : Fits cell) (hother : Fits other)
    (h : spaced cell = spaced other) : cell = other := by
  have hpadded := String.toList_injective (List.cons.inj h).2
  have htrim : ∀ {cell : String}, Fits cell → trimEnd (padded cell).toList = cell.toList := by
    intro cell hcell
    have hempty := @trimEnd_padded "" cell hcell.tight
    rwa [String.empty_append, String.empty_append] at hempty
  refine String.toList_injective ?_
  rw [← htrim hcell, hpadded, htrim hother]

theorem toList_rowText (first : Nat) (init : List String) (cell : String) :
    (rowText first (init ++ [cell])).toList =
      (label first (first + init.length)).toList ++
        (init.flatMap spaced ++ ' ' :: cell.toList) := by
  have hspaced : spaced = fun cell => ' ' :: (padded cell).toList := rfl
  simp [rowText, List.flatMap_map, hspaced]

/-- The text of a row tells its cells. -/
theorem eq_of_rowText_eq {first : Nat} {row row' : List String} (hrow : row ≠ [])
    (hrow' : row' ≠ []) (hfits : ∀ c ∈ row, Fits c) (hfits' : ∀ c ∈ row', Fits c)
    (hrange : first + row.length ≤ cellRange) (hrange' : first + row'.length ≤ cellRange)
    (h : rowText first row = rowText first row') : row = row' := by
  obtain ⟨init, cell, rfl⟩ := (List.eq_nil_or_concat' row).resolve_left hrow
  obtain ⟨init', cell', rfl⟩ := (List.eq_nil_or_concat' row').resolve_left hrow'
  rw [List.length_append, List.length_singleton] at hrange hrange'
  rw [List.forall_mem_append] at hfits hfits'
  have htext := congrArg String.toList h
  rw [toList_rowText, toList_rowText] at htext
  obtain ⟨-, hlast, htext⟩ :=
    label_append_inj (by omega) (by omega) (by omega) (by omega) htext
  obtain ⟨hcells, hcell⟩ := flatMap_append_inj (fun c hc => (hfits.1 c hc).length_spaced)
    (fun c hc => (hfits'.1 c hc).length_spaced)
    (fun c hc d hd => (hfits.1 c hc).spaced_inj (hfits'.1 d hd)) (by omega) htext
  rw [hcells, String.toList_injective (List.cons.inj hcell).2]

/-- The texts of the rows of a table tell its cells. -/
theorem eq_of_rowTexts_eq {cells cells' : List String} {rows rows' : List (List String)}
    (hrows : Rows rowLength cells rows) (hrows' : Rows rowLength cells' rows')
    (hfits : ∀ c ∈ cells, Fits c) (hfits' : ∀ c ∈ cells', Fits c) {first : Nat}
    (hrange : first + cells.length ≤ cellRange) (hrange' : first + cells'.length ≤ cellRange)
    (h : rowTexts first rows = rowTexts first rows') : cells = cells' := by
  induction hrows generalizing cells' rows' first with
  | nil =>
      cases hrows' with
      | nil => rfl
      | cons => cases h
  | cons row others rows hrow _ _ ih =>
      cases hrows' with
      | nil => cases h
      | cons row' others' rows' hrow' _ hrows' =>
          rw [List.length_append] at hrange hrange'
          rw [List.forall_mem_append] at hfits hfits'
          obtain ⟨hhead, htail⟩ := List.cons.inj h
          obtain rfl : row = row' :=
            eq_of_rowText_eq hrow hrow' hfits.1 hfits'.1 (by omega) (by omega) hhead
          rw [ih hrows' hfits.2 hfits'.2 (by omega) (by omega) htail]

/-- A table tells its cells. -/
theorem eq_of_table_eq {cells cells' : List String} (hfits : ∀ c ∈ cells, Fits c)
    (hfits' : ∀ c ∈ cells', Fits c) (hrange : cells.length ≤ cellRange)
    (hrange' : cells'.length ≤ cellRange) (h : table cells = table cells') : cells = cells' :=
  eq_of_rowTexts_eq (rows_chunks (by decide) cells) (rows_chunks (by decide) cells') hfits hfits'
    (by rwa [Nat.zero_add]) (by rwa [Nat.zero_add]) h

/-- A table of keys tells which of them are held. -/
theorem eq_of_table_toString_eq {keys keys' : List Bool} (hrange : keys.length ≤ cellRange)
    (hrange' : keys'.length ≤ cellRange)
    (h : table (keys.map toString) = table (keys'.map toString)) : keys = keys' := by
  have hfits : ∀ keys : List Bool, ∀ c ∈ keys.map toString, Fits c :=
    fun _ => List.forall_mem_map.mpr fun held _ => fits_toString held
  have hinj : ∀ a b : Bool, toString a = toString b → a = b := by decide
  have hmap := eq_of_table_eq (hfits keys) (hfits keys') (by rwa [List.length_map])
    (by rwa [List.length_map]) h
  exact List.map_injective_iff.mpr (fun a b => hinj a b) hmap

/-- A table of numbers tells the numbers. -/
theorem eq_of_table_numberCell_eq {numbers numbers' : List Nat}
    (hcells : ∀ n ∈ numbers, n < cellRange) (hcells' : ∀ n ∈ numbers', n < cellRange)
    (hrange : numbers.length ≤ cellRange) (hrange' : numbers'.length ≤ cellRange)
    (h : table (numbers.map numberCell) = table (numbers'.map numberCell)) :
    numbers = numbers' := by
  have hfits : ∀ {numbers : List Nat}, (∀ n ∈ numbers, n < cellRange) →
      ∀ c ∈ numbers.map numberCell, Fits c :=
    fun hcells => List.forall_mem_map.mpr fun n hn => fits_numberCell (hcells n hn)
  have hmap := eq_of_table_eq (hfits hcells) (hfits hcells') (by rwa [List.length_map])
    (by rwa [List.length_map]) h
  exact List.map_injective_iff.mpr (fun _ _ => Hex.numeral_inj) hmap

/-- A table of bytes tells the bytes. -/
theorem eq_of_table_bytes_eq {bytes bytes' : List UInt8} (hrange : bytes.length ≤ cellRange)
    (hrange' : bytes'.length ≤ cellRange)
    (h : table (bytes.map fun byte => numberCell byte.toNat) =
      table (bytes'.map fun byte => numberCell byte.toNat)) : bytes = bytes' := by
  have hcells : ∀ bytes : List UInt8, ∀ n ∈ bytes.map UInt8.toNat, n < cellRange :=
    fun _ => List.forall_mem_map.mpr fun byte _ => Nat.lt_trans byte.toNat_lt (by decide)
  have hmap : bytes.map UInt8.toNat = bytes'.map UInt8.toNat := by
    refine eq_of_table_numberCell_eq (hcells bytes) (hcells bytes') (by rwa [List.length_map])
      (by rwa [List.length_map]) ?_
    rwa [List.map_map, List.map_map]
  exact List.map_injective_iff.mpr (fun _ _ => UInt8.toNat_inj.mp) hmap

/-- Tables with equally many cells have equally many rows. -/
theorem length_table_eq {cells cells' : List String} (h : cells.length = cells'.length) :
    (table cells).length = (table cells').length := by
  have hrows : ∀ first (rows : List (List String)), (rowTexts first rows).length = rows.length := by
    intro first rows
    induction rows generalizing first with
    | nil => rfl
    | cons row rows ih => exact congrArg Nat.succ (ih _)
  have hblank : ∀ cells : List String, (chunks rowLength cells).length =
      (chunks rowLength (List.replicate cells.length ())).length := by
    intro cells
    rw [← List.map_const', chunks_map, List.length_map]
  rw [table, table, hrows, hrows, hblank, h, ← hblank]

end Dump

end Chip8
