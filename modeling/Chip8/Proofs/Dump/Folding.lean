import Chip8.Proofs.Dump.Cells

/-!
The lines of the memory determine its bytes.

`Dump.Shows` relates lines to the bytes that they stand for, from an address on: a line with bytes
stands for its row, and a line for a run of zeros stands for as many zeros as its label tells.
Folding rows leads to lines that show them, whichever rows are folded: `Dump.shows_fold`. Lines of
the same texts show the same bytes, since only a run of zeros has dots: `Dump.Shows.eq_of_text_eq`.
-/

namespace Chip8.Dump

open Raw

/-- Some lines show the bytes from an address on. -/
inductive Shows : (first : Nat) → (lines : List Line) → (bytes : List UInt8) → Prop
  | nil (first : Nat) : Shows first [] []
  | bytes {first : Nat} {lines : List Line} {rest : List UInt8} (row : List UInt8) (hrow : row ≠ [])
      (hrest : Shows (first + row.length) lines rest) :
      Shows first (.bytes first (first + row.length - 1) row :: lines) (row ++ rest)
  | zeros {first : Nat} {lines : List Line} {rest : List UInt8} (count : Nat) (hcount : 0 < count)
      (hrest : Shows (first + count) lines rest) :
      Shows first (.zeros first (first + count - 1) :: lines) (List.replicate count 0 ++ rest)

/-- Zeros in front of lines make a run of their own or lengthen the run that the lines begin
with. -/
theorem Shows.pending {first count : Nat} {lines : List Line} {bytes : List UInt8}
    (hcount : 0 < count) (h : Shows (first + count) lines bytes) :
    Shows first (pending (some first) (first + count) lines)
      (List.replicate count 0 ++ bytes) := by
  cases h with
  | nil => exact .zeros count hcount (.nil _)
  | bytes row hrow hrest => exact .zeros count hcount (.bytes row hrow hrest)
  | zeros more hmore hrest =>
      rw [← List.append_assoc, List.replicate_append_replicate]
      rw [Nat.add_assoc] at hrest
      have hrun := Shows.zeros (count + more) (by omega) hrest
      rw [← Nat.add_assoc] at hrun
      exact hrun

theorem shows_fold {bytes : List UInt8} {rows : List (List UInt8)}
    (hrows : Rows memoryRowLength bytes rows) (first : Nat) :
    Shows first (fold first rows) bytes := by
  induction hrows generalizing first with
  | nil => exact .nil first
  | cons row others rows hrow _ _ ih =>
      by_cases hzeros : row.all (· == 0) = true
      · -- The row is a run by itself, which the lines behind it may lengthen.
        have hrun : row = List.replicate row.length 0 :=
          List.eq_replicate_of_mem fun byte hbyte =>
            eq_of_beq (List.all_eq_true.mp hzeros byte hbyte)
        rw [fold_zeros hzeros]
        have hshows := (ih (first + row.length)).pending (List.length_pos_iff.mpr hrow)
        rwa [← hrun] at hshows
      · rw [fold_bytes hzeros]
        exact .bytes row hrow (ih _)

theorem words_lt (bytes : List UInt8) : ∀ word ∈ words bytes, word < cellRange := by
  induction bytes using words.induct with
  | case1 high low rest ih =>
      have hhigh := high.toNat_lt
      have hlow := low.toNat_lt
      refine List.forall_mem_cons.mpr ⟨?_, ih⟩
      rw [cellRange]
      omega
  | case2 high =>
      have hhigh := high.toNat_lt
      refine List.forall_mem_singleton.mpr ?_
      rw [cellRange]
      omega
  | case3 => exact List.forall_mem_nil _

theorem length_words (bytes : List UInt8) : (words bytes).length = (bytes.length + 1) / 2 := by
  induction bytes using words.induct with
  | case1 high low rest ih =>
      rw [words, List.length_cons, ih, List.length_cons, List.length_cons]
      omega
  | case2 high => simp [words]
  | case3 => simp [words]

/-- A word tells its bytes, if it is known how many there are. -/
theorem words_inj {bytes bytes' : List UInt8} (hlength : bytes.length = bytes'.length)
    (h : words bytes = words bytes') : bytes = bytes' := by
  induction bytes using words.induct generalizing bytes' with
  | case1 high low rest ih =>
      rcases bytes' with _ | ⟨high', _ | ⟨low', rest'⟩⟩
      · cases hlength
      · cases hlength
      · obtain ⟨hword, hrest⟩ := List.cons.inj h
        have hlow := low.toNat_lt
        have hlow' := low'.toNat_lt
        have hhigh : high = high' := UInt8.toNat_inj.mp (by omega)
        have hlow : low = low' := UInt8.toNat_inj.mp (by omega)
        rw [hhigh, hlow, ih (Nat.succ.inj (Nat.succ.inj hlength)) hrest]
  | case2 high =>
      obtain ⟨high', rfl⟩ := List.length_eq_one_iff.mp hlength.symm
      have hword := (List.cons.inj h).1
      rw [UInt8.toNat_inj.mp (Nat.eq_of_mul_eq_mul_right (by decide) hword)]
  | case3 => exact (List.length_eq_zero_iff.mp hlength.symm).symm

/-- A word as it stands in a row of the memory. -/
def wordChars (word : Nat) : List Char :=
  ' ' :: (numberCell word).toList

theorem toList_text_bytes (first last : Nat) (row : List UInt8) :
    (Line.bytes first last row).text.toList =
      (label first last).toList ++ (words row).flatMap wordChars := by
  have hchars : wordChars = fun word => ' ' :: (numberCell word).toList := rfl
  simp [Line.text, List.flatMap_map, hchars]

theorem toList_text_zeros (first last : Nat) :
    (Line.zeros first last).text.toList = (label first last).toList ++ ' ' :: zeroRun.toList := by
  simp [Line.text]

theorem dot_not_mem_flatMap_wordChars (numbers : List Nat) : '.' ∉ numbers.flatMap wordChars := by
  intro hdot
  obtain ⟨word, -, hword⟩ := List.mem_flatMap.mp hdot
  rcases List.mem_cons.mp hword with hblank | hnumeral
  · cases hblank
  · exact absurd (Hex.isAlphanum_of_mem_numeral hnumeral) (by decide)

theorem dot_mem_zeroRun : '.' ∈ zeroRun.toList := by
  simp [zeroRun, centred]

section Texts

variable {first last last' : Nat} {row row' : List UInt8}

/-- The text of a row tells where it ends, and its bytes if it is known how many there are. -/
theorem bytes_text_inj (hfirst : first < cellRange) (hlast : last < cellRange)
    (hlast' : last' < cellRange)
    (h : (Line.bytes first last row).text = (Line.bytes first last' row').text) :
    last = last' ∧ (row.length = row'.length → row = row') := by
  have htext := congrArg String.toList h
  rw [toList_text_bytes, toList_text_bytes] at htext
  obtain ⟨-, hends, hwords⟩ := label_append_inj hfirst hlast hfirst hlast' htext
  refine ⟨hends, fun hlength => ?_⟩
  have hwidth : ∀ row : List UInt8, ∀ word ∈ words row, (wordChars word).length = cellWidth + 1 :=
    fun row word hword => congrArg Nat.succ (length_numberCell (words_lt row word hword))
  refine words_inj hlength
    (flatMap_append_inj (hwidth row) (hwidth row') ?_ ?_ (congrArg (· ++ []) hwords)).1
  · exact fun a _ b _ hab => Hex.numeral_inj (String.toList_injective (List.cons.inj hab).2)
  · rw [length_words, length_words, hlength]

/-- The text of a run of zeros tells where it ends. -/
theorem zeros_text_inj (hfirst : first < cellRange) (hlast : last < cellRange)
    (hlast' : last' < cellRange)
    (h : (Line.zeros first last).text = (Line.zeros first last').text) : last = last' := by
  have htext := congrArg String.toList h
  rw [toList_text_zeros, toList_text_zeros] at htext
  exact (label_append_inj hfirst hlast hfirst hlast' htext).2.1

/-- A run of zeros does not look like a row of words, which has no dots. -/
theorem bytes_text_ne_zeros_text (hfirst : first < cellRange) (hlast : last < cellRange)
    (hlast' : last' < cellRange) :
    (Line.bytes first last row).text ≠ (Line.zeros first last').text := by
  intro h
  have htext := congrArg String.toList h
  rw [toList_text_bytes, toList_text_zeros] at htext
  obtain ⟨-, -, hwords⟩ := label_append_inj hfirst hlast hfirst hlast' htext
  refine dot_not_mem_flatMap_wordChars (words row) ?_
  rw [hwords]
  exact List.mem_cons_of_mem _ dot_mem_zeroRun

end Texts

/-- Lines with the same texts show the same bytes. -/
theorem Shows.eq_of_text_eq {first : Nat} {lines lines' : List Line} {bytes bytes' : List UInt8}
    (h : Shows first lines bytes) (h' : Shows first lines' bytes')
    (hrange : first + bytes.length ≤ cellRange) (hrange' : first + bytes'.length ≤ cellRange)
    (htext : lines.map Line.text = lines'.map Line.text) : bytes = bytes' := by
  induction h generalizing lines' bytes' with
  | nil =>
      cases h' with
      | nil => rfl
      | bytes | zeros => cases htext
  | bytes row hrow hrest ih =>
      have hpos := List.length_pos_iff.mpr hrow
      rw [List.length_append] at hrange
      cases h' with
      | nil => cases htext
      | bytes row' hrow' hrest' =>
          have hpos' := List.length_pos_iff.mpr hrow'
          rw [List.length_append] at hrange'
          obtain ⟨hhead, htail⟩ := List.cons.inj htext
          obtain ⟨hends, hrows⟩ := bytes_text_inj (by omega) (by omega) (by omega) hhead
          obtain rfl := hrows (by omega)
          rw [ih hrest' (by omega) (by omega) htail]
      | zeros count hcount hrest' =>
          rw [List.length_append, List.length_replicate] at hrange'
          exact absurd (List.cons.inj htext).1
            (bytes_text_ne_zeros_text (by omega) (by omega) (by omega))
  | zeros count hcount hrest ih =>
      rw [List.length_append, List.length_replicate] at hrange
      cases h' with
      | nil => cases htext
      | bytes row hrow hrest' =>
          have hpos := List.length_pos_iff.mpr hrow
          rw [List.length_append] at hrange'
          exact absurd (List.cons.inj htext).1.symm
            (bytes_text_ne_zeros_text (by omega) (by omega) (by omega))
      | zeros count' hcount' hrest' =>
          rw [List.length_append, List.length_replicate] at hrange'
          obtain ⟨hhead, htail⟩ := List.cons.inj htext
          have hends := zeros_text_inj (by omega) (by omega) (by omega) hhead
          obtain rfl : count = count' := by omega
          rw [ih hrest' (by omega) (by omega) htail]

/-- The lines of a memory tell its bytes, although runs of zeros are folded. -/
theorem eq_of_memoryLines_eq {bytes bytes' : List UInt8} (hrange : bytes.length ≤ cellRange)
    (hrange' : bytes'.length ≤ cellRange)
    (h : (memoryLines bytes).map Line.text = (memoryLines bytes').map Line.text) : bytes = bytes' :=
  (shows_fold (rows_chunks (by decide) bytes) 0).eq_of_text_eq
    (shows_fold (rows_chunks (by decide) bytes') 0) (by rwa [Nat.zero_add])
    (by rwa [Nat.zero_add]) h

end Chip8.Dump
