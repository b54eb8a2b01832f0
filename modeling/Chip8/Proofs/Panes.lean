import Chip8.Terminal.Pane

/-!
Panes cell by cell.

A pane that has room for its border is as wide and as high as it says, whatever its lines are. Inside
of the border a cell shows the character of the line, or a blank where the line has ended or there is
no line; what is too long is cut.
-/

namespace Chip8.Terminal

theorem length_fit (columns : Nat) (text : List Char) : (fit columns text).length = columns := by
  simp only [fit, List.rightpad, List.length_append, List.length_take, List.length_replicate]
  omega

/-- A column shows the character of the text there, or a blank behind the text. -/
theorem getElem?_fit {columns column : Nat} (h : column < columns) (text : List Char) :
    (fit columns text)[column]? = some (text.getD column ' ') := by
  simp only [fit, List.rightpad, List.getElem?_append, List.length_take, List.getElem?_take,
    List.getElem?_replicate, List.getD_eq_getElem?_getD]
  by_cases hin : column < text.length
  · rw [if_pos (by omega), if_pos h, List.getElem?_eq_getElem hin, Option.getD_some]
  · rw [if_neg (by omega), if_pos (by omega), List.getElem?_eq_none (by omega), Option.getD_none]

/-- The character in a cell. -/
def cellAt (rows : List (List Char)) (column row : Nat) : Option Char :=
  rows[row]?.bind fun cells => cells[column]?

theorem getD_of_cellAt {rows : List (List Char)} {column row : Nat} {character : Char}
    (h : cellAt rows column row = some character) (blank : Char) :
    (rows.getD row []).getD column blank = character := by
  obtain ⟨cells, hcells, hcell⟩ := Option.bind_eq_some_iff.mp h
  rw [List.getD_eq_getElem?_getD, List.getD_eq_getElem?_getD, hcells, Option.getD_some, hcell,
    Option.getD_some]

namespace Pane

variable {p : Pane}

/-- There is room for the border. -/
structure HasBorder (p : Pane) : Prop where
  width : 2 ≤ p.width
  height : 2 ≤ p.height

theorem length_top (h : p.HasBorder) : p.top.length = p.width := by
  have hwidth := h.width
  simp only [top, innerWidth, List.length_append, List.length_cons, List.length_take,
    List.length_replicate, List.length_nil]
  omega

theorem length_bottom (h : p.HasBorder) : p.bottom.length = p.width := by
  have hwidth := h.width
  simp only [bottom, innerWidth, List.length_append, List.length_cons, List.length_replicate,
    List.length_nil]
  omega

theorem length_body (p : Pane) : p.body.length = p.innerHeight := by
  simp only [body, List.length_map, List.length_range]

theorem getElem?_body {line : Nat} (hline : line < p.innerHeight) :
    p.body[line]? = some ('│' :: fit p.innerWidth (p.lines.getD line []) ++ ['│']) := by
  rw [body, List.getElem?_map, List.getElem?_range hline, Option.map_some]

theorem length_box (h : p.HasBorder) : (p.top :: p.body ++ [p.bottom]).length = p.height := by
  have hheight := h.height
  simp only [List.length_append, List.length_cons, length_body, innerHeight, List.length_nil]
  omega

theorem length_of_mem_box (h : p.HasBorder) {cells : List Char}
    (hmem : cells ∈ p.top :: p.body ++ [p.bottom]) : cells.length = p.width := by
  simp only [List.cons_append, List.mem_cons, List.mem_append, List.not_mem_nil, or_false] at hmem
  rcases hmem with rfl | hbody | rfl
  · exact length_top h
  · have hwidth := h.width
    obtain ⟨line, -, rfl⟩ := List.mem_map.mp hbody
    simp only [List.length_append, List.length_cons, List.length_nil, length_fit, innerWidth]
    omega
  · exact length_bottom h

/-- With room for the border nothing of the box is left out. -/
theorem rows_eq (h : p.HasBorder) : p.rows = p.top :: p.body ++ [p.bottom] := by
  have hwhole : ∀ cells ∈ p.top :: p.body ++ [p.bottom], cells.take p.width = cells := by
    intro cells hmem
    exact List.take_of_length_le (Nat.le_of_eq (length_of_mem_box h hmem))
  rw [rows, List.take_of_length_le (Nat.le_of_eq (length_box h)), List.map_congr_left hwhole]
  exact List.map_id _

theorem length_rows (h : p.HasBorder) : p.rows.length = p.height := by
  rw [rows_eq h, length_box h]

theorem length_of_mem_rows (h : p.HasBorder) {cells : List Char} (hmem : cells ∈ p.rows) :
    cells.length = p.width := by
  rw [rows_eq h] at hmem
  exact length_of_mem_box h hmem

/-- What is shown inside of the border. -/
theorem cellAt_rows_inside (h : p.HasBorder) {column line : Nat} (hcolumn : column < p.innerWidth)
    (hline : line < p.innerHeight) :
    cellAt p.rows (column + 1) (line + 1) = some ((p.lines.getD line []).getD column ' ') := by
  have hrow : p.rows[line + 1]? =
      some ('│' :: fit p.innerWidth (p.lines.getD line []) ++ ['│']) := by
    rw [rows_eq h, List.cons_append, List.getElem?_cons_succ,
      List.getElem?_append_left (by rwa [length_body]), getElem?_body hline]
  rw [cellAt, hrow, Option.bind_some, List.cons_append, List.getElem?_cons_succ,
    List.getElem?_append_left (by rwa [length_fit]), getElem?_fit hcolumn]

/-- The lower border. -/
theorem cellAt_rows_bottom (h : p.HasBorder) {column : Nat} (hcolumn : column < p.innerWidth) :
    cellAt p.rows (column + 1) (p.innerHeight + 1) = some '─' := by
  have hrow : p.rows[p.innerHeight + 1]? = some p.bottom := by
    rw [rows_eq h, List.cons_append, List.getElem?_cons_succ,
      List.getElem?_append_right (Nat.le_of_eq p.length_body), length_body, Nat.sub_self]
    rfl
  rw [cellAt, hrow, Option.bind_some, bottom, List.cons_append, List.getElem?_cons_succ,
    List.getElem?_append_left (by rwa [List.length_replicate]),
    List.getElem?_replicate_of_lt hcolumn]

end Pane

end Chip8.Terminal
