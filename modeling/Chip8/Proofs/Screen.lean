import Chip8.Proofs.DrawnArea
import Chip8.Proofs.Panes
import Chip8.Proofs.Pixels
import Chip8.Proofs.Points
import Chip8.Terminal.Screen

/-!
What a terminal shows, cell by cell.

Where there is room for the three panes, the canvas has one cell for each pixel, so a pixel in column
`x` of row `y` is shown in column `x + 1` of row `y + 1`, inside of the border. The panes stand beside
and below each other, each of its own size: no text reaches another pane, however long it is. The
journal has the rest of the height, and shows as many of its latest lines as that is. All of this
holds of the part of the terminal that is drawn on, which is the whole of it unless it is very large.
-/

namespace Chip8.Terminal

/-- On an axis with a cell for each unit, a distance is that of its cell. -/
theorem Axis.cell?_eq_some_iff {a : Axis} (hcells : 1 < a.cells)
    (hunit : a.high - a.low = a.cells - 1) {distance : Int} {cell : Nat} :
    a.cell? distance = some cell ↔ distance = cell ∧ cell < a.cells := by
  have hne : (a.cells : Int) - 1 ≠ 0 := by omega
  rw [Axis.cell?, hunit, Int.mul_ediv_cancel _ hne]
  by_cases hin : 0 ≤ distance ∧ distance ≤ a.cells - 1
  · rw [if_pos hin, Option.some_inj]
    omega
  · rw [if_neg hin]
    constructor
    · nofun
    · omega

namespace Canvas

theorem cellAt_paint (canvas : Canvas) (points : List Point) {column row : Nat}
    (hcolumn : column < canvas.horizontal.cells) (hrow : row < canvas.vertical.cells) :
    cellAt (canvas.paint points) column row =
      some (if (column, row) ∈ points.filterMap canvas.cell? then mark else ' ') := by
  rw [cellAt, paint, List.getElem?_map, List.getElem?_range hrow, Option.map_some,
    Option.bind_some, List.getElem?_map, List.getElem?_range hcolumn, Option.map_some]
  congr 1
  refine if_congr ?_ rfl rfl
  rw [List.contains_iff_mem, List.mem_map]
  simp [List.mem_filter]

theorem cell?_eq_some_iff {canvas : Canvas} {p : Point} {column row : Nat} :
    canvas.cell? p = some (column, row) ↔
      canvas.horizontal.cell? (p.x - canvas.horizontal.low) = some column ∧
        canvas.vertical.cell? (canvas.vertical.high - p.y) = some row := by
  rw [Canvas.cell?]
  cases canvas.horizontal.cell? (p.x - canvas.horizontal.low) <;>
    cases canvas.vertical.cell? (canvas.vertical.high - p.y) <;> simp

/-- On the canvas of the framebuffer a point falls into the cell that it is the point of. -/
theorem cell?_framebuffer {p : Point} {column row : Nat} :
    (framebuffer 64 32).cell? p = some (column, row) ↔
      (p.x = column ∧ column < 64) ∧ p.y = -row ∧ row < 32 := by
  have hx : p.x - (framebuffer 64 32).horizontal.low = p.x := Int.sub_zero p.x
  have hy : (framebuffer 64 32).vertical.high - p.y = -p.y := Int.zero_sub p.y
  have hcolumn : (framebuffer 64 32).horizontal.cell? p.x = some column ↔
      p.x = column ∧ column < 64 := Axis.cell?_eq_some_iff (by decide) rfl
  have hrow : (framebuffer 64 32).vertical.cell? (-p.y) = some row ↔ -p.y = row ∧ row < 32 :=
    Axis.cell?_eq_some_iff (by decide) rfl
  rw [cell?_eq_some_iff, hx, hy, hcolumn, hrow]
  omega

/-- A cell of the canvas shows the pixel in the same column and row. -/
theorem cellAt_paint_pixels (f : Framebuffer) (x : Fin 64) (y : Fin 32) :
    cellAt ((framebuffer 64 32).paint (points f.pixels)) x y =
      some (if f.pixel x y then mark else ' ') := by
  rw [cellAt_paint _ _ x.isLt y.isLt]
  have hshown : (x.val, y.val) ∈ (points f.pixels).filterMap (framebuffer 64 32).cell? ↔
      f.pixel x y = true := by
    have hplace := f.getElem?_pixels x y
    rw [List.mem_filterMap]
    simp only [cell?_framebuffer, (encodes_points f.pixels).mem_iff]
    constructor
    · rintro ⟨p, ⟨place, hset, rfl⟩, ⟨hx, -⟩, hy, -⟩
      have heq : place = Framebuffer.place x y := by
        simp only [Framebuffer.place, Framebuffer.width] at hx hy ⊢
        omega
      rw [heq, hplace] at hset
      exact Option.some.inj hset
    · intro hset
      refine ⟨⟨x, -y⟩, ⟨Framebuffer.place x y, by rw [hplace, hset], ?_⟩,
        ⟨rfl, x.isLt⟩, rfl, y.isLt⟩
      have hx := x.isLt
      simp only [Framebuffer.place, Framebuffer.width, Point.mk.injEq]
      omega
  rw [if_congr hshown rfl rfl]

end Canvas

namespace Screen

/-- There is room for the three panes: for the whole screen, for some columns of the status lines
beside it and for some rows of the journal below. -/
structure HasRoom (area : Area) : Prop where
  width : paneWidth + 20 ≤ area.width
  height : paneHeight + 3 ≤ area.height

variable {area : Area} (lettering : Lettering)

/-- With room, the screen pane has its full size. -/
theorem display_eq (h : HasRoom area) (picture : Picture) :
    display area picture =
      { title := "CHIP-8"
        width := 66
        height := 34
        lines := (Canvas.framebuffer 64 32).paint picture.points } := by
  have hwidth : min paneWidth area.width = 66 := by
    have := h.width
    simp only [paneWidth, Framebuffer.width] at this ⊢
    omega
  have hheight : min paneHeight area.height = 34 := by
    have := h.height
    simp only [paneHeight, Framebuffer.height] at this ⊢
    omega
  rw [display, hwidth, hheight]

theorem hasBorder_display (h : HasRoom area) (picture : Picture) :
    (display area picture).HasBorder := by
  rw [display_eq h]
  exact ⟨Nat.le_add_left 2 64, Nat.le_add_left 2 32⟩

theorem hasBorder_journal (h : HasRoom area) (log : Journal) :
    (journal lettering area log).HasBorder := by
  have hwidth := h.width
  have hheight := h.height
  refine ⟨?_, ?_⟩
  · show 2 ≤ area.width
    omega
  · show 2 ≤ area.height - paneHeight
    omega

theorem hasBorder_state (h : HasRoom area) (status : List StyledLine) :
    (state lettering area status).HasBorder := by
  have hwidth := h.width
  have hheight := h.height
  have hpane : 2 ≤ paneHeight := by decide
  refine ⟨?_, ?_⟩
  · show 2 ≤ area.width - paneWidth
    omega
  · show 2 ≤ min paneHeight area.height
    omega

theorem length_rows_display (h : HasRoom area) (picture : Picture) :
    (display area picture).rows.length = 34 := by
  rw [Pane.length_rows (hasBorder_display h picture), display_eq h]

theorem length_rows_state (h : HasRoom area) (status : List StyledLine) :
    (state lettering area status).rows.length = 34 := by
  have hheight := h.height
  rw [Pane.length_rows (hasBorder_state lettering h status)]
  simp only [state, paneHeight, Framebuffer.height] at hheight ⊢
  omega

variable (picture : Picture) (status : List StyledLine) (log : Journal)

theorem length_upper (h : HasRoom area) :
    ((display area picture).rows.zipWith (· ++ ·) (state lettering area status).rows).length =
      34 := by
  rw [List.length_zipWith, length_rows_display h, length_rows_state lettering h, Nat.min_self]

/-- The upper left cells are those of the screen. -/
theorem cellAt_cells_display (h : HasRoom area) {column row : Nat} (hcolumn : column < 66)
    (hrow : row < 34) :
    cellAt (cells lettering area picture status log) column row =
      cellAt (display area picture).rows column row := by
  have hleft : row < (display area picture).rows.length := by rwa [length_rows_display h]
  have hright : row < (state lettering area status).rows.length := by
    rwa [length_rows_state lettering h]
  have hlength : (display area picture).rows[row].length = 66 := by
    rw [Pane.length_of_mem_rows (hasBorder_display h picture) (List.getElem_mem hleft),
      display_eq h]
  have hupper : row < ((display area picture).rows.zipWith (· ++ ·)
      (state lettering area status).rows).length := by
    rwa [length_upper lettering picture status h]
  rw [cellAt, cellAt, cells, List.getElem?_append_left hupper, List.getElem?_zipWith,
    List.getElem?_eq_getElem hleft, List.getElem?_eq_getElem hright]
  show ((display area picture).rows[row] ++ _)[column]? = _
  rw [List.getElem?_append_left (by rwa [hlength])]
  rfl

/-- The cells below the screen are those of the journal. -/
theorem cellAt_cells_journal (h : HasRoom area) (column row : Nat) :
    cellAt (cells lettering area picture status log) column (row + 34) =
      cellAt (journal lettering area log).rows column row := by
  have hlength := length_upper lettering picture status h
  rw [cellAt, cellAt, cells, List.getElem?_append_right (by omega), hlength,
    Nat.add_sub_cancel]

theorem length_cells (h : HasRoom area) :
    (cells lettering area picture status log).length = area.height := by
  have hheight := h.height
  rw [cells, List.length_append, length_upper lettering picture status h,
    Pane.length_rows (hasBorder_journal lettering h log)]
  simp only [journal, paneHeight, Framebuffer.height] at hheight ⊢
  omega

/-- The character that is shown in a cell of a terminal. -/
def shownAt (rows : List String) (column row : Nat) : Option Char :=
  cellAt (rows.map String.toList) column row

/-- What is drawn of a part of a terminal is shown there, whatever stays empty below. -/
theorem shownAt_render {width height : Nat} (h : HasRoom (.ofTerminal width height)) (m : Machine)
    (paused : Bool) {column row : Nat} (hrow : row < (Area.ofTerminal width height).height) :
    shownAt (render width height picture m paused log lettering) column row =
      cellAt (cells lettering (.ofTerminal width height) picture (Terminal.status m paused) log)
        column row := by
  have hdrawn : row < (cells lettering (.ofTerminal width height) picture
      (Terminal.status m paused) log).length := by
    rwa [length_cells lettering picture (Terminal.status m paused) log h]
  have hchars : String.toList ∘ String.ofList = id := by
    funext characters
    exact String.toList_ofList
  rw [shownAt, render, cellAt, cellAt, List.rightpad, List.map_append, List.map_map, hchars,
    List.map_id, List.getElem?_append_left hdrawn]

/-- A row inside of the pane of the journal shows a line of the journal character by character, if
each of them takes one cell. Behind the last line the rows are blank. -/
theorem cellAt_journal (h : HasRoom area) {column row : Nat} (hcolumn : column < area.width - 2)
    (hrow : row < journalRows area)
    (hnarrow : ∀ character ∈ ((log.latest (journalRows area)).getD row "").toList,
      lettering.width character = 1) :
    cellAt (journal lettering area log).rows (column + 1) (row + 1) =
      some (((log.latest (journalRows area)).getD row "").toList.getD column ' ') := by
  rw [Pane.cellAt_rows_inside (hasBorder_journal lettering h log) hcolumn hrow]
  congr 1
  show (((log.latest (journalRows area)).map fun line =>
    lettering.draw (area.width - 2) line.toList).getD row []).getD column ' ' = _
  simp only [List.getD_eq_getElem?_getD, List.getElem?_map] at hnarrow ⊢
  cases hline : (log.latest (journalRows area))[row]? with
  | none => rfl
  | some line =>
      rw [hline, Option.getD_some] at hnarrow
      rw [Option.map_some, Option.getD_some, Option.getD_some,
        lettering.draw_of_narrow _ _ hnarrow, getElem?_fit hcolumn, Option.getD_some,
        List.getD_eq_getElem?_getD]

/-- The rows show a framebuffer pixel by pixel, and below it as many of the latest lines of a journal
as there are rows left inside of the borders. A line whose characters take one cell each is shown up
to the border, where it is cut. -/
structure Shows (lettering : Lettering) (f : Framebuffer) (log : Journal) (area : Area)
    (rows : List String) : Prop where
  pixel : ∀ (x : Fin 64) (y : Fin 32),
    shownAt rows (x + 1) (y + 1) = some (if f.pixel x y then '▄' else ' ')
  line : ∀ row < area.height - 36,
    let text := ((log.latest (area.height - 36)).getD row "").toList
    (∀ character ∈ text, lettering.width character = 1) →
      ∀ column < area.width - 2,
        shownAt rows (column + 1) (row + 35) = some (text.getD column ' ')

theorem shows_render (f : Framebuffer) (before : Picture) {width height : Nat}
    (h : HasRoom (.ofTerminal width height)) (m : Machine) (paused : Bool) :
    Shows lettering f log (.ofTerminal width height)
      (render width height (before.update f.pixels) m paused log lettering) := by
  have hheight := h.height
  simp only [paneHeight, Framebuffer.height] at hheight
  constructor
  · intro x y
    have hx := x.isLt
    have hy := y.isLt
    rw [shownAt_render lettering _ log h m paused (by omega),
      cellAt_cells_display lettering _ _ log h (by omega) (by omega), display_eq h,
      Pane.cellAt_rows_inside ⟨Nat.le_add_left 2 64, Nat.le_add_left 2 32⟩ hx hy]
    exact congrArg some (getD_of_cellAt (Canvas.cellAt_paint_pixels f x y) ' ')
  · intro row hrow text hnarrow column hcolumn
    rw [shownAt_render lettering _ log h m paused (by omega),
      cellAt_cells_journal lettering _ _ log h]
    exact cellAt_journal lettering log h hcolumn hrow hnarrow

/-- The screen and its border look the same whatever else there is to show. -/
theorem shownAt_render_congr (pixels : List Bool) (before before' : Picture) {width height : Nat}
    (h : HasRoom (.ofTerminal width height)) (m m' : Machine) (paused paused' : Bool)
    (log log' : Journal) {column row : Nat} (hcolumn : column < 66) (hrow : row < 34) :
    shownAt (render width height (before.update pixels) m paused log lettering) column row =
      shownAt (render width height (before'.update pixels) m' paused' log' lettering) column
        row := by
  have hheight := h.height
  simp only [paneHeight, Framebuffer.height] at hheight
  have hdrawn : row < (Area.ofTerminal width height).height := by omega
  have hpicture : before.update pixels = before'.update pixels :=
    congrArg Picture.mk (Picture.points_update before pixels)
  rw [shownAt_render lettering _ log h m paused hdrawn,
    shownAt_render lettering _ log' h m' paused' hdrawn,
    cellAt_cells_display lettering _ _ log h hcolumn hrow,
    cellAt_cells_display lettering _ _ log' h hcolumn hrow, hpicture]

/-- On the part of a terminal that is drawn on, if there is room for the panes, the framebuffer is
shown pixel by pixel and the latest lines of the journal below, and nothing but the framebuffer
reaches the screen and its border, whatever cells the characters of the texts take. The part is all
of a terminal without too many cells. -/
theorem framebuffer_and_journal_shown (lettering : Lettering) (f : Framebuffer) (before : Picture)
    {width height : Nat} (hroom : HasRoom (.ofTerminal width height)) (m : Machine) (paused : Bool)
    (log : Journal) :
    Shows lettering f log (.ofTerminal width height)
        (render width height (before.update f.pixels) m paused log lettering) ∧
      (∀ (before' : Picture) (m' : Machine) (paused' : Bool) (log' : Journal) (column row : Nat),
        column < 66 → row < 34 →
        shownAt (render width height (before'.update f.pixels) m' paused' log' lettering) column
            row =
          shownAt (render width height (before.update f.pixels) m paused log lettering) column
            row) ∧
      Area.IsPart width height (.ofTerminal width height) ∧
      (width * height ≤ Area.maxCells → Area.ofTerminal width height = ⟨width, height⟩) := by
  refine ⟨shows_render lettering log f before hroom m paused, ?_,
    Area.isPart_ofTerminal width height, Area.ofTerminal_of_le⟩
  intro before' m' paused' log' column row hcolumn hrow
  exact shownAt_render_congr lettering f.pixels before' before hroom m' m paused' paused log' log
    hcolumn hrow

/-- The last pixel, the last row of the journal, with a line that is too long for it, and the corner
of the screen with nothing to log. -/
theorem framebuffer_and_journal_shown_smallest :
    let f := Framebuffer.blank.toggle 63 31
    let long := String.ofList (List.replicate 100 'x')
    let log : Journal := ⟨.upTo .warn, ["", long, long]⟩
    let rows := render 87 38 (Picture.empty.update f.pixels) .initial false log
    let quiet := render 87 38 (Picture.empty.update f.pixels) .initial true (.empty .warn)
    HasRoom (.ofTerminal 87 38) ∧ shownAt rows 64 32 = some '▄' ∧ shownAt rows 63 32 = some ' ' ∧
      shownAt rows 85 36 = some 'x' ∧ shownAt quiet 65 33 = shownAt rows 65 33 := by
  intro f long log rows quiet
  have hwhole : Area.ofTerminal 87 38 = ⟨87, 38⟩ := Area.ofTerminal_of_le (by decide)
  have hroom : HasRoom (.ofTerminal 87 38) := by
    rw [hwhole]
    exact ⟨by decide, by decide⟩
  obtain ⟨hshows, hsame, -⟩ :=
    framebuffer_and_journal_shown .plain f .empty hroom .initial false log
  rw [hwhole] at hshows
  have hcorner := hsame .empty .initial true (.empty .warn) 65 33 (by decide) (by decide)
  refine ⟨hroom, ?_, ?_, ?_, hcorner⟩
  · have hpixel := hshows.pixel 63 31
    rwa [Framebuffer.pixel_toggle, Framebuffer.pixel_blank] at hpixel
  · have hpixel := hshows.pixel 62 31
    rwa [Framebuffer.pixel_toggle, Framebuffer.pixel_blank] at hpixel
  · have hline : shownAt rows 85 36 = some (long.toList.getD 84 ' ') :=
      hshows.line 1 (by decide) (fun _ _ => rfl) 84 (by decide)
    rwa [String.toList_ofList] at hline

/-- A terminal of 256 columns and rows has one cell too many: the lower border of the journal takes
the row that would be left for the last of its lines. -/
theorem not_shows_whole_terminal :
    let log : Journal := ⟨.upTo .warn, List.replicate 256 "ERROR -"⟩
    ¬ Shows .plain .blank log ⟨256, 256⟩
      (render 256 256 (Picture.empty.update Framebuffer.blank.pixels) .initial false log) := by
  intro log hshows
  have hpart : Area.ofTerminal 256 256 = ⟨255, 255⟩ := by decide +kernel
  have hroom : HasRoom (.ofTerminal 256 256) := by
    rw [hpart]
    exact ⟨by decide, by decide⟩
  have hborder : shownAt (render 256 256 (Picture.empty.update Framebuffer.blank.pixels) .initial
      false log) 1 254 = some '─' := by
    rw [shownAt_render .plain _ log hroom .initial false (by rw [hpart]; decide),
      cellAt_cells_journal .plain _ _ log hroom 1 220, hpart]
    rw [hpart] at hroom
    exact Pane.cellAt_rows_bottom (hasBorder_journal .plain hroom log) (by decide)
  have hlatest : (log.latest 220).getD 219 "" = "ERROR -" := by
    rw [Journal.latest, List.length_replicate, List.drop_replicate, List.getD_eq_getElem?_getD,
      List.getElem?_replicate_of_lt (by decide), Option.getD_some]
  have hclaimed : some '─' = some (((log.latest 220).getD 219 "").toList.getD 0 ' ') :=
    hborder.symm.trans (hshows.line 219 (by decide) (fun _ _ => rfl) 0 (by decide))
  rw [hlatest] at hclaimed
  exact absurd hclaimed (by decide)

end Screen

end Chip8.Terminal
