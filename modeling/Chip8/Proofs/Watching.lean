import Chip8.Proofs.Redraw

/-!
What a consumer sees that looks at a machine from time to time.

A consumer shows the display when it is marked as changed, and takes the mark away. For this every
act that changes the display has to leave the mark. All acts do but one: a reset clears the display
and the mark together, so it keeps the law on a blank display only.
`Machine.marks_display_change` says both, and that a consumer is up to date after every look as long
as nobody resets the machine. `Machine.reset_display_unmarked` is the screen that stays behind.
-/

namespace Chip8

namespace Machine

variable {m : Machine}

/-- A consumer's look at the machine after each round of acts: the machine without its mark, and the
screen that the consumer shows. -/
def watch (m : Machine) (seen : Framebuffer) : (rounds : List (List Act)) → Machine × Framebuffer
  | [] => (m, seen)
  | acts :: rounds =>
    let look := (m.after acts).present
    look.1.watch (look.2.getD seen) rounds

/-- An act that leaves the mark to the consumer, and the display to the program. -/
def Act.respectsMark (act : Act) : Prop :=
  act ≠ .request .reset ∧ act ≠ .request .clearRedraw

theorem marked_after {acts : List Act} (h : ∀ act ∈ acts, act.respectsMark) :
    Marked m (m.after acts) := by
  induction acts generalizing m with
  | nil => exact .refl m
  | cons act acts ih =>
      obtain ⟨⟨hreset, hclear⟩, hrest⟩ := List.forall_mem_cons.mp h
      exact (marked_perform m hreset hclear).trans (ih hrest)

/-- A look brings the consumer up to date. -/
theorem Marked.look {before : Machine} (h : Marked before m) :
    m.present.2.getD before.display = m.present.1.display := by
  rw [shown_present, display_present]
  cases hredraw : m.redraw with
  | true => rfl
  | false => exact (h.display hredraw).symm

theorem watch_eq_display {rounds : List (List Act)}
    (h : ∀ acts ∈ rounds, ∀ act ∈ acts, act.respectsMark) :
    (m.watch m.display rounds).2 = (m.watch m.display rounds).1.display := by
  induction rounds generalizing m with
  | nil => rfl
  | cons acts rounds ih =>
      obtain ⟨hacts, hrounds⟩ := List.forall_mem_cons.mp h
      rw [watch, (marked_after hacts).look]
      exact ih hrounds

theorem display_reset (m : Machine) : m.reset.display = .blank :=
  Framebuffer.clear_eq_blank m.display

/-- An act that changes the display leaves the mark, unless it is a reset, which does so on a blank
display only. A consumer that looks at the mark is up to date after every look, as long as nobody
resets the machine or takes the mark away instead. -/
theorem marks_display_change (m : Machine) :
    (∀ act : Act, act ≠ .request .clearRedraw →
      (((m.perform act).state.display ≠ m.display → (m.perform act).state.redraw = true) ↔
        (act = .request .reset → m.display = .blank))) ∧
    ∀ rounds : List (List Act), (∀ acts ∈ rounds, ∀ act ∈ acts, act.respectsMark) →
      (m.watch m.display rounds).2 = (m.watch m.display rounds).1.display := by
  refine ⟨fun act hclear => ?_, fun rounds hrounds => watch_eq_display hrounds⟩
  by_cases hreset : act = .request .reset
  · subst hreset
    have hblank : (m.perform (.request .reset)).state.display = .blank := m.display_reset
    constructor
    · intro hlaw _
      by_cases hdisplay : m.display = .blank
      · exact hdisplay
      · have hmark : false = true := hlaw fun h => hdisplay (h.symm.trans hblank)
        cases hmark
    · intro hdisplay hchanged
      exact absurd (hblank.trans (hdisplay rfl).symm) hchanged
  · refine iff_of_true (fun hchanged => ?_) fun h => absurd h hreset
    cases hmark : (m.perform act).state.redraw with
    | true => rfl
    | false => exact absurd ((marked_perform m hreset hclear).display hmark) hchanged

/-- The program `D0 01` draws the first row of the font in the upper left corner. -/
theorem display_after_sprite (tape : RandomTape) :
    (initial.after [.request (.load [0xD0, 0x01]), .step tape]).display =
      (Framebuffer.blank.drawSprite 0 0 [0xF0]).screen := by
  let memory := initial.memory.place Memory.programStart [0xD0, 0x01]
  have hload :
      (initial.perform (.request (.load [0xD0, 0x01]))).state = { initial with memory } := by
    show (initial.load [0xD0, 0x01]).state = _
    rw [load, if_pos (by decide)]
  have hfetch : memory.fetch (Memory.programStart + 0) = .ok (.ofBytes 0xD0 0x01) :=
    Memory.fetch_place _ (by decide) (by decide)
  have hfont : memory.bytes[0]? = some 0xF0 := font_of_load _
  clear_value memory
  let m : Machine := { initial with memory }
  have hread : m.memory.read m.index.toNat (1 : Nibble).val = .ok [0xF0] := by
    have hfit : 0 + [(0xF0 : UInt8)].length ≤ Memory.size := by decide
    refine Memory.read_eq_ok_of_bytes hfit fun k hk => ?_
    obtain rfl : k = 0 := Nat.lt_one_iff.mp hk
    exact hfont
  have hopcode : m.fetch = .ok (.ofBytes 0xD0 0x01) := fetch_of_memory hfetch
  rw [after_cons, hload, after_cons, perform_step_of_fetch (i := .draw 0 0 1) rfl hopcode rfl]
  simp only [Processor.execute, Processor.effect, draw, hread]
  rfl

/-- The first row of the font is drawn and marked, and a consumer that looks after the step and
after a tick shows its four pixels. -/
theorem marks_display_change_sprite :
    let m := initial.after [.request (.load [0xD0, 0x01])]
    let step := Act.step (.cycle #[])
    let rounds := [[step], [.request .tick]]
    (m.perform step).state.redraw = true ∧
      (m.watch m.display rounds).2 = (Framebuffer.blank.drawSprite 0 0 [0xF0]).screen ∧
      (Framebuffer.blank.drawSprite 0 0 [0xF0]).screen ≠ .blank := by
  intro m step rounds
  have hdrawn :
      (m.perform step).state.display = (Framebuffer.blank.drawSprite 0 0 [0xF0]).screen := by
    rw [← after_append_singleton]
    exact display_after_sprite (.cycle #[])
  have hsprite : (Framebuffer.blank.drawSprite 0 0 [0xF0]).screen ≠ .blank := by decide
  have hblank : m.display = .blank := (quiet_load initial [0xD0, 0x01]).display
  clear_value m
  have hchanged : (m.perform step).state.display ≠ m.display := fun h =>
    hsprite (hdrawn.symm.trans (h.trans hblank))
  obtain ⟨hacts, hrounds⟩ := m.marks_display_change
  have hmarked := (hacts step nofun).mpr nofun hchanged
  have hseen := hrounds rounds (by simp [rounds, step, Act.respectsMark])
  have hlooked : (m.watch m.display rounds).1.display = (m.perform step).state.display := by
    refine (display_present _).trans ?_
    exact display_present (m.perform step).state
  exact ⟨hmarked, hseen.trans (hlooked.trans hdrawn), hsprite⟩

/-- The program `D0 01` has drawn its sprite, and a reset clears it: the display changes and is not
marked. -/
theorem reset_display_unmarked :
    let m := initial.after [.request (.load [0xD0, 0x01]), .step (.cycle #[])]
    let reset := m.perform (.request .reset)
    m.Reachable ∧ reset.state.display ≠ m.display ∧ reset.state.redraw = false := by
  intro m reset
  have hpixel : m.display.pixel 0 0 = true := by
    rw [display_after_sprite]
    decide
  have hblank : reset.state.display = .blank := m.display_reset
  refine ⟨Reachable.initial.after _, fun h => ?_, rfl⟩
  rw [← h, hblank, Framebuffer.pixel_blank] at hpixel
  cases hpixel

end Machine

end Chip8
