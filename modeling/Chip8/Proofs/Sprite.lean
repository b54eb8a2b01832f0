import Chip8.Proofs.Step
import Mathlib.Order.Fin.Basic

/-!
Drawing a sprite, pixel by pixel.

Drawing inverts pixels in place and looks for a collision on the screen as it is by then. No pixel
is under two bits of a sprite, since the screen is wider than a sprite and higher than any, so each
pixel is seen as it was before: `Framebuffer.pixel_drawSprite` and `Framebuffer.collision_drawSprite`.
`Processor.step_draw` says what `DXYN` leaves behind.
-/

namespace Chip8

namespace Framebuffer

/-- Pixels that are inverted one after another are seen as they were at the start. -/
theorem pixel_foldl_plot {pixels : List (Fin 64 × Fin 32)} (hnodup : pixels.Nodup) (d : Drawing)
    (column : Fin 64) (row : Fin 32) :
    (pixels.foldl Drawing.plot d).screen.pixel column row =
      (d.screen.pixel column row ^^ decide ((column, row) ∈ pixels)) := by
  induction pixels generalizing d with
  | nil => simp
  | cons first pixels ih =>
      obtain ⟨hfirst, hrest⟩ := List.nodup_cons.mp hnodup
      rw [List.foldl_cons, ih hrest, Drawing.plot, pixel_toggle]
      by_cases h : (column, row) = first
      · subst h
        simp [hfirst]
      · simp [h]

/-- A collision is noted exactly if one of the pixels was set at the start. -/
theorem collision_foldl_plot {pixels : List (Fin 64 × Fin 32)} (hnodup : pixels.Nodup)
    (d : Drawing) :
    (pixels.foldl Drawing.plot d).collision =
      (d.collision || pixels.any fun pixel => d.screen.pixel pixel.1 pixel.2) := by
  induction pixels generalizing d with
  | nil => simp
  | cons first pixels ih =>
      obtain ⟨hfirst, hrest⟩ := List.nodup_cons.mp hnodup
      have hseen : ∀ pixel ∈ pixels,
          (d.plot first).screen.pixel pixel.1 pixel.2 = d.screen.pixel pixel.1 pixel.2 := by
        intro pixel hpixel
        have hne : (pixel.1, pixel.2) ≠ first := fun h => hfirst (h ▸ hpixel)
        rw [Drawing.plot, pixel_toggle]
        simp [hne]
      have hany : (pixels.any fun pixel => (d.plot first).screen.pixel pixel.1 pixel.2) =
          pixels.any fun pixel => d.screen.pixel pixel.1 pixel.2 := by
        rw [Bool.eq_iff_iff, List.any_eq_true, List.any_eq_true]
        exact exists_congr fun pixel => and_congr_right fun hpixel => by rw [hseen pixel hpixel]
      rw [List.foldl_cons, ih hrest, hany, List.any_cons, ← Bool.or_assoc]
      rfl

/-- How far a place lies behind an origin on an axis that wraps. -/
def distance (size origin place : Nat) : Nat :=
  (((place : Int) - origin) % size).toNat

theorem ofNat_width_eq_iff {x dx : Nat} {column : Fin 64} (hdx : dx < 64) :
    Fin.ofNat 64 (x + dx) = column ↔ distance 64 x column.val = dx := by
  have := column.isLt
  rw [Fin.ext_iff, Fin.val_ofNat, distance]
  omega

theorem ofNat_height_eq_iff {y dy : Nat} {row : Fin 32} (hdy : dy < 32) :
    Fin.ofNat 32 (y + dy) = row ↔ distance 32 y row.val = dy := by
  have := row.isLt
  rw [Fin.ext_iff, Fin.val_ofNat, distance]
  omega

theorem nodup_rowPixels (x : Nat) (y : Fin 32) (byte : UInt8) : (rowPixels x y byte).Nodup := by
  refine List.pairwise_map.mpr (List.Pairwise.filter _ ?_)
  refine (List.nodup_finRange spriteWidth).imp fun {a b} hne hsame => hne (Fin.ext ?_)
  have ha : a.val < 8 := a.isLt
  have hb : b.val < 8 := b.isLt
  have hcolumn := congrArg Fin.val (congrArg Prod.fst hsame)
  simp only [Fin.val_ofNat] at hcolumn
  omega

theorem row_of_mem_rowPixels {x : Nat} {y : Fin 32} {byte : UInt8} {pixel : Fin 64 × Fin 32}
    (h : pixel ∈ rowPixels x y byte) : pixel.2 = y := by
  obtain ⟨dx, -, rfl⟩ := List.mem_map.mp h
  rfl

/-- No pixel lies under two bits of a sprite. -/
theorem nodup_spritePixels (x y : Nat) {sprite : List UInt8} (hheight : sprite.length ≤ height) :
    (spritePixels x y sprite).Nodup := by
  refine List.pairwise_flatMap.mpr ⟨fun _ _ => nodup_rowPixels _ _ _, ?_⟩
  refine List.pairwise_iff_getElem.mpr fun i j hi hj hij a ha b hb hsame => ?_
  rw [List.getElem_zipIdx] at ha hb
  rw [List.length_zipIdx] at hj
  have hrows := (row_of_mem_rowPixels ha).symm.trans
    ((congrArg Prod.snd hsame).trans (row_of_mem_rowPixels hb))
  have hrow := congrArg Fin.val hrows
  simp only [Fin.val_ofNat] at hrow
  rw [height] at hheight
  omega

theorem mem_rowPixels {x : Nat} {y : Fin 32} {byte : UInt8} {column : Fin 64} {row : Fin 32} :
    (column, row) ∈ rowPixels x y byte ↔
      row = y ∧ distance 64 x column.val < 8 ∧
        byte.toNat.testBit (7 - distance 64 x column.val) := by
  rw [rowPixels, List.mem_map]
  constructor
  · rintro ⟨dx, hdx, hpixel⟩
    obtain ⟨hcolumn, hrow⟩ := Prod.mk.inj hpixel
    have hlt : dx.val < 8 := dx.isLt
    rw [(ofNat_width_eq_iff (by omega)).mp hcolumn]
    refine ⟨hrow.symm, hlt, ?_⟩
    have hbit := (List.mem_filter.mp hdx).2
    rw [BitVec.getMsbD, Bool.and_eq_true] at hbit
    exact hbit.2
  · rintro ⟨rfl, hlt, hbit⟩
    refine ⟨⟨distance 64 x column.val, hlt⟩, List.mem_filter.mpr ⟨List.mem_finRange _, ?_⟩, ?_⟩
    · rw [BitVec.getMsbD, Bool.and_eq_true]
      exact ⟨decide_eq_true hlt, hbit⟩
    · exact Prod.ext ((ofNat_width_eq_iff (Nat.lt_trans hlt (by decide))).mpr rfl) rfl

/-- The pixels under a sprite: those whose bit is set in the byte of their row. -/
theorem mem_spritePixels {x y : Nat} {sprite : List UInt8} (hheight : sprite.length ≤ height)
    {column : Fin 64} {row : Fin 32} :
    (column, row) ∈ spritePixels x y sprite ↔
      ∃ byte, sprite[distance 32 y row.val]? = some byte ∧ distance 64 x column.val < 8 ∧
        byte.toNat.testBit (7 - distance 64 x column.val) := by
  rw [height] at hheight
  rw [spritePixels, List.mem_flatMap]
  constructor
  · rintro ⟨⟨byte, dy⟩, hbyte, hpixel⟩
    obtain ⟨hrow, hcolumn⟩ := mem_rowPixels.mp hpixel
    have hget := List.mk_mem_zipIdx_iff_getElem?.mp hbyte
    obtain ⟨hdy, -⟩ := List.getElem?_eq_some_iff.mp hget
    refine ⟨byte, ?_, hcolumn⟩
    rw [(ofNat_height_eq_iff (by omega)).mp hrow.symm]
    exact hget
  · rintro ⟨byte, hget, hcolumn⟩
    obtain ⟨hdy, -⟩ := List.getElem?_eq_some_iff.mp hget
    refine ⟨(byte, distance 32 y row.val), List.mk_mem_zipIdx_iff_getElem?.mpr hget, ?_⟩
    exact mem_rowPixels.mpr ⟨((ofNat_height_eq_iff (by omega)).mpr rfl).symm, hcolumn⟩

/-- Drawing inverts the pixels under a sprite and no others. -/
theorem pixel_drawSprite (f : Framebuffer) (x y : Nat) {sprite : List UInt8}
    (hheight : sprite.length ≤ height) (column : Fin 64) (row : Fin 32) :
    (f.drawSprite x y sprite).screen.pixel column row =
      (f.pixel column row ^^ decide ((column, row) ∈ spritePixels x y sprite)) :=
  pixel_foldl_plot (nodup_spritePixels x y hheight) _ column row

/-- A collision is a set pixel under the sprite. -/
theorem collision_drawSprite (f : Framebuffer) (x y : Nat) {sprite : List UInt8}
    (hheight : sprite.length ≤ height) :
    (f.drawSprite x y sprite).collision =
      (spritePixels x y sprite).any fun pixel => f.pixel pixel.1 pixel.2 := by
  rw [drawSprite, collision_foldl_plot (nodup_spritePixels x y hheight), Bool.false_or]

end Framebuffer

namespace Machine

/-- Whether `DXYN` inverts the pixel in a column of a row: the sprite under the index register has a
set bit there. -/
def inverts (m : Machine) (x y : Register) (height : Nibble) (column : Fin 64) (row : Fin 32) :
    Bool :=
  let dx := Framebuffer.distance 64 (m.register x).toNat column.val
  let dy := Framebuffer.distance 32 (m.register y).toNat row.val
  dy < height.val && dx < 8 &&
    m.memory.bytes[m.index.toNat + dy]?.any fun byte => byte.toNat.testBit (7 - dx)

theorem length_le_height {m : Machine} {height : Nibble} {sprite : List UInt8}
    (hread : m.memory.read m.index.toNat height.val = .ok sprite) :
    sprite.length ≤ Framebuffer.height := by
  rw [(Memory.of_read_eq_ok hread).1, Framebuffer.height]
  omega

/-- The pixels that `DXYN` inverts lie under its sprite. -/
theorem mem_spritePixels_iff_inverts {m : Machine} {x y : Register} {height : Nibble}
    {sprite : List UInt8} (hread : m.memory.read m.index.toNat height.val = .ok sprite)
    (column : Fin 64) (row : Fin 32) :
    (column, row) ∈ Framebuffer.spritePixels (m.register x).toNat (m.register y).toNat sprite ↔
      m.inverts x y height column row = true := by
  obtain ⟨hlength, hbyte⟩ := Memory.of_read_eq_ok hread
  rw [Framebuffer.mem_spritePixels (length_le_height hread), inverts]
  simp only [Bool.and_eq_true, decide_eq_true_eq, Option.any_eq_true]
  constructor
  · rintro ⟨byte, hget, hdx, hbit⟩
    obtain ⟨hdy, -⟩ := List.getElem?_eq_some_iff.mp hget
    rw [hlength] at hdy
    exact ⟨⟨hdy, hdx⟩, byte, (hbyte _ hdy).symm.trans hget, hbit⟩
  · rintro ⟨⟨hdy, hdx⟩, byte, hget, hbit⟩
    exact ⟨byte, (hbyte _ hdy).trans hget, hdx, hbit⟩

/-- The screen that `DXYN` leaves. -/
theorem pixel_draw {m : Machine} {x y : Register} {height : Nibble} {sprite : List UInt8}
    (hread : m.memory.read m.index.toNat height.val = .ok sprite) (column : Fin 64)
    (row : Fin 32) :
    (m.display.drawSprite (m.register x).toNat (m.register y).toNat sprite).screen.pixel
        column row =
      (m.display.pixel column row ^^ m.inverts x y height column row) := by
  rw [Framebuffer.pixel_drawSprite _ _ _ (length_le_height hread)]
  congr 1
  rw [Bool.eq_iff_iff, decide_eq_true_eq]
  exact mem_spritePixels_iff_inverts hread column row

/-- The collision of the sprite that `DXYN` draws. -/
theorem collision_iff_inverts {m : Machine} {x y : Register} {height : Nibble}
    {sprite : List UInt8} (hread : m.memory.read m.index.toNat height.val = .ok sprite) :
    (m.display.drawSprite (m.register x).toNat (m.register y).toNat sprite).collision = true ↔
      ∃ column row, m.inverts x y height column row = true ∧
        m.display.pixel column row = true := by
  rw [Framebuffer.collision_drawSprite _ _ _ (length_le_height hread), List.any_eq_true,
    Prod.exists]
  refine exists_congr fun column => exists_congr fun row => and_congr_left fun _ => ?_
  exact mem_spritePixels_iff_inverts hread column row

end Machine

namespace Processor

/-- Sprite drawing: `DXYN` inverts the pixels under the set bits of its sprite, both axes wrapping,
and no others. `VF` tells whether one of them was set, and the program goes on. -/
theorem step_draw {p : Processor} {x y : Register} {height : Nibble} {signal : Signal}
    (hi : p.machine.Executes (.draw x y height)) (h : p.step.outcome = .ok signal) :
    let before := p.machine
    let after := p.step.state.machine
    (∀ column row, after.display.pixel column row =
      (before.display.pixel column row ^^ before.inverts x y height column row)) ∧
    after.register Machine.flagRegister =
      (if ∃ column row, before.inverts x y height column row = true ∧
        before.display.pixel column row = true then 1 else 0) ∧
    (∀ r, r ≠ Machine.flagRegister → after.register r = before.register r) ∧
    after.index = before.index ∧ after.memory = before.memory ∧ after.redraw = true ∧
    signal = .draw ∧ after.programCounter.toNat = before.programCounter.toNat + 2 := by
  intro before after
  obtain ⟨e, machine, heffect, hmove, rfl, hstate⟩ := of_step_eq_ok hi h
  obtain ⟨drawn, hdraw, rfl⟩ := exists_of_map_eq_ok heffect
  obtain ⟨sprite, hread, rfl⟩ := Machine.of_draw_eq_ok hdraw
  obtain ⟨target, htarget, rfl⟩ := Machine.of_move_eq_ok hmove
  have hafter := congrArg Processor.machine hstate
  change after = _ at hafter
  clear_value after
  subst hafter
  refine ⟨Machine.pixel_draw hread, ?_, fun r hr => ?_, rfl, rfl, rfl, rfl, ?_⟩
  · refine (Machine.register_of_registers_eq (m := before) rfl _).trans ((if_pos rfl).trans ?_)
    exact ite_congr (propext (Machine.collision_iff_inverts hread)) (fun _ => rfl) fun _ => rfl
  · exact (Machine.register_of_registers_eq (m := before) rfl r).trans (if_neg hr)
  · cases htarget
    exact hi.toNat_next

/-- The sprite `D0 12` in the lower right corner: it leaves the screen on both sides, and its second
pixel was set. -/
theorem step_draw_corner :
    let memory := Memory.zeros.place Memory.programStart [0xD0, 0x12]
    let m : Machine :=
      { Machine.initial with
        memory
        registers := (Machine.initial.registers.set 0 62).set 1 31
        index := 0x200
        display := Framebuffer.blank.toggle 63 31 }
    let p : Processor := ⟨m, .cycle #[]⟩
    let after := p.step.state.machine
    m.Executes (.draw 0 1 2) ∧ p.step.outcome = .ok .draw ∧
      after.display.pixel 63 31 = false ∧ after.display.pixel 4 0 = true ∧
      after.display.pixel 4 31 = false ∧ after.register Machine.flagRegister = 1 ∧
      after.programCounter.toNat = 0x202 := by
  intro memory m p after
  have hfirst : memory.bytes[0x200]? = some 0xD0 :=
    Memory.getElem?_place (k := 0) _ (by decide) (by decide)
  have hsecond : memory.bytes[0x201]? = some 0x12 :=
    Memory.getElem?_place (k := 1) _ (by decide) (by decide)
  have hfetch : memory.fetch (Memory.programStart + 0) = .ok (.ofBytes 0xD0 0x12) :=
    Memory.fetch_place _ (by decide) (by decide)
  clear_value memory
  have hopcode : m.fetch = .ok (.ofBytes 0xD0 0x12) :=
    congrArg (Except.mapError Fault.memory) hfetch
  have hi : m.Executes (.draw 0 1 2) := Machine.executes_of_fetch rfl hopcode rfl
  have hok : p.step.outcome = .ok .draw := by
    rw [step_of_fetch (p := p) (i := .draw 0 1 2) rfl hopcode rfl]
    rfl
  obtain ⟨hpixel, hflag, -, -, -, -, -, hpc⟩ := step_draw (p := p) hi hok
  have hinverts : ∀ column row, m.inverts 0 1 2 column row =
      (Framebuffer.distance 32 31 row.val < 2 && Framebuffer.distance 64 62 column.val < 8 &&
        memory.bytes[0x200 + Framebuffer.distance 32 31 row.val]?.any fun byte =>
          byte.toNat.testBit (7 - Framebuffer.distance 64 62 column.val)) :=
    fun _ _ => rfl
  have hcollides : m.inverts 0 1 2 63 31 = true := by
    rw [hinverts, show Framebuffer.distance 32 31 (31 : Fin 32).val = 0 by decide, hfirst]
    decide
  have hwraps : m.inverts 0 1 2 4 0 = true := by
    rw [hinverts, show Framebuffer.distance 32 31 (0 : Fin 32).val = 1 by decide, hsecond]
    decide
  have hmisses : m.inverts 0 1 2 4 31 = false := by
    rw [hinverts, show Framebuffer.distance 32 31 (31 : Fin 32).val = 0 by decide, hfirst]
    decide
  have hset : (Framebuffer.blank.toggle 63 31).pixel 63 31 = true := by decide
  have hunset : (Framebuffer.blank.toggle 63 31).pixel 4 0 = false := by decide
  have hfree : (Framebuffer.blank.toggle 63 31).pixel 4 31 = false := by decide
  refine ⟨hi, hok, ?_, ?_, ?_, ?_, hpc⟩
  · exact (hpixel 63 31).trans (congr (congrArg xor hset) hcollides)
  · exact (hpixel 4 0).trans (congr (congrArg xor hunset) hwraps)
  · exact (hpixel 4 31).trans (congr (congrArg xor hfree) hmisses)
  · exact hflag.trans (if_pos ⟨63, 31, hcollides, hset⟩)

end Processor

end Chip8
