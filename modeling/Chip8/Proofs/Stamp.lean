import Chip8.Framebuffer
import Mathlib.Algebra.BigOperators.Group.Finset.Basic
import Mathlib.Algebra.Group.Even

/-!
Sprites laid over one another.

Screens form a group in which every screen is its own inverse: a sum has the pixels that are set in
one of its two screens only. To draw a sprite is to add its mask, which depends on nothing but its
bytes and the place of its corner on the screen (`Framebuffer.screen_drawSprite`).
-/

namespace Chip8

namespace Framebuffer

instance : Add Framebuffer where
  add f g := ⟨f.rows.zipWith (· ^^^ ·) g.rows⟩

instance : Zero Framebuffer where
  zero := blank

/-- A screen undoes itself. -/
instance : Neg Framebuffer where
  neg f := f

theorem row_add (f g : Framebuffer) (y : Fin 32) : (f + g).row y = f.row y ^^^ g.row y :=
  Vector.getElem_zipWith y.isLt

theorem row_zero (y : Fin 32) : (0 : Framebuffer).row y = 0 :=
  row_blank y

/-- Twice the same screen leaves nothing. -/
theorem add_self (f : Framebuffer) : f + f = 0 := by
  ext y : 1
  rw [row_add, row_zero, BitVec.xor_self]
  rfl

instance : AddCommGroup Framebuffer where
  add_assoc f g h := by
    ext y : 1
    simp only [row_add, BitVec.xor_assoc]
  zero_add f := by
    ext y : 1
    rw [row_add, row_zero]
    exact BitVec.zero_xor
  add_zero f := by
    ext y : 1
    rw [row_add, row_zero]
    exact BitVec.xor_zero
  neg_add_cancel f := add_self f
  add_comm f g := by
    ext y : 1
    rw [row_add, row_add, BitVec.xor_comm]
  nsmul := nsmulRec
  zsmul := zsmulRec

theorem nsmul_of_even {n : Nat} (hn : Even n) (f : Framebuffer) : n • f = 0 := by
  obtain ⟨k, rfl⟩ := hn
  rw [add_nsmul, add_self]

/-- The screen on which a single pixel is set. -/
def dot (pixel : Fin 64 × Fin 32) : Framebuffer :=
  blank.toggle pixel.1 pixel.2

theorem toggle_eq_add (f : Framebuffer) (x : Fin 64) (y : Fin 32) :
    f.toggle x y = f + dot (x, y) := by
  ext row : 1
  rw [row_add, dot, row_toggle, row_toggle, row_blank, row_blank]
  by_cases h : row = y
  · subst h
    rw [if_pos rfl, if_pos rfl, BitVec.ofNat_eq_ofNat, BitVec.zero_xor]
  · rw [if_neg h, if_neg h, BitVec.ofNat_eq_ofNat, BitVec.xor_zero]

/-- Pixels that are inverted one after another, pixels that occur several times included. -/
theorem screen_foldl_plot (pixels : List (Fin 64 × Fin 32)) (d : Drawing) :
    (pixels.foldl Drawing.plot d).screen = d.screen + (pixels.map dot).sum := by
  induction pixels generalizing d with
  | nil =>
      rw [List.foldl_nil, List.map_nil, List.sum_nil, add_zero]
  | cons first pixels ih =>
      rw [List.foldl_cons, ih, List.map_cons, List.sum_cons, ← add_assoc, Drawing.plot,
        toggle_eq_add]

/-- The pixels under a sprite depend on its corner as a place on the screen. -/
theorem spritePixels_mod (x y : Nat) (sprite : List UInt8) :
    spritePixels (x % 64) (y % 32) sprite = spritePixels x y sprite := by
  have hcolumn : ∀ dx, Fin.ofNat 64 (x % 64 + dx) = Fin.ofNat 64 (x + dx) := by
    intro dx
    ext
    rw [Fin.val_ofNat, Fin.val_ofNat, Nat.mod_add_mod]
  have hrow : ∀ dy, Fin.ofNat 32 (y % 32 + dy) = Fin.ofNat 32 (y + dy) := by
    intro dy
    ext
    rw [Fin.val_ofNat, Fin.val_ofNat, Nat.mod_add_mod]
  simp only [spritePixels, rowPixels, hcolumn, hrow]

end Framebuffer

/-- A sprite and the place of its upper left corner on the screen. -/
structure Stamp where
  column : Nat
  row : Nat
  sprite : List UInt8
  deriving DecidableEq

/-- The pixels that a stamp inverts. -/
def Stamp.mask (s : Stamp) : Framebuffer :=
  ((Framebuffer.spritePixels s.column s.row s.sprite).map Framebuffer.dot).sum

/-- Drawing a sprite adds the mask of its stamp. -/
theorem Framebuffer.screen_drawSprite (f : Framebuffer) (x y : Nat) (sprite : List UInt8) :
    (f.drawSprite x y sprite).screen = f + Stamp.mask ⟨x % 64, y % 32, sprite⟩ := by
  rw [drawSprite, screen_foldl_plot, Stamp.mask, spritePixels_mod]

/-- What is drawn in pairs adds up to nothing. -/
theorem Stamp.sum_mask_of_even {stamps : List Stamp} (h : ∀ s, Even (stamps.count s)) :
    (stamps.map mask).sum = 0 := by
  rw [Finset.sum_list_map_count]
  apply Finset.sum_eq_zero
  intro s _
  exact Framebuffer.nsmul_of_even (h s) s.mask

end Chip8
