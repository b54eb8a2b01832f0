import Chip8.Move

/-!
Accesses that are checked.

The parts of the machine have types of their own, so that nothing outside of them can be named. Here
they are plain lists, places are plain numbers, and an access has no result where the host would
abort: an index behind the end, a range that is none, data of another length than their place, a
number that no pointer holds, a shift by too many places. Division has constant divisors only and
what wraps is meant to wrap; neither is checked.

Each access comes with the condition under which it has a result.
-/

namespace Chip8.Raw

/-- A computation that has no result where the host would abort, and otherwise reports a fault or
yields a value. -/
structure Checked (α : Type) where
  result : Option (Except Fault α)

namespace Checked

variable {α β : Type}

/-- A computation that does not abort. -/
def of (result : Except Fault α) : Checked α := ⟨some result⟩

instance : Monad Checked where
  pure a := of (.ok a)
  bind x f :=
    match x.result with
    | none => ⟨none⟩
    | some (.error fault) => of (.error fault)
    | some (.ok a) => f a

instance : MonadLift Option Checked where
  monadLift x := ⟨x.map .ok⟩

theorem of_ok_inj {a b : α} (h : of (.ok a) = of (.ok b)) : a = b := by
  cases h
  rfl

@[simp]
theorem pure_eq (a : α) : (pure a : Checked α) = of (.ok a) := rfl

@[simp]
theorem lift_some (a : α) : (liftM (some a) : Checked α) = of (.ok a) := rfl

@[simp]
theorem of_ok_bind (a : α) (f : α → Checked β) : of (.ok a) >>= f = f a := rfl

@[simp]
theorem of_error_bind (fault : Fault) (f : α → Checked β) :
    of (.error fault) >>= f = of (.error fault) := rfl

end Checked

/-- A sum, where a pointer holds it. -/
def add (a b : Nat) : Option Nat :=
  if a + b < Move.pointerRange then some (a + b) else none

/-- A product, where a pointer holds it. -/
def mul (a b : Nat) : Option Nat :=
  if a * b < Move.pointerRange then some (a * b) else none

def sub (a b : Nat) : Option Nat :=
  if b ≤ a then some (a - b) else none

/-- A byte moved to the right by less than its width. -/
def shiftRight (byte : UInt8) (places : Nat) : Option UInt8 :=
  if places < 8 then some (byte >>> UInt8.ofNat places) else none

section

variable {α : Type}

/-- The value at a place. -/
def get (l : List α) (i : Nat) : Option α := l[i]?

/-- A list with another value at a place. -/
def put (l : List α) (i : Nat) (a : α) : Option (List α) :=
  if i < l.length then some (l.set i a) else none

/-- The part of a list from `first` up to `stop`. -/
def slice (l : List α) (first stop : Nat) : Option (List α) :=
  if first ≤ stop ∧ stop ≤ l.length then some ((l.take stop).drop first) else none

/-- A list with data in place of the part from `first` up to `stop`. -/
def copy (l : List α) (first stop : Nat) (data : List α) : Option (List α) :=
  if first ≤ stop ∧ stop ≤ l.length ∧ data.length = stop - first then
    some (l.take first ++ data ++ l.drop stop)
  else none

/-- A list with one more value at its end, where there is room for it. -/
def append (l : List α) (capacity : Nat) (a : α) : Option (List α) :=
  if l.length < capacity then some (l ++ [a]) else none

theorem put_of_lt {l : List α} {i : Nat} (h : i < l.length) (a : α) :
    put l i a = some (l.set i a) :=
  if_pos h

theorem slice_of_le {l : List α} {first stop : Nat} (h : first ≤ stop) (hstop : stop ≤ l.length) :
    slice l first stop = some ((l.take stop).drop first) :=
  if_pos ⟨h, hstop⟩

theorem copy_of_le {l data : List α} {first stop : Nat} (hstop : stop ≤ l.length)
    (h : first + data.length = stop) :
    copy l first stop data = some (l.take first ++ data ++ l.drop stop) :=
  if_pos ⟨by omega, hstop, by omega⟩

/-- Data at the start of a list. -/
theorem copy_zero {l data : List α} (h : data.length ≤ l.length) :
    copy l 0 data.length data = some (data ++ l.drop data.length) :=
  copy_of_le h (Nat.zero_add _)

theorem slice_append (data rest : List α) : slice (data ++ rest) 0 data.length = some data := by
  rw [slice_of_le (Nat.zero_le _) (by simp), List.take_left, List.drop_zero]

theorem append_of_lt {l : List α} {capacity : Nat} (h : l.length < capacity) (a : α) :
    append l capacity a = some (l ++ [a]) :=
  if_pos h

end

theorem add_of_lt {a b : Nat} (h : a + b < Move.pointerRange) : add a b = some (a + b) :=
  if_pos h

theorem mul_of_lt {a b : Nat} (h : a * b < Move.pointerRange) : mul a b = some (a * b) :=
  if_pos h

theorem sub_of_le {a b : Nat} (h : b ≤ a) : sub a b = some (a - b) :=
  if_pos h

theorem shiftRight_of_lt {byte : UInt8} {places : Nat} (h : places < 8) :
    shiftRight byte places = some (byte >>> UInt8.ofNat places) :=
  if_pos h

example : slice [1, 2, 3] 1 4 = none ∧ copy [1, 2, 3] 0 2 [4] = none := by decide

/-- Numbers of a few bytes are far below what a pointer holds. -/
theorem lt_pointerRange {n : Nat} (h : n < 4294967296) : n < Move.pointerRange :=
  Nat.lt_trans h (by decide)

end Chip8.Raw
