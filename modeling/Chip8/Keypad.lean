import Chip8.Fault

/-!
The keypad: sixteen keys, each held or not.

Keys are numbered by their hexadecimal digit. An operation on a number that is no key reports that
number and changes nothing. `Keypad.Request` names the operations and `Keypad.handle` answers them,
so a history of the keypad is a list of requests.
-/

namespace Chip8

structure Keypad where
  held : Vector Bool 16
  deriving DecidableEq

namespace Keypad

def size : Nat := 16

/-- The key of a hexadecimal digit. -/
def key (digit : Nat) : Fin 16 := ⟨digit % 16, Nat.mod_lt _ (by decide)⟩

/-- The keys as they lie on the keypad, row by row. -/
def layout : List (List (Fin 16)) :=
  [[key 0x1, key 0x2, key 0x3, key 0xC],
   [key 0x4, key 0x5, key 0x6, key 0xD],
   [key 0x7, key 0x8, key 0x9, key 0xE],
   [key 0xA, key 0x0, key 0xB, key 0xF]]

def released : Keypad := ⟨Vector.replicate 16 false⟩

def isHeld (k : Keypad) (key : Nat) : Except Fault Bool :=
  if h : key < 16 then .ok k.held[key] else .error (.noSuchKey key)

def set (k : Keypad) (key : Nat) (down : Bool) : Except Fault Keypad :=
  if h : key < 16 then .ok ⟨k.held.set key down⟩ else .error (.noSuchKey key)

/-- Presses a key that is not held and releases one that is. -/
def toggle (k : Keypad) (key : Nat) : Except Fault Keypad :=
  match k.isHeld key with
  | .ok down => k.set key !down
  | .error fault => .error fault

def releaseAll (k : Keypad) : Keypad := ⟨k.held.map fun _ => false⟩

def lowest? (k : Keypad) : Option (Fin 16) :=
  (List.finRange 16).find? fun key => k.held.get key

inductive Request where
  | set (key : Nat) (down : Bool)
  | toggle (key : Nat)
  | isHeld (key : Nat)
  | lowest
  /-- Takes over another set of held keys. -/
  | replace (keys : Keypad)
  | release

/-- The result of an operation that succeeds. -/
inductive Answer where
  | done
  | held (isHeld : Bool)
  | lowest (key : Option (Fin 16))
  deriving DecidableEq

def change (k : Keypad) : Except Fault Keypad → Except Fault Answer × Keypad
  | .ok changed => (.ok .done, changed)
  | .error fault => (.error fault, k)

/-- Carries out an operation: its answer, and the keypad after it. -/
def handle (k : Keypad) : Request → Except Fault Answer × Keypad
  | .set key down => k.change (k.set key down)
  | .toggle key => k.change (k.toggle key)
  | .isHeld key => ((k.isHeld key).map .held, k)
  | .lowest => (.ok (.lowest k.lowest?), k)
  | .replace keys => (.ok .done, keys)
  | .release => (.ok .done, k.releaseAll)

theorem releaseAll_eq_released (k : Keypad) : k.releaseAll = released := by
  refine congrArg mk (Vector.ext fun key hkey => ?_)
  rw [Vector.getElem_map, Vector.getElem_replicate]

end Keypad

end Chip8
