/-!
A countdown: a byte that falls by one with every tick and stays at zero. The delay and the sound
timer of the machine are countdowns.
-/

namespace Chip8

structure Countdown where
  value : UInt8
  deriving DecidableEq

namespace Countdown

/-- Ticks in a second. -/
def rate : Nat := 60

/-- The countdown that has run out. -/
def done : Countdown := ⟨0⟩

def tick (c : Countdown) : Countdown :=
  if c.value = 0 then c else ⟨c.value - 1⟩

def isActive (c : Countdown) : Bool :=
  c.value != 0

/-- In numbers, a tick takes one away where there is one. -/
theorem toNat_value_tick (c : Countdown) : c.tick.value.toNat = c.value.toNat - 1 := by
  unfold tick
  split
  · rename_i h
    rw [h]
    rfl
  · rename_i h
    have hn : c.value.toNat ≠ 0 := fun e => h (UInt8.toNat_inj.1 e)
    have hl : (1 : UInt8) ≤ c.value := by
      rw [UInt8.le_iff_toNat_le]
      exact Nat.one_le_iff_ne_zero.2 hn
    rw [UInt8.toNat_sub_of_le _ _ hl]
    rfl

end Countdown

end Chip8
