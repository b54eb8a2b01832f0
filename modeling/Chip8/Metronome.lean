import Chip8.Countdown

/-!
The metronome: it says how many frames became due since it was last asked.

Frames are due at a fixed distance from each other, so a late question is answered with all frames
that were missed, and no frame is reported twice. Times are nanoseconds on one time line.
-/

namespace Chip8

/-- When the next frame is due, and the distance of two frames. -/
structure Metronome where
  next : Nat
  interval : Nat
  deriving DecidableEq

namespace Metronome

/-- The distance of two ticks of the timers, in whole microseconds. -/
def frameMicroseconds : Nat := 1000000 / Countdown.rate

def frameInterval : Nat := frameMicroseconds * 1000

/-- A metronome whose first frame is due one interval after `now`. -/
def start (now interval : Nat) : Metronome :=
  { next := now + interval, interval }

/-- Counts the frames that are due at `now`, one after another. There is no result where frames
are due at no distance from each other, which would be counted for ever. -/
def count (m : Metronome) (now : Nat) (frames : UInt32) : Option (UInt32 × Metronome) :=
  if m.next ≤ now then
    if 0 < m.interval then count { m with next := m.next + m.interval } now (frames + 1)
    else none
  else some (frames, m)
termination_by now + 1 - m.next

/-- Reports the frames that are due, as a 32-bit count. -/
def due (m : Metronome) (now : Nat) : UInt32 × Metronome :=
  (m.count now 0).getD (0, m)

/-- The time left until the next frame is due. -/
def untilNext (m : Metronome) (now : Nat) : Nat :=
  m.next - now

/-- Forgets the frames that are due. -/
def resync (m : Metronome) (now : Nat) : Metronome :=
  start now m.interval

end Metronome

end Chip8
