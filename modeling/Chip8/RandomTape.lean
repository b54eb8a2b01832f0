/-!
A source of random bytes: a tape that is read from front to back. Whatever produces the bytes, a
program sees only the next byte of its tape.
-/

namespace Chip8

/-- An endless tape of bytes and the place of the next one. -/
structure RandomTape where
  byteAt : Nat → UInt8
  position : Nat

namespace RandomTape

def current (t : RandomTape) : UInt8 :=
  t.byteAt t.position

/-- The tape with its head on the following byte. -/
def advance (t : RandomTape) : RandomTape :=
  { t with position := t.position + 1 }

/-- Repeats some bytes for ever; without bytes the tape holds zeros. -/
def cycle (bytes : Array UInt8) : RandomTape where
  byteAt k := bytes.getD (k % bytes.size) 0
  position := 0

/-- Scrambles a word; each output bit depends on every input bit. -/
def scramble (word : UInt64) : UInt64 :=
  let a := (word ^^^ (word >>> 30)) * 0xBF58476D1CE4E5B9
  let b := (a ^^^ (a >>> 27)) * 0x94D049BB133111EB
  b ^^^ (b >>> 31)

/-- A tape that is determined by its seed. It stands in for the generator that a seed selects, which
is not part of this project: what is proved of programs holds for every tape, whatever its bytes. -/
def ofSeed (seed : UInt64) : RandomTape where
  byteAt k := (scramble (seed + 0x9E3779B97F4A7C15 * UInt64.ofNat (k + 1))).toUInt8
  position := 0

end RandomTape

end Chip8
