import Chip8.Machine

/-!
The summary of a machine: its registers, its timers and the depth of its stack in three lines.
-/

namespace Chip8

/-- Bytes as numerals, separated by blanks. -/
def byteList (bytes : List UInt8) : String :=
  " ".intercalate (bytes.map fun byte => Hex.numeral 2 byte.toNat)

/-- The lines of the summary. -/
def Machine.summary (m : Machine) : List String :=
  ["PC " ++ Hex.numeral 4 m.programCounter.toNat
      ++ "  I " ++ Hex.numeral 4 m.index.toNat
      ++ "  DT " ++ Hex.numeral 2 m.delay.value.toNat
      ++ "  ST " ++ Hex.numeral 2 m.sound.value.toNat
      ++ "  SP " ++ toString m.stack.length,
    "V0-V7 : " ++ byteList (m.registers.toList.take 8),
    "V8-VF : " ++ byteList (m.registers.toList.drop 8)]

/-- The summary as one text. -/
def Machine.summaryText (m : Machine) : String :=
  "\n".intercalate m.summary

end Chip8
