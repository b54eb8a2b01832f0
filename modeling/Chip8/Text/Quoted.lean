import Chip8.Hex
import Chip8.Text.Visible

/-!
A character in single quotes. A character that does not show by itself is written by its number, in
lower-case hexadecimal digits between braces; a few have short forms of their own.
-/

namespace Chip8.Text

/-- A character by its number. -/
def numbered (c : Char) : String :=
  "\\u\x7b" ++ String.ofList ((Hex.digits 1 c.toNat).map Char.toLower) ++ "\x7d"

/-- A character as it is written between single quotes. -/
def escaped (c : Char) : String :=
  match c with
  | '\x00' => "\\0"
  | '\t' => "\\t"
  | '\n' => "\\n"
  | '\r' => "\\r"
  | '\\' => "\\\\"
  | '\'' => "\\'"
  | c => if isVisible c then c.toString else numbered c

/-- A character in single quotes. -/
def quoted (c : Char) : String :=
  "'" ++ escaped c ++ "'"

end Chip8.Text
