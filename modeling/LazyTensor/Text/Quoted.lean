import LazyTensor.Text.Graphic

/-! Texts between double quotes. A character that would end the text or that does not show is
written as an escape, so that a quoted text stays on one line and can be read back.
-/

namespace LazyTensor.Text

/-- A character by its number. -/
def numbered (char : Char) : String :=
  "\\u\x7b" ++ String.ofList (Nat.toDigits 16 char.toNat) ++ "\x7d"

/-- A character as it stands between quotes. -/
def escaped (char : Char) : String :=
  match char with
  | '"' => "\\\""
  | '\\' => "\\\\"
  | '\n' => "\\n"
  | '\r' => "\\r"
  | '\t' => "\\t"
  | '\x00' => "\\0"
  | other => if isGraphic other then other.toString else numbered other

/-- A text between quotes. -/
def quoted (text : String) : String :=
  "\"" ++ String.join (text.toList.map escaped) ++ "\""

end LazyTensor.Text
