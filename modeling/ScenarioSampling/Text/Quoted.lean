import ScenarioSampling.Text.Glyphless

/-!
# Quoted text

`quoted` puts a text between double quotes so that every character of it can be seen: quotes and
backslashes are escaped, the usual control characters have their letters, and any other character
without a glyph of its own is written by its code.
-/

namespace ScenarioSampling.Text

/-- A character as it stands inside quotes. -/
def quotedChar (c : Char) : String :=
  match c with
  | '"' => "\\\""
  | '\\' => "\\\\"
  | '\n' => "\\n"
  | '\r' => "\\r"
  | '\t' => "\\t"
  | '\x00' => "\\0"
  | c =>
    if hasGlyph c then c.toString
    else "\\u\x7b" ++ String.ofList (Nat.toDigits 16 c.toNat) ++ "\x7d"

/-- The text inside double quotes. -/
def quoted (text : String) : String :=
  "\"" ++ String.join (text.toList.map quotedChar) ++ "\""

end ScenarioSampling.Text
