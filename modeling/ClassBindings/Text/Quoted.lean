import ClassBindings.Text.Hexadecimal
import ClassBindings.Text.Printable

/-! # Quoted text

A text is quoted between double quotes, with a backslash before what would be misread and numbers in
place of what would not be seen. -/
namespace ClassBindings.Text

/-- A character inside double quotes. -/
def quotedChar (c : Char) : String :=
  match c with
  | '\x00' => "\\0"
  | '\t' => "\\t"
  | '\n' => "\\n"
  | '\r' => "\\r"
  | '"' => "\\\""
  | '\\' => "\\\\"
  | c => if isPrintable c then c.toString else "\\u\x7b" ++ hexDigits c.toNat ++ "\x7d"

/-- A text between double quotes. -/
def quoted (text : String) : String := "\"" ++ String.join (text.toList.map quotedChar) ++ "\""

end ClassBindings.Text
