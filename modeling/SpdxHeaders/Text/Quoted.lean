import SpdxHeaders.Text.Visible

/-!
# Quoted text

Text between quotes, in a form that shows every character: quotes, backslashes, line ends and what
is not visible are escaped.
-/

namespace SpdxHeaders.Text

/-- A character as it stands between quotes. -/
def quotedChar (c : Char) : Text :=
  match c with
  | '\x00' => "\\0"
  | '\t' => "\\t"
  | '\r' => "\\r"
  | '\n' => "\\n"
  | '"' => "\\\""
  | '\\' => "\\\\"
  | c =>
    if isVisible c then [c]
    else "\\u\x7b".toList ++ Nat.toDigits 16 c.toNat ++ ['\x7d']

/-- A text between quotes. -/
def quoted (t : Text) : Text :=
  '"' :: t.flatMap quotedChar ++ ['"']

/-- A list of texts between quotes. -/
def quotedList (ts : List Text) : Text :=
  '[' :: join ", " (ts.map quoted) ++ [']']

end SpdxHeaders.Text
