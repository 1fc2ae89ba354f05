import SpdxHeaders.Text.Basic

/-!
# JSON

Values of JSON and their text on lines, indented by two blanks.
-/

namespace SpdxHeaders

/-- A value of JSON, as far as reports need them. -/
inductive Json where
  | bool (b : Bool)
  | number (n : Nat)
  | string (t : Text)
  | array (items : List Json)
  | object (fields : List (Text × Json))

namespace Json

/-- A hexadecimal digit. -/
def hexDigit (n : Nat) : Char :=
  Nat.digitChar n

/-- A character inside a string: quotes, backslashes and control characters are escaped. -/
def escaped (c : Char) : Text :=
  match c with
  | '"' => "\\\""
  | '\\' => "\\\\"
  | '\n' => "\\n"
  | '\r' => "\\r"
  | '\t' => "\\t"
  | '\x08' => "\\b"
  | '\x0c' => "\\f"
  | c =>
    if c.toNat < 32 then "\\u00".toList ++ [hexDigit (c.toNat / 16), hexDigit (c.toNat % 16)]
    else [c]

/-- A string in quotes. -/
def quoted (t : Text) : Text :=
  '"' :: t.flatMap escaped ++ ['"']

/-- A line feed and the blanks of an indentation. -/
def newline (depth : Nat) : Text :=
  '\n' :: List.replicate (2 * depth) ' '

/-- Items in brackets, each on a line of its own. -/
def bracketed (open' close : Char) (depth : Nat) (items : List Text) : Text :=
  if items.isEmpty then [open', close]
  else
    open' :: newline (depth + 1) ++ Text.join (',' :: newline (depth + 1)) items ++ newline depth
      ++ [close]

mutual
/-- The text of a value at a depth of indentation. -/
def render (depth : Nat) : Json → Text
  | .bool true => "true"
  | .bool false => "false"
  | .number n => Text.ofNat n
  | .string t => quoted t
  | .array items => bracketed '[' ']' depth (renderItems (depth + 1) items)
  | .object fields => bracketed '\x7b' '\x7d' depth (renderFields (depth + 1) fields)

/-- The texts of the items of an array. -/
def renderItems (depth : Nat) : List Json → List Text
  | [] => []
  | item :: items => render depth item :: renderItems depth items

/-- The texts of the fields of an object. -/
def renderFields (depth : Nat) : List (Text × Json) → List Text
  | [] => []
  | (name, value) :: fields =>
    (quoted name ++ ": ".toList ++ render depth value) :: renderFields depth fields
end

end Json

end SpdxHeaders
