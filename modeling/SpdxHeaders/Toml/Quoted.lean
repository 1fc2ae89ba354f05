import SpdxHeaders.Toml.Scalar

/-!
# Strings of TOML

A string is read behind its opening quotes, and given with what follows its closing quotes.
-/

namespace SpdxHeaders.Toml

/-- The character of a code point in hexadecimal digits. -/
def codePoint? (ds : Text) : Option Char :=
  let n := numeral 16 ds
  if ds.all isHexDigit && n.isValidChar then some (Char.ofNat n) else none

/-- The character of an escape of one letter. -/
def escape? : Char → Option Char
  | 'b' => some '\x08'
  | 't' => some '\t'
  | 'n' => some '\n'
  | 'f' => some '\x0c'
  | 'r' => some '\r'
  | '"' => some '"'
  | '\\' => some '\\'
  | _ => none

/-- A string with its first characters in front. -/
def prepend (cs : Text) (r : Text × Text) : Text × Text :=
  (cs ++ r.1, r.2)

/-- A string in double quotes. -/
def basic : Text → Option (Text × Text)
  | '"' :: t => some ([], t)
  | '\\' :: 'u' :: a :: b :: c :: d :: t => do
    return prepend [← codePoint? [a, b, c, d]] (← basic t)
  | '\\' :: 'U' :: a :: b :: c :: d :: e :: f :: g :: h :: t => do
    return prepend [← codePoint? [a, b, c, d, e, f, g, h]] (← basic t)
  | '\\' :: c :: t => do return prepend [← escape? c] (← basic t)
  | c :: t => if isPlain c then (basic t).map (prepend [c]) else none
  | [] => none

/-- A string in single quotes. -/
def literal : Text → Option (Text × Text)
  | '\'' :: t => some ([], t)
  | c :: t => if isPlain c then (literal t).map (prepend [c]) else none
  | [] => none

/-- What follows three quotes that close a string: up to two more quotes belong to it. -/
def closing (quote : Char) (t : Text) : Text × Text :=
  match t with
  | a :: b :: t =>
    if a = quote then if b = quote then ([a, b], t) else ([a], b :: t) else ([], a :: b :: t)
  | [a] => if a = quote then ([a], []) else ([], [a])
  | [] => ([], [])

/-- A line ends here, blanks aside. -/
def endsLine : Text → Bool
  | '\n' :: _ => true
  | '\r' :: '\n' :: _ => true
  | c :: t => isBlank c && endsLine t
  | [] => false

/-- A string of many lines in double quotes. A backslash at the end of a line takes the line end and
all blanks and line ends behind it away; `skipping` says that this is going on. -/
def manyLines (skipping : Bool) : Text → Option (Text × Text)
  | '"' :: '"' :: '"' :: t => some (closing '"' t)
  | '\n' :: t =>
    if skipping then manyLines true t else (manyLines false t).map (prepend ['\n'])
  | '\r' :: '\n' :: t =>
    if skipping then manyLines true t else (manyLines false t).map (prepend ['\n'])
  | '\\' :: 'u' :: a :: b :: c :: d :: t => do
    return prepend [← codePoint? [a, b, c, d]] (← manyLines false t)
  | '\\' :: 'U' :: a :: b :: c :: d :: e :: f :: g :: h :: t => do
    return prepend [← codePoint? [a, b, c, d, e, f, g, h]] (← manyLines false t)
  | '\\' :: c :: t =>
    if endsLine (c :: t) then manyLines true (c :: t)
    else do return prepend [← escape? c] (← manyLines false t)
  | c :: t =>
    if skipping && isBlank c then manyLines true t
    else if isPlain c then (manyLines false t).map (prepend [c])
    else none
  | [] => none

/-- A string of many lines in single quotes. -/
def literalLines : Text → Option (Text × Text)
  | '\'' :: '\'' :: '\'' :: t => some (closing '\'' t)
  | '\n' :: t => (literalLines t).map (prepend ['\n'])
  | '\r' :: '\n' :: t => (literalLines t).map (prepend ['\n'])
  | c :: t => if isPlain c then (literalLines t).map (prepend [c]) else none
  | [] => none

/-- The text without a line end in front. -/
def skipLineEnd : Text → Text
  | '\n' :: t => t
  | '\r' :: '\n' :: t => t
  | t => t

/-- A string of any kind, with its opening quotes. -/
def quoted : Text → Option (Text × Text)
  | '"' :: '"' :: '"' :: t => manyLines false (skipLineEnd t)
  | '"' :: t => basic t
  | '\'' :: '\'' :: '\'' :: t => literalLines (skipLineEnd t)
  | '\'' :: t => literal t
  | _ => none

end SpdxHeaders.Toml
