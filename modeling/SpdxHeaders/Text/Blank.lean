import SpdxHeaders.Text.Basic

/-!
# Blanks

The characters with the Unicode property `White_Space`, and the operations on text that look for
them: trimming and splitting into words.
-/

namespace SpdxHeaders.Text

/-- A character that separates words. -/
def isBlank (c : Char) : Bool :=
  let n := c.toNat
  (9 ≤ n && n ≤ 13) || n == 0x20 || n == 0x85 || n == 0xa0 || n == 0x1680 ||
    (0x2000 ≤ n && n ≤ 0x200a) || n == 0x2028 || n == 0x2029 || n == 0x202f || n == 0x205f ||
    n == 0x3000

/-- The text without the characters in `p` at its end. -/
def dropEndWhile (p : Char → Bool) (t : Text) : Text :=
  (t.reverse.dropWhile p).reverse

/-- The text without the blanks at its end. -/
def trimEnd (t : Text) : Text :=
  t.dropEndWhile isBlank

/-- The text without the blanks at both ends. -/
def trim (t : Text) : Text :=
  trimEnd (t.dropWhile isBlank)

/-- The maximal runs of characters outside `p`. -/
def runsOutside (p : Char → Bool) : Text → List Text
  | [] => []
  | c :: t =>
    if p c then runsOutside p t
    else
      match t, runsOutside p t with
      | d :: _, run :: runs => if p d then [c] :: run :: runs else (c :: run) :: runs
      | _, runs => [c] :: runs

/-- The words of a text: its maximal runs without blanks. -/
def words (t : Text) : List Text :=
  t.runsOutside isBlank

end SpdxHeaders.Text
