import SpdxHeaders.Text.Basic

/-!
# Patterns in a line

A pattern reads a text from its beginning and gives what it found. Patterns are looked for with
`leftmost`, which takes the earliest place where one succeeds, and repeated characters are taken
with `longest`, which takes as many as it can.
-/

namespace SpdxHeaders.Attribution

/-- What the pattern finds at the earliest place of the text where it succeeds. -/
def leftmost {α : Type} (pattern : Text → Option α) : Text → Option α
  | [] => pattern []
  | c :: t =>
    match pattern (c :: t) with
    | some a => some a
    | none => leftmost pattern t

/-- The longest non-empty run of characters in `p` behind which `next` succeeds, with what `next`
finds there. -/
def longest {α : Type} (p : Char → Bool) (next : Text → Option α) : Text → Option (Text × α)
  | [] => none
  | c :: t =>
    if p c then
      match longest p next t with
      | some (run, a) => some (c :: run, a)
      | none => (next t).map fun a => ([c], a)
    else none

/-- A year of four digits and what follows it. -/
def year? : Text → Option (Nat × Text)
  | a :: b :: c :: d :: t =>
    if a.isDigit && b.isDigit && c.isDigit && d.isDigit then
      some (Nat.ofDigitChars 10 [a, b, c, d] 0, t)
    else none
  | _ => none

end SpdxHeaders.Attribution
