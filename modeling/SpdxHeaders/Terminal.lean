import SpdxHeaders.Text.Basic

/-!
# Terminals

Text with the sequences that make a terminal show it in colours.
-/

namespace SpdxHeaders.Terminal

/-- A colour. -/
inductive Color where
  | red
  | green
  | yellow
  | blue
  | cyan
  | white
  | grey
  deriving DecidableEq, Repr

/-- A way to show text. -/
inductive Attribute where
  | bold
  | foreground (c : Color)
  | background (c : Color)
  deriving DecidableEq, Repr

/-- The number that a terminal gives to a colour of text. -/
def Color.code : Color → Nat
  | .red => 31
  | .green => 32
  | .yellow => 33
  | .blue => 34
  | .cyan => 36
  | .white => 37
  | .grey => 90

/-- The number that a terminal gives to an attribute. -/
def Attribute.code : Attribute → Nat
  | .bold => 1
  | .foreground c => c.code
  | .background c => c.code + 10

/-- The sequence for a number. -/
def sequence (code : Nat) : Text :=
  "\x1b[".toList ++ Text.ofNat code ++ "m".toList

/-- The text with attributes, if colours are wanted. -/
def paint (colored : Bool) (attributes : List Attribute) (t : Text) : Text :=
  if colored then (attributes.flatMap fun a => sequence a.code) ++ t ++ sequence 0 else t

end SpdxHeaders.Terminal
