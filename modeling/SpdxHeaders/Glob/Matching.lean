import SpdxHeaders.Glob.Basic

/-!
# Matching globs

A glob is matched against the bytes of a path. A token takes some bytes off the front; `rests` are
all the bytes that it can leave, and a glob matches if nothing can be left.
-/

namespace SpdxHeaders.Glob

/-- The bytes of a text in UTF-8. -/
def bytesOf (t : Text) : List UInt8 :=
  t.flatMap String.utf8EncodeChar

/-- The byte `/`. -/
def slash : UInt8 := 47

/-- The byte of the other case of an ASCII letter. -/
def otherCase (b : UInt8) : UInt8 :=
  if 65 ≤ b ∧ b ≤ 90 then b + 32 else if 97 ≤ b ∧ b ≤ 122 then b - 32 else b

/-- Two bytes are the same, up to the case of ASCII letters if `caseless`. -/
def sameByte (caseless : Bool) (a b : UInt8) : Bool :=
  a = b || caseless && otherCase a = b

/-- What follows the bytes of a literal. -/
def afterBytes? (caseless : Bool) : List UInt8 → List UInt8 → Option (List UInt8)
  | [], s => some s
  | _ :: _, [] => none
  | a :: as, b :: s => if sameByte caseless a b then afterBytes? caseless as s else none

/-- All ends of the bytes, themselves included. -/
def ends : List UInt8 → List (List UInt8)
  | [] => [[]]
  | b :: s => (b :: s) :: ends s

/-- The ends that begin right behind a slash. -/
def endsBehindSlash : List UInt8 → List (List UInt8)
  | [] => []
  | b :: s => if b = slash then s :: endsBehindSlash s else endsBehindSlash s

/-- The ends that have no slash in front of them. -/
def endsWithinName : List UInt8 → List (List UInt8)
  | [] => [[]]
  | b :: s => if b = slash then [b :: s] else (b :: s) :: endsWithinName s

/-- The ranges of bytes that a range of characters stands for: the single bytes of both ends, but
from the last byte of the first to the first byte of the last everything. -/
def byteRanges (range : Char × Char) : List (UInt8 × UInt8) :=
  let lo := String.utf8EncodeChar range.1
  let hi := String.utf8EncodeChar range.2
  if range.1 = range.2 then lo.map fun b => (b, b)
  else
    lo.dropLast.map (fun b => (b, b))
      ++ [(lo.getLastD 0, hi.headD 0)] ++ hi.tail.map (fun b => (b, b))

/-- The byte lies in one of the ranges. -/
def inRanges (ranges : List (Char × Char)) (b : UInt8) : Bool :=
  (ranges.flatMap byteRanges).any fun r => r.1 ≤ b && b ≤ r.2

/-- The byte is in a set. -/
def inSet (caseless negated : Bool) (ranges : List (Char × Char)) (b : UInt8) : Bool :=
  negated != (inRanges ranges b || caseless && inRanges ranges (otherCase b))

mutual
/-- What a token can leave of the bytes. -/
def Token.rests (caseless : Bool) : Token → List UInt8 → List (List UInt8)
  | .literal c, s => (afterBytes? caseless (String.utf8EncodeChar c) s).toList
  | .one, s =>
    match s with
    | [] => []
    | b :: s => if b = slash then [] else [s]
  | .many, s => endsWithinName s
  | .leading, s => s :: endsBehindSlash s
  | .between, s =>
    match s with
    | [] => []
    | b :: s => if b = slash then s :: endsBehindSlash s else []
  | .trailing, s =>
    match s with
    | [] => []
    | b :: s => if b = slash then ends s else []
  | .oneOf negated ranges, s =>
    match s with
    | [] => []
    | b :: s => if inSet caseless negated ranges b then [s] else []
  | .choice branches, s => if branches.isEmpty then [s] else branchRests caseless branches s

/-- What a sequence of tokens can leave of one of several byte strings. -/
def seqRests (caseless : Bool) : List Token → List (List UInt8) → List (List UInt8)
  | [], rs => rs
  | token :: tokens, rs =>
    seqRests caseless tokens (rs.flatMap fun r => token.rests caseless r).eraseDups

/-- What one of several sequences of tokens can leave of the bytes. -/
def branchRests (caseless : Bool) : List (List Token) → List UInt8 → List (List UInt8)
  | [], _ => []
  | branch :: branches, s => seqRests caseless branch [s] ++ branchRests caseless branches s
end

/-- The glob stands for the path as a whole. A lone `**` stands for every path. -/
def isMatch (glob : Glob) (path : Text) : Bool :=
  match glob.tokens with
  | [.leading] => true
  | tokens => (seqRests glob.caseless tokens [bytesOf path]).contains []

end SpdxHeaders.Glob
