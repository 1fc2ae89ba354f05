import SpdxHeaders.Text.Basic
import SpdxHeaders.Text.LetterCase

/-!
# Lower case

Lower-casing of text by the rules of Unicode. Each letter is mapped by itself, with one exception
that looks at its surroundings: a capital sigma becomes a final sigma at the end of a word.
-/

namespace SpdxHeaders.Text

/-- The lower case form of a character that has one of a single character, else the character. -/
def lowerChar (c : Char) : Char :=
  if c.toNat < 128 then c.toLower
  else
    match caseRuns.find? fun r => r.covers c.toNat with
    | some r => Char.ofNat ((c.toNat : Int) + r.shift).toNat
    | none => c

/-- The lower case form of a character outside of any word: a dotted capital I keeps its dot as a
mark of its own. -/
def lowerOf (c : Char) : Text :=
  if c = 'İ' then ['i', '\u0307'] else [lowerChar c]

/-- The nearest character that is not passed over is a cased letter. -/
def meetsCased (t : Text) : Bool :=
  match t.dropWhile isCaseIgnorable with
  | c :: _ => isCased c
  | [] => false

/-- Lower-cases `t`, which stands behind the characters `before`, nearest first. -/
def lowerAfter (before : Text) : Text → Text
  | [] => []
  | c :: t =>
    if c = 'Σ' then
      (if meetsCased before && !meetsCased t then 'ς' else 'σ') :: lowerAfter (c :: before) t
    else lowerOf c ++ lowerAfter (c :: before) t

/-- The text in lower case. -/
def lowercase (t : Text) : Text :=
  lowerAfter [] t

end SpdxHeaders.Text
