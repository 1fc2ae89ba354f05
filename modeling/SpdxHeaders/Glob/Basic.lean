import SpdxHeaders.Text.Basic

/-!
# Globs

A glob is a list of tokens. A `/` is matched by a token that names it, by a set of characters and
by the tokens that `**` stands for, but not by `?` and `*`.
-/

namespace SpdxHeaders

namespace Glob

/-- A part of a glob. -/
inductive Token where
  /-- A character that stands for itself. -/
  | literal (c : Char)
  /-- Any byte but `/`, written `?`. -/
  | one
  /-- Any number of bytes other than `/`, written `*`. -/
  | many
  /-- Any number of directories in front, written `**/` at the start. -/
  | leading
  /-- A `/` with any number of directories behind it, written `/**/`. -/
  | between
  /-- A `/` with anything behind it, written `/**` at the end. -/
  | trailing
  /-- A byte in one of the ranges, or in none of them if negated, written in brackets. -/
  | oneOf (negated : Bool) (ranges : List (Char × Char))
  /-- One of the branches, written in braces. Without branches it stands for nothing. -/
  | choice (branches : List (List Token))
  deriving Repr

/-- Why a pattern is not a glob. -/
inductive Fault where
  /-- A `[` has no `]`. -/
  | unclosedSet
  /-- The ends of a range are in the wrong order. -/
  | invalidRange (first last : Char)
  /-- A `}` has no `{`. -/
  | unopenedChoice
  /-- A `{` has no `}`. -/
  | unclosedChoice
  /-- A backslash has nothing behind it. -/
  | danglingEscape
  deriving DecidableEq, Repr

/-- The wording of a fault of a pattern. -/
def Fault.message (pattern : Text) (fault : Fault) : Text :=
  let reason : Text :=
    match fault with
    | .unclosedSet => "unclosed character class; missing ']'"
    | .invalidRange first last =>
      "invalid range; '".toList ++ first :: "' > '".toList ++ last :: "'".toList
    | .unopenedChoice =>
      "unopened alternate group; missing '\x7b' (maybe escape '\x7d' with '[\x7d]'?)"
    | .unclosedChoice =>
      "unclosed alternate group; missing '\x7d' (maybe escape '\x7b' with '[\x7b]'?)"
    | .danglingEscape => "dangling '\\'"
  "error parsing glob '".toList ++ pattern ++ "': ".toList ++ reason

end Glob

/-- A pattern for paths. -/
structure Glob where
  /-- What has to be found, in order. -/
  tokens : List Glob.Token
  /-- Upper and lower case of ASCII letters are the same. -/
  caseless : Bool
  deriving Repr

end SpdxHeaders
