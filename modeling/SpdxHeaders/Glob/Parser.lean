import SpdxHeaders.Glob.Basic

/-!
# Reading globs

A pattern is read from left to right. The main fact is `length_scanSet`: reading a set in brackets
leaves less text than there was, so that reading a pattern comes to an end.
-/

namespace SpdxHeaders.Glob

/-- The ranges of a set up to its `]`, and what follows it. A `]` or `-` that comes first stands for
itself, and so does a `-` that comes last. -/
def scanSet (first inRange : Bool) (ranges : List (Char × Char)) :
    Text → Except Fault (Option (List (Char × Char) × Text))
  | [] => .ok none
  | c :: t =>
    if c = ']' && !first then
      .ok (some ((if inRange then ('-', '-') :: ranges else ranges).reverse, t))
    else if c = '-' && !first && !inRange then scanSet false true ranges t
    else
      match inRange, ranges with
      | true, (lo, _) :: others =>
        if c < lo then .error (.invalidRange lo c)
        else scanSet false false ((lo, c) :: others) t
      | _, _ => scanSet false false ((c, c) :: ranges) t

/-- Scanning a set of characters takes something off the text. -/
theorem length_scanSet {first inRange : Bool} {ranges ranges' : List (Char × Char)} {t t' : Text}
    (h : scanSet first inRange ranges t = .ok (some (ranges', t'))) : t'.length < t.length := by
  fun_induction scanSet first inRange ranges t with
  | case1 => cases h
  | case2 => cases h; simp
  | case3 _ _ _ _ _ _ _ ih => exact Nat.lt_succ_of_lt (ih h)
  | case4 => cases h
  | case5 _ _ _ _ _ _ _ _ _ ih => exact Nat.lt_succ_of_lt (ih h)
  | case6 _ _ _ _ _ _ _ _ ih => exact Nat.lt_succ_of_lt (ih h)

/-- A set in brackets, read behind its `[`, and what follows it. -/
def readSet (t : Text) : Except Fault (Option (Token × Text)) :=
  match t with
  | '!' :: t | '^' :: t => (scanSet true false [] t).map (·.map fun r => (.oneOf true r.1, r.2))
  | t => (scanSet true false [] t).map (·.map fun r => (.oneOf false r.1, r.2))

/-- Reading a set of characters takes something off the text. -/
theorem length_readSet {t t' : Text} {token : Token} (h : readSet t = .ok (some (token, t'))) :
    t'.length < t.length := by
  have scanned {negated : Bool} {u : Text}
      (h : (scanSet true false [] u).map
        (·.map fun r => (Token.oneOf negated r.1, r.2)) = .ok (some (token, t'))) :
      t'.length < u.length := by
    match hs : scanSet true false [] u with
    | .error e => simp [hs, Except.map] at h
    | .ok none => simp [hs, Except.map] at h
    | .ok (some (ranges, r)) =>
      simp only [hs, Except.map, Option.map_some, Except.ok.injEq, Option.some.injEq,
        Prod.mk.injEq] at h
      exact h.2 ▸ length_scanSet hs
  unfold readSet at h
  split at h
  · exact Nat.lt_succ_of_lt (scanned h)
  · exact Nat.lt_succ_of_lt (scanned h)
  · exact scanned h

/-- A pattern read in part. -/
structure Draft where
  /-- The tokens of the branch that is being read, last first. -/
  current : List Token
  /-- The open choices, innermost first: the tokens in front of each and its finished branches, last
  first. -/
  choices : List (List Token × List (List Token))
  deriving Repr

namespace Draft

/-- Adds a token to the branch that is being read. -/
def push (d : Draft) (token : Token) : Draft :=
  { d with current := token :: d.current }

/-- A branch that stands for nothing at all. -/
def isVoid (branch : List Token) : Bool :=
  branch.all fun
    | .choice [] => true
    | _ => false

/-- Opens a choice. -/
def openChoice (d : Draft) : Draft :=
  ⟨[], (d.current, []) :: d.choices⟩

/-- A comma ends a branch of a choice and stands for itself elsewhere. -/
def comma (d : Draft) : Draft :=
  match d.choices with
  | [] => d.push (.literal ',')
  | (before, branches) :: outer => ⟨[], (before, d.current.reverse :: branches) :: outer⟩

/-- Closes the innermost choice. Its void branches do not count. -/
def closeChoice? (d : Draft) : Option Draft :=
  match d.choices with
  | [] => none
  | (before, branches) :: outer =>
    let branches := (d.current.reverse :: branches).reverse
    some ⟨.choice (branches.filter (!isVoid ·)) :: before, outer⟩

/-- Two stars that span no directories. -/
def twoStars (d : Draft) : Draft :=
  (d.push .many).push .many

/-- Two stars behind a slash: the slash belongs to the token. -/
def spanDirectories (d : Draft) (token : Token) : Draft :=
  match d.current with
  | .leading :: _ | .trailing :: _ => d
  | _ :: before => { d with current := token :: before }
  | [] => d

/-- Two stars in front of `rest` and behind the character `prev`: the draft with their tokens, the
text that is left, and the last character read. -/
def doubleStar (d : Draft) (prev : Option Char) (rest : Text) : Draft × Text × Char :=
  if d.current.isEmpty then
    match rest with
    | [] => (d.push .leading, [], '*')
    | '/' :: rest => (d.push .leading, rest, '/')
    | _ => (d.twoStars, rest, '*')
  else if prev ≠ some '/' ∧ (d.choices.isEmpty ∨ prev ≠ some ',' ∧ prev ≠ some '{') then
    (d.twoStars, rest, '*')
  else
    match rest with
    | [] => (d.spanDirectories .trailing, [], '*')
    | '/' :: rest => (d.spanDirectories .between, rest, '/')
    | c :: _ =>
      if (c = ',' || c = '}') && !d.choices.isEmpty then (d.spanDirectories .trailing, rest, '*')
      else (d.twoStars, rest, '*')

/-- Reading a second star does not make the rest longer. -/
theorem length_doubleStar (d : Draft) (prev : Option Char) (rest : Text) :
    (d.doubleStar prev rest).2.1.length ≤ rest.length := by
  unfold doubleStar
  repeat' split
  all_goals simp

end Draft

/-- What becomes of a `[`. -/
inductive SetReading where
  /-- It begins a set and needs a `]`. -/
  | strict
  /-- It begins a set; from the first one without `]` on it stands for itself. -/
  | lenient
  /-- It stands for itself. -/
  | never
  deriving DecidableEq, Repr

/-- Reads a pattern behind the character `prev`. -/
def readTokens (sets : SetReading) (prev : Option Char) (d : Draft) :
    Text → Except Fault (List Token)
  | [] => if d.choices.isEmpty then .ok d.current.reverse else .error .unclosedChoice
  | '?' :: t => readTokens sets (some '?') (d.push .one) t
  | '*' :: '*' :: t =>
    match h : d.doubleStar prev t with
    | (d', t', prev') =>
      have : t'.length ≤ t.length := by simpa [h] using d.length_doubleStar prev t
      readTokens sets (some prev') d' t'
  | '*' :: t => readTokens sets (some '*') (d.push .many) t
  | '{' :: t => readTokens sets (some '{') d.openChoice t
  | '}' :: t =>
    match d.closeChoice? with
    | some d => readTokens sets (some '}') d t
    | none => .error .unopenedChoice
  | ',' :: t => readTokens sets (some ',') d.comma t
  | '\\' :: c :: t => readTokens sets (some c) (d.push (.literal c)) t
  | ['\\'] => .error .danglingEscape
  | '[' :: t =>
    if sets = .never then readTokens sets (some '[') (d.push (.literal '[')) t
    else
      match h : readSet t with
      | .error fault => .error fault
      | .ok (some (token, rest)) =>
        have := length_readSet h
        readTokens sets (some ']') (d.push token) rest
      | .ok none =>
        if sets = .lenient then readTokens .never (some '[') (d.push (.literal '[')) t
        else .error .unclosedSet
  | c :: t => readTokens sets (some c) (d.push (.literal c)) t
  termination_by t => t.length

/-- The glob that a pattern stands for. -/
def ofPattern (sets : SetReading) (caseless : Bool) (pattern : Text) : Except Fault Glob :=
  (readTokens sets none ⟨[], []⟩ pattern).map (⟨·, caseless⟩)

end SpdxHeaders.Glob
