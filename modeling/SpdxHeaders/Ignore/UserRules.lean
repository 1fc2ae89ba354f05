import SpdxHeaders.Ignore.RuleFile

/-!
# The user's own ignore rules

They are in the file that `excludesfile` in the user's version control settings names, or else in
`git/ignore` below the directory of settings. That is `.config` in the home directory: it is left
out that `XDG_CONFIG_HOME` can name another. Version control settings are read as text, so it is
left out too that those with a part that is not UTF-8 can name a file elsewhere.
-/

namespace SpdxHeaders.UserRules

/-- An ASCII blank. -/
def isBlank (c : Char) : Bool :=
  c = ' ' || c = '\t' || c = '\n' || c = '\r' || c = '\x0b' || c = '\x0c'

/-- What follows a name, whatever its case. -/
def afterName? : (name t : Text) → Option Text
  | [], t => some t
  | _ :: _, [] => none
  | c :: name, d :: t => if c.toLower = d.toLower then afterName? name t else none

/-- The text without the blanks in front. -/
def skipBlanks (t : Text) : Text :=
  t.dropWhile isBlank

/-- Nothing but blanks stands between here and the end of some line. -/
def endsLine : Text → Bool
  | [] => true
  | c :: t => c = '\n' || isBlank c && endsLine t

/-- A value may end here: blanks and a quote at most are left on the line. -/
def endsValue (t : Text) : Bool :=
  endsLine t ||
    match skipBlanks t with
    | '"' :: t => endsLine t
    | _ => false

/-- The shortest value at the start of a text. -/
def value? : Text → Option Text
  | [] => none
  | c :: t =>
    if isBlank c then none
    else if endsValue t then some [c]
    else (value? t).map (c :: ·)

/-- The value that is set for `excludesfile` at the start of a line. -/
def setting? (line : Text) : Option Text := do
  let t ← afterName? "excludesfile" (skipBlanks line)
  let t ← Text.after? "=" (skipBlanks t)
  let t := skipBlanks t
  match t with
  | '"' :: quoted => value? (skipBlanks quoted) <|> value? t
  | _ => value? t

/-- The first value that is set for `excludesfile`. -/
def excludesFile? (content : Text) : Option Text :=
  setting? content <|> behindLines content
where
  /-- The first value set on a line that begins behind a line feed. -/
  behindLines : Text → Option Text
    | [] => none
    | '\n' :: t => setting? t <|> behindLines t
    | _ :: t => behindLines t

/-- A path with the home directory in place of every `~`. -/
def expand (home p : Path) : Path :=
  p.flatMap fun c => if c = '~' then home else [c]

/-- The file with the user's own rules, if there is a home directory to look in. -/
def file? (t : FileTree) : Option Path := do
  let home ← t.home
  let settings := Path.join home ".config"
  let named (p : Path) : Option Path := do
    let content ← (t.readText p).toOption
    return expand home (← excludesFile? content)
  named (Path.join home ".gitconfig") <|> named (Path.join settings "git/config")
    <|> some (Path.join settings "git/ignore")

/-- The user's own rules. -/
def read (t : FileTree) : IgnoreFile :=
  match file? t with
  | none => {}
  | some p =>
    match t.read p with
    | .ok bytes => .ofBytes bytes
    | .error _ => {}

end SpdxHeaders.UserRules
