import SpdxHeaders.CommandLine.Basic

/-!
# Reading command lines

Arguments are taken from left to right. The value of an option or operand is looked at only when the
next one begins, so that of two faults the one that is met first in this sense is reported.
-/

namespace SpdxHeaders

/-- A switch: an option without a value. -/
inductive Switch where
  | dryRun
  | verbose
  | help
  deriving DecidableEq, Repr

/-- What a value belongs to. -/
inductive Slot where
  | defaultHolder
  | path
  | ignoredDir
  | keep
  | settings
  | format
  | output
  deriving DecidableEq, Repr

/-- What an option stands for. -/
inductive OptionKind where
  | switch (s : Switch)
  | valued (s : Slot)
  deriving DecidableEq, Repr

namespace OptionKind

/-- The option with a long name. -/
def ofLong? (name : Text) : Option OptionKind :=
  [("dry-run".toList, switch .dryRun), ("verbose".toList, switch .verbose),
    ("help".toList, switch .help), ("ignore-dir".toList, valued .ignoredDir),
    ("preserve-spdx".toList, valued .keep), ("config".toList, valued .settings),
    ("format".toList, valued .format), ("output".toList, valued .output)].lookup name

/-- The option with a short name. -/
def ofShort? : Char → Option OptionKind
  | 'v' => some (switch .verbose)
  | 'h' => some (switch .help)
  | 'i' => some (valued .ignoredDir)
  | 'p' => some (valued .keep)
  | 'c' => some (valued .settings)
  | 'f' => some (valued .format)
  | 'o' => some (valued .output)
  | _ => none

end OptionKind

/-- A command line read in part. -/
structure Reading where
  defaultHolder : Option Text := none
  path : Option Path := none
  dryRun : Bool := false
  verbose : Bool := false
  ignoredDirs : List Text := []
  keep : List Text := []
  settings : Option Path := none
  format : Option Report.Format := none
  output : Option Path := none
  /-- The value that was met last and is not stored yet, or the option that still needs one. -/
  pending : Option (Slot × Option Text) := none
  /-- How many operands were met. -/
  operands : Nat := 0
  deriving Repr

namespace Reading

/-- A path has at least one character. -/
def path? (value : Text) : Except Refusal Path :=
  if value.isEmpty then .error .invalidValue else .ok value

/-- The form of a summary with a name. -/
def format? (value : Text) : Except Refusal Report.Format :=
  if value = "terminal".toList then .ok .terminal
  else if value = "json".toList then .ok .json
  else .error .invalidValue

/-- A value that can be given once. -/
def once {α : Type} (old : Option α) (new : Except Refusal α) : Except Refusal (Option α) :=
  if old.isSome then .error .repeatedOption else new.map some

/-- Stores a value. -/
def store (r : Reading) (slot : Slot) (value : Text) : Except Refusal Reading :=
  match slot with
  | .defaultHolder => .ok { r with defaultHolder := some value }
  | .path => (path? value).map fun p => { r with path := some p }
  | .ignoredDir => .ok { r with ignoredDirs := r.ignoredDirs ++ [value] }
  | .keep => .ok { r with keep := r.keep ++ [value] }
  | .settings => (once r.settings (path? value)).map fun p => { r with settings := p }
  | .format => (once r.format (format? value)).map fun f => { r with format := f }
  | .output => (once r.output (path? value)).map fun p => { r with output := p }

/-- Stores the value that is pending. -/
def settle (r : Reading) : Except Refusal Reading :=
  match r.pending with
  | none => .ok r
  | some (_, none) => .error .invalidValue
  | some (slot, some value) => { r with pending := none }.store slot value

/-- Turns a switch on. -/
def turnOn (r : Reading) (long : Bool) (s : Switch) : Except Refusal Reading := do
  let r ← r.settle
  match s with
  | .dryRun => if r.dryRun then .error .repeatedOption else .ok { r with dryRun := true }
  | .verbose => if r.verbose then .error .repeatedOption else .ok { r with verbose := true }
  | .help => .error (.help (if long then Help.command else Help.commandSummary))

/-- Takes an option that has its value, or will have it. -/
def begin (r : Reading) (slot : Slot) (value : Option Text) : Except Refusal Reading := do
  let r ← r.settle
  match value with
  | some value => r.store slot value
  | none => .ok { r with pending := some (slot, none) }

/-- Takes an argument with two hyphens in front: a name, and a value behind `=`. -/
def long (r : Reading) (arg : Text) : Except Refusal Reading :=
  let name := arg.takeWhile (· ≠ '=')
  let value := (arg.dropWhile (· ≠ '=')).tail?
  match OptionKind.ofLong? name, value with
  | some (.switch s), none => r.turnOn true s
  | some (.switch _), some _ => .error .needlessValue
  | some (.valued slot), value => r.begin slot value
  | none, _ => .error .unknownArgument

/-- Takes the short names behind a hyphen. The first that needs a value has the rest, if there is
any, with or without `=`. -/
def short (r : Reading) : Text → Except Refusal Reading
  | [] => .ok r
  | c :: rest =>
    match OptionKind.ofShort? c with
    | some (.switch s) => do short (← r.turnOn false s) rest
    | some (.valued slot) =>
      match rest with
      | [] => r.begin slot none
      | '=' :: value => r.begin slot (some value)
      | value => r.begin slot (some value)
    | none => .error .unknownArgument

/-- Takes an operand. There are two of them. -/
def operand (r : Reading) (arg : Text) : Except Refusal Reading :=
  let slot : Option Slot :=
    match r.operands with
    | 0 => some .defaultHolder
    | 1 => some .path
    | _ => none
  match slot with
  | none => .error .unknownArgument
  | some slot => do
    let r ← r.settle
    return { r with pending := some (slot, some arg), operands := r.operands + 1 }

/-- Takes an argument that is no option: the value of an option that needs one, or an operand. -/
def plain (r : Reading) (arg : Text) : Except Refusal Reading :=
  match r.pending with
  | some (slot, none) => .ok { r with pending := some (slot, some arg) }
  | _ => r.operand arg

/-- Takes an argument. -/
def take (r : Reading) (arg : Text) : Except Refusal Reading :=
  match arg with
  | '-' :: '-' :: name => r.long name
  | ['-'] => r.plain arg
  | '-' :: names => r.short names
  | _ => r.plain arg

/-- Takes arguments. All behind `--` are operands. -/
def takeAll (r : Reading) : List Text → Except Refusal Reading
  | [] => .ok r
  | arg :: args =>
    if arg = "--".toList then args.foldlM operand r
    else do takeAll (← r.take arg) args

/-- What was asked for, when all arguments are taken. -/
def finish (r : Reading) : Except Refusal Invocation := do
  let r ← r.settle
  match r.defaultHolder, r.path with
  | some defaultHolder, some path =>
    return {
      defaultHolder, path
      dryRun := r.dryRun
      ignoredDirs := r.ignoredDirs
      keep := r.keep
      settings := r.settings
      format := r.format.getD .terminal
      output := r.output
      verbose := r.verbose }
  | _, _ => .error .missingArgument

end Reading

namespace Invocation

/-- The help on a command. -/
def helpOn : List Text → Refusal
  | [] => .help Help.program
  | [name] =>
    if name = "convert".toList then .help Help.command
    else if name = "help".toList then .help Help.helpCommand
    else .unknownCommand
  | _ => .unknownCommand

/-- Why an argument in place of a command is refused. -/
def noCommand (arg : Text) : Refusal :=
  match arg with
  | '-' :: '-' :: name =>
    let option := name.takeWhile (· ≠ '=')
    if option = "help".toList || option = "version".toList then
      if option ≠ name then .needlessValue
      else if option = "help".toList then .help Help.program
      else .version
    else .unknownArgument
  | '-' :: 'h' :: _ => .help Help.program
  | '-' :: 'V' :: _ => .version
  | '-' :: _ :: _ => .unknownArgument
  | _ => .unknownCommand

/-- What a list of arguments asks for. -/
def ofArguments (args : List Text) : Except Refusal Invocation :=
  match args with
  | [] => .error .emptyCommandLine
  | arg :: args =>
    if arg = "convert".toList then do
      (← Reading.takeAll {} args).finish
    else if arg = "help".toList then .error (helpOn args)
    else if arg = "--".toList then
      match args with
      | [] => .error .emptyCommandLine
      | name :: _ =>
        if name = "convert".toList || name = "help".toList then .error .unknownArgument
        else .error .unknownCommand
    else .error (noCommand arg)

end Invocation

end SpdxHeaders
