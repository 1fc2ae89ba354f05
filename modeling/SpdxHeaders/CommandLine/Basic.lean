import SpdxHeaders.CommandLine.Help
import SpdxHeaders.Path
import SpdxHeaders.Report.Data

/-!
# Command lines

What a command line asks for, and why it may be refused.
-/

namespace SpdxHeaders

/-- What a command line asks for. -/
structure Invocation where
  /-- The holder in the tag line that stands for all statements that are not kept. -/
  defaultHolder : Text
  /-- The directory to convert. -/
  path : Path
  /-- Nothing is to be written. -/
  dryRun : Bool := false
  /-- The directories that are not to be walked. -/
  ignoredDirs : List Text := []
  /-- The holders whose statements are to be kept. -/
  keep : List Text := []
  /-- The settings file. -/
  settings : Option Path := none
  /-- The form of the summary. -/
  format : Report.Format := .terminal
  /-- The file for the summary. -/
  output : Option Path := none
  /-- More is to be told. -/
  verbose : Bool := false
  deriving DecidableEq, Repr

/-- Why a command line does not start a conversion. -/
inductive Refusal where
  /-- An argument is not known, or stands where none is expected. -/
  | unknownArgument
  /-- An option has no value, or one it cannot have. -/
  | invalidValue
  /-- An argument is missing. -/
  | missingArgument
  /-- An option that can be given once is given twice. -/
  | repeatedOption
  /-- A command is not known. -/
  | unknownCommand
  /-- An option has a value, but takes none. -/
  | needlessValue
  /-- Nothing is asked for. -/
  | emptyCommandLine
  /-- Help is asked for. -/
  | help (lines : List Text)
  /-- The version is asked for. -/
  | version
  deriving DecidableEq, Repr

namespace Refusal

/-- The exit status of a program whose command line is refused. -/
def exitCode : Refusal → Nat
  | .help _ | .version => 0
  | _ => 2

/-- The text for whoever asked for help or the version. -/
def answer? : Refusal → Option Text
  | .help lines => some (Help.render lines)
  | .version => some (Help.render Help.version)
  | _ => none

/-- The wording of a refusal. -/
def message : Refusal → Text
  | .unknownArgument => "error: unexpected argument\n"
  | .invalidValue => "error: invalid value for an argument\n"
  | .missingArgument => "error: a required argument was not provided\n"
  | .repeatedOption => "error: an argument cannot be used multiple times\n"
  | .unknownCommand => "error: unrecognized subcommand\n"
  | .needlessValue => "error: unexpected value for an argument\n"
  | .emptyCommandLine => Help.render Help.program
  | .help lines => Help.render lines
  | .version => Help.render Help.version

end Refusal

end SpdxHeaders
