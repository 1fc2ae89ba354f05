import SpdxHeaders.Text.Basic

/-!
# Help

The texts that explain the command line, as lists of lines.
-/

namespace SpdxHeaders.Help

/-- What the program is for. -/
def program : List Text :=
  (["Convert legacy copyright headers to SPDX",
   "",
   "Usage: spdx-convert <COMMAND>",
   "",
   "Commands:",
   "  convert  Convert @copyright/@license headers to SPDX and append AUTHORS.md",
   "  help     Print this message or the help of the given subcommand(s)",
   "",
   "Options:",
   "  -h, --help     Print help",
   "  -V, --version  Print version"] : List String).map String.toList

/-- How a conversion is asked for, at length. -/
def command : List Text :=
  (["Convert @copyright/@license headers to SPDX and append AUTHORS.md",
   "",
   "Usage: spdx-convert convert [OPTIONS] <DEFAULT_FILE_COPYRIGHT> <PATH>",
   "",
   "Arguments:",
   "  <DEFAULT_FILE_COPYRIGHT>",
   "          The default file copyright text. Example: \"Free Software Foundation Europe e.V. <https://fsfe.org>\"",
   "",
   "  <PATH>",
   "          The path to process",
   "",
   "Options:",
   "      --dry-run",
   "          Only report what would change, never write",
   "",
   "  -i, --ignore-dir <DIR>",
   "          Directories to ignore (repeatable)",
   "",
   "  -p, --preserve-spdx <HOLDER>",
   "          Copyright holders whose attribution is kept as is. Example: \"OldCompanyName\"",
   "",
   "  -c, --config <CONFIG>",
   "          Path to custom config file",
   "",
   "  -f, --format <FORMAT>",
   "          Summary format",
   "",
   "          Possible values:",
   "          - terminal: Formatted table output for terminal",
   "          - json:     JSON format",
   "          ",
   "          [default: terminal]",
   "",
   "  -o, --output <OUTPUT>",
   "          Summary file (if not specified, writes to stdout)",
   "",
   "  -v, --verbose",
   "          Enable verbose output",
   "",
   "  -h, --help",
   "          Print help (see a summary with '-h')",
   "",
   "Run the script with --dry-run until all files can be converted.",
   "Otherwise the author list can not be generated correctly."] : List String).map String.toList

/-- How a conversion is asked for, in short. -/
def commandSummary : List Text :=
  (["Convert @copyright/@license headers to SPDX and append AUTHORS.md",
   "",
   "Usage: spdx-convert convert [OPTIONS] <DEFAULT_FILE_COPYRIGHT> <PATH>",
   "",
   "Arguments:",
   "  <DEFAULT_FILE_COPYRIGHT>  The default file copyright text. Example: \"Free Software Foundation Europe e.V. <https://fsfe.org>\"",
   "  <PATH>                    The path to process",
   "",
   "Options:",
   "      --dry-run                 Only report what would change, never write",
   "  -i, --ignore-dir <DIR>        Directories to ignore (repeatable)",
   "  -p, --preserve-spdx <HOLDER>  Copyright holders whose attribution is kept as is. Example: \"OldCompanyName\"",
   "  -c, --config <CONFIG>         Path to custom config file",
   "  -f, --format <FORMAT>         Summary format [default: terminal] [possible values: terminal, json]",
   "  -o, --output <OUTPUT>         Summary file (if not specified, writes to stdout)",
   "  -v, --verbose                 Enable verbose output",
   "  -h, --help                    Print help (see more with '--help')",
   "",
   "Run the script with --dry-run until all files can be converted.",
   "Otherwise the author list can not be generated correctly."] : List String).map String.toList

/-- How help is asked for. -/
def helpCommand : List Text :=
  (["Print this message or the help of the given subcommand(s)",
   "",
   "Usage: spdx-convert help [COMMAND]...",
   "",
   "Arguments:",
   "  [COMMAND]...  Print help for the subcommand(s)"] : List String).map String.toList

/-- The name and version of the program. -/
def version : List Text :=
  (["spdx-convert 0.1.0"] : List String).map String.toList

/-- Lines as they are printed. -/
def render (lines : List Text) : Text :=
  lines.flatMap fun line => line ++ ['\n']

end SpdxHeaders.Help
