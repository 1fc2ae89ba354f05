import SpdxHeaders.Terminal

/-!
# Notices

What a conversion tells those who want to follow it closely.
-/

namespace SpdxHeaders

/-- How much a notice matters, most first. -/
inductive Severity where
  | error
  | warning
  | info
  | debug
  | trace
  deriving DecidableEq, Repr

/-- The name of a severity. -/
def Severity.name : Severity → Text
  | .error => "ERROR"
  | .warning => "WARN"
  | .info => "INFO"
  | .debug => "DEBUG"
  | .trace => "TRACE"

/-- The rank of a severity: what matters most has the least. -/
def Severity.rank : Severity → Nat
  | .error => 1
  | .warning => 2
  | .info => 3
  | .debug => 4
  | .trace => 5

/-- What a notice is about. -/
inductive Topic where
  | program
  | settings
  | collection
  | conversion
  | rewriting
  deriving DecidableEq, Repr

/-- The name of a topic. -/
def Topic.name : Topic → Text
  | .program => "spdx_convert"
  | .settings => "spdx_convert::config"
  | .collection => "spdx_convert::collector"
  | .conversion => "spdx_convert::convert"
  | .rewriting => "spdx_convert::rewriter"

/-- A notice. -/
structure Notice where
  severity : Severity
  topic : Topic
  text : Text
  deriving DecidableEq, Repr

/-- The colour of a severity on a terminal. -/
def Severity.style : Severity → List Terminal.Attribute
  | .error => [.bold, .foreground .red]
  | .warning => [.foreground .yellow]
  | .info => [.foreground .green]
  | .debug => [.foreground .blue]
  | .trace => [.foreground .cyan]

/-- The line for a notice, coloured or not. -/
def Notice.line (colored : Bool) (n : Notice) : Text :=
  let name := n.severity.name
  let bracket (t : Text) := Terminal.paint colored [.foreground .grey] t
  bracket "["
    ++ Terminal.paint colored n.severity.style (name ++ List.replicate (5 - name.length) ' ')
    ++ ' ' :: n.topic.name ++ bracket "]" ++ ' ' :: n.text ++ ['\n']

end SpdxHeaders
