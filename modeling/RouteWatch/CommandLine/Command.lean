import RouteWatch.CommandLine.Arguments
import RouteWatch.Text.Lines

/-!
# Commands

The two commands of the program: `run` reviews the change of a repository, `scan` looks at a
local file. `Invocation.ofArgs` reads a command from the arguments of the program.
-/

namespace RouteWatch.CommandLine

/-- The name of the program. -/
def programName : String := "route-review"

/-- What the program takes. -/
def mainGrammar : Grammar where
  program := programName
  flags := [helpFlag, ⟨["--config"], .text⟩]
  operand := some (.command "command" ["run", "scan"])
  usage := "usage: route-review [-h] [--config CONFIG] \x7brun,scan\x7d ..."
  help := Text.unlines [
    "",
    "Annotate pull requests that change route declarations",
    "",
    "positional arguments:",
    "  \x7brun,scan\x7d",
    "    run            Review a pull request on GitHub",
    "    scan           Scan a local file for route blocks",
    "",
    "options:",
    "  -h, --help       show this help message and exit",
    "  --config CONFIG  JSON config file (default: $ROUTE_REVIEW_CONFIG)"]

/-- What the command `run` takes. -/
def runGrammar : Grammar where
  program := programName ++ " run"
  flags := [helpFlag, ⟨["--pull"], .integer⟩, ⟨["--dry-run"], .none⟩]
  operand := none
  usage := "usage: route-review run [-h] [--pull PULL] [--dry-run]"
  help := Text.unlines [
    "",
    "options:",
    "  -h, --help   show this help message and exit",
    "  --pull PULL  Pull request number (default: from event payload)",
    "  --dry-run    Plan annotations without creating them"]

/-- What the command `scan` takes. -/
def scanGrammar : Grammar where
  program := programName ++ " scan"
  flags := [helpFlag, ⟨["--diff"], .text⟩, ⟨["--parent"], .text⟩]
  operand := some (.one "file")
  usage := "usage: route-review scan [-h] [--diff DIFF] [--parent PARENT] file"
  help := Text.unlines [
    "",
    "positional arguments:",
    "  file             Source file to scan",
    "",
    "options:",
    "  -h, --help       show this help message and exit",
    "  --diff DIFF      Zero-context unified diff for the file",
    "  --parent PARENT  Parent revision of the file, to detect removed routes"]

/-- What the program is asked to do. -/
inductive Command where
  | run (pull : Option Int) (dryRun : Bool)
  | scan (file : String) (diff parent : Option String)
  deriving DecidableEq, Repr

/-- A command, and the file of the configuration where one is named. -/
structure Invocation where
  config : Option String
  command : Command
  deriving DecidableEq, Repr

/-- The number of the change that a command names. -/
def Command.pull? : Command → Option Int
  | .run pull _ => pull
  | .scan _ _ _ => none

/-- The command of a word and the arguments after it, and the arguments that have no place. -/
def Command.ofArgs (word : String) (args : List String) : Except Stop (Command × List String) :=
  if word = "run" then do
    let r ← runGrammar.read args
    return (.run (r.integer? "--pull") (r.has "--dry-run"), r.extras)
  else do
    let r ← scanGrammar.read args
    let file := (r.operand.bind List.head?).getD ""
    return (.scan file (r.text? "--diff") (r.text? "--parent"), r.extras)

/-- The command that arguments give. -/
def Invocation.ofArgs (args : List String) : Except Stop Invocation := do
  let r ← mainGrammar.read args
  let words := r.operand.getD []
  let (command, extras) ← Command.ofArgs (words.head?.getD "") words.tail
  let extras := r.extras ++ extras
  if extras.isEmpty then return ⟨r.text? "--config", command⟩
  else .error (.misuse mainGrammar ("unrecognized arguments: " ++ " ".intercalate extras))

/-- The text of the answer to a request for help. -/
def Grammar.helpText (g : Grammar) : String := g.usage ++ "\n" ++ g.help

/-- The text about arguments that are at fault. -/
def Grammar.misuseText (g : Grammar) (message : String) : String :=
  g.usage ++ "\n" ++ g.program ++ ": error: " ++ message

end RouteWatch.CommandLine
