import RouteWatch.CommandLine.Command
import RouteWatch.Config.Sources
import RouteWatch.Forge.Client
import RouteWatch.Json.Writer
import RouteWatch.Record.Writing
import RouteWatch.Review.Run

/-!
# Running a command

`runProgram` does what the arguments of the program ask for and gives its exit code: 0 for
success, 1 for an error that is reported, 2 for arguments that are at fault.
-/

namespace RouteWatch

/-- What the program works on: files, and the replies of the forge that are still to come. -/
structure World where
  tree : Tree
  replies : List Forge.Reply

namespace World

variable {α : Type}

/-- An action on the files. -/
def onTree (a : Act Tree α) : Act World α := a.onPart World.tree fun w tree ↦ { w with tree }

end World

/-- Reviews a change on the forge that the configuration names. The session is open while the
comment is read and the run is made. -/
def reviewChange (config : Config) (change : Int) (dryRun : Bool) : Act World RunReport := do
  let client ← Act.ofExcept (Forge.Client.ofConfig config)
  let world : Act (Tree × Forge.Link) RunReport := do
    (client.openSession).onPart Prod.snd fun (tree, _) link ↦ (tree, link)
    let answer ← Act.attempt do
      let reviewer ← (Reviewer.ofConfig config).onPart Prod.fst fun (_, link) tree ↦ (tree, link)
      (reviewer.run client.backend (.int change) dryRun).onPart Prod.snd
        fun (tree, _) link ↦ (tree, link)
    Forge.Client.closeSession.onPart Prod.snd fun (tree, _) link ↦ (tree, link)
    Act.ofExcept answer
  world.onPart (fun w ↦ (w.tree, .fresh w.replies .closed)) fun _ (tree, link) ↦
    ⟨tree, link.replies⟩

namespace CommandLine

/-- The text of a local file; one that cannot be read is trouble. -/
def readLocal (name : String) : Act World String := do
  let path := Path.ofText name
  match (← Act.state).tree.readText path path.text with
  | .ok text => return text
  | .error (.file fault) => Act.fail (.trouble ⟨.read, fault.message, some name⟩)
  | .error fault => Act.fail fault.failure

/-- The line that sums up a run. -/
def summary (r : RunReport) : String :=
  let planned := r.files.foldl (fun n f ↦ n + f.planned.length) 0
  "[route-review] " ++ toString r.considered ++ " route files, " ++ toString planned ++
    " planned, " ++ toString r.created ++ " created" ++ if r.dryRun then " (dry run)" else ""

/-- The command `run`. -/
def review (config : Config) (dryRun : Bool) : Act World Nat := do
  match config.pullNumber with
  | none =>
    Act.warn "error: no pull request number (use --pull or GITHUB_EVENT_PATH)"
    return 1
  | some change =>
    let report ← reviewChange config change dryRun
    Act.print (summary report)
    let _ ← Act.forEach (fun (e : FileError) ↦
      Act.warn ("error: " ++ e.kind.name ++ " error in " ++ e.path ++ ": " ++ e.message))
      report.errors
    return if report.succeeded then 0 else 1

/-- The line about a block of a file. -/
def blockLine (file : String) (b : Block) : String :=
  file ++ ":" ++ Text.showInt b.startLine ++ "-" ++ Text.showInt b.endLine ++ " [" ++
    b.closing.name ++ "]"

/-- The command `scan`. -/
def scan (config : Config) (file : String) (diff parent : Option String) : Act World Nat := do
  let reviewer ← World.onTree (Reviewer.ofConfig config)
  let content ← readLocal file
  let base ← match parent.filter (· ≠ "") with
    | some name => some <$> readLocal name
    | none => pure none
  match diff with
  | none =>
    let blocks ← Act.ofExcept (Reviewer.scanText reviewer.scanner (some content) (some file) none)
    let _ ← Act.forEach (fun b ↦ Act.print (blockLine file b)) blocks
    return 0
  | some name =>
    let diff ← readLocal name
    let report ← Act.ofExcept (reviewer.preview file (some content) diff [] base)
    Act.print (report.toJson.write .report)
    return 0

/-- Reports a failure that trouble or a value given is the cause of. -/
def reported (a : Act World Nat) (isReported : Failure → Bool) : Act World Nat :=
  a.recover fun failure ↦ do
    if !isReported failure then Act.fail failure
    Act.warn ("error: " ++ failure.message)
    return 1

/-- The command of an invocation under a configuration. -/
def perform (config : Config) : Command → Act World Nat
  | .run _ dryRun => review config dryRun
  | .scan file diff parent => scan config file diff parent

/-- The configuration of an invocation. -/
def configFor (i : Invocation) (environ : Environ) : Act World Config :=
  let pull := Json.ofOption .int i.command.pull?
  World.onTree ((ConfigSource.ofFile i.config environ environ).load [("pull_number", pull)])

/-- Does what an invocation asks for. -/
def invoke (i : Invocation) (environ : Environ) : Act World Nat := do
  match ← (configFor i environ).attempt with
  | .ok config =>
    reported (perform config i.command) fun failure ↦
      failure.blamesValue || failure.trouble?.isSome
  | .error failure => reported (Act.fail failure) Failure.blamesValue

/-- Does what the arguments of the program ask for. -/
def runProgram (args : List String) (environ : Environ) : Act World Nat :=
  match Invocation.ofArgs args with
  | .ok i => invoke i environ
  | .error (.help g) => do
    Act.print g.helpText
    return 0
  | .error (.misuse g message) => do
    Act.warn (g.misuseText message)
    return 2

end CommandLine

end RouteWatch
