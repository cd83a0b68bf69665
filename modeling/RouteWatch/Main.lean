import RouteWatch.CommandLine.Run

/-!
# The program

`main` reads the files that the arguments and the environment name, runs the command on them and
shows its output. No request leaves the program: each is answered like one to a forge that has
no reply.
-/

namespace RouteWatch.Program

/-- The variables that the program looks at. -/
def variableNames : List String :=
  ["HOME", ConfigSource.variablePart ++ "CONFIG", "GITHUB_EVENT_PATH"] ++
    ConfigSource.forgeVariables.map Prod.fst ++ Config.keys.map ConfigSource.variableOf

/-- The variables that are set. -/
def environ : IO Environ := do
  let found ← variableNames.mapM fun name ↦ do
    return (← IO.getEnv name).map fun value ↦ (name, value)
  return found.filterMap id

/-- The names of files in the arguments and the environment. -/
def mentioned (args : List String) (environ : Environ) : List String :=
  let joined := args.filterMap fun arg ↦ (CommandLine.atEquals arg.toList).2.map String.ofList
  let named := ["CONFIG", "COMMENT_BODY_PATH"].map (ConfigSource.variablePart ++ ·)
  args ++ joined ++ ConfigSource.homeFile environ ::
    ("GITHUB_EVENT_PATH" :: named).filterMap fun name ↦ List.lookup name environ

/-- What stands at a path. -/
def entry (name : String) : IO (Option Entry) := do
  try
    return some (.file (← IO.FS.readBinFile name).toList)
  catch
    | .inappropriateType _ _ _ => return some .folder
    | _ => return none

/-- The tree with what stands at a path. -/
def withEntry (tree : Tree) (name : String) : IO Tree := do
  let path := Path.ofText name
  match ← entry name with
  | none => return tree
  | some .folder => return (tree.withFolders path).toOption.getD tree
  | some (.file bytes) =>
    let tree := (tree.withFolders path.parent).toOption.getD tree
    return (tree.write path bytes).toOption.getD tree

/-- The file of the comment that the configuration of some arguments names. -/
def commentFile (args : List String) (environ : Environ) (tree : Tree) : List String :=
  match CommandLine.Invocation.ofArgs args with
  | .ok i =>
    match ((CommandLine.configFor i environ).run ⟨tree, []⟩).answer with
    | .ok config => config.commentPath.toList
    | .error _ => []
  | .error _ => []

/-- Shows an event. -/
def display : Event → IO Unit
  | .printed line => IO.println line
  | .warned line => IO.eprintln line
  | _ => return ()

/-- Runs the command that the arguments give. -/
def run (args : List String) : IO UInt32 := do
  let environ ← environ
  let tree ← (mentioned args environ).foldlM withEntry Tree.empty
  let tree ← (commentFile args environ tree).foldlM withEntry tree
  let out := (CommandLine.runProgram args environ).run ⟨tree, []⟩
  out.trace.forM display
  match out.answer with
  | .ok code => return UInt32.ofNat code
  | .error failure =>
    IO.eprintln failure.message
    return 1

end RouteWatch.Program

/-- The program. -/
def main (args : List String) : IO UInt32 := RouteWatch.Program.run args
