import RouteWatch.Config.Sources
import RouteWatch.Json.Writer
import RouteWatch.Record.Reading

/-!
# Storing the configuration

`ConfigSource.save` puts settings into the stored file. Settings of the file that are not named
stay; nothing is stored where the result would be no configuration.
-/

namespace RouteWatch.ConfigSource

/-- The names among some that are no settings, in order. -/
def unknownKeys (names : List String) : List String :=
  (names.filter fun name ↦ !Config.keys.contains name).mergeSort

/-- The failure that a fault is, in a place where the file system's own faults are failures of some
kind. -/
def faultAs (kind : FileFault → Failure) (fault : FileFault) : Failure :=
  if fault.cause = .nul then .nulPath else kind fault

/-- Writes settings to the stored file. -/
def store (s : ConfigSource) (fields : Fields) : Act Tree Unit := do
  let tree ← Act.state
  let tree ← Act.ofExcept ((tree.withFolders s.path.parent).mapError (faultAs .file))
  Act.setState tree
  let content := Text.Utf8.encode (Json.write .stored (.object fields))
  Act.setState (← Act.ofExcept ((tree.write s.path content).mapError (faultAs .notStored)))

/-- Puts settings into the stored file and gives what it holds then. -/
def save (s : ConfigSource) (overrides : Fields) : Act Tree Fields := do
  let unknown := unknownKeys (Fields.names overrides)
  if !unknown.isEmpty then Act.fail (.unknownKeys unknown)
  let fields := Fields.putAll (← s.fromFile) overrides
  let _ ← Act.ofExcept (Record.make Config.recordName Config.check (.object fields))
  s.store fields
  return fields

end RouteWatch.ConfigSource
