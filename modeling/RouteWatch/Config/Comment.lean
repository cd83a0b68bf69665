import RouteWatch.Config.Settings
import RouteWatch.Files.Reading
import RouteWatch.Text.Space

/-!
# The comment of an annotation

The comment is read from a file where the configuration names one, and is the one of the
configuration where the file cannot be read or holds only blanks. Bytes that are no UTF-8 and a
name with a NUL character are failures.
-/

namespace RouteWatch

/-- The comment that the configuration gives. -/
def Config.readComment (c : Config) : Act Tree String := do
  match c.commentPath.filter (· ≠ "") with
  | none => return c.comment
  | some name =>
    let path := Path.ofText name
    match (← Act.state).readText path path.text with
    | .ok text =>
      let body := Text.strip text
      return if body = "" then c.comment else body
    | .error (.file fault) =>
      Act.warn ("[Config] Cannot read comment body " ++ name ++ ": " ++ fault.message)
      return c.comment
    | .error fault => Act.fail fault.failure

end RouteWatch
