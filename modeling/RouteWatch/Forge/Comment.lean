import RouteWatch.Record.Reading

/-!
# Comments of a forge

A forge lists the comments on a change as objects. `annotationOf` makes an annotation from one;
where the comment has no line of its own any more, the line that it was made at stands in.
-/

namespace RouteWatch.Forge

/-- The field of an object, or null. -/
def fieldOrNull (fields : Fields) (name : String) : Json := (Fields.get? fields name).getD .null

/-- A value, or a default in place of a blank one. -/
def orDefault (v default : Json) : Json := if v.isBlank then default else v

/-- The name of the user who made a comment. -/
def loginOf (user : Json) : Except Failure Json :=
  if user.isBlank then .ok .null
  else
    match user with
    | .object fields => .ok (fieldOrNull fields "login")
    | _ => .error (.misfit .noProperty)

/-- The side that a comment names; without one it is the right side. -/
def sideOf (v : Json) : Except Failure Side :=
  let name := orDefault v (.text "RIGHT")
  match name with
  | .text s =>
    match Side.choices.lookup s with
    | some side => .ok side
    | none => .error (.noSide name)
  | _ => .error (.noSide name)

/-- The annotation that a comment is. -/
def annotationOf : Json → Except Failure Annotation
  | .object comment => do
    let line := fieldOrNull comment "line"
    let line := if line = .null then fieldOrNull comment "original_line" else line
    let author ← loginOf (fieldOrNull comment "user")
    let side ← sideOf (fieldOrNull comment "side")
    Record.make "Annotation" Record.annotationCheck (.object [
      ("file_path", (Fields.get? comment "path").getD (.text "")), ("line", line),
      ("body", orDefault (fieldOrNull comment "body") (.text "")), ("author", author),
      ("side", .text side.name), ("id", fieldOrNull comment "id")])
  | _ => .error (.misfit .noProperty)

end RouteWatch.Forge
