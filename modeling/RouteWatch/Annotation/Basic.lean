/-!
# Annotations

An annotation is a comment at a line of a file in a change, on one side of the diff. A draft
is an annotation that is still to be created. Its key says where it stands in the base
revision; drafts and annotations of one key count as the same.
-/

namespace RouteWatch

/-- A side of a diff. -/
inductive Side where
  /-- The base revision. -/
  | left
  /-- The head revision. -/
  | right
  deriving DecidableEq, Repr

/-- The name of a side. -/
def Side.name : Side → String
  | .left => "LEFT"
  | .right => "RIGHT"

/-- Both sides with their names. -/
def Side.choices : List (String × Side) := [("LEFT", .left), ("RIGHT", .right)]

/-- A comment that stands at a change. -/
structure Annotation where
  path : String
  line : Option Int
  body : String
  author : Option String
  side : Side
  id : Option Int
  deriving DecidableEq, Repr

/-- A comment to be created: `line` counts in the revision of its side, `baseLine` in the base
revision. -/
structure Draft where
  path : String
  line : Int
  body : String
  side : Side
  baseLine : Option Int
  deriving DecidableEq, Repr

/-- What makes two annotations the same: the file, the line of the base revision and the
side. -/
structure AnnotationKey where
  path : String
  line : Int
  side : Side
  deriving DecidableEq, Repr

/-- The key of a draft. -/
def Draft.key (d : Draft) : AnnotationKey := ⟨d.path, d.baseLine.getD d.line, d.side⟩

end RouteWatch
