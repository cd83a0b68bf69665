import RouteWatch.Action.Basic

/-!
# Backends

Everything that a review run talks to: the revisions of a change, its files, their contents and
diffs, its annotations, and the two ways to call for attention.
-/

namespace RouteWatch

/-- What a run talks to, as actions on a state. -/
structure Backend (σ : Type) where
  /-- The base and the head revision of a change. -/
  revisions : Token → Act σ Revisions
  /-- The paths of the files that a change touches, in order. -/
  changedFiles : Token → Act σ (List Token)
  /-- The content of a file in a revision. -/
  content : String → Token → Act σ String
  /-- The diff of a file between two revisions. -/
  diff : String → Revisions → Act σ String
  /-- The annotations that stand at a change. -/
  annotations : Token → Act σ (List Annotation)
  /-- Creates an annotation at a change and gives its identifier. -/
  create : Token → Draft → Act σ Token
  /-- Requests changes with a comment. -/
  requestChanges : Token → String → Act σ Unit
  /-- Makes sure that a change carries a label. -/
  ensureLabel : Token → String → Act σ Unit

end RouteWatch
