import RouteWatch.Diff.Alignment

/-!
# Edits

`edits` lists how a first text becomes a second: stretches that stay, are replaced, deleted or
inserted, which together cover both texts. `groups` cuts the list into groups with at most
`context` kept lines at either end, so that each group becomes one hunk of a diff.
-/

namespace RouteWatch.Diff

/-- What happens to a stretch of lines. -/
inductive Change where
  | keep
  | replace
  | delete
  | insert
  deriving DecidableEq, Repr

/-- A stretch of both texts: the positions from `left` up to `leftEnd` in the first and from
`right` up to `rightEnd` in the second. -/
structure Edit where
  change : Change
  left : Int
  leftEnd : Int
  right : Int
  rightEnd : Int
  deriving DecidableEq, Repr

/-- The edit between two common runs, from one position up to another. -/
def gap (i j i' j' : Nat) : List Edit :=
  if i < i' ∧ j < j' then [⟨.replace, i, i', j, j'⟩]
  else if i < i' then [⟨.delete, i, i', j, j'⟩]
  else if j < j' then [⟨.insert, i, i', j, j'⟩]
  else []

/-- The edits from a position on, given the common runs that follow and the sizes of both
texts. -/
def editsFrom (sizeA sizeB i j : Nat) : List Run → List Edit
  | [] => gap i j sizeA sizeB
  | r :: rs =>
    gap i j r.left r.right ++
      ⟨.keep, r.left, r.left + r.size, r.right, r.right + r.size⟩ ::
        editsFrom sizeA sizeB (r.left + r.size) (r.right + r.size) rs

/-- How a first text becomes a second. -/
def edits (a b : List String) : List Edit :=
  editsFrom a.length b.length 0 0 (commonRuns a b)

/-- A kept stretch without its lines but the last `context`. -/
def Edit.keepTail (e : Edit) (context : Int) : Edit :=
  { e with left := max e.left (e.leftEnd - context), right := max e.right (e.rightEnd - context) }

/-- A kept stretch without its lines but the first `context`. -/
def Edit.keepHead (e : Edit) (context : Int) : Edit :=
  { e with
    leftEnd := min e.leftEnd (e.left + context), rightEnd := min e.rightEnd (e.right + context) }

/-- Edits with a kept stretch at the start cut down to its last lines. -/
def trimStart (context : Int) : List Edit → List Edit
  | [] => []
  | e :: es => if e.change = .keep then e.keepTail context :: es else e :: es

/-- Edits with a kept stretch at the end cut down to its first lines. -/
def trimEnd (context : Int) : List Edit → List Edit
  | [] => []
  | [e] => if e.change = .keep then [e.keepHead context] else [e]
  | e :: es => e :: trimEnd context es

/-- Groups of edits; `held` is the group that is being filled, last edit first. A kept stretch
of more than twice `context` lines ends one group and begins the next. A last group that
changes nothing is left out. -/
def groupsFrom (context : Int) (held : List Edit) : List Edit → List (List Edit)
  | [] =>
    match held with
    | [] => []
    | [e] => if e.change = .keep then [] else [[e]]
    | held => [held.reverse]
  | e :: es =>
    if e.change = .keep ∧ context + context < e.leftEnd - e.left then
      (e.keepHead context :: held).reverse :: groupsFrom context [e.keepTail context] es
    else groupsFrom context (e :: held) es

/-- The edits of two texts in groups, one for each hunk. Of two texts without lines the one
edit keeps a line that is not there. -/
def groups (context : Int) (a b : List String) : List (List Edit) :=
  let all := match edits a b with
    | [] => [⟨.keep, 0, 1, 0, 1⟩]
    | es => es
  groupsFrom context [] (trimEnd context (trimStart context all))

end RouteWatch.Diff
