import RouteWatch.Text.Case
import RouteWatch.Text.Digit
import RouteWatch.Text.Space
import RouteWatch.Text.Word

/-!
# Patterns

A pattern is a regular expression over characters with numbered groups. `Node` is its tree,
`Pattern` the tree with the number of its groups.
-/

namespace RouteWatch

namespace Pattern

/-- A class of characters with a name of its own. -/
inductive Kind where
  | digit
  | space
  | word
  deriving DecidableEq, Repr

/-- The character belongs to the class. -/
def Kind.holds : Kind → Char → Bool
  | .digit, c => Text.isDigit c
  | .space, c => Text.isSpace c
  | .word, c => Text.isWord c

/-- One member of a set of characters. -/
inductive Member where
  | one (c : Char)
  | range (low high : Char)
  | kind (kind : Kind) (negated : Bool)
  deriving DecidableEq, Repr

/-- The character is covered by the member; with `fold` a character equal to it up to case
counts too. -/
def Member.holds (fold : Bool) (c : Char) : Member → Bool
  | .one d => if fold then Text.sameLetter c d else c == d
  | .range low high =>
    let within (n : Nat) : Bool := low.toNat ≤ n && n ≤ high.toNat
    if fold then (Text.caseVariants c.toNat).any within else within c.toNat
  | .kind k negated => k.holds c != negated

/-- A place in a text, described by what stands around it. -/
inductive Anchor where
  | lineStart
  | lineEnd
  | anyLineStart
  | anyLineEnd
  | textStart
  | textEnd
  | wordEdge
  | notWordEdge
  deriving DecidableEq, Repr

/-- How a repetition chooses among the numbers of rounds that it may take. -/
inductive Choice where
  /-- As many as possible, fewer where the rest does not match. -/
  | most
  /-- As few as possible, more where the rest does not match. -/
  | fewest
  /-- As many as possible and no other number. -/
  | only
  deriving DecidableEq, Repr

/-- The tree of a pattern. -/
inductive Node where
  | empty
  | char (fold : Bool) (c : Char)
  /-- Any character; a line end only where `lineEnd` holds. -/
  | any (lineEnd : Bool)
  | oneOf (fold negated : Bool) (members : List Member)
  | anchor (anchor : Anchor)
  | seq (first second : Node)
  | alt (first second : Node)
  | group (index : Nat) (body : Node)
  | repeated (least : Nat) (most : Option Nat) (choice : Choice) (body : Node)
  deriving Repr

end Pattern

/-- A pattern: its tree and the number of its groups. -/
structure Pattern where
  node : Pattern.Node
  groups : Nat

end RouteWatch
