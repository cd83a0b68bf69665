import RouteWatch.Pattern.Match
import RouteWatch.Route.Block
import RouteWatch.Text.Lines

/-!
# Scanning for route blocks

The first line that declares a router fixes the identifier of the router, and every later line
that begins with the identifier and a point opens a block. A block ends at its own line where
that closes it, else at the first later line that closes a block; lines in between belong to
it whatever they hold. A block that no line closes goes on to the end of the file.
-/

namespace RouteWatch

open RouteWatch.Pattern (GroupFault)
open RouteWatch.Text (isSpace strip unlines)

/-- The text that ends a declaration. -/
def terminator : List Char := [')', ';']

/-- A text occurs in a list of characters. -/
def occursIn (sought : List Char) : List Char → Bool
  | [] => sought.isEmpty
  | c :: cs => sought.isPrefixOf (c :: cs) || occursIn sought cs

/-- The line ends a block of several lines: the terminator occurs in it, be it within a string
or a nested call. -/
def closesBlock (line : String) : Bool := occursIn terminator line.toList

/-- The first line of a block also ends it: the terminator stands at its end. -/
def closesSingleLine (line : String) : Bool := terminator.isSuffixOf (strip line).toList

/-- The line begins with the identifier and a point, blanks before them aside. -/
def startsBlock (identifier : List Char) : List Char → Bool
  | [] => false
  | c :: cs =>
    (identifier ++ ['.']).isPrefixOf (c :: cs) || (isSpace c && startsBlock identifier cs)

/-- How a file is scanned: what a line declares, and which lines end a block. -/
structure Scanner where
  declares : String → Except GroupFault (Option String)
  closes : String → Bool
  closesSingle : String → Bool

namespace Scanner

/-- The scanner whose declarations are the matches of a pattern. -/
def ofPattern (p : Pattern) : Scanner := ⟨p.firstGroup, closesBlock, closesSingleLine⟩

mutual

/-- The blocks in the lines from number `n` on, outside of a block. -/
def blocksFrom (s : Scanner) (identifier : List Char) (n : Nat) : List String → List Block
  | [] => []
  | l :: ls =>
    if !startsBlock identifier l.toList then blocksFrom s identifier (n + 1) ls
    else if s.closesSingle l then
      ⟨n, n, l, .singleLine⟩ :: blocksFrom s identifier (n + 1) ls
    else openFrom s identifier n [l] (n + 1) ls

/-- The blocks in the lines from number `n` on, within a block that began at `start`; `held`
are its lines so far, last first. -/
def openFrom (s : Scanner) (identifier : List Char) (start : Nat) (held : List String)
    (n : Nat) : List String → List Block
  | [] => [⟨start, n - 1, unlines held.reverse, .incomplete⟩]
  | l :: ls =>
    if s.closes l then
      ⟨start, n, unlines (l :: held).reverse, .multiLine⟩ :: blocksFrom s identifier (n + 1) ls
    else openFrom s identifier start (l :: held) (n + 1) ls

end

/-- The blocks in the lines from number `n` on, where no declaration has been seen. -/
def declaredFrom (s : Scanner) (n : Nat) : List String → Except GroupFault (List Block)
  | [] => .ok []
  | l :: ls =>
    match s.declares l with
    | .error e => .error e
    | .ok none => declaredFrom s (n + 1) ls
    | .ok (some identifier) => .ok (s.blocksFrom identifier.toList (n + 1) ls)

/-- The blocks of a file; an identifier that is given and not empty stands for a declaration
before the first line. -/
def scan (s : Scanner) (identifier : Option String) (lines : List String) :
    Except GroupFault (List Block) :=
  match identifier with
  | some name =>
    if name = "" then s.declaredFrom 1 lines else .ok (s.blocksFrom name.toList 1 lines)
  | none => s.declaredFrom 1 lines

end Scanner

end RouteWatch
