import RouteWatch.Pattern.Basic

/-!
# Matching

`Node.run` tries a tree at a place and hands every place that it reaches, best first, to what
has to follow; the first that is accepted wins. A round of a repetition beyond the least
number is taken only where the round before it started elsewhere, so that rounds which take no
character come to an end.
-/

namespace RouteWatch.Pattern

/-- A place in a text: the characters before it, nearest first, those after it, its position,
and what the groups have taken. -/
structure Place where
  before : List Char
  rest : List Char
  position : Nat
  groups : List (Nat × List Char)

/-- What has to follow a match. -/
abbrev Rest := Place → Option Place

/-- The place after the next character, where that satisfies the test. -/
def Place.next? (s : Place) (test : Char → Bool) : Option Place :=
  match s.rest with
  | c :: cs =>
    if test c then some { s with before := c :: s.before, rest := cs, position := s.position + 1 }
    else none
  | [] => none

/-- The first character of a list is part of a word. -/
def startsWithWord : List Char → Bool
  | c :: _ => Text.isWord c
  | [] => false

/-- The anchor holds at the place. -/
def Anchor.holds (s : Place) : Anchor → Bool
  | .lineStart | .textStart => s.before.isEmpty
  | .lineEnd => s.rest.isEmpty || s.rest == ['\n']
  | .anyLineStart => s.before.isEmpty || s.before.head? == some '\n'
  | .anyLineEnd => s.rest.isEmpty || s.rest.head? == some '\n'
  | .textEnd => s.rest.isEmpty
  | .wordEdge => startsWithWord s.before != startsWithWord s.rest
  | .notWordEdge =>
    !(s.before.isEmpty && s.rest.isEmpty) && startsWithWord s.before == startsWithWord s.rest

/-- Another round may follow `count` of them. -/
def roomFor (most : Option Nat) (count : Nat) : Bool :=
  match most with
  | none => true
  | some m => count < m

/-- Rounds of a repetition, as many as possible first. -/
def loopMost (round : Place → Rest → Option Place) (least : Nat) (most : Option Nat) :
    (fuel count : Nat) → (last : Option Nat) → Place → Rest → Option Place
  | 0, _, _, _, _ => none
  | fuel + 1, count, last, s, k =>
    if count < least then round s fun s' ↦ loopMost round least most fuel (count + 1) last s' k
    else if roomFor most count && last != some s.position then
      match round s fun s' ↦
        loopMost round least most fuel (count + 1) (some s.position) s' k with
      | some r => some r
      | none => k s
    else k s

/-- Rounds of a repetition, as few as possible first. -/
def loopFewest (round : Place → Rest → Option Place) (least : Nat) (most : Option Nat) :
    (fuel count : Nat) → (last : Option Nat) → Place → Rest → Option Place
  | 0, _, _, _, _ => none
  | fuel + 1, count, last, s, k =>
    if count < least then round s fun s' ↦ loopFewest round least most fuel (count + 1) last s' k
    else
      match k s with
      | some r => some r
      | none =>
        if roomFor most count && last != some s.position then
          round s fun s' ↦ loopFewest round least most fuel (count + 1) (some s.position) s' k
        else none

/-- A bound on the rounds of a repetition at a place. -/
def roundLimit (least : Nat) (s : Place) : Nat := least + s.rest.length + 2

/-- Tries a tree at a place: the first place it reaches that what follows accepts. -/
def Node.run : Node → Place → Rest → Option Place
  | .empty, s, k => k s
  | .char fold c, s, k =>
    (s.next? fun d ↦ if fold then Text.sameLetter d c else d == c).bind k
  | .any lineEnd, s, k => (s.next? fun d ↦ lineEnd || d != '\n').bind k
  | .oneOf fold negated members, s, k =>
    (s.next? fun d ↦ members.any (·.holds fold d) != negated).bind k
  | .anchor a, s, k => if a.holds s then k s else none
  | .seq first second, s, k => first.run s fun s' ↦ second.run s' k
  | .alt first second, s, k =>
    match first.run s k with
    | some r => some r
    | none => second.run s k
  | .group index body, s, k =>
    body.run s fun s' ↦
      k { s' with groups := (index, s.rest.take (s'.position - s.position)) :: s'.groups }
  | .repeated least most choice body, s, k =>
    match choice with
    | .most => loopMost body.run least most (roundLimit least s) 0 none s k
    | .fewest => loopFewest body.run least most (roundLimit least s) 0 none s k
    | .only => (loopMost body.run least most (roundLimit least s) 0 none s some).bind k

/-- The first place in a text, from this one on, where the tree matches; the answer is the
place after the match. -/
def Node.searchFrom (node : Node) (before : List Char) (position : Nat) :
    List Char → Option Place
  | [] => node.run ⟨before, [], position, []⟩ some
  | c :: cs =>
    match node.run ⟨before, c :: cs, position, []⟩ some with
    | some r => some r
    | none => node.searchFrom (c :: before) (position + 1) cs

/-- Why a match gives no first group. -/
inductive GroupFault where
  /-- The pattern has no group. -/
  | absent
  /-- The first group took no part in the match. -/
  | unset
  deriving DecidableEq, Repr

/-- What the first group takes in the leftmost match in a line, where there is a match. -/
def firstGroup (p : Pattern) (line : String) : Except GroupFault (Option String) :=
  match p.node.searchFrom [] 0 line.toList with
  | none => .ok none
  | some s =>
    if p.groups = 0 then .error .absent
    else
      match s.groups.lookup 1 with
      | some taken => .ok (some (String.ofList taken))
      | none => .error .unset

end RouteWatch.Pattern
