import RouteWatch.Pattern.Basic
import RouteWatch.Text.Percent

/-!
# Reading patterns

The written form of patterns: characters, `.`, sets in brackets, the classes `\d`, `\s`, `\w`
and their opposites, the anchors `^`, `$`, `\b`, `\B`, `\A`, `\Z`, alternatives, groups
(numbered, named, unnumbered and with the flags `i`, `m`, `s`), and the repetitions `*`, `+`,
`?`, `{m}`, `{m,}`, `{,n}` and `{m,n}`, each followed by `?` for the fewest rounds or `+` for
the most only. A brace that opens no repetition is a character.

Other forms are refused as `Flaw.beyond`, which does not say that the text is no pattern: looking
ahead and behind, references back to a group, groups that depend on another or are matched only
once, repetitions for the most only of what is more than one character, the flags `a`, `t` and `x`,
characters by their names, escapes for half of a surrogate pair or for numbers beyond 31 bits,
characters beyond U+FFFF where case does not count, names of groups in other letters than those of
ASCII, and texts with more than `bracketLimit` opening brackets.
-/

namespace RouteWatch.Pattern

open RouteWatch.Text (digitLimit hexValue? isAsciiDigit readNat)

/-- Why a text is not read as a pattern. -/
inductive Flaw where
  | nothingToRepeat
  | repeatOfRepeat
  | reversedBounds
  | unclosedGroup
  | unopenedGroup
  | unknownGroup
  | badGroupName
  | badFlags
  | unclosedSet
  | badRange
  | badEscape
  /-- The number of rounds of a repetition is too large. -/
  | tooManyRounds
  /-- The number of rounds of a repetition has too many digits. -/
  | tooManyDigits (count : Nat)
  /-- A form that is not read; the text may be a pattern. -/
  | beyond
  deriving DecidableEq, Repr

/-- The number of opening brackets that a text may have. -/
def bracketLimit : Nat := 100

/-- No repetition has as many rounds. -/
def roundsLimit : Nat := 4294967295

/-- How the text of a pattern is understood at a place. -/
structure Flags where
  fold : Bool
  multiline : Bool
  dotAll : Bool

/-- No flag is set. -/
def Flags.none : Flags := ⟨false, false, false⟩

/-- The flags with one more letter set or taken back; `u` changes nothing. -/
def Flags.set (flags : Flags) (on : Bool) : Char → Except Flaw Flags
  | 'i' => .ok { flags with fold := on }
  | 'm' => .ok { flags with multiline := on }
  | 's' => .ok { flags with dotAll := on }
  | 'u' => if on then .ok flags else .error .badFlags
  | 'a' | 't' | 'x' => .error .beyond
  | _ => .error .badFlags

/-- A text that is being read: what is left, the number of groups opened and their names. -/
structure Source where
  rest : List Char
  groups : Nat
  names : List String

/-- The source with less left. -/
def Source.leave (s : Source) (rest : List Char) : Source := { s with rest }

/-- What a repetition would do to a part of a pattern. -/
inductive Role where
  | plain
  | anchor
  | repetition
  deriving DecidableEq

/-- A part of a pattern as it was read. -/
structure Part where
  node : Node
  role : Role

/-- The tree of parts, last first. -/
def sequenceOf (parts : List Part) : Node :=
  parts.foldl (fun node part ↦ match node with
    | .empty => part.node
    | _ => .seq part.node node) .empty

/-- The class that a letter after a backslash names. -/
def kindMember? : Char → Option Member
  | 'd' => some (.kind .digit false)
  | 'D' => some (.kind .digit true)
  | 's' => some (.kind .space false)
  | 'S' => some (.kind .space true)
  | 'w' => some (.kind .word false)
  | 'W' => some (.kind .word true)
  | _ => none

/-- The anchor that a letter after a backslash names. -/
def anchor? : Char → Option Anchor
  | 'A' => some .textStart
  | 'Z' => some .textEnd
  | 'b' => some .wordEdge
  | 'B' => some .notWordEdge
  | _ => none

/-- The control character that a letter after a backslash names. -/
def control? : Char → Option Char
  | 'a' => some '\x07'
  | 'f' => some '\x0c'
  | 'n' => some '\n'
  | 'r' => some '\r'
  | 't' => some '\t'
  | 'v' => some '\x0b'
  | _ => none

/-- An octal digit. -/
def isOctalDigit (c : Char) : Bool := 48 ≤ c.toNat && c.toNat ≤ 55

/-- The number that octal digits stand for. -/
def readOctal (cs : List Char) : Nat := cs.foldl (fun n c ↦ 8 * n + (c.toNat - 48)) 0

/-- The character of a code point, where it is one. -/
def charOf? (n : Nat) : Except Flaw Char :=
  if n.isValidChar then .ok (Char.ofNat n)
  else if 0x110000 ≤ n && n < 0x80000000 then .error .badEscape
  else .error .beyond

/-- The character of exactly `count` hexadecimal digits, and what is left. -/
def hexEscape (count : Nat) (cs : List Char) : Except Flaw (Char × List Char) :=
  let digits := cs.take count
  match digits.mapM hexValue? with
  | some values =>
    if values.length = count then
      (charOf? (values.foldl (fun n v ↦ 16 * n + v) 0)).map fun c ↦ (c, cs.drop count)
    else .error .badEscape
  | none => .error .badEscape

/-- The octal escape at the start of a text, of at most `most` digits, and what is left. -/
def octalEscape (most : Nat) (cs : List Char) : Except Flaw (Char × List Char) :=
  let digits := (cs.take most).takeWhile isOctalDigit
  let n := readOctal digits
  if n > 0o377 then .error .badEscape else .ok (Char.ofNat n, cs.drop digits.length)

/-- The character that an escape stands for, read after its backslash, and what is left. -/
def charEscape (inSet : Bool) : List Char → Except Flaw (Char × List Char)
  | [] => .error .badEscape
  | 'x' :: cs => hexEscape 2 cs
  | 'u' :: cs => hexEscape 4 cs
  | 'U' :: cs => hexEscape 8 cs
  | 'N' :: _ => .error .beyond
  | c :: cs =>
    match control? c with
    | some d => .ok (d, cs)
    | none =>
      if inSet && c = 'b' then .ok ('\x08', cs)
      else if isAsciiDigit c then
        if (inSet && isOctalDigit c) || c = '0' then octalEscape 3 (c :: cs)
        else if inSet then .error .badEscape
        else if ((c :: cs).take 3).length = 3 && ((c :: cs).take 3).all isOctalDigit then
          octalEscape 3 (c :: cs)
        else .error .beyond
      else if c.isAlpha then .error .badEscape
      else .ok (c, cs)

/-- A character that is not read where case does not count. -/
def isFar (c : Char) : Bool := 0xFFFF < c.toNat

/-- The part that matches a character. -/
def charPart (flags : Flags) (c : Char) : Except Flaw Part :=
  if flags.fold && isFar c then .error .beyond else .ok ⟨.char flags.fold c, .plain⟩

/-- The part that an escape stands for, read after its backslash, and what is left. -/
def escape (flags : Flags) : List Char → Except Flaw (Part × List Char)
  | [] => .error .badEscape
  | c :: cs =>
    match kindMember? c with
    | some m => .ok (⟨.oneOf false false [m], .plain⟩, cs)
    | none =>
      match anchor? c with
      | some a => .ok (⟨.anchor a, .anchor⟩, cs)
      | none => do
        let (d, cs) ← charEscape false (c :: cs)
        return (← charPart flags d, cs)

/-- The member of a set at the start of a text, and what is left. -/
def setMember : List Char → Except Flaw (Member × List Char)
  | [] => .error .unclosedSet
  | '\\' :: cs =>
    match cs with
    | [] => .error .badEscape
    | c :: cs' =>
      match kindMember? c with
      | some m => .ok (m, cs')
      | none => (charEscape true cs).map fun (d, cs) ↦ (.one d, cs)
  | c :: cs => .ok (.one c, cs)

/-- The range between two members of a set. -/
def rangeOf : Member → Member → Except Flaw Member
  | .one low, .one high =>
    if high.toNat < low.toNat then .error .badRange else .ok (.range low high)
  | _, _ => .error .badRange

mutual

/-- Reads the members of a set up to its closing bracket; a bracket that comes first is a
member. -/
def setMembers : (fuel : Nat) → (held : List Member) → List Char →
    Except Flaw (List Member × List Char)
  | 0, _, _ => .error .unclosedSet
  | fuel + 1, held, cs =>
    match cs with
    | ']' :: rest =>
      if held.isEmpty then afterMember fuel held (.one ']') rest else .ok (held.reverse, rest)
    | cs =>
      match setMember cs with
      | .error e => .error e
      | .ok (m, rest) => afterMember fuel held m rest

/-- Reads on after a member, which may open a range. -/
def afterMember : (fuel : Nat) → (held : List Member) → Member → List Char →
    Except Flaw (List Member × List Char)
  | 0, _, _, _ => .error .unclosedSet
  | fuel + 1, held, m, cs =>
    match cs with
    | '-' :: ']' :: rest => .ok ((.one '-' :: m :: held).reverse, rest)
    | '-' :: cs =>
      match setMember cs with
      | .error e => .error e
      | .ok (high, rest) =>
        match rangeOf m high with
        | .error e => .error e
        | .ok r => setMembers fuel (r :: held) rest
    | cs => setMembers fuel (m :: held) cs

end

/-- A member that is one such character. -/
def Member.isFar : Member → Bool
  | .one c => Pattern.isFar c
  | _ => false

/-- Reads a set after its opening bracket. -/
def set (flags : Flags) (cs : List Char) : Except Flaw (Part × List Char) :=
  let (negated, body) :=
    match cs with
    | '^' :: body => (true, body)
    | body => (false, body)
  match setMembers (2 * body.length + 2) [] body with
  | .error e => .error e
  | .ok (members, rest) =>
    if flags.fold && members.any Member.isFar then .error .beyond
    else .ok (⟨.oneOf flags.fold negated members, .plain⟩, rest)

/-- The number of rounds that digits stand for. -/
def rounds (ds : List Char) : Except Flaw Nat :=
  if digitLimit < ds.length then .error (.tooManyDigits ds.length)
  else if roundsLimit ≤ readNat ds then .error .tooManyRounds
  else .ok (readNat ds)

/-- The bounds of a repetition: the least number of rounds, and the greatest where there is one. -/
abbrev Bounds := Nat × Option Nat

/-- The bounds that the digits before and after a comma stand for. -/
def boundsOf (low high : List Char) : Except Flaw Bounds := do
  let least ← rounds low
  if high.isEmpty then return (least, none)
  let most ← rounds high
  if most < least then .error .reversedBounds else return (least, some most)

/-- The bounds of a repetition after its opening brace, and what is left; `none` where the
brace is a character. -/
def bounds (cs : List Char) : Option (Except Flaw Bounds × List Char) :=
  let low := cs.takeWhile isAsciiDigit
  match cs.drop low.length with
  | '}' :: rest => if low.isEmpty then none else some (boundsOf low low, rest)
  | ',' :: cs =>
    let high := cs.takeWhile isAsciiDigit
    match cs.drop high.length with
    | '}' :: rest => some (boundsOf low high, rest)
    | _ => none
  | _ => none

/-- The repetition at the start of a text, and what is left. -/
def repetition? (cs : List Char) : Option (Except Flaw Bounds × List Char) :=
  match cs with
  | '*' :: rest => some (.ok (0, none), rest)
  | '+' :: rest => some (.ok (1, none), rest)
  | '?' :: rest => some (.ok (0, some 1), rest)
  | '{' :: rest => bounds rest
  | _ => none

/-- How a repetition chooses, from what stands after it. -/
def choiceAt : List Char → Choice × List Char
  | '?' :: rest => (.fewest, rest)
  | '+' :: rest => (.only, rest)
  | rest => (.most, rest)

/-- The tree matches one character. -/
def Node.isOne : Node → Bool
  | .char _ _ | .any _ | .oneOf _ _ _ => true
  | _ => false

/-- The parts with the last one repeated. -/
def repeatLast (least : Nat) (most : Option Nat) (choice : Choice) :
    List Part → Except Flaw (List Part)
  | [] => .error .nothingToRepeat
  | part :: parts =>
    match part.role with
    | .anchor => .error .nothingToRepeat
    | .repetition => .error .repeatOfRepeat
    | .plain =>
      if choice = .only && !part.node.isOne then .error .beyond
      else .ok (⟨.repeated least most choice part.node, .repetition⟩ :: parts)

/-- A character that a name may go on with. -/
def isNameChar (c : Char) : Bool := c.isAlphanum || c = '_'

/-- The name of a group, which is no other group's. -/
def groupName (name : List Char) (taken : List String) : Except Flaw String :=
  if name.any fun c ↦ 0x7F < c.toNat then .error .beyond
  else if name.all isNameChar && (name.head?.any fun c ↦ !isAsciiDigit c) &&
      !taken.contains (String.ofList name) then .ok (String.ofList name)
  else .error .badGroupName

/-- What a group is, as the text after its opening bracket says. -/
inductive GroupKind where
  | numbered (names : List String)
  | unnumbered (flags : Flags)
  | remark
  | flags (flags : Flags)

/-- Reads the letters of flags that are taken back, up to `:`. None of those in `held`, which were
set before, may be among them. -/
def flagsBack (flags : Flags) (held : List Char) (count : Nat) :
    List Char → Except Flaw (Flags × List Char)
  | [] => .error .badFlags
  | ':' :: rest => if 0 < count then .ok (flags, rest) else .error .badFlags
  | c :: rest =>
    if held.contains c then .error .badFlags
    else
      match flags.set false c with
      | .ok flags => flagsBack flags held (count + 1) rest
      | .error e => .error e

/-- Reads the letters of flags up to `:` or `)`; `held` are those read so far. -/
def flagLetters (flags : Flags) (held : List Char) :
    List Char → Except Flaw (GroupKind × List Char)
  | [] => .error .badFlags
  | ')' :: rest => if held.isEmpty then .error .badFlags else .ok (.flags flags, rest)
  | ':' :: rest => if held.isEmpty then .error .badFlags else .ok (.unnumbered flags, rest)
  | '-' :: rest => (flagsBack flags held 0 rest).map fun (flags, rest) ↦ (.unnumbered flags, rest)
  | c :: rest =>
    match flags.set true c with
    | .ok flags => flagLetters flags (c :: held) rest
    | .error e => .error e

/-- What follows a remark; a bracket after a backslash does not close it. -/
def afterRemark : List Char → Option (List Char)
  | [] => none
  | ')' :: rest => some rest
  | '\\' :: _ :: rest => afterRemark rest
  | _ :: rest => afterRemark rest

/-- Reads what kind of group follows an opening bracket. -/
def groupKind (flags : Flags) (s : Source) : Except Flaw (GroupKind × Source) :=
  match s.rest with
  | '?' :: ':' :: rest => .ok (.unnumbered flags, s.leave rest)
  | '?' :: '#' :: rest =>
    match afterRemark rest with
    | some rest => .ok (.remark, s.leave rest)
    | none => .error .unclosedGroup
  | '?' :: 'P' :: '<' :: rest =>
    let name := rest.takeWhile (· ≠ '>')
    match rest.drop name.length with
    | _ :: rest =>
      (groupName name s.names).map fun name ↦ (.numbered (name :: s.names), s.leave rest)
    | [] => .error .badGroupName
  | '?' :: '=' :: _ | '?' :: '!' :: _ | '?' :: '<' :: '=' :: _ | '?' :: '<' :: '!' :: _
  | '?' :: 'P' :: '=' :: _ | '?' :: '(' :: _ | '?' :: '>' :: _ => .error .beyond
  | '?' :: c :: rest =>
    if "imsuatx-".toList.contains c then
      (flagLetters flags [] (c :: rest)).map fun (kind, rest) ↦ (kind, s.leave rest)
    else .error .unknownGroup
  | ['?'] => .error .unknownGroup
  | _ => .ok (.numbered s.names, s)

mutual

/-- Reads alternatives up to a closing bracket or the end. -/
def alternatives : (fuel : Nat) → Flags → Source → Except Flaw (Node × Source)
  | 0, _, _ => .error .unclosedGroup
  | fuel + 1, flags, s =>
    match parts fuel flags [] s with
    | .error e => .error e
    | .ok (node, s) =>
      match s.rest with
      | '|' :: rest =>
        match alternatives fuel flags (s.leave rest) with
        | .error e => .error e
        | .ok (other, s) => .ok (.alt node other, s)
      | _ => .ok (node, s)

/-- Reads parts up to a bar, a closing bracket or the end; `held` are those read so far, last
first. Flags for the whole pattern have no place here. -/
def parts : (fuel : Nat) → Flags → (held : List Part) → Source → Except Flaw (Node × Source)
  | 0, _, _, _ => .error .unclosedGroup
  | fuel + 1, flags, held, s =>
    match repetition? s.rest with
    -- a backslash that ends the text is found before the bounds are looked at
    | some (.error e, rest) => .error (if rest = ['\\'] then .badEscape else e)
    | some (.ok (least, most), rest) =>
      let (choice, rest) := choiceAt rest
      match repeatLast least most choice held with
      | .error e => .error e
      | .ok held => parts fuel flags held (s.leave rest)
    | none =>
      match s.rest with
      | [] => .ok (sequenceOf held, s)
      | '|' :: _ | ')' :: _ => .ok (sequenceOf held, s)
      | '\\' :: rest =>
        match escape flags rest with
        | .error e => .error e
        | .ok (part, rest) => parts fuel flags (part :: held) (s.leave rest)
      | '[' :: rest =>
        match set flags rest with
        | .error e => .error e
        | .ok (part, rest) => parts fuel flags (part :: held) (s.leave rest)
      | '.' :: rest =>
        parts fuel flags (⟨.any flags.dotAll, .plain⟩ :: held) (s.leave rest)
      | '^' :: rest =>
        let a := if flags.multiline then Anchor.anyLineStart else .lineStart
        parts fuel flags (⟨.anchor a, .anchor⟩ :: held) (s.leave rest)
      | '$' :: rest =>
        let a := if flags.multiline then Anchor.anyLineEnd else .lineEnd
        parts fuel flags (⟨.anchor a, .anchor⟩ :: held) (s.leave rest)
      | '(' :: rest =>
        match groupKind flags (s.leave rest) with
        | .error e => .error e
        | .ok (.remark, s) => parts fuel flags held s
        | .ok (.flags _, _) => .error .badFlags
        | .ok (.unnumbered inner, s) =>
          match closed (alternatives fuel inner s) with
          | .error e => .error e
          | .ok (node, s) => parts fuel flags (⟨node, .plain⟩ :: held) s
        | .ok (.numbered names, s) =>
          let index := s.groups + 1
          match closed (alternatives fuel flags { s with groups := index, names }) with
          | .error e => .error e
          | .ok (node, s) => parts fuel flags (⟨.group index node, .plain⟩ :: held) s
      | c :: rest =>
        match charPart flags c with
        | .error e => .error e
        | .ok part => parts fuel flags (part :: held) (s.leave rest)

/-- What was read, where a closing bracket follows. -/
def closed (read : Except Flaw (Node × Source)) : Except Flaw (Node × Source) :=
  match read with
  | .error e => .error e
  | .ok (node, s) =>
    match s.rest with
    | ')' :: rest => .ok (node, s.leave rest)
    | _ => .error .unclosedGroup

end

/-- The flags at the start of a pattern, which hold for all of it, and what is left; remarks may
stand among them. -/
def leadingFlags : (fuel : Nat) → Flags → List Char → Flags × List Char
  | 0, flags, cs => (flags, cs)
  | fuel + 1, flags, cs =>
    match cs with
    | '(' :: rest =>
      match groupKind flags ⟨rest, 0, []⟩ with
      | .ok (.flags flags, s) => leadingFlags fuel flags s.rest
      | .ok (.remark, s) => leadingFlags fuel flags s.rest
      | _ => (flags, cs)
    | _ => (flags, cs)

/-- The pattern that a text writes. -/
def read (text : String) : Except Flaw Pattern :=
  let (flags, cs) := leadingFlags text.length Flags.none text.toList
  if bracketLimit < text.toList.count '(' then .error .beyond
  else
    match alternatives (2 * cs.length + 2) flags ⟨cs, 0, []⟩ with
    | .error e => .error e
    | .ok (node, s) =>
      match s.rest with
      | [] => .ok ⟨node, s.groups⟩
      | _ => .error .unopenedGroup

end RouteWatch.Pattern
