import RouteWatch.Json.Basic
import RouteWatch.Text.Digit
import RouteWatch.Text.Percent

/-!
# Reading JSON

`Json.read` reads a text that holds one JSON value. Besides the standard grammar it takes
`NaN`, `Infinity` and `-Infinity`; of two fields with one name the place is the first's and
the value the last's. A refusal names its reason and the number of characters before the place.

Two kinds of JSON texts are refused although they may stand for a value. One has an escape for
half of a surrogate pair: a `String` holds characters, and half of a pair is none. The other nests
lists and objects deeper than `nestingLimit`: readers that go into a value by recursion give up at
a depth that depends on what called them, and the limit lies well below it.
-/

namespace RouteWatch.Json

open RouteWatch.Text (digitLimit isAsciiDigit readNat hexValue?)

/-- What is wrong with a text that is no JSON value. -/
inductive Flaw where
  | expectingValue
  | expectingName
  | expectingColon
  | expectingComma
  | extraData
  | controlCharacter
  | invalidEscape
  | invalidUnicodeEscape
  | unterminatedString
  | byteOrderMark
  deriving DecidableEq, Repr

/-- The wording of a flaw. -/
def Flaw.message : Flaw → String
  | .expectingValue => "Expecting value"
  | .expectingName => "Expecting property name enclosed in double quotes"
  | .expectingColon => "Expecting ':' delimiter"
  | .expectingComma => "Expecting ',' delimiter"
  | .extraData => "Extra data"
  | .controlCharacter => "Invalid control character at"
  | .invalidEscape => "Invalid \\escape"
  | .invalidUnicodeEscape => "Invalid \\uXXXX escape"
  | .unterminatedString => "Unterminated string starting at"
  | .byteOrderMark => "Unexpected UTF-8 BOM (decode using utf-8-sig)"

/-- What a JSON text may hold that is not read. -/
inductive Limit where
  /-- An escape for half of a surrogate pair. -/
  | halfPair
  /-- Lists and objects within one another, more than `nestingLimit` of them. -/
  | nesting
  deriving DecidableEq, Repr

/-- The number of lists and objects that may stand within one another. -/
def nestingLimit : Nat := 500

/-- Why a text could not be read: a flaw at a position, an integer of too many digits, or something
that is beyond the limits of what is read. -/
inductive Refusal where
  | flaw (reason : Flaw) (position : Nat)
  | tooManyDigits (count : Nat)
  | beyond (limit : Limit)
  deriving DecidableEq, Repr

/-- The message about a flaw, with its line and column in the text. -/
def flawMessage (reason : Flaw) (text : String) (position : Nat) : String :=
  let before := text.toList.take position
  let line := before.count '\n' + 1
  let column := (before.reverse.takeWhile (· ≠ '\n')).length + 1
  reason.message ++ ": line " ++ toString line ++ " column " ++ toString column ++
    " (char " ++ toString position ++ ")"

/-- What is left of a text, and how many characters came before it. -/
structure Cursor where
  rest : List Char
  position : Nat

/-- What a reading step gives: its value and what is left, or a refusal. -/
abbrev Step (α : Type) := Except Refusal (α × Cursor)

/-- A blank between the parts of a value. -/
def isGap (c : Char) : Bool := c == ' ' || c == '\t' || c == '\n' || c == '\r'

/-- The place after the next `n` characters. -/
def Cursor.skip (c : Cursor) (n : Nat) : Cursor := ⟨c.rest.drop n, c.position + n⟩

/-- The place after the blanks that follow. -/
def Cursor.skipGaps (c : Cursor) : Cursor := c.skip (c.rest.takeWhile isGap).length

/-- A refusal at this place. -/
def Cursor.refuse {α : Type} (c : Cursor) (reason : Flaw) : Step α :=
  .error (.flaw reason c.position)

/-- The character that an escape of one character stands for. -/
def simpleEscape? : Char → Option Char
  | '"' => some '"'
  | '\\' => some '\\'
  | '/' => some '/'
  | 'b' => some '\x08'
  | 'f' => some '\x0c'
  | 'n' => some '\n'
  | 'r' => some '\r'
  | 't' => some '\t'
  | _ => none

/-- The number that four hexadecimal digits stand for. -/
def hex4? (a b c d : Char) : Option Nat := do
  let a ← hexValue? a
  let b ← hexValue? b
  let c ← hexValue? c
  let d ← hexValue? d
  return ((a * 16 + b) * 16 + c) * 16 + d

/-- A first half of a surrogate pair. -/
def isHighSurrogate (n : Nat) : Bool := 0xD800 ≤ n && n ≤ 0xDBFF

/-- A second half of a surrogate pair. -/
def isLowSurrogate (n : Nat) : Bool := 0xDC00 ≤ n && n ≤ 0xDFFF

/-- The character of a surrogate pair. -/
def joinSurrogates (high low : Nat) : Char :=
  Char.ofNat (0x10000 + (high - 0xD800) * 0x400 + (low - 0xDC00))

/-- The character of a UTF-16 unit that is no half of a pair. -/
def unitChar (n : Nat) : Except Refusal Char :=
  if isHighSurrogate n || isLowSurrogate n then .error (.beyond .halfPair) else .ok (Char.ofNat n)

/-- The number of an escape of four digits, where a text starts with one and goes on after
it; the inner option tells whether its digits are such. -/
def nextEscape? : List Char → Option (Option Nat)
  | '\\' :: 'u' :: a :: b :: c :: d :: _ :: _ => some (hex4? a b c d)
  | _ => none

/-- The character that a text's leading escape of four digits stands for, or a pair of such
escapes, and the number of characters they take. -/
def unicodeEscape (position : Nat) (cs : List Char) : Except Refusal (Char × Nat) :=
  match nextEscape? cs with
  | none | some none => .error (.flaw .invalidUnicodeEscape (position + 1))
  | some (some high) =>
    if isHighSurrogate high then
      match nextEscape? (cs.drop 6) with
      | none => .error (.beyond .halfPair)
      | some none => .error (.flaw .invalidUnicodeEscape (position + 7))
      | some (some low) =>
        if isLowSurrogate low then .ok (joinSurrogates high low, 12)
        else .error (.beyond .halfPair)
    else (unitChar high).map fun c ↦ (c, 6)

/-- The character that a text's leading escape stands for, and the number of characters the
escape takes. -/
def escape (start position : Nat) (cs : List Char) : Except Refusal (Char × Nat) :=
  match cs.drop 1 with
  | [] => .error (.flaw .unterminatedString start)
  | 'u' :: _ => unicodeEscape position cs
  | e :: _ =>
    match simpleEscape? e with
    | some c => .ok (c, 2)
    | none => .error (.flaw .invalidEscape position)

/-- Reads on within a string whose opening quote is at `start`; `held` are the characters
read so far, last first. -/
def stringFrom (start : Nat) (held : List Char) (position : Nat) : List Char → Step String
  | [] => .error (.flaw .unterminatedString start)
  | c :: rest =>
    if c = '"' then .ok (String.ofList held.reverse, ⟨rest, position + 1⟩)
    else if c = '\\' then
      match escape start position (c :: rest) with
      | .error e => .error e
      | .ok (c, size) => stringFrom start (c :: held) (position + size) (rest.drop (size - 1))
    else if c.toNat < 0x20 then .error (.flaw .controlCharacter position)
    else stringFrom start (c :: held) (position + 1) rest
termination_by rest => rest.length
decreasing_by
  all_goals simp only [List.length_cons, List.length_drop]
  all_goals omega

/-- Reads a string after its opening quote. -/
def string (c : Cursor) : Step String := stringFrom (c.position - 1) [] c.position c.rest

/-- The digits of a number: those before the point, and those after it and the exponent where
the number has them. -/
structure Numeral where
  negative : Bool
  whole : List Char
  decimals : Option (List Char)
  exponent : Option Int

/-- The digits after a point at the start of a text. -/
def Numeral.decimalsOf (rest : List Char) : Option (List Char) :=
  match rest with
  | '.' :: d :: ds => if isAsciiDigit d then some (d :: ds.takeWhile isAsciiDigit) else none
  | _ => none

/-- The exponent at the start of a text, and the number of characters it takes. -/
def Numeral.exponentOf (rest : List Char) : Option (Int × Nat) :=
  match rest with
  | e :: s =>
    if e = 'e' || e = 'E' then
      let (negative, digits, signs) :=
        match s with
        | '-' :: ds => (true, ds.takeWhile isAsciiDigit, 1)
        | '+' :: ds => (false, ds.takeWhile isAsciiDigit, 1)
        | ds => (false, ds.takeWhile isAsciiDigit, 0)
      if digits.isEmpty then none
      else
        let n : Int := readNat digits
        some (if negative then -n else n, 1 + signs + digits.length)
    else none
  | [] => none

/-- The digits of a number before its point: a zero, or all that follow one another. -/
def Numeral.wholeOf : List Char → List Char
  | '0' :: _ => ['0']
  | ds => ds.takeWhile isAsciiDigit

/-- The number of characters that the digits after a point take together with the point. -/
def Numeral.decimalSize : Option (List Char) → Nat
  | some ds => ds.length + 1
  | none => 0

/-- The number of characters that an exponent takes. -/
def Numeral.exponentSize : Option (Int × Nat) → Nat
  | some (_, n) => n
  | none => 0

/-- The number at a place after its sign, and how many characters it takes from there. -/
def Numeral.afterSign (negative : Bool) (body : List Char) : Option (Numeral × Nat) :=
  let whole := Numeral.wholeOf body
  if whole.isEmpty then none
  else
    let afterWhole := body.drop whole.length
    let decimals := Numeral.decimalsOf afterWhole
    let decimalSize := Numeral.decimalSize decimals
    let exponent := Numeral.exponentOf (afterWhole.drop decimalSize)
    some (⟨negative, whole, decimals, exponent.map Prod.fst⟩,
      whole.length + decimalSize + Numeral.exponentSize exponent)

/-- The number at a place, and how many characters it takes. -/
def Numeral.at? : List Char → Option (Numeral × Nat)
  | '-' :: body => (Numeral.afterSign true body).map fun (n, size) ↦ (n, size + 1)
  | body => Numeral.afterSign false body

/-- The value of a number: an integer unless it has a point or an exponent. -/
def Numeral.value (n : Numeral) : Except Refusal Json :=
  if n.decimals.isNone && n.exponent.isNone then
    if digitLimit < n.whole.length then .error (.tooManyDigits n.whole.length)
    else
      let m : Int := readNat n.whole
      .ok (.int (if n.negative then -m else m))
  else
    let decimals := n.decimals.getD []
    .ok (.real (Binary64.ofDecimal n.negative (readNat (n.whole ++ decimals))
      (n.exponent.getD 0 - decimals.length)))

/-- Reads a number. -/
def number (c : Cursor) : Step Json :=
  match Numeral.at? c.rest with
  | none => c.refuse .expectingValue
  | some (n, size) => n.value.map fun v ↦ (v, c.skip size)

/-- The values that a word stands for. -/
def words : List (List Char × Json) := [
  ("null".toList, .null),
  ("true".toList, .bool true),
  ("false".toList, .bool false),
  ("NaN".toList, .real Binary64.nan),
  ("Infinity".toList, .real Binary64.infinity),
  ("-Infinity".toList, .real Binary64.infinity.neg)]

/-- The word at the start of a text. -/
def word? (rest : List Char) : Option (List Char × Json) :=
  words.find? fun w ↦ w.1.isPrefixOf rest

/-- Reads on within a list or an object; `room` tells how many may still be gone into. -/
def enter (room : Nat) (read : Nat → Step Json) : Step Json :=
  match room with
  | 0 => .error (.beyond .nesting)
  | room + 1 => read room

mutual

/-- Reads a value; `room` more lists and objects may stand within one another. -/
def value : (fuel room : Nat) → Cursor → Step Json
  | 0, _, c => c.refuse .expectingValue
  | fuel + 1, room, c =>
    match c.rest with
    | '"' :: _ => (string (c.skip 1)).map fun (s, c) ↦ (.text s, c)
    | '{' :: _ => enter room fun room ↦
      let c := (c.skip 1).skipGaps
      match c.rest with
      | '}' :: _ => .ok (.object [], c.skip 1)
      | _ => fields fuel room [] c
    | '[' :: _ => enter room fun room ↦
      let c := (c.skip 1).skipGaps
      match c.rest with
      | ']' :: _ => .ok (.list [], c.skip 1)
      | _ => items fuel room [] c
    | _ =>
      match word? c.rest with
      | some (w, v) => .ok (v, c.skip w.length)
      | none => number c

/-- Reads the items of a list up to its end; `held` are those read so far, last first. -/
def items : (fuel room : Nat) → (held : List Json) → Cursor → Step Json
  | 0, _, _, c => c.refuse .expectingValue
  | fuel + 1, room, held, c =>
    match value fuel room c with
    | .error e => .error e
    | .ok (v, c) =>
      let c := c.skipGaps
      match c.rest with
      | ']' :: _ => .ok (.list (v :: held).reverse, c.skip 1)
      | ',' :: _ => items fuel room (v :: held) (c.skip 1).skipGaps
      | _ => c.refuse .expectingComma

/-- Reads the fields of an object up to its end, after those in `held`. -/
def fields : (fuel room : Nat) → (held : Fields) → Cursor → Step Json
  | 0, _, _, c => c.refuse .expectingName
  | fuel + 1, room, held, c =>
    match c.rest with
    | '"' :: _ =>
      match string (c.skip 1) with
      | .error e => .error e
      | .ok (name, c) =>
        let c := c.skipGaps
        match c.rest with
        | ':' :: _ =>
          match value fuel room (c.skip 1).skipGaps with
          | .error e => .error e
          | .ok (v, c) =>
            let c := c.skipGaps
            let held := Fields.put held name v
            match c.rest with
            | '}' :: _ => .ok (.object held, c.skip 1)
            | ',' :: _ => fields fuel room held (c.skip 1).skipGaps
            | _ => c.refuse .expectingComma
        | _ => c.refuse .expectingColon
    | _ => c.refuse .expectingName

end

/-- The value that a text holds. -/
def read (text : String) : Except Refusal Json :=
  let cs := text.toList
  match cs with
  | '\ufeff' :: _ => .error (.flaw .byteOrderMark 0)
  | _ =>
    let start : Cursor := (⟨cs, 0⟩ : Cursor).skipGaps
    match value (2 * cs.length + 2) nestingLimit start with
    | .error e => .error e
    | .ok (v, c) =>
      let c := c.skipGaps
      match c.rest with
      | [] => .ok v
      | _ => .error (.flaw .extraData c.position)

end RouteWatch.Json
