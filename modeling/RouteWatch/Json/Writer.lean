import RouteWatch.Json.Basic
import RouteWatch.Number.Shortest
import RouteWatch.Text.Quoted

/-!
# Writing JSON

`Json.write` prints a value in a style: with or without line breaks, and with every character
beyond ASCII as an escape or as it is. `Json.literal` is the short form in which messages show
a value, and `Json.plain` the same with text as it is.
-/

namespace RouteWatch.Json

open RouteWatch.Text (hex quoted showInt)

/-- How a value is printed: the number of spaces that each level is indented by, where lines
are broken at all, and whether only printable ASCII is written. -/
structure Style where
  indent : Option Nat
  asciiOnly : Bool

/-- The style of a stored configuration: two spaces, ASCII only. -/
def Style.stored : Style := ⟨some 2, true⟩

/-- The style of a printed report: two spaces, characters as they are. -/
def Style.report : Style := ⟨some 2, false⟩

/-- The style of a single line, characters as they are. -/
def Style.line : Style := ⟨none, false⟩

/-- The escape of a UTF-16 unit. -/
def unitEscape (n : Nat) : List Char := '\\' :: 'u' :: hex 4 n

/-- The escape of a character, as a surrogate pair where it needs one. -/
def charEscape (c : Char) : List Char :=
  let n := c.toNat
  if n < 0x10000 then unitEscape n
  else unitEscape (0xD800 + (n - 0x10000) / 0x400) ++ unitEscape (0xDC00 + (n - 0x10000) % 0x400)

/-- A character within a string. -/
def stringChar (asciiOnly : Bool) (c : Char) : List Char :=
  if c = '"' then ['\\', '"']
  else if c = '\\' then ['\\', '\\']
  else if c = '\n' then ['\\', 'n']
  else if c = '\r' then ['\\', 'r']
  else if c = '\t' then ['\\', 't']
  else if c = '\x08' then ['\\', 'b']
  else if c = '\x0c' then ['\\', 'f']
  else if c.toNat < 0x20 || (asciiOnly && 0x7E < c.toNat) then charEscape c
  else [c]

/-- A string with its quotes. -/
def stringText (asciiOnly : Bool) (s : String) : String :=
  String.ofList ('"' :: s.toList.flatMap (stringChar asciiOnly) ++ ['"'])

/-- A number as JSON writes it, with words for what is no finite number. -/
def realText (x : Binary64) : String :=
  if x.isNaN then "NaN"
  else if x.isInfinite then (if x.negative then "-Infinity" else "Infinity")
  else x.text

/-- The break before a part of a value at a depth. -/
def Style.lineBreak (style : Style) (depth : Nat) : String :=
  match style.indent with
  | none => ""
  | some n => "\n" ++ String.ofList (List.replicate (n * depth) ' ')

/-- What stands between two parts of a value at a depth. -/
def Style.between (style : Style) (depth : Nat) : String :=
  match style.indent with
  | none => ", "
  | some _ => "," ++ style.lineBreak depth

mutual

/-- A value at a depth. -/
def writeAt (style : Style) (depth : Nat) : Json → String
  | .null => "null"
  | .bool b => if b then "true" else "false"
  | .int n => showInt n
  | .real x => realText x
  | .text s => stringText style.asciiOnly s
  | .list [] => "[]"
  | .list (v :: vs) =>
    "[" ++ style.lineBreak (depth + 1) ++ writeAt style (depth + 1) v ++
      writeItems style (depth + 1) vs ++ style.lineBreak depth ++ "]"
  | .object [] => "\x7b\x7d"
  | .object ((name, v) :: fields) =>
    "\x7b" ++ style.lineBreak (depth + 1) ++ stringText style.asciiOnly name ++ ": " ++
      writeAt style (depth + 1) v ++ writeFields style (depth + 1) fields ++
      style.lineBreak depth ++ "\x7d"

/-- The items of a list after the first. -/
def writeItems (style : Style) (depth : Nat) : List Json → String
  | [] => ""
  | v :: vs => style.between depth ++ writeAt style depth v ++ writeItems style depth vs

/-- The fields of an object after the first. -/
def writeFields (style : Style) (depth : Nat) : List (String × Json) → String
  | [] => ""
  | (name, v) :: fields =>
    style.between depth ++ stringText style.asciiOnly name ++ ": " ++ writeAt style depth v ++
      writeFields style depth fields

end

/-- A value in a style. -/
def write (style : Style) (v : Json) : String := writeAt style 0 v

mutual

/-- The short form of a value in a message. -/
def literal : Json → String
  | .null => "None"
  | .bool b => if b then "True" else "False"
  | .int n => showInt n
  | .real x => x.text
  | .text s => quoted s
  | .list [] => "[]"
  | .list (v :: vs) => "[" ++ literal v ++ literalItems vs ++ "]"
  | .object [] => "\x7b\x7d"
  | .object ((name, v) :: fields) =>
    "\x7b" ++ quoted name ++ ": " ++ literal v ++ literalFields fields ++ "\x7d"

/-- The items of a list after the first. -/
def literalItems : List Json → String
  | [] => ""
  | v :: vs => ", " ++ literal v ++ literalItems vs

/-- The fields of an object after the first. -/
def literalFields : List (String × Json) → String
  | [] => ""
  | (name, v) :: fields => ", " ++ quoted name ++ ": " ++ literal v ++ literalFields fields

end

/-- The short form of a value, a text as it is. -/
def plain : Json → String
  | .text s => s
  | v => literal v

/-- A list of values of one kind. -/
def ofList {α : Type} (f : α → Json) (xs : List α) : Json := .list (xs.map f)

/-- A value that may be absent. -/
def ofOption {α : Type} (f : α → Json) : Option α → Json
  | none => .null
  | some a => f a

end RouteWatch.Json
