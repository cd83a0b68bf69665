import RouteWatch.Number.Reading
import RouteWatch.Text.Case
import RouteWatch.Validation.Problem

/-!
# Checks

A check turns a JSON value into a value of a type, or gives its problems. `Checked` collects
the problems of all parts, in order. The checks take a value in every form in which
its meaning is plain: the text `" 8 "` is an integer, the text `"yes"` is a flag.
-/

namespace RouteWatch.Validation

open RouteWatch.Text (asciiLower digitLimit isWhiteSpace trim)

/-- What a check gives: a value, or all problems in order. -/
def Checked (α : Type) : Type := Except (List Problem) α

/-- A way to turn a JSON value into a value of a type. -/
abbrev Check (α : Type) : Type := Json → Checked α

namespace Checked

/-- Applies what one check gives to what another gives; the problems of both are kept. -/
def combine {α β : Type} (f : Checked (α → β)) (x : Checked α) : Checked β :=
  match f, x with
  | .ok f, .ok a => .ok (f a)
  | .ok _, .error ps => .error ps
  | .error ps, .ok _ => .error ps
  | .error ps, .error qs => .error (ps ++ qs)

instance : Applicative Checked where
  pure a := .ok a
  seq f x := combine f (x ())

/-- A problem with the whole of a value. -/
def refuse {α : Type} (defect : Defect) (input : Json) : Checked α :=
  .error [⟨defect, [], input⟩]

/-- The same with every problem's place one step further in. -/
def within {α : Type} (step : Step) (x : Checked α) : Checked α :=
  match x with
  | .ok a => .ok a
  | .error ps => .error (ps.map fun p ↦ { p with place := step :: p.place })

/-- What a check of each item gives, the problems of all items in order. -/
def items {α : Type} (check : Check α) : (index : Nat) → List Json → Checked (List α)
  | _, [] => .ok []
  | index, v :: vs =>
    combine (combine (.ok List.cons) ((check v).within (.item index))) (items check (index + 1) vs)

end Checked

/-- A text as it is. -/
def text : Check String
  | .text s => .ok s
  | v => Checked.refuse .notText v

/-- An integer from a number with no fractional part, from a flag or from a text. -/
def int : Check Int
  | .int n => .ok n
  | .bool b => .ok (if b then 1 else 0)
  | .real x =>
    if !x.isFinite then Checked.refuse .notFinite (.real x)
    else
      match x.toInt? with
      | none => Checked.refuse .fractionalInt (.real x)
      | some n => if n.natAbs < Nat.pow 2 63 then .ok n else Checked.refuse .oversizedInt (.real x)
  | .text s =>
    if digitLimit < (trim isWhiteSpace s.toList).length then
      Checked.refuse .oversizedInt (.text s)
    else
      match looseInt? s.toList with
      | some n => .ok n
      | none => Checked.refuse .unreadableInt (.text s)
  | v => Checked.refuse .notInt v

/-- A number from a number, a flag or a text. -/
def real : Check Binary64
  | .real x => .ok x
  | .int n =>
    match Binary64.ofInt? n with
    | some x => .ok x
    | none => Checked.refuse .notReal (.int n)
  | .bool b => .ok (Binary64.ofDecimal false (if b then 1 else 0) 0)
  | .text s =>
    match real? s.toList with
    | some x => .ok x
    | none => Checked.refuse .unreadableReal (.text s)
  | v => Checked.refuse .notReal v

/-- The flag that zero and one stand for. -/
def flagOfInt (n : Int) (input : Json) : Checked Bool :=
  if n = 0 then .ok false
  else if n = 1 then .ok true
  else if -(Nat.pow 2 63 : Int) ≤ n ∧ n < Nat.pow 2 63 then Checked.refuse .unreadableFlag input
  else Checked.refuse .notFlag input

/-- The texts that stand for no. -/
def noWords : List String := ["0", "off", "f", "false", "n", "no"]

/-- The texts that stand for yes. -/
def yesWords : List String := ["1", "on", "t", "true", "y", "yes"]

/-- A flag from a flag, from zero or one or from a word. -/
def flag : Check Bool
  | .bool b => .ok b
  | .int n => flagOfInt n (.int n)
  | .real x =>
    match x.toInt? with
    | some n => flagOfInt n (.real x)
    | none => Checked.refuse .notFlag (.real x)
  | .text s =>
    let word := asciiLower s
    if noWords.contains word then .ok false
    else if yesWords.contains word then .ok true
    else Checked.refuse .unreadableFlag (.text s)
  | v => Checked.refuse .notFlag v

/-- A value that may be null. -/
def optional {α : Type} (check : Check α) : Check (Option α)
  | .null => .ok none
  | v => match check v with
    | .ok a => .ok (some a)
    | .error ps => .error ps

/-- A list, each item checked; `defect` is the one of a value that is no list. -/
def listOf {α : Type} (defect : Defect) (check : Check α) : Check (List α)
  | .list vs => Checked.items check 0 vs
  | v => Checked.refuse defect v

/-- One of some texts, each with its value. -/
def choice {α : Type} (choices : List (String × α)) : Check α
  | .text s =>
    match choices.lookup s with
    | some a => .ok a
    | none => Checked.refuse (.notChoice (choices.map Prod.fst)) (.text s)
  | v => Checked.refuse (.notChoice (choices.map Prod.fst)) v

/-- A field that must be there; without it the problem concerns the whole object. -/
def field {α : Type} (fields : Fields) (name : String) (check : Check α) : Checked α :=
  match fields.get? name with
  | some v => (check v).within (.field name)
  | none => (Checked.refuse .missing (.object fields)).within (.field name)

/-- A field that has a default. -/
def fieldD {α : Type} (fields : Fields) (name : String) (check : Check α) (default : α) :
    Checked α :=
  match fields.get? name with
  | some v => (check v).within (.field name)
  | none => .ok default

/-- The fields of an object; `defect` is the one of a value that is none. -/
def objectOf {α : Type} (defect : Defect) (check : Fields → Checked α) : Check α
  | .object fields => check fields
  | v => Checked.refuse defect v

end RouteWatch.Validation
