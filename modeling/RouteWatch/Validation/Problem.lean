import RouteWatch.Json.Writer

/-!
# Problems of a value

A value that does not fit what is asked of it has problems: each a defect, the place of the
part it concerns and that part. `Invalid.message` is the text about all problems of a value.
-/

namespace RouteWatch.Validation

open RouteWatch.Text (quoted)

/-- What is wrong with a part of a value. -/
inductive Defect where
  | missing
  | notText
  | notInt
  | unreadableInt
  | fractionalInt
  | oversizedInt
  | notFinite
  | notReal
  | unreadableReal
  | notFlag
  | unreadableFlag
  | notTuple
  | notList
  /-- None of the texts that may stand here. -/
  | notChoice (choices : List String)
  /-- No object where a record of this name is asked for. -/
  | notRecord (name : String)
  /-- No object where the body of a request asks for one. -/
  | notBody
  deriving DecidableEq, Repr

/-- The short name of a defect. -/
def Defect.code : Defect → String
  | .missing => "missing"
  | .notText => "string_type"
  | .notInt => "int_type"
  | .unreadableInt => "int_parsing"
  | .fractionalInt => "int_from_float"
  | .oversizedInt => "int_parsing_size"
  | .notFinite => "finite_number"
  | .notReal => "float_type"
  | .unreadableReal => "float_parsing"
  | .notFlag => "bool_type"
  | .unreadableFlag => "bool_parsing"
  | .notTuple => "tuple_type"
  | .notList => "list_type"
  | .notChoice _ => "enum"
  | .notRecord _ => "model_type"
  | .notBody => "model_attributes_type"

/-- Texts in quotes as a choice: commas between them and "or" before the last. -/
def choiceText : List String → String
  | [] => ""
  | [a] => quoted a
  | [a, b] => quoted a ++ " or " ++ quoted b
  | a :: rest => quoted a ++ ", " ++ choiceText rest

/-- The wording of a defect. -/
def Defect.message : Defect → String
  | .missing => "Field required"
  | .notText => "Input should be a valid string"
  | .notInt => "Input should be a valid integer"
  | .unreadableInt => "Input should be a valid integer, unable to parse string as an integer"
  | .fractionalInt => "Input should be a valid integer, got a number with a fractional part"
  | .oversizedInt => "Unable to parse input string as an integer, exceeded maximum size"
  | .notFinite => "Input should be a finite number"
  | .notReal => "Input should be a valid number"
  | .unreadableReal => "Input should be a valid number, unable to parse string as a number"
  | .notFlag => "Input should be a valid boolean"
  | .unreadableFlag => "Input should be a valid boolean, unable to interpret input"
  | .notTuple => "Input should be a valid tuple"
  | .notList => "Input should be a valid list"
  | .notChoice choices => "Input should be " ++ choiceText choices
  | .notRecord name => "Input should be a valid dictionary or instance of " ++ name
  | .notBody => "Input should be a valid dictionary or object to extract fields from"

/-- A step towards a part of a value: a field of an object or an item of a list. -/
inductive Step where
  | field (name : String)
  | item (index : Nat)
  deriving DecidableEq, Repr

/-- A step as a message shows it. -/
def Step.text : Step → String
  | .field name => name
  | .item index => toString index

/-- A step as a JSON value. -/
def Step.toJson : Step → Json
  | .field name => .text name
  | .item index => .int index

/-- A defect of the part of a value at a place. -/
structure Problem where
  defect : Defect
  place : List Step
  input : Json

/-- A problem as a JSON value. -/
def Problem.toJson (p : Problem) : Json :=
  .object [("type", .text p.defect.code), ("loc", .list (p.place.map Step.toJson)),
    ("msg", .text p.defect.message)]

/-- The kind of a value as a message names it. -/
def kindName : Json → String
  | .null => "NoneType"
  | .bool _ => "bool"
  | .int _ => "int"
  | .real _ => "float"
  | .text _ => "str"
  | .list _ => "list"
  | .object _ => "dict"

/-- The characters of a text that fit in `room` bytes, counted from the front. -/
def fitting : (room : Nat) → List Char → List Char
  | _, [] => []
  | room, c :: cs => if c.utf8Size ≤ room then c :: fitting (room - c.utf8Size) cs else []

/-- A text of at most fifty bytes as it is; of a longer one the first 25 bytes and the last
24, as far as whole characters fit. -/
def abridged (s : String) : String :=
  if s.utf8ByteSize ≤ 50 then s
  else
    String.ofList (fitting 25 s.toList) ++ "..." ++
      String.ofList ((fitting 24 s.toList.reverse).reverse)

/-- The text about a problem, in two lines. -/
def Problem.message (p : Problem) : String :=
  ".".intercalate (p.place.map Step.text) ++ "\n  " ++ p.defect.message ++ " [type=" ++
    p.defect.code ++ ", input_value=" ++ abridged p.input.literal ++ ", input_type=" ++
    kindName p.input ++ "]"

/-- The problems of a value that a record of the given name was to be made from. -/
structure Invalid where
  record : String
  problems : List Problem

/-- The text about all problems of a value. -/
def Invalid.message (i : Invalid) : String :=
  let count := i.problems.length
  "\n".intercalate
    ((toString count ++ " validation error" ++ (if count = 1 then "" else "s") ++ " for " ++
      i.record) :: i.problems.map Problem.message)

end RouteWatch.Validation
