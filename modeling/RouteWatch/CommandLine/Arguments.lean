import RouteWatch.Number.Reading
import RouteWatch.Text.Quoted

/-!
# Command-line arguments

A `Grammar` says which flags a command takes and which operand. Arguments are first marked as
flags or operands and then consumed from left to right. A long flag may be abbreviated as long
as it is the only one that begins so, and may carry its value after an equals sign. After the
argument `--` every argument is an operand, and so is a negative number everywhere.
-/

namespace RouteWatch.CommandLine

open RouteWatch.Text (digitLimit isDigit quoted)

/-- What a flag does. -/
inductive Need where
  /-- Asks for help. -/
  | help
  /-- Takes no value. -/
  | none
  /-- Takes a text. -/
  | text
  /-- Takes an integer. -/
  | integer
  deriving DecidableEq, Repr

/-- A flag with its names. -/
structure Flag where
  names : List String
  need : Need
  deriving DecidableEq, Repr

/-- The flag as messages name it. -/
def Flag.title (f : Flag) : String := "/".intercalate f.names

/-- The flag by which a value is stored. -/
def Flag.key (f : Flag) : String := f.names.getLast?.getD ""

/-- The flag that asks for help. -/
def helpFlag : Flag := ⟨["-h", "--help"], .help⟩

/-- What a command takes besides flags. -/
inductive Operand where
  /-- One argument. -/
  | one (name : String)
  /-- One of some words, with all arguments that follow. -/
  | command (name : String) (words : List String)
  deriving DecidableEq, Repr

/-- The name of an operand. -/
def Operand.name : Operand → String
  | .one name => name
  | .command name _ => name

/-- What a command takes, and what it says about that. -/
structure Grammar where
  program : String
  flags : List Flag
  operand : Option Operand
  usage : String
  help : String

/-- The names of all flags, each with its flag. -/
def Grammar.names (g : Grammar) : List (String × Flag) :=
  g.flags.flatMap fun f ↦ f.names.map fun name ↦ (name, f)

/-- Why arguments give no command. -/
inductive Stop where
  /-- Help was asked for. -/
  | help (g : Grammar)
  /-- The arguments are at fault. -/
  | misuse (g : Grammar) (message : String)

/-- What an argument is. -/
inductive Mark where
  | operand
  /-- The argument `--`. -/
  | separator
  /-- A flag, by the name in use; `given` is the text joined to it, and `equals` says whether an
  equals sign stands between. -/
  | flag (flag : Flag) (name : String) (given : Option String) (equals : Bool)
  /-- A flag that the command does not take. -/
  | unknown
  deriving DecidableEq, Repr

/-- An argument and what it is. -/
abbrev Marked := String × Mark

/-- A text at its first equals sign: what stands before it and, where there is one, after. -/
def atEquals (cs : List Char) : List Char × Option (List Char) :=
  match cs.dropWhile (· ≠ '=') with
  | [] => (cs, none)
  | _ :: rest => (cs.takeWhile (· ≠ '='), some rest)

/-- The text is a negative number: a minus sign and digits, perhaps with a point before the last
of them. -/
def isNegativeNumber (cs : List Char) : Bool :=
  let cs := if cs.getLast? = some '\n' then cs.dropLast else cs
  match cs with
  | '-' :: body =>
    let rest := body.dropWhile isDigit
    match rest with
    | [] => !body.isEmpty
    | '.' :: decimals => !decimals.isEmpty && decimals.all isDigit
    | _ => false
  | _ => false

/-- The flags that an argument may abbreviate, with their names and what is joined to them. -/
def Grammar.candidates (g : Grammar) (cs : List Char) : List (String × Mark) :=
  match cs with
  | '-' :: '-' :: _ =>
    let (start, given) := atEquals cs
    (g.names.filter fun (name, _) ↦ start.isPrefixOf name.toList).map fun (name, f) ↦
      (name, .flag f name (given.map String.ofList) given.isSome)
  | _ =>
    g.names.filterMap fun (name, f) ↦
      if name.toList = cs.take 2 then
        some (name, .flag f name (some (String.ofList (cs.drop 2))) false)
      else if cs.isPrefixOf name.toList then some (name, .flag f name none false)
      else none

/-- What an argument before `--` is. -/
def Grammar.mark (g : Grammar) (arg : String) : Except Stop Mark :=
  let cs := arg.toList
  if cs.head? ≠ some '-' then .ok .operand
  else
    match g.names.lookup arg with
    | some f => .ok (.flag f arg none false)
    | none =>
      if cs.length = 1 then .ok .operand
      else
        let (start, given) := atEquals cs
        match given, g.names.lookup (String.ofList start) with
        | some given, some f =>
          .ok (.flag f (String.ofList start) (some (String.ofList given)) true)
        | _, _ =>
          match g.candidates cs with
          | [(_, mark)] => .ok mark
          | [] => .ok (if isNegativeNumber cs || cs.contains ' ' then .operand else .unknown)
          | several =>
            .error (.misuse g ("ambiguous option: " ++ arg ++ " could match " ++
              ", ".intercalate (several.map Prod.fst)))

/-- What each argument is. -/
def Grammar.markAll (g : Grammar) : List String → Except Stop (List Marked)
  | [] => .ok []
  | arg :: args =>
    if arg = "--" then .ok ((arg, .separator) :: args.map fun a ↦ (a, .operand))
    else do
      let mark ← g.mark arg
      return (arg, mark) :: (← markAll g args)

/-- The value of a flag. -/
inductive Value where
  | present
  | text (s : String)
  | integer (n : Int)
  deriving DecidableEq, Repr

/-- What has been read: the values of flags, last first, the operand with what follows it, and
the arguments that have no place. -/
structure Reading where
  values : List (String × Value)
  operand : Option (List String)
  extras : List String

/-- The reading with a flag's value. -/
def Reading.set (r : Reading) (f : Flag) (v : Value) : Reading :=
  { r with values := (f.key, v) :: r.values }

/-- The arguments are at fault about a flag or an operand. -/
def Grammar.blame {α : Type} (g : Grammar) (title message : String) : Except Stop α :=
  .error (.misuse g ("argument " ++ title ++ ": " ++ message))

/-- The reading after a flag with a value. -/
def Grammar.setValue (g : Grammar) (r : Reading) (f : Flag) (arg : String) :
    Except Stop Reading :=
  if f.need = .integer then
    match anyDigits? arg.toList with
    | some (negative, ds) =>
      if digitLimit < ds.length then g.blame f.title ("invalid int value: " ++ quoted arg)
      else .ok (r.set f (.integer (signed negative (Text.readNat ds))))
    | none => g.blame f.title ("invalid int value: " ++ quoted arg)
  else .ok (r.set f (.text arg))

/-- The end of arguments that hold a flag of one letter with more letters joined to it. The one
such flag asks for help, which is given unless an equals sign or a minus sign follows. -/
def Grammar.cluster (g : Grammar) (f : Flag) (equals : Bool) : List Char → Stop
  | [] => .help g
  | c :: cs =>
    if equals || c = '-' then
      .misuse g ("argument " ++ f.title ++ ": ignored explicit argument " ++
        quoted (String.ofList (c :: cs)))
    else if f.names.contains (String.ofList ['-', c]) then
      match cs with
      | ['='] => .misuse g ("argument " ++ f.title ++ ": ignored explicit argument " ++ quoted "")
      | '=' :: rest => cluster g f true rest
      | cs => cluster g f false cs
    else .help g

/-- Consumes a flag with no text joined to it. -/
def Grammar.plainFlag (g : Grammar) (r : Reading) (f : Flag) (rest : List Marked) :
    Except Stop (Reading × List Marked) :=
  match f.need with
  | .help => .error (.help g)
  | .none => .ok (r.set f .present, rest)
  | _ =>
    match rest with
    | (arg, .operand) :: rest => (g.setValue r f arg).map fun r ↦ (r, rest)
    | _ => g.blame f.title "expected one argument"

/-- Consumes a flag with a text joined to it. -/
def Grammar.joinedFlag (g : Grammar) (r : Reading) (f : Flag) (name given : String)
    (equals : Bool) : Except Stop Reading :=
  if f.need = .text || f.need = .integer then g.setValue r f given
  else if given ≠ "" && name.toList[1]? ≠ some '-' then
    .error (g.cluster f equals given.toList)
  else g.blame f.title ("ignored explicit argument " ++ quoted given)

/-- The number of arguments at the start that the operand takes. -/
def operandSize (o : Operand) (args : List Marked) : Nat :=
  let separators := (args.takeWhile (·.2 = .separator)).length
  match o, args.drop separators with
  | .one _, (_, .operand) :: rest =>
    separators + 1 + (rest.takeWhile (·.2 = .separator)).length
  | .command _ _, (_, .operand) :: _ => args.length
  | _, _ => 0

/-- The reading with the operand, from the arguments that it takes. -/
def Grammar.setOperand (g : Grammar) (r : Reading) (o : Operand) (args : List String) :
    Except Stop Reading :=
  match o with
  | .one _ => .ok { r with operand := some (args.erase "--") }
  | .command name words =>
    let word := args.head?.getD ""
    if words.contains word then .ok { r with operand := some args }
    else
      g.blame name ("invalid choice: " ++ quoted word ++ " (choose from " ++
        ", ".intercalate (words.map quoted) ++ ")")

/-- Consumes the operand at the start, where it is still to come and stands there; the number
is that of the arguments consumed. -/
def Grammar.takeOperand (g : Grammar) (r : Reading) (args : List Marked) :
    Except Stop (Reading × Nat) :=
  match r.operand, g.operand with
  | none, some o =>
    let size := operandSize o args
    if size = 0 then .ok (r, 0)
    else (g.setOperand r o ((args.take size).map Prod.fst)).map fun r ↦ (r, size)
  | _, _ => .ok (r, 0)

/-- The argument is a flag, known or not. -/
def isFlag (a : Marked) : Bool :=
  match a.2 with
  | .flag _ _ _ _ | .unknown => true
  | _ => false

/-- Consumes arguments; each round takes one at least, so that `fuel` need not be more than
their number and one. -/
def Grammar.consume (g : Grammar) : (fuel : Nat) → Reading → List Marked → Except Stop Reading
  | 0, r, args => .ok { r with extras := r.extras ++ args.map Prod.fst }
  | fuel + 1, r, args =>
    match args.dropWhile (!isFlag ·) with
    | [] => do
      let (r, size) ← g.takeOperand r args
      return { r with extras := r.extras ++ (args.drop size).map Prod.fst }
    | (arg, mark) :: rest => do
      let lead := args.takeWhile (!isFlag ·)
      let (r, size) ← if lead.isEmpty then pure (r, 0) else g.takeOperand r args
      if 0 < size then consume g fuel r (args.drop size)
      else
        let r := { r with extras := r.extras ++ lead.map Prod.fst }
        match mark with
        | .flag f _ none _ =>
          let (r, rest) ← g.plainFlag r f rest
          consume g fuel r rest
        | .flag f name (some given) equals =>
          consume g fuel (← g.joinedFlag r f name given equals) rest
        | _ => consume g fuel { r with extras := r.extras ++ [arg] } rest

/-- Reads arguments; the operand has to be among them. -/
def Grammar.read (g : Grammar) (args : List String) : Except Stop Reading := do
  let marked ← g.markAll args
  let r ← g.consume (marked.length + 1) ⟨[], none, []⟩ marked
  match g.operand, r.operand with
  | some o, none =>
    .error (.misuse g ("the following arguments are required: " ++ o.name))
  | _, _ => return r

/-- The text that a flag was given. -/
def Reading.text? (r : Reading) (key : String) : Option String :=
  match r.values.lookup key with
  | some (.text s) => some s
  | _ => none

/-- The integer that a flag was given. -/
def Reading.integer? (r : Reading) (key : String) : Option Int :=
  match r.values.lookup key with
  | some (.integer n) => some n
  | _ => none

/-- The flag was given. -/
def Reading.has (r : Reading) (key : String) : Bool := (r.values.lookup key).isSome

end RouteWatch.CommandLine
