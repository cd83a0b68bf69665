import RouteWatch.Number.Binary64
import RouteWatch.Text.Digit
import RouteWatch.Text.Space

/-!
# Numbers in text

The three ways in which a text gives a number: `looseInt?` takes an integer with an empty
fractional part, `anyDigits?` the sign and the digits of an integer in any script, and `real?` a
decimal number or a word for an infinity or for what is no number. Digits may be grouped by single
underscores.
-/

namespace RouteWatch

open RouteWatch.Text (isAsciiDigit isDigit isSpace isWhiteSpace readNat trim)

/-- Reads on in a run of digits; `held` are those read so far, last first. -/
def groupedDigitsFrom (digit : Char → Bool) (held : List Char) : List Char → Option (List Char)
  | [] => some held.reverse
  | '_' :: d :: cs => if digit d then groupedDigitsFrom digit (d :: held) cs else none
  | c :: cs => if digit c then groupedDigitsFrom digit (c :: held) cs else none

/-- The digits of a run in which single underscores may stand between digits. -/
def groupedDigits (digit : Char → Bool) : List Char → Option (List Char)
  | [] => none
  | c :: cs => if digit c then groupedDigitsFrom digit [c] cs else none

/-- A text without its sign, and whether that is a minus sign. -/
def takeSign : List Char → Bool × List Char
  | '-' :: cs => (true, cs)
  | '+' :: cs => (false, cs)
  | cs => (false, cs)

/-- An integer of a sign and a number. -/
def signed (negative : Bool) (n : Nat) : Int := if negative then -n else n

/-- A text without a point and the zeros after it. -/
def dropZeroDecimals (cs : List Char) : List Char :=
  match cs.dropWhile (· ≠ '.') with
  | '.' :: zeros => if zeros.all (· == '0') then cs.takeWhile (· ≠ '.') else cs
  | _ => cs

/-- The integer that a text between blanks gives, where it has no fractional part. -/
def looseInt? (cs : List Char) : Option Int :=
  let (negative, body) := takeSign (trim isWhiteSpace cs)
  (groupedDigits isAsciiDigit (dropZeroDecimals body)).map fun ds ↦ signed negative (readNat ds)

/-- The digits and sign of an integer in the digits of any script. -/
def anyDigits? (cs : List Char) : Option (Bool × List Char) :=
  let (negative, body) := takeSign (trim isSpace cs)
  (groupedDigits isDigit body).map fun ds ↦ (negative, ds)

/-- The digits of a part of a number that may be empty. -/
def digitsOrNone (cs : List Char) : Option (List Char) :=
  if cs.isEmpty then some [] else groupedDigits isAsciiDigit cs

/-- The power of ten after the mark of an exponent. -/
def powerOf (cs : List Char) : Option Int :=
  let (negative, body) := takeSign cs
  (groupedDigits isAsciiDigit body).map fun ds ↦ signed negative (readNat ds)

/-- The number that digits with a point and an exponent give. -/
def decimal? (negative : Bool) (cs : List Char) : Option Binary64 := do
  let mark (c : Char) : Bool := c == 'e' || c == 'E'
  let mantissa := cs.takeWhile (!mark ·)
  let power ← match cs.dropWhile (!mark ·) with
    | [] => some 0
    | _ :: exponent => powerOf exponent
  let whole ← digitsOrNone (mantissa.takeWhile (· ≠ '.'))
  let decimals ← digitsOrNone ((mantissa.dropWhile (· ≠ '.')).drop 1)
  if whole.isEmpty && decimals.isEmpty then none
  else some (Binary64.ofDecimal negative (readNat (whole ++ decimals)) (power - decimals.length))

/-- The number that a text between blanks gives. -/
def real? (cs : List Char) : Option Binary64 :=
  let (negative, body) := takeSign (trim isSpace cs)
  let word := String.ofList (body.map Char.toLower)
  if word = "inf" || word = "infinity" then some { Binary64.infinity with negative }
  else if word = "nan" then some { Binary64.nan with negative }
  else decimal? negative body

end RouteWatch
