import RouteWatch.Number.Binary64
import RouteWatch.Text.Digit

/-!
# Shortest decimal text

`shortest` gives the fewest decimal digits that read back as a number, and of those the ones
nearest to it. `Binary64.text` writes them: positionally while the decimal exponent lies from
-4 to 15, always with a point, and otherwise with an exponent of at least two digits.
-/

namespace RouteWatch.Binary64

open RouteWatch.Text (showNat)

/-- The decimal digits `digits * 10 ^ power` read back as the magnitude. -/
def readsBack (magnitude digits : Nat) (power : Int) : Bool :=
  (ofDecimal false digits power).magnitude == magnitude

/-- The neighbours of `num / den` on the grid of multiples of `10 ^ power`: the one below or
at it, and twice its distance from there in units of `1 / den'`. -/
def gridBelow (num den : Nat) (power : Int) : Nat × Nat × Nat :=
  let factor := Nat.pow 10 power.natAbs
  let (n, d) := if power < 0 then (num * factor, den) else (num, den * factor)
  (n / d, 2 * (n % d), d)

/-- The best multiple of `10 ^ power` that reads back as the number `num / den`. -/
def onGrid (magnitude num den : Nat) (power : Int) : Option Nat :=
  let (below, twice, unit) := gridBelow num den power
  let low := readsBack magnitude below power && below != 0
  let high := readsBack magnitude (below + 1) power
  match low, high with
  | true, true =>
    if twice < unit then some below
    else if unit < twice then some (below + 1)
    else some (below + below % 2)
  | true, false => some below
  | false, true => some (below + 1)
  | false, false => none

/-- The number of digits before the point of a fraction, zero or negative for one below a
tenth. -/
def leadingPower (num den : Nat) : Int :=
  let guess : Int := ((num.log2 : Int) - den.log2) * 30103 / 100000
  let reaches (k : Int) : Bool :=
    let factor := Nat.pow 10 k.natAbs
    if k < 0 then den ≤ num * factor else den * factor ≤ num
  if reaches (guess + 1) then guess + 2 else if reaches guess then guess + 1
  else if reaches (guess - 1) then guess else guess - 1

/-- Tries grids from coarse to fine, at most `count` of them. -/
def search (magnitude num den : Nat) : (count : Nat) → (power : Int) → Nat × Int
  | 0, power => ((gridBelow num den power).1, power)
  | count + 1, power =>
    match onGrid magnitude num den power with
    | some digits => (digits, power)
    | none => search magnitude num den count (power - 1)

/-- The fewest digits that read back as a finite number above zero, with their power of ten. -/
def shortest (x : Binary64) : Nat × Int :=
  let (num, den) := x.fraction
  search x.magnitude num den 17 (leadingPower num den - 1)

/-- Digits and a power of ten without the zeros at the end of the digits. -/
def dropZeros : (fuel : Nat) → Nat → Int → Nat × Int
  | 0, digits, power => (digits, power)
  | fuel + 1, digits, power =>
    if digits % 10 = 0 && digits != 0 then dropZeros fuel (digits / 10) (power + 1)
    else (digits, power)

/-- An exponent with its sign and at least two digits. -/
def exponentText (e : Int) : List Char :=
  let ds := showNat e.natAbs
  (if e < 0 then '-' else '+') :: (if ds.length < 2 then '0' :: ds else ds)

/-- Digits with the point after the first `point` of them, which may lie outside. -/
def positional (ds : List Char) (point : Int) : List Char :=
  if point ≤ 0 then '0' :: '.' :: (List.replicate point.natAbs '0' ++ ds)
  else if ds.length ≤ point.natAbs then
    ds ++ List.replicate (point.natAbs - ds.length) '0' ++ ['.', '0']
  else ds.take point.natAbs ++ '.' :: ds.drop point.natAbs

/-- Digits in front of an exponent, with a point after the first where there are more. -/
def scientific (ds : List Char) (e : Int) : List Char :=
  (match ds with
    | [] => []
    | [d] => [d]
    | d :: ds => d :: '.' :: ds) ++ 'e' :: exponentText e

/-- A finite number above zero in decimal. -/
def positiveText (x : Binary64) : List Char :=
  let (digits, power) := x.shortest
  let (digits, power) := dropZeros 400 digits power
  let ds := showNat digits
  let e := power + ds.length - 1
  if -4 ≤ e && e < 16 then positional ds (e + 1) else scientific ds e

/-- A number in decimal. -/
def text (x : Binary64) : String :=
  if x.isNaN then "nan"
  else
    let digits :=
      if x.isInfinite then "inf".toList
      else if x.isZero then "0.0".toList
      else positiveText x
    String.ofList (if x.negative then '-' :: digits else digits)

end RouteWatch.Binary64
