/-!
# Floating-point numbers

`Binary64` is the 64-bit binary format of IEEE 754 by its sign and the 63 bits below it. All
work on such numbers is exact arithmetic on integers: a finite number is `mantissa * 2 ^
exponent`, and `nearest` rounds a fraction to the nearest number, a tie to the even mantissa.
-/

namespace RouteWatch

/-- A number of the format: the sign bit and the bits of the magnitude. -/
structure Binary64 where
  negative : Bool
  magnitude : Nat
  deriving DecidableEq, Repr, Inhabited

namespace Binary64

/-- The magnitude of the infinities; what lies above it is no number. -/
def infinite : Nat := 2047 * Nat.pow 2 52

/-- Positive zero. -/
def zero : Binary64 := ⟨false, 0⟩

/-- Positive infinity. -/
def infinity : Binary64 := ⟨false, infinite⟩

/-- The value that is not a number. -/
def nan : Binary64 := ⟨false, infinite + Nat.pow 2 51⟩

/-- The value is not a number. -/
def isNaN (x : Binary64) : Bool := infinite < x.magnitude

/-- The value is an infinity. -/
def isInfinite (x : Binary64) : Bool := x.magnitude == infinite

/-- The value is a number and no infinity. -/
def isFinite (x : Binary64) : Bool := x.magnitude < infinite

/-- The value with the other sign. -/
def neg (x : Binary64) : Binary64 := { x with negative := !x.negative }

/-- The integer factor of a finite number. -/
def mantissa (x : Binary64) : Nat :=
  let hidden := Nat.pow 2 52
  if x.magnitude < hidden then x.magnitude else hidden + x.magnitude % hidden

/-- The power of two in a finite number. -/
def exponent (x : Binary64) : Int :=
  let hidden := Nat.pow 2 52
  if x.magnitude < hidden then -1074 else (x.magnitude / hidden : Nat) - 1075

/-- The quotient rounded to the nearest integer, a tie to the even one. -/
def roundDiv (num den : Nat) : Nat :=
  let q := num / den
  let r := num % den
  if 2 * r < den then q else if den < 2 * r then q + 1 else q + q % 2

/-- The fraction `num / den` in units of `2 ^ q`, as numerator and denominator. -/
def scale (num den : Nat) (q : Int) : Nat × Nat :=
  let factor := Nat.pow 2 q.natAbs
  if q < 0 then (num * factor, den) else (num, den * factor)

/-- The magnitude nearest to the fraction `num / den`. -/
def nearest (num den : Nat) : Nat :=
  if num = 0 then 0
  else
    let low : Int := (num.log2 : Int) - den.log2 - 53
    let q₀ := max low (-1074)
    let (n₀, d₀) := scale num den q₀
    let q := if Nat.pow 2 53 ≤ n₀ / d₀ then q₀ + 1 else q₀
    let (n, d) := scale num den q
    min (roundDiv n d + (q + 1074).toNat * Nat.pow 2 52) infinite

/-- The number nearest to `digits * 10 ^ power`. -/
def ofDecimal (negative : Bool) (digits : Nat) (power : Int) : Binary64 :=
  let size : Int := if digits = 0 then 0 else (digits.log2 : Int) * 30103 / 100000
  if digits = 0 then ⟨negative, 0⟩
  else if 400 < size + power then ⟨negative, infinite⟩
  else if size + power < -400 then ⟨negative, 0⟩
  else if power < 0 then ⟨negative, nearest digits (Nat.pow 10 power.natAbs)⟩
  else ⟨negative, nearest (digits * Nat.pow 10 power.natAbs) 1⟩

/-- The number nearest to an integer, or `none` where that is an infinity. -/
def ofInt? (n : Int) : Option Binary64 :=
  let x := ofDecimal (n < 0) n.natAbs 0
  if x.isFinite then some x else none

/-- The numerator and denominator of the absolute value of a finite number. -/
def fraction (x : Binary64) : Nat × Nat :=
  let factor := Nat.pow 2 x.exponent.natAbs
  if x.exponent < 0 then (x.mantissa, factor) else (x.mantissa * factor, 1)

/-- The integer that a finite number without a fractional part is. -/
def toInt? (x : Binary64) : Option Int :=
  let (n, d) := x.fraction
  if !x.isFinite || n % d ≠ 0 then none
  else some (if x.negative then -(n / d : Nat) else (n / d : Nat))

/-- The number is greater than zero; what is not a number is not. -/
def isPositive (x : Binary64) : Bool := !x.negative && x.magnitude != 0 && !x.isNaN

/-- Zero of either sign. -/
def isZero (x : Binary64) : Bool := x.magnitude == 0

end Binary64

end RouteWatch
