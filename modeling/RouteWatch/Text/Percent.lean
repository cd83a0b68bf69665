import RouteWatch.Text.Utf8

/-!
# Percent-encoding

A part of a URL holds letters, digits, the four marks `_`, `.`, `-`, `~` and, where the part
is a path, the slash. Every other character is written as its bytes in UTF-8, each as `%` and
two upper-case hexadecimal digits. `percentDecode` reads the bytes back.
-/

namespace RouteWatch.Text

/-- The upper-case hexadecimal digit of a number below sixteen. -/
def upperHexDigit (n : Nat) : Char :=
  if n < 10 then Char.ofNat (48 + n) else Char.ofNat (55 + n)

/-- The value of a hexadecimal digit of either case. -/
def hexValue? (c : Char) : Option Nat :=
  let n := c.toNat
  if 48 ≤ n ∧ n ≤ 57 then some (n - 48)
  else if 65 ≤ n ∧ n ≤ 70 then some (n - 55)
  else if 97 ≤ n ∧ n ≤ 102 then some (n - 87)
  else none

/-- An ASCII letter or digit or one of the four marks. -/
def isUnreserved (n : Nat) : Bool :=
  (48 ≤ n && n ≤ 57) || (65 ≤ n && n ≤ 90) || (97 ≤ n && n ≤ 122) ||
    n == 0x5F || n == 0x2E || n == 0x2D || n == 0x7E

/-- Which characters besides the unreserved ones a part of a URL keeps. -/
inductive UrlPart where
  /-- A path, which keeps its slashes. -/
  | path
  /-- One segment of a path. -/
  | segment
  deriving DecidableEq, Repr

/-- The byte stands for itself in the part. -/
def UrlPart.keeps (part : UrlPart) (n : Nat) : Bool :=
  isUnreserved n || (part = .path && n == 0x2F)

/-- One byte in a part of a URL. -/
def percentByte (part : UrlPart) (b : UInt8) : List Char :=
  let n := b.toNat
  if part.keeps n then [Char.ofNat n]
  else ['%', upperHexDigit (n / 16), upperHexDigit (n % 16)]

/-- A text in a part of a URL. -/
def percentEncode (part : UrlPart) (s : String) : String :=
  String.ofList ((Utf8.encode s).flatMap (percentByte part))

/-- The bytes that a part of a URL stands for. -/
def percentDecode : List Char → Option (List UInt8)
  | [] => some []
  | '%' :: h :: l :: cs => do
    let high ← hexValue? h
    let low ← hexValue? l
    let rest ← percentDecode cs
    return UInt8.ofNat (16 * high + low) :: rest
  | c :: cs =>
    if c = '%' || c.toNat ≥ 128 then none
    else (percentDecode cs).map (UInt8.ofNat c.toNat :: ·)

end RouteWatch.Text
