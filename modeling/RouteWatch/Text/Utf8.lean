import RouteWatch.Text.Quoted

/-!
# UTF-8

`decode` reads bytes as UTF-8. The first byte of a character fixes the ranges that the bytes
after it lie in; a byte that opens no character, a byte out of its range and an end within a
character are the three faults, each with the span of bytes it covers.
-/

namespace RouteWatch.Text.Utf8

/-- Why bytes are not UTF-8. -/
inductive Reason where
  | invalidStart
  | invalidContinuation
  | unexpectedEnd
  deriving DecidableEq, Repr

/-- The wording of a reason. -/
def Reason.message : Reason → String
  | .invalidStart => "invalid start byte"
  | .invalidContinuation => "invalid continuation byte"
  | .unexpectedEnd => "unexpected end of data"

/-- A span of bytes that are not UTF-8; `first` is the byte at `start`, and `stop` is the
position after the span. -/
structure Fault where
  reason : Reason
  first : Nat
  start : Nat
  stop : Nat
  deriving DecidableEq, Repr

/-- The message about a fault. -/
def Fault.message (f : Fault) : String :=
  let place :=
    if f.stop = f.start + 1 then
      "byte 0x" ++ String.ofList (hex 2 f.first) ++ " in position " ++ toString f.start
    else "bytes in position " ++ toString f.start ++ "-" ++ toString (f.stop - 1)
  "'utf-8' codec can't decode " ++ place ++ ": " ++ f.reason.message

/-- The range of any byte but the first of a character. -/
def tail : Nat × Nat := (0x80, 0xBF)

/-- The ranges of the bytes after a first byte, or `none` where the byte opens no character. -/
def followers (b : Nat) : Option (List (Nat × Nat)) :=
  if b ≤ 0x7F then some []
  else if b < 0xC2 then none
  else if b ≤ 0xDF then some [tail]
  else if b = 0xE0 then some [(0xA0, 0xBF), tail]
  else if b = 0xED then some [(0x80, 0x9F), tail]
  else if b ≤ 0xEF then some [tail, tail]
  else if b = 0xF0 then some [(0x90, 0xBF), tail, tail]
  else if b ≤ 0xF3 then some [tail, tail, tail]
  else if b = 0xF4 then some [(0x80, 0x8F), tail, tail]
  else none

/-- The bits of the character that its first byte holds. -/
def leadBits (b : Nat) : Nat :=
  if b ≤ 0x7F then b else if b ≤ 0xDF then b % 32 else if b ≤ 0xEF then b % 16 else b % 8

/-- A character that has been opened and waits for a byte in `next`, then for those in
`later`. -/
structure Pending where
  first : Nat
  start : Nat
  value : Nat
  next : Nat × Nat
  later : List (Nat × Nat)

/-- What a stretch of bytes is: a character, or a fault. -/
abbrev Piece := Except Fault Char

/-- Reads a byte where a character may begin: what it completes, and what it opens. -/
def openAt (pos b : Nat) : List Piece × Option Pending :=
  match followers b with
  | none => ([.error ⟨.invalidStart, b, pos, pos + 1⟩], none)
  | some [] => ([.ok (Char.ofNat b)], none)
  | some (next :: later) => ([], some ⟨b, pos, leadBits b, next, later⟩)

/-- Reads a byte at a position: what it completes, and what is open afterwards. -/
def step (pos : Nat) (state : Option Pending) (b : Nat) : List Piece × Option Pending :=
  match state with
  | none => openAt pos b
  | some p =>
    if p.next.1 ≤ b ∧ b ≤ p.next.2 then
      let value := p.value * 64 + b % 64
      match p.later with
      | [] => ([.ok (Char.ofNat value)], none)
      | next :: later => ([], some { p with value, next, later })
    else
      let (done, state) := openAt pos b
      (.error ⟨.invalidContinuation, p.first, p.start, pos⟩ :: done, state)

/-- The pieces of the bytes from a position on; `held` are the pieces before it, last
first. -/
def piecesFrom (held : List Piece) (pos : Nat) (state : Option Pending) :
    List UInt8 → List Piece
  | [] =>
    match state with
    | none => held.reverse
    | some p => (.error ⟨.unexpectedEnd, p.first, p.start, pos⟩ :: held).reverse
  | b :: bs =>
    let (done, state) := step pos state b.toNat
    piecesFrom (done.reverse ++ held) (pos + 1) state bs

/-- The characters and faults that bytes consist of. -/
def pieces (bs : List UInt8) : List Piece := piecesFrom [] 0 none bs

/-- The text that bytes spell, or their first fault. -/
def decode (bs : List UInt8) : Except Fault String :=
  (pieces bs).mapM id |>.map String.ofList

/-- The bytes of a character. -/
def encodeChar (c : Char) : List UInt8 := String.utf8EncodeChar c

/-- The bytes of a text. -/
def encode (s : String) : List UInt8 := s.toList.flatMap encodeChar

/-- The text that bytes spell, each byte of a fault shown as a hexadecimal escape. -/
def decodeEscaped (bs : List UInt8) : String :=
  let shown (p : Piece) : List Char :=
    match p with
    | .ok c => [c]
    | .error f =>
      ((bs.drop f.start).take (f.stop - f.start)).flatMap fun b ↦ '\\' :: 'x' :: hex 2 b.toNat
  String.ofList ((pieces bs).flatMap shown)

end RouteWatch.Text.Utf8
