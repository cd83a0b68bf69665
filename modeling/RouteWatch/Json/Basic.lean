import RouteWatch.Number.Binary64

/-!
# JSON values

A JSON value keeps integers apart from floating-point numbers and the fields of an object in
order. Its texts are made of characters, and half of a surrogate pair is none. `Fields` is the
ordered store of an object: `put` replaces the value of a name where the name stands, or adds the
name at the end, and `get?` reads it.
-/

namespace RouteWatch

/-- A JSON value. -/
inductive Json where
  | null
  | bool (value : Bool)
  | int (value : Int)
  | real (value : Binary64)
  | text (value : String)
  | list (items : List Json)
  | object (fields : List (String × Json))
  deriving Inhabited

/-- The fields of an object, in order. -/
abbrev Fields := List (String × Json)

namespace Fields

/-- The value of a name, if there is one. -/
def get? (fields : Fields) (name : String) : Option Json := fields.lookup name

/-- The fields with a value for a name, at the name's place or at the end. -/
def put (fields : Fields) (name : String) (value : Json) : Fields :=
  match fields with
  | [] => [(name, value)]
  | (n, v) :: rest => if n = name then (n, value) :: rest else (n, v) :: put rest name value

/-- The fields with those of a second list put in, in order. -/
def putAll (fields news : Fields) : Fields :=
  news.foldl (fun acc field ↦ acc.put field.1 field.2) fields

/-- The names in order. -/
def names (fields : Fields) : List String := fields.map Prod.fst

/-- What was put is read. -/
theorem get?_put_self (fields : Fields) (name : String) (value : Json) :
    (fields.put name value).get? name = some value := by
  induction fields with
  | nil => simp [put, get?]
  | cons field rest ih =>
    obtain ⟨n, v⟩ := field
    by_cases h : n = name
    · simp [put, get?, h]
    · have h' : (name == n) = false := by simpa using fun he : name = n ↦ h he.symm
      simp only [put, h, get?, if_false, List.lookup_cons, h']
      exact ih

/-- Putting a value leaves the other names alone. -/
theorem get?_put_of_ne (fields : Fields) {name other : String} (value : Json)
    (h : other ≠ name) : (fields.put name value).get? other = fields.get? other := by
  induction fields with
  | nil =>
    have h' : (other == name) = false := by simpa using h
    simp [put, get?, List.lookup_cons, h']
  | cons field rest ih =>
    obtain ⟨n, v⟩ := field
    by_cases hn : n = name
    · have h' : (other == n) = false := by simpa [hn] using h
      simp [put, get?, hn, List.lookup_cons, hn ▸ h']
    · simp only [put, hn, if_false]
      simp only [get?, List.lookup_cons] at ih ⊢
      split
      · rfl
      · exact ih

end Fields

namespace Json

mutual

/-- Decides whether two values are the same. -/
def decEq : (a b : Json) → Decidable (a = b)
  | .null, .null => .isTrue rfl
  | .bool a, .bool b =>
    if h : a = b then .isTrue (h ▸ rfl) else .isFalse fun he ↦ h (by injection he)
  | .int a, .int b =>
    if h : a = b then .isTrue (h ▸ rfl) else .isFalse fun he ↦ h (by injection he)
  | .real a, .real b =>
    if h : a = b then .isTrue (h ▸ rfl) else .isFalse fun he ↦ h (by injection he)
  | .text a, .text b =>
    if h : a = b then .isTrue (h ▸ rfl) else .isFalse fun he ↦ h (by injection he)
  | .list a, .list b =>
    match decEqList a b with
    | .isTrue h => .isTrue (h ▸ rfl)
    | .isFalse h => .isFalse fun he ↦ h (by injection he)
  | .object a, .object b =>
    match decEqFields a b with
    | .isTrue h => .isTrue (h ▸ rfl)
    | .isFalse h => .isFalse fun he ↦ h (by injection he)
  | .null, .bool _ | .null, .int _ | .null, .real _ | .null, .text _ | .null, .list _
  | .null, .object _ | .bool _, .null | .bool _, .int _ | .bool _, .real _ | .bool _, .text _
  | .bool _, .list _ | .bool _, .object _ | .int _, .null | .int _, .bool _ | .int _, .real _
  | .int _, .text _ | .int _, .list _ | .int _, .object _ | .real _, .null | .real _, .bool _
  | .real _, .int _ | .real _, .text _ | .real _, .list _ | .real _, .object _
  | .text _, .null | .text _, .bool _ | .text _, .int _ | .text _, .real _ | .text _, .list _
  | .text _, .object _ | .list _, .null | .list _, .bool _ | .list _, .int _
  | .list _, .real _ | .list _, .text _ | .list _, .object _ | .object _, .null
  | .object _, .bool _ | .object _, .int _ | .object _, .real _ | .object _, .text _
  | .object _, .list _ => .isFalse fun he ↦ by cases he

/-- Decides whether two lists of values are the same. -/
def decEqList : (a b : List Json) → Decidable (a = b)
  | [], [] => .isTrue rfl
  | [], _ :: _ => .isFalse fun he ↦ by cases he
  | _ :: _, [] => .isFalse fun he ↦ by cases he
  | a :: as, b :: bs =>
    match decEq a b, decEqList as bs with
    | .isTrue h₁, .isTrue h₂ => .isTrue (h₁ ▸ h₂ ▸ rfl)
    | .isFalse h, _ => .isFalse fun he ↦ h (by injection he)
    | _, .isFalse h => .isFalse fun he ↦ h (by injection he)

/-- Decides whether two lists of fields are the same. -/
def decEqFields : (a b : List (String × Json)) → Decidable (a = b)
  | [], [] => .isTrue rfl
  | [], _ :: _ => .isFalse fun he ↦ by cases he
  | _ :: _, [] => .isFalse fun he ↦ by cases he
  | (m, a) :: as, (n, b) :: bs =>
    if hn : m = n then
      match decEq a b, decEqFields as bs with
      | .isTrue h₁, .isTrue h₂ => .isTrue (hn ▸ h₁ ▸ h₂ ▸ rfl)
      | .isFalse h, _ => .isFalse fun he ↦ h (by injection he with h; injection h)
      | _, .isFalse h => .isFalse fun he ↦ h (by injection he)
    else .isFalse fun he ↦ hn (by injection he with h; injection h)

end

instance : DecidableEq Json := decEq

/-- The value counts as absent where a default may stand in for it: null, false, a zero, an
empty text, list or object. -/
def isBlank : Json → Bool
  | .null => true
  | .bool b => !b
  | .int n => n == 0
  | .real x => x.isZero
  | .text s => s.isEmpty
  | .list items => items.isEmpty
  | .object fields => fields.isEmpty

end Json

end RouteWatch
