import RouteWatch.Validation.Check

/-!
# The parts that a check finds fault with

A check that gives no value gives one problem for each part it finds fault with, in order: for the
whole of a value, or for the items of a list one by one. What a check of fields finds is what it
finds in each field, in the order of the fields.
-/

namespace RouteWatch.Validation

variable {α β : Type}

/-- A part of a value: its place and the part itself. -/
abbrev Part := List Step × Json

/-- The part of the value at a step. -/
def Part.within (step : Step) (part : Part) : Part := (step :: part.1, part.2)

/-- The part that a problem concerns. -/
def Problem.part (p : Problem) : Part := (p.place, p.input)

/-- A check takes a value that it gives something for. -/
def Check.takes (check : Check α) (v : Json) : Bool :=
  match check v with
  | .ok _ => true
  | .error _ => false

namespace Checked

/-- There is a value where no part is bad, and else one problem for each bad part, in order. -/
def Blames (x : Checked α) (bad : List Part) : Prop :=
  match x with
  | .ok _ => bad = []
  | .error ps => bad ≠ [] ∧ ps.map Problem.part = bad

variable {f : Checked (α → β)} {x : Checked α} {bad bad' : List Part}

theorem blames_ok (a : α) : Blames (.ok a) [] := rfl

theorem blames_refuse (defect : Defect) (v : Json) :
    (refuse defect v : Checked α).Blames [([], v)] :=
  ⟨List.cons_ne_nil _ _, rfl⟩

theorem Blames.combine (hf : f.Blames bad) (hx : x.Blames bad') :
    (combine f x).Blames (bad ++ bad') := by
  cases f with
  | ok f =>
    obtain rfl : bad = [] := hf
    cases x with
    | ok a => exact hx
    | error ps => exact hx
  | error ps =>
    cases x with
    | ok a =>
      obtain rfl : bad' = [] := hx
      rw [List.append_nil]
      exact hf
    | error qs =>
      refine ⟨List.append_ne_nil_of_left_ne_nil hf.1 _, ?_⟩
      rw [List.map_append, hf.2, hx.2]

theorem Blames.seq (hf : f.Blames bad) (hx : x.Blames bad') : (f <*> x).Blames (bad ++ bad') :=
  hf.combine hx

theorem Blames.map (g : α → β) (hx : x.Blames bad) : (g <$> x).Blames bad :=
  (blames_ok g).combine hx

theorem Blames.within (step : Step) (hx : x.Blames bad) :
    (x.within step).Blames (bad.map (Part.within step)) := by
  cases x with
  | ok a =>
    obtain rfl : bad = [] := hx
    rfl
  | error ps =>
    refine ⟨fun hnil ↦ hx.1 (List.map_eq_nil_iff.mp hnil), ?_⟩
    rw [← hx.2, List.map_map, List.map_map]
    rfl

/-- There is no value exactly where a part is bad. -/
theorem Blames.exists_error_iff (hx : x.Blames bad) : (∃ ps, x = .error ps) ↔ bad ≠ [] := by
  cases x with
  | ok a => exact iff_of_false nofun fun hne ↦ hne hx
  | error ps => exact iff_of_true ⟨ps, rfl⟩ hx.1

end Checked

/-! ### Values as a whole -/

namespace Check

variable {check : Check α} {bad : Json → List Part}

/-- What a check finds fault with in each value. -/
def Finds (check : Check α) (bad : Json → List Part) : Prop := ∀ v, (check v).Blames (bad v)

/-- The value as a whole, unless a check takes it. -/
def whole (check : Check α) (v : Json) : List Part := if check.takes v then [] else [([], v)]

/-- What a check gives that finds fault with nothing but the whole of a value. -/
inductive Refuses (v : Json) : Checked α → Prop
  | ok (a : α) : Refuses v (.ok a)
  | refuse (defect : Defect) : Refuses v (Checked.refuse defect v)

theorem Refuses.ite {v : Json} {c : Prop} [Decidable c] {x y : Checked α} (hx : Refuses v x)
    (hy : Refuses v y) : Refuses v (if c then x else y) := by
  split
  · exact hx
  · exact hy

/-- A check that finds fault with nothing but values as a whole. -/
def IsPlain (check : Check α) : Prop := ∀ v, Refuses v (check v)

theorem IsPlain.finds (h : check.IsPlain) : check.Finds check.whole := by
  intro v
  have h := h v
  unfold whole takes
  generalize check v = x at h ⊢
  cases h with
  | ok a => exact Checked.blames_ok a
  | refuse defect => exact Checked.blames_refuse defect v

theorem isPlain_text : IsPlain text := by
  intro v
  cases v with
  | text s => exact .ok s
  | _ => exact .refuse _

theorem isPlain_int : IsPlain int := by
  intro v
  cases v with
  | int n => exact .ok n
  | bool b => exact .ok _
  | real x =>
    refine (Refuses.refuse _).ite ?_
    cases x.toInt? with
    | none => exact .refuse _
    | some n => exact (Refuses.ok n).ite (.refuse _)
  | text s =>
    refine (Refuses.refuse _).ite ?_
    cases looseInt? s.toList with
    | none => exact .refuse _
    | some n => exact .ok n
  | _ => exact .refuse _

theorem isPlain_real : IsPlain real := by
  intro v
  cases v with
  | real x => exact .ok x
  | bool b => exact .ok _
  | int n =>
    unfold real
    dsimp only
    cases Binary64.ofInt? n with
    | none => exact .refuse _
    | some x => exact .ok x
  | text s =>
    unfold real
    dsimp only
    cases real? s.toList with
    | none => exact .refuse _
    | some x => exact .ok x
  | _ => exact .refuse _

theorem refuses_flagOfInt (n : Int) (v : Json) : Refuses v (flagOfInt n v) :=
  (Refuses.ok _).ite ((Refuses.ok _).ite ((Refuses.refuse _).ite (.refuse _)))

theorem isPlain_flag : IsPlain flag := by
  intro v
  cases v with
  | bool b => exact .ok b
  | int n => exact refuses_flagOfInt n _
  | real x =>
    unfold flag
    dsimp only
    cases x.toInt? with
    | none => exact .refuse _
    | some n => exact refuses_flagOfInt n _
  | text s => exact (Refuses.ok _).ite ((Refuses.ok _).ite (.refuse _))
  | _ => exact .refuse _

theorem Refuses.map {v : Json} {x : Checked α} (g : α → β) (h : Refuses v x) :
    Refuses v (g <$> x) := by
  cases h with
  | ok a => exact .ok (g a)
  | refuse defect => exact .refuse defect

theorem optional_of_ne_null {v : Json} (h : v ≠ .null) :
    optional check v = some <$> check v := by
  have hsome (x : Checked α) : some <$> x =
      match x with
      | .ok a => .ok (some a)
      | .error ps => .error ps := by
    cases x <;> rfl
  cases v with
  | null => exact absurd rfl h
  | _ => exact (hsome _).symm

theorem IsPlain.optional (h : check.IsPlain) : IsPlain (optional check) := by
  intro v
  by_cases hnull : v = .null
  · subst hnull
    exact .ok none
  · rw [optional_of_ne_null hnull]
    exact (h v).map some

/-! ### Items and fields -/

/-- What is bad in the items of a list, which starts at an index. -/
def inItems (bad : Json → List Part) (index : Nat) (vs : List Json) : List Part :=
  (vs.zipIdx index).flatMap fun (v, i) ↦ (bad v).map (Part.within (.item i))

theorem Finds.items (h : check.Finds bad) (index : Nat) (vs : List Json) :
    (Checked.items check index vs).Blames (inItems bad index vs) := by
  induction vs generalizing index with
  | nil => exact Checked.blames_ok []
  | cons v vs ih =>
    exact ((Checked.blames_ok List.cons).combine ((h v).within (.item index))).combine
      (ih (index + 1))

/-- What is bad in a list: its items one by one, and where there is no list the whole. -/
def inList (bad : Json → List Part) : Json → List Part
  | .list vs => inItems bad 0 vs
  | v => [([], v)]

theorem Finds.listOf (h : check.Finds bad) (defect : Defect) :
    Finds (listOf defect check) (inList bad) := by
  intro v
  cases v with
  | list vs => exact h.items 0 vs
  | _ => exact Checked.blames_refuse defect _

/-- What is bad in the value of a field, if it has one. -/
def inField (bad : Json → List Part) (name : String) : Option Json → List Part
  | some v => (bad v).map (Part.within (.field name))
  | none => []

theorem Finds.fieldD (h : check.Finds bad) (fields : Fields) (name : String) (default : α) :
    (fieldD fields name check default).Blames (inField bad name (fields.get? name)) := by
  unfold Validation.fieldD inField
  cases fields.get? name with
  | none => exact Checked.blames_ok default
  | some v => exact (h v).within (.field name)

end Check

/-! ### Forms -/

/-- A form in which a field takes its values. -/
inductive Form where
  | text
  | int
  | real
  | flag
  | intOrNull
  | textOrNull
  | texts

namespace Form

/-- What is made of a value. -/
def Value : Form → Type
  | text => String
  | int => Int
  | real => Binary64
  | flag => Bool
  | intOrNull => Option Int
  | textOrNull => Option String
  | texts => List String

/-- The check of a form. -/
def check : (form : Form) → Check form.Value
  | text => Validation.text
  | int => Validation.int
  | real => Validation.real
  | flag => Validation.flag
  | intOrNull => optional Validation.int
  | textOrNull => optional Validation.text
  | texts => listOf .notTuple Validation.text

/-- The parts of a value that do not fit a form: of a list of texts the items that are none, else
the whole. -/
def misfits : Form → Json → List Part
  | texts => Check.inList (Check.whole Validation.text)
  | form => form.check.whole

theorem finds : (form : Form) → form.check.Finds form.misfits
  | text => Check.isPlain_text.finds
  | int => Check.isPlain_int.finds
  | real => Check.isPlain_real.finds
  | flag => Check.isPlain_flag.finds
  | intOrNull => Check.isPlain_int.optional.finds
  | textOrNull => Check.isPlain_text.optional.finds
  | texts => Check.isPlain_text.finds.listOf .notTuple

/-- A form takes just the values in which nothing is bad. -/
theorem misfits_eq_nil_iff (form : Form) (v : Json) :
    form.misfits v = [] ↔ form.check.takes v = true := by
  have h := form.finds v
  unfold Check.takes
  cases hcheck : form.check v with
  | ok a =>
    rw [hcheck] at h
    exact iff_of_true h rfl
  | error ps =>
    rw [hcheck] at h
    exact iff_of_false h.1 Bool.false_ne_true

end Form

end RouteWatch.Validation
