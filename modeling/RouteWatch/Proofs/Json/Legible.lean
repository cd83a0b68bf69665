import RouteWatch.Proofs.Json.Fields
import RouteWatch.Proofs.Json.Numeral

/-!
# Values that JSON text can hold

A value is legible when its integers have no more digits than are read, its floating-point numbers
are such as words or digits stand for, and no object has two fields of one name. Whatever is read
from a text is legible. How deep lists and objects may stand within one another is kept apart from
this, as `Nests`.
-/

namespace RouteWatch

open RouteWatch.Text (digitLimit readNat showNat)

/-- A number that a word stands for, or a finite one. -/
def Binary64.IsLegible (x : Binary64) : Prop :=
  x.isFinite = true ∨ x = Binary64.nan ∨ x = Binary64.infinity ∨ x = Binary64.infinity.neg

namespace Json

/-- A value that some text is read as. -/
inductive Legible : Json → Prop
  | null : Legible .null
  | bool (b : Bool) : Legible (.bool b)
  | int {n : Int} (h : (showNat n.natAbs).length ≤ digitLimit) : Legible (.int n)
  | real {x : Binary64} (h : x.IsLegible) : Legible (.real x)
  | text (s : String) : Legible (.text s)
  | list {vs : List Json} (h : ∀ v ∈ vs, Legible v) : Legible (.list vs)
  | object {fields : Fields} (hnames : (Fields.names fields).Nodup)
      (h : ∀ field ∈ fields, Legible field.2) : Legible (.object fields)

/-- All floating-point numbers in a value fulfil a condition. -/
inductive Reals (P : Binary64 → Prop) : Json → Prop
  | null : Reals P .null
  | bool (b : Bool) : Reals P (.bool b)
  | int (n : Int) : Reals P (.int n)
  | real {x : Binary64} (h : P x) : Reals P (.real x)
  | text (s : String) : Reals P (.text s)
  | list {vs : List Json} (h : ∀ v ∈ vs, Reals P v) : Reals P (.list vs)
  | object {fields : Fields} (h : ∀ field ∈ fields, Reals P field.2) : Reals P (.object fields)

/-- A value with at most so many lists and objects within one another. -/
inductive Nests : (room : Nat) → Json → Prop
  | null (room : Nat) : Nests room .null
  | bool (room : Nat) (b : Bool) : Nests room (.bool b)
  | int (room : Nat) (n : Int) : Nests room (.int n)
  | real (room : Nat) (x : Binary64) : Nests room (.real x)
  | text (room : Nat) (s : String) : Nests room (.text s)
  | list {room : Nat} {vs : List Json} (h : ∀ v ∈ vs, Nests room v) : Nests (room + 1) (.list vs)
  | object {room : Nat} {fields : Fields} (h : ∀ field ∈ fields, Nests room field.2) :
    Nests (room + 1) (.object fields)

/-! ### What is read -/

private theorem magnitude_nearest_le (num den : Nat) :
    Binary64.nearest num den ≤ Binary64.infinite := by
  unfold Binary64.nearest
  simp only
  split
  · exact Nat.zero_le _
  · exact Nat.min_le_right _ _

/-- Digits with a power of ten stand for a finite number or an infinity. -/
theorem isLegible_ofDecimal (negative : Bool) (digits : Nat) (power : Int) :
    (Binary64.ofDecimal negative digits power).IsLegible := by
  have hle : (Binary64.ofDecimal negative digits power).magnitude ≤ Binary64.infinite := by
    unfold Binary64.ofDecimal
    simp only
    split
    · exact Nat.zero_le _
    split
    · exact Nat.le_refl _
    split
    · exact Nat.zero_le _
    split
    · exact magnitude_nearest_le _ _
    · exact magnitude_nearest_le _ _
  generalize Binary64.ofDecimal negative digits power = x at hle
  obtain ⟨negative, magnitude⟩ := x
  rcases Nat.lt_or_eq_of_le hle with hlt | heq
  · exact .inl (decide_eq_true hlt)
  · cases heq
    cases negative with
    | false => exact .inr (.inr (.inl rfl))
    | true => exact .inr (.inr (.inr rfl))

private theorem legible_of_numeral {n : Numeral} {v : Json} (h : n.value = .ok v) :
    v.Legible := by
  unfold Numeral.value at h
  split at h
  · split at h
    · exact nomatch h
    · next hlimit =>
      cases h
      have hread := Text.length_showNat_readNat_le (by decide) (Nat.not_lt.mp hlimit)
      apply Legible.int
      split
      · rwa [Int.natAbs_neg, Int.natAbs_natCast]
      · rwa [Int.natAbs_natCast]
  · cases h
    exact .real (isLegible_ofDecimal _ _ _)

private theorem legible_of_word {w : List Char × Json} (h : w ∈ words) : w.2.Legible := by
  simp only [words, List.mem_cons, List.not_mem_nil, or_false] at h
  rcases h with rfl | rfl | rfl | rfl | rfl | rfl
  · exact .null
  · exact .bool true
  · exact .bool false
  · exact .real (.inr (.inl rfl))
  · exact .real (.inr (.inr (.inl rfl)))
  · exact .real (.inr (.inr (.inr rfl)))

private theorem legible_empty : (Json.object []).Legible := by
  apply Legible.object
  · exact List.nodup_nil
  · exact List.forall_mem_nil _

/-- What is read within a number of steps is legible: values, lists that go on from legible items,
and objects that go on from legible fields. -/
private structure ReadsLegible (fuel : Nat) : Prop where
  value {room : Nat} {c c' : Cursor} {v : Json} (h : value fuel room c = .ok (v, c')) : v.Legible
  items {room : Nat} {held : List Json} {c c' : Cursor} {v : Json} (hheld : ∀ w ∈ held, w.Legible)
    (h : items fuel room held c = .ok (v, c')) : v.Legible
  fields {room : Nat} {held : Fields} {c c' : Cursor} {v : Json}
    (hheld : (Json.object held).Legible) (h : fields fuel room held c = .ok (v, c')) : v.Legible

variable {fuel room : Nat} {c c' : Cursor} {v : Json}

private theorem exists_of_enter {read : Nat → Step Json} {a : Json × Cursor}
    (h : enter room read = .ok a) : ∃ room, read room = .ok a := by
  cases room with
  | zero => exact nomatch h
  | succ room => exact ⟨room, h⟩

private theorem legible_of_number (h : number c = .ok (v, c')) : v.Legible := by
  unfold number at h
  split at h
  · cases h
  · obtain ⟨v₁, hv, heq⟩ := except_map_eq_ok_iff.mp h
    cases heq
    exact legible_of_numeral hv

private theorem ReadsLegible.value_succ (hf : ReadsLegible fuel)
    (h : Json.value (fuel + 1) room c = .ok (v, c')) : v.Legible := by
  rw [Json.value] at h
  split at h
  · obtain ⟨⟨s, c₁⟩, -, heq⟩ := except_map_eq_ok_iff.mp h
    cases heq
    exact .text s
  · obtain ⟨room, h⟩ := exists_of_enter h
    simp only at h
    split at h
    · cases h
      exact legible_empty
    · exact hf.fields legible_empty h
  · obtain ⟨room, h⟩ := exists_of_enter h
    simp only at h
    split at h
    · cases h
      exact .list (List.forall_mem_nil _)
    · exact hf.items (List.forall_mem_nil _) h
  · split at h
    · next w v₁ hword =>
      cases h
      exact legible_of_word (List.mem_of_find?_eq_some hword)
    · exact legible_of_number h

private theorem ReadsLegible.items_succ (hf : ReadsLegible fuel) {held : List Json}
    (hheld : ∀ w ∈ held, w.Legible) (h : Json.items (fuel + 1) room held c = .ok (v, c')) :
    v.Legible := by
  rw [Json.items] at h
  split at h
  · cases h
  next w c₁ hw =>
  have hall : ∀ x ∈ w :: held, x.Legible := List.forall_mem_cons.mpr ⟨hf.value hw, hheld⟩
  simp only at h
  split at h
  · cases h
    exact .list fun x hx ↦ hall x (List.mem_reverse.mp hx)
  · exact hf.items hall h
  · cases h

private theorem legible_put {held : Fields} {w : Json} (name : String)
    (hheld : (Json.object held).Legible) (hw : w.Legible) :
    (Json.object (Fields.put held name w)).Legible := by
  cases hheld with
  | object hnames hfields =>
    exact .object (Fields.nodup_names_put hnames) (Fields.forall_put hfields hw)

private theorem ReadsLegible.fields_succ (hf : ReadsLegible fuel) {held : Fields}
    (hheld : (Json.object held).Legible) (h : Json.fields (fuel + 1) room held c = .ok (v, c')) :
    v.Legible := by
  rw [Json.fields] at h
  split at h
  · split at h
    · cases h
    next name c₁ _ =>
    simp only at h
    split at h
    · split at h
      · cases h
      next w c₂ hw =>
      have hput := legible_put name hheld (hf.value hw)
      split at h
      · cases h
        exact hput
      · exact hf.fields hput h
      · cases h
    · cases h
  · cases h

private theorem readsLegible (fuel : Nat) : ReadsLegible fuel := by
  induction fuel with
  | zero => exact ⟨nofun, nofun, nofun⟩
  | succ fuel ih => exact ⟨ih.value_succ, ih.items_succ, ih.fields_succ⟩

/-- What is read from a text is legible. -/
theorem legible_of_read {text : String} {v : Json} (h : read text = .ok v) : v.Legible := by
  unfold read at h
  simp only at h
  split at h
  · exact nomatch h
  split at h
  · exact nomatch h
  next w c hw =>
  split at h
  · cases h
    exact (readsLegible _).value hw
  · exact nomatch h

end Json

end RouteWatch
