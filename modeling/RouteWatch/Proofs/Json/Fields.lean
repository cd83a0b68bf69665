import Mathlib.Data.List.Basic
import RouteWatch.Json.Basic

/-!
# Fields that are put

Fields that are put into an object never give it two of one name, and whatever holds of the old
fields and of the new ones holds of the result. Of two fields with one name the new one is read.
-/

namespace RouteWatch

namespace Fields

variable {fields news : Fields} {name : String} {v : Json} {p : String × Json → Prop}

/-- Putting a field adds its name. -/
theorem mem_names_put {other : String} :
    other ∈ names (fields.put name v) ↔ other ∈ names fields ∨ other = name := by
  induction fields with
  | nil => simp [put, names]
  | cons field fields ih =>
    obtain ⟨n, w⟩ := field
    by_cases h : n = name
    · simp only [put, h, if_true, names, List.map_cons, List.mem_cons]
      exact ⟨.inl, fun hm ↦ hm.elim id .inl⟩
    · simp only [put, h, if_false, names, List.map_cons, List.mem_cons] at ih ⊢
      rw [ih, or_assoc]

/-- A field that is put adds no second field of its name. -/
theorem nodup_names_put (h : (names fields).Nodup) : (names (fields.put name v)).Nodup := by
  induction fields with
  | nil => simp [put, names]
  | cons field fields ih =>
    obtain ⟨n, w⟩ := field
    by_cases hn : n = name
    · simpa only [put, hn, if_true, names, List.map_cons] using hn ▸ h
    · simp only [names, List.map_cons, List.nodup_cons] at h
      simp only [put, hn, if_false, names, List.map_cons, List.nodup_cons]
      refine ⟨fun hmem ↦ ?_, ih h.2⟩
      exact (mem_names_put.mp hmem).elim h.1 hn

/-- The fields of an object are those it had, or the one that was put. -/
theorem forall_put (h : ∀ field ∈ fields, p field) (hv : p (name, v)) :
    ∀ field ∈ fields.put name v, p field := by
  induction fields with
  | nil => simpa [put] using hv
  | cons field fields ih =>
    obtain ⟨n, w⟩ := field
    rw [List.forall_mem_cons] at h
    by_cases hn : n = name
    · simp only [put, hn, if_true, List.forall_mem_cons]
      exact ⟨hv, h.2⟩
    · simp only [put, hn, if_false, List.forall_mem_cons]
      exact ⟨h.1, ih h.2⟩

theorem nodup_names_putAll (h : (names fields).Nodup) : (names (fields.putAll news)).Nodup := by
  induction news generalizing fields with
  | nil => exact h
  | cons field news ih => exact ih (nodup_names_put h)

theorem forall_putAll (h : ∀ field ∈ fields, p field) (hnews : ∀ field ∈ news, p field) :
    ∀ field ∈ fields.putAll news, p field := by
  induction news generalizing fields with
  | nil => exact h
  | cons field news ih =>
    rw [List.forall_mem_cons] at hnews
    exact ih (forall_put h hnews.1) hnews.2

/-- A field with a new name is put at the end. -/
theorem put_of_notMem (h : name ∉ names fields) : fields.put name v = fields ++ [(name, v)] := by
  induction fields with
  | nil => rfl
  | cons field fields ih =>
    obtain ⟨n, w⟩ := field
    simp only [names, List.map_cons, List.mem_cons, not_or] at h
    rw [put, if_neg (Ne.symm h.1), ih h.2]
    rfl

/-! ### Reading -/

theorem get?_cons_self (fields : Fields) (name : String) (v : Json) :
    get? ((name, v) :: fields) name = some v := by
  rw [get?, List.lookup_cons, beq_self_eq_true]

theorem get?_cons_of_ne (fields : Fields) {name other : String} (v : Json) (h : other ≠ name) :
    get? ((name, v) :: fields) other = get? fields other := by
  rw [get?, List.lookup_cons, beq_false_of_ne h]
  rfl

/-- Where no name stands twice, each field is read under its name. -/
theorem get?_of_mem (h : (names fields).Nodup) (hmem : (name, v) ∈ fields) :
    get? fields name = some v := by
  induction fields with
  | nil => exact absurd hmem List.not_mem_nil
  | cons field rest ih =>
    obtain ⟨hname, hrest⟩ := List.nodup_cons.mp h
    rcases List.mem_cons.mp hmem with rfl | hmem
    · exact get?_cons_self rest name v
    · have hne : name ≠ field.1 := fun he ↦
        hname (he ▸ List.mem_map_of_mem (f := Prod.fst) hmem)
      rw [get?_cons_of_ne rest field.2 hne]
      exact ih hrest hmem

/-- A name that is not there has no value. -/
theorem get?_of_notMem (h : name ∉ names fields) : get? fields name = none := by
  induction fields with
  | nil => rfl
  | cons field fields ih =>
    obtain ⟨n, w⟩ := field
    rw [names, List.map_cons, List.mem_cons, not_or] at h
    rw [get?_cons_of_ne _ _ h.1]
    exact ih h.2

/-- Fields that are put are read in place of the old ones with their names. -/
theorem get?_putAll (fields : Fields) (name : String) (h : (names news).Nodup) :
    (fields.putAll news).get? name = (news.get? name).or (fields.get? name) := by
  induction news generalizing fields with
  | nil => rfl
  | cons field news ih =>
    obtain ⟨n, w⟩ := field
    rw [names, List.map_cons, List.nodup_cons] at h
    refine (ih (fields.put n w) h.2).trans ?_
    by_cases hn : name = n
    · subst hn
      rw [get?_put_self, get?_cons_self, get?_of_notMem h.1]
      rfl
    · rw [get?_put_of_ne _ _ hn, get?_cons_of_ne _ _ hn]

/-- Leaving out fields by their names leaves the values of the others. -/
theorem get?_filter_name (fields : Fields) {p : String → Bool} (h : p name = true) :
    get? (fields.filter fun field ↦ p field.1) name = fields.get? name := by
  induction fields with
  | nil => rfl
  | cons field fields ih =>
    obtain ⟨n, w⟩ := field
    by_cases hn : name = n
    · subst hn
      rw [List.filter_cons, if_pos h, get?_cons_self, get?_cons_self]
    · rw [get?_cons_of_ne _ _ hn, List.filter_cons]
      split
      · rw [get?_cons_of_ne _ _ hn, ih]
      · exact ih

/-- Leaving out fields by their values leaves the values that fulfil the condition. -/
theorem get?_filter_value (p : Json → Bool) (h : (names fields).Nodup) :
    get? (fields.filter fun field ↦ p field.2) name = (fields.get? name).filter p := by
  induction fields with
  | nil => rfl
  | cons field fields ih =>
    obtain ⟨n, w⟩ := field
    rw [names, List.map_cons, List.nodup_cons] at h
    by_cases hn : name = n
    · subst hn
      rw [get?_cons_self, List.filter_cons, Option.filter_some]
      split
      · exact get?_cons_self _ _ _
      · refine (ih h.2).trans ?_
        rw [get?_of_notMem h.1]
        rfl
    · rw [get?_cons_of_ne _ _ hn, List.filter_cons]
      split
      · rw [get?_cons_of_ne _ _ hn, ih h.2]
      · exact ih h.2

/-! ### Fields for some names -/

/-- A field for each of some names that a function has a value for. -/
def ofNames (value? : String → Option Json) (keys : List String) : Fields :=
  keys.filterMap fun key ↦ (value? key).map (key, ·)

variable {value? : String → Option Json} {keys : List String}

theorem names_ofNames_sublist : (names (ofNames value? keys)).Sublist keys := by
  induction keys with
  | nil => exact .slnil
  | cons key keys ih =>
    rw [ofNames, List.filterMap_cons]
    cases value? key with
    | none => exact .cons key ih
    | some v => exact .cons_cons key ih

theorem ofNames_congr {value?' : String → Option Json}
    (h : ∀ key ∈ keys, value? key = value?' key) : ofNames value? keys = ofNames value?' keys :=
  List.filterMap_congr fun key hkey ↦ by rw [h key hkey]

/-- Among the names each is read with the value that the function gives for it. -/
theorem get?_ofNames :
    (ofNames value? keys).get? name = if name ∈ keys then value? name else none := by
  induction keys with
  | nil => rfl
  | cons key keys ih =>
    rw [ofNames, List.filterMap_cons]
    by_cases hn : name = key
    · subst hn
      rw [if_pos List.mem_cons_self]
      cases hv : value? name with
      | none => exact ih.trans (by rw [hv, ite_self])
      | some v => exact get?_cons_self _ _ _
    · simp only [List.mem_cons, hn, false_or]
      cases value? key with
      | none => exact ih
      | some v => exact (get?_cons_of_ne _ _ hn).trans ih

end Fields

end RouteWatch
