/-!
# Computations that may fail

A sequence of computations succeeds exactly where each of them does, and a list is worked through
exactly where each of its members is.
-/

namespace RouteWatch

variable {ε α β : Type}

/-- Two computations in a row succeed where both do. -/
theorem except_bind_eq_ok_iff {x : Except ε α} {f : α → Except ε β} {b : β} :
    x >>= f = .ok b ↔ ∃ a, x = .ok a ∧ f a = .ok b := by
  cases x with
  | error e => simp [bind, Except.bind]
  | ok a => simp [bind, Except.bind]

/-- Two computations in a row fail where the first one does, or else the second one. -/
theorem except_bind_eq_error_iff {x : Except ε α} {f : α → Except ε β} {e : ε} :
    x >>= f = .error e ↔ x = .error e ∨ ∃ a, x = .ok a ∧ f a = .error e := by
  cases x with
  | error e' => simp [bind, Except.bind]
  | ok a => simp [bind, Except.bind]

/-- A computation succeeds with a changed value where it succeeds. -/
theorem except_map_eq_ok_iff {x : Except ε α} {f : α → β} {b : β} :
    x.map f = .ok b ↔ ∃ a, x = .ok a ∧ f a = b := by
  cases x with
  | error e => simp [Except.map]
  | ok a => simp [Except.map]

/-- A computation fails with a changed value where it fails. -/
theorem except_map_eq_error_iff {x : Except ε α} {f : α → β} {e : ε} :
    x.map f = .error e ↔ x = .error e := by
  cases x with
  | error e => simp [Except.map]
  | ok a => simp [Except.map]

/-- A computation fails with a changed failure where it fails. -/
theorem except_mapError_eq_error_iff {ε' : Type} {x : Except ε α} {f : ε → ε'} {e : ε'} :
    x.mapError f = .error e ↔ ∃ e', x = .error e' ∧ f e' = e := by
  cases x with
  | error e' =>
    refine ⟨fun h ↦ ⟨e', rfl, Except.error.inj h⟩, ?_⟩
    rintro ⟨_, h, rfl⟩
    rw [← Except.error.inj h]
    rfl
  | ok a => exact iff_of_false nofun fun ⟨_, h, _⟩ ↦ nomatch h

/-- A computation succeeds with a changed failure where it succeeds. -/
theorem except_mapError_eq_ok_iff {ε' : Type} {x : Except ε α} {f : ε → ε'} {a : α} :
    x.mapError f = .ok a ↔ x = .ok a := by
  cases x with
  | error e => exact iff_of_false nofun nofun
  | ok b => exact ⟨fun h ↦ congrArg Except.ok (Except.ok.inj h), fun h ↦ h ▸ rfl⟩

/-- A computation that gives a value as an option gives it. -/
theorem except_eq_ok_of_toOption {x : Except ε α} {a : α} (h : x.toOption = some a) :
    x = .ok a := by
  cases x with
  | error e => cases h
  | ok b => exact congrArg Except.ok (Option.some.inj h)

/-- A list is worked through where each member is. -/
theorem mapM_eq_ok_of_forall {f : α → Except ε β} {k : α → β} {xs : List α}
    (h : ∀ x ∈ xs, f x = .ok (k x)) : xs.mapM f = .ok (xs.map k) := by
  induction xs with
  | nil => rfl
  | cons x xs ih =>
    rw [List.mapM_cons, except_bind_eq_ok_iff]
    refine ⟨k x, h x (List.mem_cons_self ..), ?_⟩
    rw [ih fun y hy ↦ h y (List.mem_cons_of_mem _ hy)]
    rfl

/-- A list whose members can be worked through is, with a value for each member, in order. -/
theorem exists_mapM_eq_ok {f : α → Except ε β} {xs : List α} (h : ∀ x ∈ xs, ∃ y, f x = .ok y) :
    ∃ ys, xs.mapM f = .ok ys ∧ xs.map f = ys.map .ok := by
  induction xs with
  | nil => exact ⟨[], rfl, rfl⟩
  | cons x xs ih =>
    obtain ⟨y, hy⟩ := h x (List.mem_cons_self ..)
    obtain ⟨ys, hys, hmap⟩ := ih fun z hz ↦ h z (List.mem_cons_of_mem _ hz)
    refine ⟨y :: ys, ?_, by rw [List.map_cons, List.map_cons, hy, hmap]⟩
    rw [List.mapM_cons, hy, hys]
    rfl

/-- Where a list is worked through, each member has given its value. -/
theorem eq_map_of_mapM_eq_ok {f : α → Except ε β} {k : α → β} {xs : List α} {ys : List β}
    (h : xs.mapM f = .ok ys) (hk : ∀ x ∈ xs, ∀ y, f x = .ok y → y = k x) : ys = xs.map k := by
  induction xs generalizing ys with
  | nil =>
    cases h
    rfl
  | cons x xs ih =>
    rw [List.mapM_cons, except_bind_eq_ok_iff] at h
    obtain ⟨y, hy, h⟩ := h
    rw [except_bind_eq_ok_iff] at h
    obtain ⟨zs, hzs, h⟩ := h
    cases h
    rw [List.map_cons, hk x (List.mem_cons_self ..) y hy,
      ih hzs fun z hz ↦ hk z (List.mem_cons_of_mem _ hz)]

/-- The first item for which a function fails decides whether a list can be gone through. -/
theorem mapM_cases {f : α → Except ε β} {p : α → Bool}
    (hp : ∀ x, p x = true ↔ ∃ y, f x = .ok y) (xs : List α) :
    (xs.find? (!p ·) = none ∧ ∃ ys, xs.mapM f = .ok ys) ∨
      ∃ x e, xs.find? (!p ·) = some x ∧ f x = .error e ∧ xs.mapM f = .error e := by
  induction xs with
  | nil => exact .inl ⟨rfl, [], rfl⟩
  | cons x xs ih =>
    rw [List.mapM_cons]
    cases hx : f x with
    | error e =>
      have hbad : p x = false := by
        rw [Bool.eq_false_iff, ne_eq, hp, hx]
        exact nofun
      exact .inr ⟨x, e, by rw [List.find?_cons, hbad]; rfl, hx, rfl⟩
    | ok y =>
      have hgood : p x = true := (hp x).mpr ⟨y, hx⟩
      rw [List.find?_cons, hgood]
      rcases ih with ⟨hnone, ys, hys⟩ | ⟨z, e, hz, hfails, hxs⟩
      · exact .inl ⟨hnone, y :: ys, by rw [hys]; rfl⟩
      · exact .inr ⟨z, e, hz, hfails, by rw [hxs]; rfl⟩

end RouteWatch
