import RouteWatch.Action.Basic

/-!
# How actions end

`Act.Ends` says of an action that its answer and the state it leaves fulfil a condition. What
an action ends with follows from what its parts end with, one rule for each way in which actions
are put together.
-/

namespace RouteWatch.Act

variable {σ α β : Type} {s : σ} {a : Act σ α} {post post' : Except Failure α → σ → Prop}

/-- The action, run from a state, ends with an answer and a state that fulfil a condition. -/
def Ends (a : Act σ α) (s : σ) (post : Except Failure α → σ → Prop) : Prop :=
  post (a.run s).answer (a.run s).state

/-- A condition that follows from another is fulfilled where that one is. -/
theorem Ends.imp (h : a.Ends s post) (himp : ∀ x s', post x s' → post' x s') :
    a.Ends s post' :=
  himp _ _ h

@[simp] theorem ends_pure {v : α} {post : Except Failure α → σ → Prop} :
    (pure v : Act σ α).Ends s post ↔ post (.ok v) s := Iff.rfl

@[simp] theorem ends_fail {f : Failure} : (fail f : Act σ α).Ends s post ↔ post (.error f) s :=
  Iff.rfl

@[simp] theorem ends_emit {e : Event} {post : Except Failure Unit → σ → Prop} :
    (emit e : Act σ Unit).Ends s post ↔ post (.ok ()) s := Iff.rfl

@[simp] theorem ends_print {line : String} {post : Except Failure Unit → σ → Prop} :
    (print line : Act σ Unit).Ends s post ↔ post (.ok ()) s := Iff.rfl

@[simp] theorem ends_warn {line : String} {post : Except Failure Unit → σ → Prop} :
    (warn line : Act σ Unit).Ends s post ↔ post (.ok ()) s := Iff.rfl

@[simp] theorem ends_state {post : Except Failure σ → σ → Prop} :
    (state : Act σ σ).Ends s post ↔ post (.ok s) s := Iff.rfl

@[simp] theorem ends_setState {s' : σ} {post : Except Failure Unit → σ → Prop} :
    (setState s' : Act σ Unit).Ends s post ↔ post (.ok ()) s' := Iff.rfl

@[simp] theorem ends_ofExcept {x : Except Failure α} : (ofExcept x).Ends s post ↔ post x s := by
  cases x <;> exact Iff.rfl

/-- Two actions in a row end as the second one does, or as the first one where that fails. -/
theorem ends_bind {f : α → Act σ β} {post : Except Failure β → σ → Prop} :
    (a >>= f).Ends s post ↔ a.Ends s fun x s' ↦
      match x with
      | .ok v => (f v).Ends s' post
      | .error e => post (.error e) s' := by
  show post (andThen a f s).answer (andThen a f s).state ↔ _
  unfold andThen Ends run
  rcases a s with ⟨_ | v, s', trace⟩ <;> exact Iff.rfl

/-- The answer of two actions in a row, where that of the second one goes by the value of the first
one alone. -/
theorem answer_bind {f : α → Act σ β} {g : α → Except Failure β}
    (hf : ∀ v s, ((f v).run s).answer = g v) :
    ((a >>= f).run s).answer = (a.run s).answer >>= g := by
  show (a >>= f).Ends s fun x _ ↦ x = (a.run s).answer >>= g
  rw [ends_bind, Ends]
  cases (a.run s).answer with
  | error e => rfl
  | ok v => exact hf v _

/-- An action with a changed value. -/
theorem ends_map {f : α → β} {post : Except Failure β → σ → Prop} :
    (f <$> a).Ends s post ↔ a.Ends s fun x s' ↦ post (x.map f) s' := by
  rw [map_eq_pure_bind, ends_bind]
  unfold Ends
  cases (a.run s).answer <;> exact Iff.rfl

/-- An action whose answer becomes a value ends in the same state. -/
@[simp] theorem ends_attempt {post : Except Failure (Except Failure α) → σ → Prop} :
    a.attempt.Ends s post ↔ a.Ends s fun x s' ↦ post (.ok x) s' := by
  unfold attempt Ends run
  exact Iff.rfl

/-- An action with another in place of its failure. -/
theorem ends_recover {f : Failure → Act σ α} :
    (a.recover f).Ends s post ↔ a.Ends s fun x s' ↦
      match x with
      | .ok v => post (.ok v) s'
      | .error e => (f e).Ends s' post := by
  show post (recover a f s).answer (recover a f s).state ↔ _
  unfold recover Ends run
  rcases a s with ⟨_ | v, s', trace⟩ <;> exact Iff.rfl

end RouteWatch.Act
