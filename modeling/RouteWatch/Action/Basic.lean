import RouteWatch.Action.Event
import RouteWatch.Action.Failure

/-!
# Actions

An `Act σ α` works on a state: it ends with a value or a failure, leaves a state and has a
trace of events. A sequence of actions stops at the first failure and keeps the state and the
trace up to there.
-/

namespace RouteWatch

/-- How an action ended: its answer, the state it left and what it did, in order. -/
structure Outcome (σ α : Type) where
  answer : Except Failure α
  state : σ
  trace : List Event

/-- An action on a state. -/
def Act (σ α : Type) : Type := σ → Outcome σ α

namespace Act

variable {σ τ α β : Type}

/-- The action run from a state. -/
def run (a : Act σ α) (s : σ) : Outcome σ α := a s

/-- The action that gives a value and does nothing. -/
def value (a : α) : Act σ α := fun s ↦ ⟨.ok a, s, []⟩

/-- The action that fails. -/
def fail (f : Failure) : Act σ α := fun s ↦ ⟨.error f, s, []⟩

/-- One action and then another, which is given the value of the first. -/
def andThen (a : Act σ α) (f : α → Act σ β) : Act σ β := fun s ↦
  match a s with
  | ⟨.ok v, s, trace⟩ =>
    match f v s with
    | ⟨answer, s, rest⟩ => ⟨answer, s, trace ++ rest⟩
  | ⟨.error e, s, trace⟩ => ⟨.error e, s, trace⟩

instance : Monad (Act σ) where
  pure := value
  bind := andThen

/-- One event. -/
def emit (e : Event) : Act σ Unit := fun s ↦ ⟨.ok (), s, [e]⟩

/-- The state. -/
def state : Act σ σ := fun s ↦ ⟨.ok s, s, []⟩

/-- Puts another state in place. -/
def setState (s : σ) : Act σ Unit := fun _ ↦ ⟨.ok (), s, []⟩

/-- An action that gives its answer as a value, be it a failure. -/
def attempt (a : Act σ α) : Act σ (Except Failure α) := fun s ↦
  match a s with
  | ⟨answer, s, trace⟩ => ⟨.ok answer, s, trace⟩

/-- The action with this answer. -/
def ofExcept : Except Failure α → Act σ α
  | .ok a => value a
  | .error f => fail f

/-- An action, and another in place of its failure. -/
def recover (a : Act σ α) (f : Failure → Act σ α) : Act σ α := fun s ↦
  match a s with
  | ⟨.ok v, s, trace⟩ => ⟨.ok v, s, trace⟩
  | ⟨.error e, s, trace⟩ =>
    match f e s with
    | ⟨answer, s, rest⟩ => ⟨answer, s, trace ++ rest⟩

/-- An action on a part of the state, which is read and replaced by the given functions. -/
def onPart (part : σ → τ) (replace : σ → τ → σ) (a : Act τ α) : Act σ α := fun s ↦
  match a (part s) with
  | ⟨answer, t, trace⟩ => ⟨answer, replace s t, trace⟩

/-- A line of output. -/
def print (line : String) : Act σ Unit := emit (.printed line)

/-- A warning. -/
def warn (line : String) : Act σ Unit := emit (.warned line)

/-- Does an action with each item of a list, in order. -/
def forEach (f : α → Act σ β) : List α → Act σ (List β)
  | [] => value []
  | a :: as => andThen (f a) fun b ↦ andThen (forEach f as) fun bs ↦ value (b :: bs)

/-- Doing nothing first changes nothing. -/
@[simp] theorem value_andThen (a : α) (f : α → Act σ β) : andThen (value a) f = f a := by
  funext s
  simp [andThen, value]

/-- Doing nothing afterwards changes nothing. -/
@[simp] theorem andThen_value (a : Act σ α) : andThen a value = a := by
  funext s
  simp only [andThen, value]
  split <;> simp_all

/-- Actions in a row may be grouped either way. -/
theorem andThen_assoc {γ : Type} (a : Act σ α) (f : α → Act σ β) (g : β → Act σ γ) :
    andThen (andThen a f) g = andThen a fun v ↦ andThen (f v) g := by
  funext s
  simp only [andThen]
  rcases a s with ⟨_ | v, s, trace⟩
  · rfl
  · simp only
    rcases f v s with ⟨_ | w, s, rest⟩
    · rfl
    · simp [List.append_assoc]

/-- Sequences of actions obey the laws of a monad. -/
instance : LawfulMonad (Act σ) :=
  LawfulMonad.mk' (Act σ) (fun a ↦ andThen_value a) (fun a f ↦ value_andThen a f)
    (fun a f g ↦ andThen_assoc a f g)

end Act

end RouteWatch
