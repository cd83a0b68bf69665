import RouteWatch.Proofs.Action.TwoRuns
import RouteWatch.Proofs.Review.Dialogue

/-!
# Rehearsed actions

An action may be rehearsed by another one that changes nothing. `Act.Rehearses` says that wherever
the action succeeds, so does its rehearsal, with a value that tells the value of the action and the
calls with which it changes something. Nothing is said of an action that fails: its rehearsal may
get further.
-/

namespace RouteWatch

variable {σ V α β γ δ : Type} {w : Aspect σ V}

/-! ### Actions that go by what is looked at -/

namespace Aspect

variable {a : Act σ α}

/-- An action whose answer becomes a value goes by the same. -/
theorem Follows.attempt {calls : List Call} (h : w.Follows a calls) :
    w.Follows a.attempt calls where
  same s s' hs := by
    obtain ⟨hsame, hanswers, hwrites, hallowed⟩ := h.same s s' hs
    exact ⟨hsame, .ok hanswers.eq, hwrites, hallowed⟩
  writes := h.writes

theorem Follows.recover {f : Failure → Act σ α} (h : w.Follows a [])
    (hf : ∀ e, w.Follows (f e) []) : w.Follows (a.recover f) [] := by
  rw [Act.recover_eq_attempt_bind]
  apply h.attempt.bind
  intro x
  cases x with
  | ok v => exact (reads_pure v).follows
  | error e => exact hf e

end Aspect

/-! ### Rehearsals -/

namespace Act

/-- Where the first action succeeds, the second one, run from a state that is related to that of
the first by `R`, succeeds too; the states after them are related by `R'`, and the values and the
calls of the first one that change something by `Q`. -/
def Rehearses (R R' : σ → σ → Prop) (Q : α → β → List Call → Prop) (live : Act σ α)
    (dry : Act σ β) : Prop :=
  ∀ s s', R s s' → ∀ v, (live.run s).answer = .ok v →
    ∃ v', (dry.run s').answer = .ok v' ∧ R' (live.run s).state (dry.run s').state ∧
      Q v v' (writesOf (live.run s).trace)

variable {R R' R'' : σ → σ → Prop} {Q : α → β → List Call → Prop} {live : Act σ α} {dry : Act σ β}

theorem Rehearses.imp {P : α → β → List Call → Prop} (h : Rehearses R R' Q live dry)
    (himp : ∀ v v' calls, Q v v' calls → P v v' calls) : Rehearses R R' P live dry := by
  intro s s' hs v hv
  obtain ⟨v', hv', hstates, hQ⟩ := h s s' hs v hv
  exact ⟨v', hv', hstates, himp v v' _ hQ⟩

/-- States may be related more closely at the start. -/
theorem Rehearses.mono {P : σ → σ → Prop} (h : Rehearses R R' Q live dry)
    (himp : ∀ s s', P s s' → R s s') : Rehearses P R' Q live dry :=
  fun s s' hs ↦ h s s' (himp s s' hs)

theorem rehearses_pure {v : α} {v' : β} (h : Q v v' []) : Rehearses R R Q (pure v) (pure v') := by
  intro s s' hs u hu
  obtain rfl := Except.ok.inj hu
  exact ⟨v', rfl, hs, h⟩

theorem rehearses_fail (e : Failure) : Rehearses R R' Q (fail e) dry :=
  fun _ _ _ _ h ↦ nomatch h

/-- Rehearsals of actions in a row; the calls of the second come after those of the first. -/
theorem Rehearses.bind {f : α → Act σ γ} {f' : β → Act σ δ} {P : γ → δ → List Call → Prop}
    (h : Rehearses R R' Q live dry)
    (hf : ∀ v v' calls, Q v v' calls →
      Rehearses R' R'' (fun u u' more ↦ P u u' (calls ++ more)) (f v) (f' v')) :
    Rehearses R R'' P (live >>= f) (dry >>= f') := by
  intro s s' hs u hu
  rcases hlive : live.run s with ⟨x, s₁, trace⟩
  cases x with
  | error e =>
    rw [run_bind_error hlive] at hu
    cases hu
  | ok v =>
    obtain ⟨v', hanswer, hstates, hQ⟩ := h s s' hs v (by rw [hlive])
    rcases hdry : dry.run s' with ⟨x', s₁', trace'⟩
    rw [hlive, hdry] at hstates
    rw [hlive] at hQ
    rw [hdry] at hanswer
    dsimp only at hanswer hstates hQ
    subst hanswer
    rw [run_bind_ok hlive] at hu ⊢
    rw [run_bind_ok hdry]
    obtain ⟨u', hanswer', hstates', hP⟩ := hf v v' _ hQ s₁ s₁' hstates u hu
    refine ⟨u', hanswer', hstates', ?_⟩
    rw [writesOf_append]
    exact hP

/-- An action that changes nothing rehearses itself from the same state. -/
theorem rehearses_self (h : ∀ s, writesOf (live.run s).trace = []) :
    Rehearses (· = ·) (· = ·) (fun v v' calls ↦ v = v' ∧ calls = []) live live := by
  rintro s _ rfl v hv
  exact ⟨v, hv, rfl, rfl, h s⟩

/-- So does it from a state that looks the same, where it goes by what is looked at. -/
theorem rehearses_of_follows (h : w.Follows live []) :
    Rehearses w.Same w.Same (fun v v' calls ↦ v = v' ∧ calls = []) live live := by
  intro s s' hs v hv
  obtain ⟨hsame, hanswers, -, -⟩ := h.same s s' hs
  exact ⟨v, hanswers.eq.symm.trans hv, hsame, rfl, h.writes s hs.left⟩

end Act

end RouteWatch
