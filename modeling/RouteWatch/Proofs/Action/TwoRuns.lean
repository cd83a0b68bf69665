import RouteWatch.Action.Basic

/-!
# Actions in two runs

Two runs that begin in states which look the same are compared: `Aspect.Matches` says of an action
of each that they answer alike, make the same calls that change something, and end in states which
look the same again. An action that only reads, for which `Aspect.Reads` gives the answer, may
stand in one of the runs alone.
-/

namespace RouteWatch

variable {σ V α β γ δ : Type} {s s₁ : σ} {trace : List Event} {v : α} {e : Failure}

/-! ### How actions run -/

namespace Act

variable {a : Act σ α}

theorem run_bind_ok (h : a.run s = ⟨.ok v, s₁, trace⟩) (f : α → Act σ β) :
    (a >>= f).run s =
      ⟨((f v).run s₁).answer, ((f v).run s₁).state, trace ++ ((f v).run s₁).trace⟩ := by
  show andThen a f s = _
  unfold run at h
  simp only [andThen, h, run]

theorem run_bind_error (h : a.run s = ⟨.error e, s₁, trace⟩) (f : α → Act σ β) :
    (a >>= f).run s = ⟨.error e, s₁, trace⟩ := by
  show andThen a f s = _
  unfold run at h
  simp only [andThen, h]

theorem run_recover_ok (h : a.run s = ⟨.ok v, s₁, trace⟩) (f : Failure → Act σ α) :
    (a.recover f).run s = ⟨.ok v, s₁, trace⟩ := by
  show recover a f s = _
  unfold run at h
  simp only [recover, h]

theorem run_recover_error (h : a.run s = ⟨.error e, s₁, trace⟩) (f : Failure → Act σ α) :
    (a.recover f).run s =
      ⟨((f e).run s₁).answer, ((f e).run s₁).state, trace ++ ((f e).run s₁).trace⟩ := by
  show recover a f s = _
  unfold run at h
  simp only [recover, h, run]

end Act

/-! ### Calls that change something -/

/-- The call is one that changes something. -/
def Call.writes : Call → Bool
  | .create _ _ | .requestChanges _ _ | .ensureLabel _ _ => true
  | _ => false

/-- The call that changes something which an event is. -/
def Event.write? : Event → Option Call
  | .called call => if call.writes then some call else none
  | _ => none

/-- The calls in a trace that change something, in order. -/
def writesOf (trace : List Event) : List Call := trace.filterMap Event.write?

theorem writesOf_append (trace rest : List Event) :
    writesOf (trace ++ rest) = writesOf trace ++ writesOf rest :=
  List.filterMap_append

/-- How states are looked at: what holds of each of them, and what of them the calls that change
something go by. -/
structure Aspect (σ V : Type) where
  holds : σ → Prop
  view : σ → V

/-- Two answers are both failures, and then the same, or both values, and then related. -/
inductive SameAnswer (Q : α → β → Prop) : Except Failure α → Except Failure β → Prop where
  | ok {v : α} {v' : β} (h : Q v v') : SameAnswer Q (.ok v) (.ok v')
  | error (e : Failure) : SameAnswer Q (.error e) (.error e)

theorem SameAnswer.refl (x : Except Failure α) : SameAnswer (· = ·) x x := by
  cases x with
  | ok v => exact .ok rfl
  | error e => exact .error e

theorem SameAnswer.eq {x y : Except Failure α} (h : SameAnswer (· = ·) x y) : x = y := by
  cases h with
  | ok hv => rw [hv]
  | error e => rfl

theorem SameAnswer.imp {Q R : α → β → Prop} {x : Except Failure α} {x' : Except Failure β}
    (h : SameAnswer Q x x') (himp : ∀ v v', Q v v' → R v v') : SameAnswer R x x' := by
  cases h with
  | ok hv => exact .ok (himp _ _ hv)
  | error e => exact .error e

namespace Aspect

variable {w : Aspect σ V} {s' s'' : σ}

/-- Two states look the same. -/
structure Same (w : Aspect σ V) (s s' : σ) : Prop where
  left : w.holds s
  right : w.holds s'
  view : w.view s = w.view s'

theorem Same.refl (h : w.holds s) : w.Same s s := ⟨h, h, rfl⟩

theorem Same.symm (h : w.Same s s') : w.Same s' s := ⟨h.right, h.left, h.view.symm⟩

theorem Same.trans (h : w.Same s s') (h' : w.Same s' s'') : w.Same s s'' :=
  ⟨h.left, h'.right, h.view.trans h'.view⟩

/-! ### Actions that only read -/

/-- An action has given an answer and done nothing else. -/
structure Leaves (w : Aspect σ V) (s : σ) (x : Except Failure α) (o : Outcome σ α) : Prop where
  answer : o.answer = x
  same : w.Same s o.state
  quiet : writesOf o.trace = []

/-- An action gives an answer, whatever the state is, and does nothing else. -/
def Reads (w : Aspect σ V) (a : Act σ α) (x : Except Failure α) : Prop :=
  ∀ s, w.holds s → w.Leaves s x (a.run s)

variable {a : Act σ α} {x : Except Failure α}

theorem reads_pure (v : α) : w.Reads (pure v) (.ok v) := fun _ hs ↦ ⟨rfl, Same.refl hs, rfl⟩

theorem reads_fail (e : Failure) : w.Reads (Act.fail e : Act σ α) (.error e) :=
  fun _ hs ↦ ⟨rfl, Same.refl hs, rfl⟩

theorem reads_emit {event : Event} (h : event.write? = none) :
    w.Reads (Act.emit event) (.ok ()) := by
  refine fun _ hs ↦ ⟨rfl, Same.refl hs, ?_⟩
  show [event].filterMap Event.write? = []
  rw [List.filterMap_cons_none h, List.filterMap_nil]

theorem reads_ofExcept (x : Except Failure α) : w.Reads (Act.ofExcept x) x := by
  cases x with
  | ok v => exact reads_pure v
  | error e => exact reads_fail e

/-- What comes after an action that has only read. -/
theorem Leaves.append {o : Outcome σ β} {y : Except Failure β}
    (h : w.Leaves s x ⟨x, s₁, trace⟩) (ho : w.Leaves s₁ y o) :
    w.Leaves s y ⟨o.answer, o.state, trace ++ o.trace⟩ where
  answer := ho.answer
  same := h.same.trans ho.same
  quiet := by
    have hquiet : writesOf trace = [] := h.quiet
    rw [writesOf_append, hquiet, ho.quiet, List.append_nil]

theorem Reads.bind {f : α → Act σ β} {g : α → Except Failure β} (h : w.Reads a x)
    (hf : ∀ v, w.Reads (f v) (g v)) : w.Reads (a >>= f) (x >>= g) := by
  intro s hs
  have hleaves := h s hs
  rcases ha : a.run s with ⟨y, s₁, trace⟩
  rw [ha] at hleaves
  obtain rfl : y = x := hleaves.answer
  cases y with
  | error e =>
    rw [Act.run_bind_error ha]
    exact ⟨rfl, hleaves.same, hleaves.quiet⟩
  | ok v =>
    rw [Act.run_bind_ok ha]
    exact hleaves.append (hf v s₁ hleaves.same.right)

theorem Reads.bind_ok {f : α → Act σ β} {y : Except Failure β} (h : w.Reads a (.ok v))
    (hf : w.Reads (f v) y) : w.Reads (a >>= f) y := by
  intro s hs
  have hleaves := h s hs
  rcases ha : a.run s with ⟨_, s₁, trace⟩
  rw [ha] at hleaves
  obtain rfl := hleaves.answer
  rw [Act.run_bind_ok ha]
  exact hleaves.append (hf s₁ hleaves.same.right)

theorem Reads.map (h : w.Reads a x) (f : α → β) : w.Reads (f <$> a) (x.map f) := by
  rw [map_eq_pure_bind]
  have hmap := h.bind fun v ↦ reads_pure (f v)
  cases x <;> exact hmap

theorem Reads.attempt (h : w.Reads a x) : w.Reads a.attempt (.ok x) := by
  intro s hs
  obtain ⟨rfl, hsame, hquiet⟩ := h s hs
  exact ⟨rfl, hsame, hquiet⟩

theorem Reads.recover {f : Failure → Act σ α} {g : Failure → Except Failure α}
    (h : w.Reads a x) (hf : ∀ e, w.Reads (f e) (g e)) : w.Reads (a.recover f) (x.tryCatch g) := by
  intro s hs
  have hleaves := h s hs
  rcases ha : a.run s with ⟨y, s₁, trace⟩
  rw [ha] at hleaves
  obtain rfl : y = x := hleaves.answer
  cases y with
  | ok v =>
    rw [Act.run_recover_ok ha]
    exact hleaves
  | error e =>
    rw [Act.run_recover_error ha]
    exact hleaves.append (hf e s₁ hleaves.same.right)

/-! ### Actions of two runs -/

/-- Two actions have ended alike, and each call that changed something is one of those allowed. -/
structure Agree (w : Aspect σ V) (allowed : Call → Prop) (Q : α → β → Prop) (o : Outcome σ α)
    (o' : Outcome σ β) : Prop where
  same : w.Same o.state o'.state
  answers : SameAnswer Q o.answer o'.answer
  writes : writesOf o.trace = writesOf o'.trace
  allowed : ∀ call ∈ writesOf o.trace, allowed call

/-- Two actions end alike where they begin in states that look the same. -/
def Matches (w : Aspect σ V) (allowed : Call → Prop) (Q : α → β → Prop) (a : Act σ α)
    (a' : Act σ β) : Prop :=
  ∀ s s', w.Same s s' → w.Agree allowed Q (a.run s) (a'.run s')

/-- An action goes by what its state looks like, and makes these calls that change something. -/
structure Follows (w : Aspect σ V) (a : Act σ α) (calls : List Call) : Prop where
  same : w.Matches (fun _ ↦ True) (· = ·) a a
  writes : ∀ s, w.holds s → writesOf (a.run s).trace = calls

variable {allowed : Call → Prop} {calls : List Call} {Q : α → β → Prop}

theorem Matches.imp {a' : Act σ β} {R : α → β → Prop} (h : w.Matches allowed Q a a')
    (himp : ∀ v v', Q v v' → R v v') : w.Matches allowed R a a' := by
  intro s s' hs
  obtain ⟨hsame, hanswers, hwrites, hallowed⟩ := h s s' hs
  exact ⟨hsame, hanswers.imp himp, hwrites, hallowed⟩

theorem Matches.allow {a' : Act σ β} {allowed' : Call → Prop} (h : w.Matches allowed Q a a')
    (himp : ∀ call, allowed call → allowed' call) : w.Matches allowed' Q a a' := by
  intro s s' hs
  obtain ⟨hsame, hanswers, hwrites, hallowed⟩ := h s s' hs
  exact ⟨hsame, hanswers, hwrites, fun call hcall ↦ himp call (hallowed call hcall)⟩

/-- Actions that only read match where their answers do. -/
theorem Reads.matches {a' : Act σ β} {x' : Except Failure β} (h : w.Reads a x)
    (h' : w.Reads a' x') (hx : SameAnswer Q x x') : w.Matches allowed Q a a' := by
  intro s s' hs
  obtain ⟨rfl, hsame, hquiet⟩ := h s hs.left
  obtain ⟨rfl, hsame', hquiet'⟩ := h' s' hs.right
  refine ⟨hsame.symm.trans (hs.trans hsame'), hx, hquiet.trans hquiet'.symm, ?_⟩
  rw [hquiet]
  exact fun _ hcall ↦ absurd hcall List.not_mem_nil

theorem matches_pure {v' : β} (h : Q v v') : w.Matches allowed Q (pure v) (pure v') :=
  (reads_pure v).matches (reads_pure v') (.ok h)

theorem matches_fail (e : Failure) :
    w.Matches allowed Q (Act.fail e : Act σ α) (Act.fail e : Act σ β) :=
  (reads_fail e).matches (reads_fail e) (.error e)

/-- Actions in a row match where they match one by one. -/
theorem Matches.bind {a' : Act σ β} {f : α → Act σ γ} {f' : β → Act σ δ} {R : γ → δ → Prop}
    (h : w.Matches allowed Q a a')
    (hf : ∀ v v', Q v v' → w.Matches allowed R (f v) (f' v')) :
    w.Matches allowed R (a >>= f) (a' >>= f') := by
  intro s s' hs
  have hagree := h s s' hs
  rcases ha : a.run s with ⟨y, s₁, trace⟩
  rcases ha' : a'.run s' with ⟨y', s₁', trace'⟩
  rw [ha, ha'] at hagree
  obtain ⟨hsame, hanswers, hwrites, hallowed⟩ := hagree
  dsimp only at hsame hanswers hwrites hallowed
  cases hanswers with
  | error e =>
    rw [Act.run_bind_error ha, Act.run_bind_error ha']
    exact ⟨hsame, .error e, hwrites, hallowed⟩
  | @ok v v' hv =>
    obtain ⟨hsame', hanswers', hwrites', hallowed'⟩ := hf v v' hv s₁ s₁' hsame
    rw [Act.run_bind_ok ha, Act.run_bind_ok ha']
    refine ⟨hsame', hanswers', ?_, ?_⟩
    · rw [writesOf_append, writesOf_append, hwrites, hwrites']
    · rw [writesOf_append]
      exact List.forall_mem_append.mpr ⟨hallowed, hallowed'⟩

/-- Both runs go on from the same value that they have read. -/
theorem Reads.bind_matches {a' : Act σ α} {f : α → Act σ β} {f' : α → Act σ γ}
    {Q : β → γ → Prop} (h : w.Reads a x) (h' : w.Reads a' x)
    (hf : ∀ v, x = .ok v → w.Matches allowed Q (f v) (f' v)) :
    w.Matches allowed Q (a >>= f) (a' >>= f') := by
  have hx : SameAnswer (fun v v' ↦ v = v' ∧ x = .ok v) x x := by
    cases x with
    | ok v => exact .ok ⟨rfl, rfl⟩
    | error e => exact .error e
  apply (h.matches h' hx).bind
  rintro v _ ⟨rfl, hv⟩
  exact hf v hv

/-- One of the runs reads something alone. -/
theorem Reads.bind_left {f : α → Act σ β} {a' : Act σ γ} {Q : β → γ → Prop}
    (h : w.Reads a (.ok v)) (hf : w.Matches allowed Q (f v) a') :
    w.Matches allowed Q (a >>= f) a' := by
  have hunit : w.Matches allowed (fun v' _ ↦ v' = v) a (pure () : Act σ Unit) :=
    h.matches (reads_pure ()) (.ok rfl)
  have hskip : w.Matches allowed Q (a >>= f) ((pure () : Act σ Unit) >>= fun _ ↦ a') :=
    hunit.bind fun v' _ hv ↦ hv ▸ hf
  rwa [pure_bind] at hskip

theorem Follows.matches (h : w.Follows a calls) (hcalls : ∀ call ∈ calls, allowed call) :
    w.Matches allowed (· = ·) a a := by
  intro s s' hs
  obtain ⟨hsame, hanswers, hwrites, -⟩ := h.same s s' hs
  exact ⟨hsame, hanswers, hwrites, by rwa [h.writes s hs.left]⟩

theorem Reads.follows (h : w.Reads a x) : w.Follows a [] where
  same := h.matches h (.refl x)
  writes s hs := (h s hs).quiet

/-- What comes after makes no further calls. -/
theorem Follows.bind {f : α → Act σ β} (h : w.Follows a calls)
    (hf : ∀ v, w.Follows (f v) []) : w.Follows (a >>= f) calls where
  same := h.same.bind fun v v' hv ↦ hv ▸ (hf v).same
  writes s hs := by
    have hcalls := h.writes s hs
    have hafter := (h.same s s (Same.refl hs)).same.left
    rcases ha : a.run s with ⟨_ | v, s₁, trace⟩
    · rw [ha] at hcalls
      rw [Act.run_bind_error ha]
      exact hcalls
    · rw [ha] at hcalls hafter
      rw [Act.run_bind_ok ha, writesOf_append, (hf v).writes s₁ hafter, List.append_nil]
      exact hcalls

end Aspect

end RouteWatch
