import RouteWatch.Pattern.Match

/-!
# Groups that take part in every match

A group that a tree cannot be matched without has taken something wherever the tree matches. What
has been taken by a group may be replaced on the way, but is never lost.
-/

namespace RouteWatch.Pattern

/-- The group takes part in every match of the tree, as can be told from its form. -/
def Node.takes (index : Nat) : Node → Bool
  | .group i body => i = index || body.takes index
  | .seq first second => first.takes index || second.takes index
  | .alt first second => first.takes index && second.takes index
  | _ => false

/-- The group has taken something on the way to a place. -/
def Place.Has (index : Nat) (s : Place) : Prop := (s.groups.lookup index).isSome = true

/-- What follows is tried only at places to which a group that has taken something has been kept. -/
def Keeps (index : Nat) (round : Place → Rest → Option Place) : Prop :=
  ∀ s k r, round s k = some r → ∃ s', k s' = some r ∧ (s.Has index → s'.Has index)

variable {index : Nat} {round after : Place → Rest → Option Place} {least : Nat}
  {most : Option Nat} {s r : Place} {k : Rest}

/-- What is kept by a round and by what comes after it is kept by both in a row. -/
private theorem Keeps.andThen (h : Keeps index round) (hafter : Keeps index after)
    (hr : round s (fun s' ↦ after s' k) = some r) :
    ∃ s', k s' = some r ∧ (s.Has index → s'.Has index) := by
  obtain ⟨s₁, hs₁, hkept₁⟩ := h _ _ _ hr
  obtain ⟨s₂, hs₂, hkept₂⟩ := hafter _ _ _ hs₁
  exact ⟨s₂, hs₂, fun hs ↦ hkept₂ (hkept₁ hs)⟩

/-- The induction is on the fuel: a round is followed by the rounds after it. -/
private theorem keeps_loopMost (h : Keeps index round) (fuel count : Nat) (last : Option Nat) :
    Keeps index (loopMost round least most fuel count last) := by
  induction fuel generalizing count last with
  | zero => exact fun s k r hr ↦ nomatch hr
  | succ fuel ih =>
    intro s k r hr
    rw [loopMost] at hr
    split at hr
    · exact h.andThen (ih _ _) hr
    · split at hr
      · split at hr
        next hround => exact h.andThen (ih _ _) (hround.trans hr)
        next => exact ⟨s, hr, id⟩
      · exact ⟨s, hr, id⟩

private theorem keeps_loopFewest (h : Keeps index round) (fuel count : Nat) (last : Option Nat) :
    Keeps index (loopFewest round least most fuel count last) := by
  induction fuel generalizing count last with
  | zero => exact fun s k r hr ↦ nomatch hr
  | succ fuel ih =>
    intro s k r hr
    rw [loopFewest] at hr
    split at hr
    · exact h.andThen (ih _ _) hr
    · split at hr
      next hrest => exact ⟨s, hrest.trans hr, id⟩
      next =>
        split at hr
        · exact h.andThen (ih _ _) hr
        · exact nomatch hr

private theorem keeps_next {test : Char → Bool} (h : (s.next? test).bind k = some r) :
    ∃ s', k s' = some r ∧ (s.Has index → s'.Has index) := by
  obtain ⟨s', hs', hk⟩ := Option.bind_eq_some_iff.mp h
  refine ⟨s', hk, ?_⟩
  unfold Place.next? at hs'
  split at hs'
  · split at hs'
    · obtain rfl := Option.some.inj hs'
      exact id
    · exact nomatch hs'
  · exact nomatch hs'

private theorem Place.has_taken {s s' : Place} {i : Nat} {taken : List Char}
    (h : i = index ∨ s.Has index)
    (hgroups : s'.groups = (i, taken) :: s.groups) : s'.Has index := by
  rw [Place.Has, hgroups, List.lookup_cons]
  split
  · rfl
  next hi => exact h.resolve_left fun heq ↦ by simp [heq] at hi

private theorem Node.kept_of_not_takes {node : Node} (htakes : node.takes index = false)
    (h : ∃ s', k s' = some r ∧ (s.Has index → s'.Has index)) :
    ∃ s', k s' = some r ∧ (node.takes index = true ∨ s.Has index → s'.Has index) := by
  simpa [htakes] using h

/-- A tree is left only to places to which what groups have taken has been kept, and at which a
group that takes part in every match has taken something. -/
theorem Node.run_eq_some (node : Node) (h : node.run s k = some r) :
    ∃ s', k s' = some r ∧ (node.takes index = true ∨ s.Has index → s'.Has index) := by
  induction node generalizing s k r with
  | empty => exact kept_of_not_takes rfl ⟨s, h, id⟩
  | char | any | oneOf => exact kept_of_not_takes rfl (keeps_next h)
  | anchor a =>
    rw [run] at h
    split at h
    · exact kept_of_not_takes rfl ⟨s, h, id⟩
    · exact nomatch h
  | seq first second ihFirst ihSecond =>
    obtain ⟨s₁, hs₁, hkept₁⟩ := ihFirst h
    obtain ⟨s₂, hs₂, hkept₂⟩ := ihSecond hs₁
    refine ⟨s₂, hs₂, fun htakes ↦ hkept₂ ?_⟩
    simp only [takes, Bool.or_eq_true] at htakes
    rcases htakes with (hfirst | hsecond) | hs
    · exact .inr (hkept₁ (.inl hfirst))
    · exact .inl hsecond
    · exact .inr (hkept₁ (.inr hs))
  | alt first second ihFirst ihSecond =>
    rw [run] at h
    split at h
    next hfirst =>
      obtain ⟨s', hs', hkept⟩ := ihFirst (hfirst.trans h)
      exact ⟨s', hs', fun htakes ↦ hkept (htakes.imp_left fun h ↦ (Bool.and_eq_true_iff.mp h).1)⟩
    next =>
      obtain ⟨s', hs', hkept⟩ := ihSecond h
      exact ⟨s', hs', fun htakes ↦ hkept (htakes.imp_left fun h ↦ (Bool.and_eq_true_iff.mp h).2)⟩
  | group i body ih =>
    obtain ⟨s', hs', hkept⟩ := ih h
    refine ⟨_, hs', fun htakes ↦ Place.has_taken ?_ rfl⟩
    simp only [takes, Bool.or_eq_true, decide_eq_true_eq] at htakes
    rcases htakes with (hi | hbody) | hs
    · exact .inl hi
    · exact .inr (hkept (.inl hbody))
    · exact .inr (hkept (.inr hs))
  | repeated least most choice body ih =>
    have hbody : Keeps index body.run := fun s k r hr ↦
      (ih hr).imp fun s' ⟨hs', hkept⟩ ↦ ⟨hs', fun hs ↦ hkept (.inr hs)⟩
    cases choice with
    | most => exact kept_of_not_takes rfl (keeps_loopMost hbody _ _ _ _ _ _ h)
    | fewest => exact kept_of_not_takes rfl (keeps_loopFewest hbody _ _ _ _ _ _ h)
    | only =>
      obtain ⟨s', hs', hk⟩ := Option.bind_eq_some_iff.mp h
      obtain ⟨_, hsome, hkept⟩ := keeps_loopMost hbody _ _ _ _ _ _ hs'
      obtain rfl := Option.some.inj hsome
      exact kept_of_not_takes rfl ⟨_, hk, hkept⟩

/-- A group that takes part in every match of a tree has taken something wherever the tree is found.
-/
theorem Node.has_of_searchFrom {node : Node} (htakes : node.takes index = true)
    {before : List Char} {position : Nat} {cs : List Char}
    (h : node.searchFrom before position cs = some r) : r.Has index := by
  have hrun {s : Place} (h : node.run s some = some r) : r.Has index := by
    obtain ⟨s', hsome, hkept⟩ : ∃ s', some s' = some r ∧
        (node.takes index = true ∨ s.Has index → s'.Has index) := node.run_eq_some h
    exact Option.some.inj hsome ▸ hkept (.inl htakes)
  induction cs generalizing before position with
  | nil => exact hrun h
  | cons c cs ih =>
    rw [searchFrom] at h
    split at h
    next hhere => exact hrun (hhere.trans h)
    next => exact ih h

end RouteWatch.Pattern
