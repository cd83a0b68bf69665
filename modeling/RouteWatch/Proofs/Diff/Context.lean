import Mathlib.Data.List.Chain
import RouteWatch.Proofs.Diff.Script

/-!
# Groups with context

Cutting edits into groups keeps that they lead from one text to the other: between two groups,
before the first and after the last stand the same lines in both texts, and each group goes on where
those lines end. At either end of a group stand no more kept lines than the context.
-/

namespace RouteWatch.Diff

variable {x y : List String} {i j p q r s : Int} {e : Edit} {es fs : List Edit}

/-! ### Kept stretches that are cut down -/

/-- A kept stretch that is cut down to its first lines leaves lines that are the same. -/
private theorem tells_keepHead {n : Int} (hn : 0 ≤ n) (he : e.Tells x y)
    (hkeep : e.change = .keep) :
    (e.keepHead n).Tells x y ∧
      Same x y (e.keepHead n).leftEnd e.leftEnd (e.keepHead n).rightEnd e.rightEnd := by
  have hsame := he.same hkeep
  have hlength := hsame.length_eq
  have hle := he.left_le
  obtain ⟨hfirst, hlast⟩ := hsame.cut (k := min n (e.leftEnd - e.left)) (by omega) (by omega)
  have hhead : e.keepHead n = ⟨.keep, e.left, e.left + min n (e.leftEnd - e.left), e.right,
      e.right + min n (e.leftEnd - e.left)⟩ := by
    simp only [Edit.keepHead, hkeep, Edit.mk.injEq, true_and]
    omega
  rw [hhead]
  exact ⟨hfirst, hlast⟩

/-- A kept stretch that is cut down to its last lines leaves lines that are the same. -/
private theorem tells_keepTail {n : Int} (hn : 0 ≤ n) (he : e.Tells x y)
    (hkeep : e.change = .keep) :
    (e.keepTail n).Tells x y ∧
      Same x y e.left (e.keepTail n).left e.right (e.keepTail n).right := by
  have hsame := he.same hkeep
  have hlength := hsame.length_eq
  have hle := he.left_le
  obtain ⟨hfirst, hlast⟩ := hsame.cut (k := e.leftEnd - e.left - min n (e.leftEnd - e.left))
    (by omega) (by omega)
  have htail : e.keepTail n = ⟨.keep, e.left + (e.leftEnd - e.left - min n (e.leftEnd - e.left)),
      e.leftEnd, e.right + (e.leftEnd - e.left - min n (e.leftEnd - e.left)), e.rightEnd⟩ := by
    simp only [Edit.keepTail, hkeep, Edit.mk.injEq, true_and, and_true]
    omega
  rw [htail]
  exact ⟨hlast, hfirst⟩

/-- Between the first and the last lines of a long kept stretch stand lines that are the same. -/
private theorem same_between {n : Int} (hn : 0 ≤ n) (he : e.Tells x y) (hkeep : e.change = .keep)
    (hlong : n + n < e.leftEnd - e.left) :
    Same x y (e.keepHead n).leftEnd (e.keepTail n).left (e.keepHead n).rightEnd
        (e.keepTail n).right ∧
      1 ≤ (e.keepTail n).left - (e.keepHead n).leftEnd := by
  have hsame := he.same hkeep
  have hlength := hsame.length_eq
  obtain ⟨-, hlast⟩ := hsame.cut hn (by omega)
  obtain ⟨hbetween, -⟩ := hlast.cut (k := e.leftEnd - e.left - n - n) (by omega) (by omega)
  have hleft : (e.keepHead n).leftEnd = e.left + n := by
    simp only [Edit.keepHead]
    omega
  have hright : (e.keepHead n).rightEnd = e.right + n := by
    simp only [Edit.keepHead]
    omega
  have hleft' : (e.keepTail n).left = e.left + n + (e.leftEnd - e.left - n - n) := by
    simp only [Edit.keepTail]
    omega
  have hright' : (e.keepTail n).right = e.right + n + (e.leftEnd - e.left - n - n) := by
    simp only [Edit.keepTail]
    omega
  rw [hleft, hright, hleft', hright']
  exact ⟨hbetween, by omega⟩

/-- Trimming the start leaves out lines that are the same. -/
private theorem leads_trimStart {n : Int} (hn : 0 ≤ n) (h : Leads x y i j es p q)
    (hend : Same x y p p q q) :
    ∃ i' j', Same x y i i' j j' ∧ Leads x y i' j' (trimStart n es) p q := by
  cases h with
  | nil => exact ⟨_, _, hend, .nil⟩
  | cons hleft hright he hrest =>
    have hstart := (Leads.cons hleft hright he hrest).refl_start hend
    rw [trimStart]
    split
    · next hkeep =>
      obtain ⟨htells, hsame⟩ := tells_keepTail hn he hkeep
      rw [hleft, hright] at hsame
      exact ⟨_, _, hsame, .cons rfl rfl htells hrest⟩
    · exact ⟨_, _, hstart, .cons hleft hright he hrest⟩

/-- Trimming the end leaves out lines that are the same. -/
private theorem leads_trimEnd {n : Int} (hn : 0 ≤ n) (h : Leads x y i j es p q)
    (hend : Same x y p p q q) :
    ∃ p' q', Leads x y i j (trimEnd n es) p' q' ∧ Same x y p' p q' q := by
  induction h with
  | nil => exact ⟨_, _, .nil, hend⟩
  | @cons i j p q e es hleft hright he hrest ih =>
    cases es with
    | nil =>
      cases hrest
      rw [trimEnd]
      split
      · next hkeep =>
        obtain ⟨htells, hsame⟩ := tells_keepHead hn he hkeep
        exact ⟨_, _, .cons hleft hright htells .nil, hsame⟩
      · exact ⟨_, _, .cons hleft hright he .nil, hend⟩
    | cons f es =>
      obtain ⟨p', q', hleads, hsame⟩ := ih hend
      exact ⟨p', q', .cons hleft hright he hleads, hsame⟩

/-! ### Groups that lead from one text to the other -/

/-- Groups of edits from two positions on up to the ends of both texts: each leads from where the
lines that are the same end, of which at least `least` stand before the first group and at least
one between two. -/
inductive Grouped (x y : List String) : Int → Int → Int → List (List Edit) → Prop
  | nil {least i j : Int} (hsame : Same x y i x.length j y.length) : Grouped x y least i j []
  | cons {least i j p q r s : Int} {g : List Edit} {gs : List (List Edit)}
      (hleast : least ≤ p - i) (hsame : Same x y i p j q) (hne : g ≠ [])
      (hleads : Leads x y p q g r s) (hrest : Grouped x y 1 r s gs) :
      Grouped x y least i j (g :: gs)

/-- Lines that are the same may stand before groups. -/
private theorem Grouped.after {least less : Int} {gs : List (List Edit)}
    (h : Grouped x y least p q gs) (hsame : Same x y i p j q) (hless : less ≤ least + (p - i)) :
    Grouped x y less i j gs := by
  cases h with
  | nil hrest => exact .nil (hsame.append hrest)
  | cons hleast hnext hne hleads hrest =>
    exact .cons (by omega) (hsame.append hnext) hne hleads hrest

/-- Where no edit is left, what is held is the last group, unless it is nothing or but a kept
stretch. -/
private theorem groupsFrom_nil_cases (n : Int) (held : List Edit) :
    (groupsFrom n held [] = [] ∧ ∀ e ∈ held, held = [e] ∧ e.change = .keep) ∨
      (groupsFrom n held [] = [held.reverse] ∧ held ≠ [] ∧
        ∀ e, held = [e] → e.change ≠ .keep) := by
  cases held with
  | nil => exact .inl ⟨rfl, nofun⟩
  | cons e held =>
    cases held with
    | nil =>
      by_cases hkeep : e.change = .keep
      · refine .inl ⟨if_pos hkeep, fun f hf ↦ ?_⟩
        obtain rfl := List.mem_singleton.mp hf
        exact ⟨rfl, hkeep⟩
      · refine .inr ⟨if_neg hkeep, List.cons_ne_nil _ _, ?_⟩
        rintro _ ⟨⟩
        exact hkeep
    | cons f held => exact .inr ⟨rfl, List.cons_ne_nil _ _, nofun⟩

/-- The induction is on the edits to come. A group is closed by the first lines of a long kept
stretch; its last lines begin the next group, and at least one line stands between them. -/
private theorem grouped_groupsFrom {n : Int} (hn : 0 ≤ n) {held : List Edit}
    (hheld : Leads x y p q held.reverse i j) (hes : Leads x y i j es r s)
    (hend : Same x y r x.length s y.length) : Grouped x y 0 p q (groupsFrom n held es) := by
  have zero_le (p : Int) : 0 ≤ p - p := by omega
  induction es generalizing held p q i j with
  | nil =>
    cases hes
    have hstart := hheld.refl_start hend.refl
    rcases groupsFrom_nil_cases n held with ⟨hgroups, hkept⟩ | ⟨hgroups, hne, -⟩
    · rw [hgroups]
      cases held with
      | nil =>
        cases hheld
        exact .nil hend
      | cons e held =>
        obtain ⟨heq, hkeep⟩ := hkept e (List.mem_cons_self ..)
        cases heq
        cases hheld with | cons hleft hright he hrest =>
        cases hrest
        subst hleft hright
        exact .nil ((he.same hkeep).append hend)
    · rw [hgroups]
      exact .cons (zero_le p) hstart (by simpa using hne) hheld (.nil hend)
  | cons e es ih =>
    have hstart := (hheld.append hes).refl_start hend.refl
    cases hes with | cons hleft hright he hrest =>
    subst hleft hright
    rw [groupsFrom]
    split
    · next hlong =>
      obtain ⟨hkeep, hlong⟩ := hlong
      obtain ⟨htail, -⟩ := tells_keepTail hn he hkeep
      obtain ⟨hhead, -⟩ := tells_keepHead hn he hkeep
      obtain ⟨hbetween, hgap⟩ := same_between hn he hkeep hlong
      have hnext : Grouped x y 0 (e.keepTail n).left (e.keepTail n).right
          (groupsFrom n [e.keepTail n] es) := ih (.singleton htail) hrest
      rw [List.reverse_cons]
      exact .cons (zero_le p) hstart (by simp) (hheld.append (.singleton hhead))
        (hnext.after hbetween (by omega))
    · refine ih ?_ hrest
      rw [List.reverse_cons]
      exact hheld.append (.singleton he)

/-! ### Kept lines at the ends of groups -/

/-- Of two edits that stand next to each other one keeps and one changes something. -/
def Alternate (c d : Change) : Prop := c = .keep ↔ d ≠ .keep

/-- A kept stretch has at most `n` lines. -/
def Edit.KeepsAtMost (n : Int) (e : Edit) : Prop := e.change = .keep → e.leftEnd - e.left ≤ n

/-- A stretch with a line in one of the texts. -/
def Edit.Occupied (e : Edit) : Prop := ¬(e.left = e.leftEnd ∧ e.right = e.rightEnd)

/-- Edits of which every other one changes something, with at most `n` kept lines at the start. -/
structure Started (n : Int) (es : List Edit) : Prop where
  alternates : (es.map (·.change)).IsChain Alternate
  starts : ∀ e ∈ es.head?, e.KeepsAtMost n
  occupied : ∀ e ∈ es, e.change ≠ .keep → e.Occupied

/-- Edits of which every other one changes something, with at most `n` kept lines at either
end. -/
structure Bounded (n : Int) (es : List Edit) : Prop extends Started n es where
  ends : ∀ e ∈ es.getLast?, e.KeepsAtMost n

private theorem keepsAtMost_keepHead {n : Int} : (e.keepHead n).KeepsAtMost n := by
  intro _
  simp only [Edit.keepHead]
  omega

private theorem keepsAtMost_keepTail {n : Int} : (e.keepTail n).KeepsAtMost n := by
  intro _
  simp only [Edit.keepTail]
  omega

/-- Of two edits in turn one changes something. -/
private theorem exists_change {n : Int} (h : Bounded n es) (hlength : 2 ≤ es.length) :
    ∃ e ∈ es, e.change ≠ .keep := by
  match es, hlength with
  | e :: f :: es, _ =>
    by_cases hkeep : e.change = .keep
    · have halternates := h.alternates
      rw [List.map_cons, List.map_cons, List.isChain_cons_cons] at halternates
      exact ⟨f, by simp, halternates.1.mp hkeep⟩
    · exact ⟨e, by simp, hkeep⟩

/-- Edits may end in the first lines of a kept stretch. -/
private theorem bounded_close {n : Int} {held : List Edit} (hkeep : e.change = .keep)
    (h : Started n (held ++ e :: es)) : Bounded n (held ++ [e.keepHead n]) where
  alternates := by
    have halternates := h.alternates
    rw [List.append_cons, List.map_append] at halternates
    simpa [Edit.keepHead] using halternates.left_of_append
  starts f hf := by
    cases held with
    | nil =>
      obtain rfl := Option.mem_some_iff.mp hf
      exact keepsAtMost_keepHead
    | cons g held => exact h.starts f hf
  occupied f hf hchange := by
    rcases List.mem_append.mp hf with hf | hf
    · exact h.occupied f (List.mem_append_left _ hf) hchange
    · rw [List.mem_singleton.mp hf] at hchange
      exact absurd hkeep hchange
  ends f hf := by
    rw [List.getLast?_concat, Option.mem_some_iff] at hf
    exact hf ▸ keepsAtMost_keepHead

/-- The next group begins with the last lines of the kept stretch. -/
private theorem bounded_reopen {n : Int} {held : List Edit} (hkeep : e.change = .keep)
    (h : Bounded n (held ++ e :: es)) : Bounded n (e.keepTail n :: es) where
  alternates := by
    have halternates := h.alternates
    rw [List.map_append] at halternates
    exact halternates.right_of_append
  starts f hf := by
    rw [List.head?_cons, Option.mem_some_iff] at hf
    exact hf ▸ keepsAtMost_keepTail
  ends f hf := by
    cases es with
    | nil =>
      rw [List.getLast?_singleton, Option.mem_some_iff] at hf
      exact hf ▸ keepsAtMost_keepTail
    | cons f es =>
      apply h.ends
      rw [List.getLast?_append_cons, List.getLast?_cons_cons]
      rwa [List.getLast?_cons_cons] at hf
  occupied f hf hchange := by
    rcases List.mem_cons.mp hf with rfl | hf
    · exact absurd hkeep hchange
    · exact h.occupied f (by simp [hf]) hchange

/-- The induction is on the edits to come. The first of all edits is short, so what closes a group
is never its only edit. -/
private theorem bounded_of_mem_groupsFrom {n : Int} (hn : 0 ≤ n) {held : List Edit}
    (h : Bounded n (held.reverse ++ es)) {g : List Edit} (hg : g ∈ groupsFrom n held es) :
    Bounded n g ∧ ∃ e ∈ g, e.change ≠ .keep := by
  induction es generalizing held with
  | nil =>
    rw [List.append_nil] at h
    rcases groupsFrom_nil_cases n held with ⟨hgroups, -⟩ | ⟨hgroups, hne, hsingle⟩
    · rw [hgroups] at hg
      exact absurd hg List.not_mem_nil
    · rw [hgroups, List.mem_singleton] at hg
      subst hg
      refine ⟨h, ?_⟩
      cases held with
      | nil => exact absurd rfl hne
      | cons e held =>
        cases held with
        | nil => exact ⟨e, by simp, hsingle e rfl⟩
        | cons f held => exact exists_change h (by simp)
  | cons e es ih =>
    rw [groupsFrom] at hg
    split at hg
    · next hlong =>
      rcases List.mem_cons.mp hg with rfl | hg
      · have hheld : held.reverse ≠ [] := by
          intro hnil
          rw [hnil, List.nil_append] at h
          have := h.starts e rfl hlong.1
          omega
        rw [List.reverse_cons]
        have hclose := bounded_close hlong.1 h.toStarted
        refine ⟨hclose, exists_change hclose ?_⟩
        have := List.length_pos_of_ne_nil hheld
        rw [List.length_append, List.length_singleton]
        omega
      · have hreopen : Bounded n ([e.keepTail n].reverse ++ es) := bounded_reopen hlong.1 h
        exact ih hreopen hg
    · refine ih ?_ hg
      rw [List.reverse_cons, List.append_assoc]
      exact h

private theorem started_trimStart {n : Int} (halternates : (es.map (·.change)).IsChain Alternate)
    (hoccupied : ∀ e ∈ es, e.change ≠ .keep → e.Occupied) : Started n (trimStart n es) := by
  cases es with
  | nil => exact ⟨halternates, nofun, nofun⟩
  | cons e es =>
    rw [trimStart]
    split
    · next hkeep =>
      refine ⟨halternates, ?_, ?_⟩
      · rintro f ⟨⟩
        exact keepsAtMost_keepTail
      · intro f hf hchange
        rcases List.mem_cons.mp hf with rfl | hf
        · exact absurd hkeep hchange
        · exact hoccupied f (List.mem_cons_of_mem _ hf) hchange
    · next hchange =>
      refine ⟨halternates, ?_, hoccupied⟩
      rintro f ⟨⟩
      exact fun hkeep ↦ absurd hkeep hchange

private theorem trimEnd_concat (n : Int) (es : List Edit) (e : Edit) :
    trimEnd n (es ++ [e]) = es ++ [if e.change = .keep then e.keepHead n else e] := by
  induction es with
  | nil =>
    rw [List.nil_append, trimEnd]
    split
    · rfl
    · rfl
  | cons f es ih =>
    cases es with
    | nil => exact congrArg (f :: ·) ih
    | cons g es => exact congrArg (f :: ·) ih

private theorem bounded_trimEnd {n : Int} (h : Started n es) : Bounded n (trimEnd n es) := by
  rcases List.eq_nil_or_concat es with rfl | ⟨held, e, rfl⟩
  · exact ⟨h, nofun⟩
  rw [List.concat_eq_append] at h ⊢
  rw [trimEnd_concat]
  split
  · next hkeep => exact bounded_close hkeep h
  · next hchange =>
    refine ⟨h, ?_⟩
    intro f hf
    rw [List.getLast?_concat, Option.mem_some_iff] at hf
    exact fun hkeep ↦ absurd (hf ▸ hkeep) hchange

/-! ### The groups of two texts -/

/-- After a kept stretch the edits between two texts take turns: where no run begins there, a change
does. -/
private theorem alternates_after_keep {sizeA sizeB i j : Nat} {a b : Array String} {rs : List Run}
    (h : RunsBetween a b sizeA sizeB i j rs) (hapart : Apart i j rs) :
    (Change.keep :: (editsFrom sizeA sizeB i j rs).map (·.change)).IsChain Alternate := by
  induction h with
  | nil hi hj =>
    rw [editsFrom]
    rcases gap_cases hi hj with ⟨hgap, -, -⟩ | ⟨change, hchange, -, hgap⟩
    · rw [hgap]
      exact .singleton _
    · rw [hgap, List.map_singleton]
      exact List.isChain_pair.mpr ⟨fun _ ↦ hchange, fun _ ↦ rfl⟩
  | cons hi hj _ _ _ ih =>
    cases hapart with | cons hne hapart =>
    rcases gap_cases hi hj with ⟨-, hi', hj'⟩ | ⟨change, hchange, -, hgap⟩
    · exact absurd ⟨hi', hj'⟩ hne
    · rw [editsFrom, hgap, List.singleton_append, List.map_cons, List.map_cons,
        List.isChain_cons_cons, List.isChain_cons_cons]
      exact ⟨⟨fun _ ↦ hchange, fun _ ↦ rfl⟩, ⟨fun h ↦ absurd h hchange, fun h ↦ absurd rfl h⟩,
        ih hapart⟩

private theorem alternates_edits (a b : List String) :
    ((edits a b).map (·.change)).IsChain Alternate := by
  have hbetween := commonRuns_between a b
  have hapart := commonRuns_apart a b
  unfold edits
  cases hruns : commonRuns a b with
  | nil =>
    rw [hruns] at hbetween
    exact (alternates_after_keep hbetween .nil).tail
  | cons r rs =>
    rw [hruns] at hbetween hapart
    cases hapart with | cons hapart =>
    cases hbetween with | cons hi hj _ _ hrest =>
    have hnext := alternates_after_keep hrest hapart
    rw [editsFrom]
    rcases gap_cases hi hj with ⟨hgap, -, -⟩ | ⟨change, hchange, -, hgap⟩
    · rw [hgap]
      exact hnext
    · rw [hgap, List.singleton_append, List.map_cons, List.map_cons, List.isChain_cons_cons]
      exact ⟨⟨fun h ↦ absurd h hchange, fun h ↦ absurd rfl h⟩, hnext⟩

private theorem occupied_of_mem_edits {a b : List String} (he : e ∈ edits a b)
    (hchange : e.change ≠ .keep) : e.Occupied :=
  (within_of_mem_changes (List.mem_filter.mpr ⟨he, by simpa using hchange⟩)).not_empty

/-- Two texts without edits have no line. -/
private theorem eq_nil_of_edits {a b : List String} (h : edits a b = []) : a = [] ∧ b = [] := by
  have hbetween := commonRuns_between a b
  unfold edits at h
  cases hruns : commonRuns a b with
  | nil =>
    rw [hruns] at h
    rcases gap_cases (Nat.zero_le a.length) (Nat.zero_le b.length) with
      ⟨-, ha, hb⟩ | ⟨change, -, -, hgap⟩
    · exact ⟨List.length_eq_zero_iff.mp ha.symm, List.length_eq_zero_iff.mp hb.symm⟩
    · rw [editsFrom, hgap] at h
      cases h
  | cons r rs =>
    rw [hruns, editsFrom] at h
    exact absurd h (by simp)

/-- One kept stretch gives no group: cut down at both ends it is too short to end one. -/
theorem groupsFrom_kept {n : Int} (hn : 0 ≤ n) (hkeep : e.change = .keep) :
    groupsFrom n [] (trimEnd n (trimStart n [e])) = [] := by
  have htrimmed : trimEnd n (trimStart n [e]) = [(e.keepTail n).keepHead n] := by
    rw [trimStart, if_pos hkeep, trimEnd, if_pos (show (e.keepTail n).change = .keep from hkeep)]
  have hshort : ((e.keepTail n).keepHead n).leftEnd - ((e.keepTail n).keepHead n).left ≤ n :=
    keepsAtMost_keepHead hkeep
  rw [htrimmed, groupsFrom, if_neg (by omega)]
  exact if_pos hkeep

/-- Texts without edits have no groups. -/
private theorem groups_of_edits_eq_nil {a b : List String} {n : Int} (hn : 0 ≤ n)
    (h : edits a b = []) : groups n a b = [] := by
  rw [groups, h]
  exact groupsFrom_kept hn rfl

/-- The groups of two texts lead from one to the other and are bounded by the context. The texts
that the edits are found in may be others that agree where these do, so with or without line
ends. -/
theorem grouped_groups {a b : List String} {n : Int} (hn : 0 ≤ n) (ha : a.length = x.length)
    (hb : b.length = y.length)
    (hruns : RunsBetween x.toArray y.toArray x.length y.length 0 0 (commonRuns a b)) :
    Grouped x y 0 0 0 (groups n a b) ∧
      ∀ g ∈ groups n a b, Bounded n g ∧ ∃ e ∈ g, e.change ≠ .keep := by
  have hleads : Leads x y 0 0 (edits a b) x.length y.length := by
    rw [edits, ha, hb]
    exact leads_editsFrom hruns
  have hends : Same x y x.length x.length y.length y.length :=
    .of_eq (by omega) (by omega) (by omega) (by omega) (by omega) (by omega) (by simp)
  cases hedits : edits a b with
  | nil =>
    obtain ⟨rfl, rfl⟩ := eq_nil_of_edits hedits
    have hx : (x.length : Int) = 0 := by rw [← ha]; rfl
    have hy : (y.length : Int) = 0 := by rw [← hb]; rfl
    rw [hx, hy] at hends
    rw [groups_of_edits_eq_nil hn hedits]
    refine ⟨.nil ?_, fun g hg ↦ absurd hg List.not_mem_nil⟩
    rwa [hx, hy]
  | cons e es =>
    have hgroups : groups n a b = groupsFrom n [] (trimEnd n (trimStart n (edits a b))) := by
      rw [groups, hedits]
    rw [hgroups]
    have hstarted := started_trimStart (n := n) (alternates_edits a b)
      fun e he hchange ↦ occupied_of_mem_edits he hchange
    obtain ⟨i, j, hbefore, htrimmed⟩ := leads_trimStart hn hleads hends
    obtain ⟨p, q, htrimmed, hafter⟩ := leads_trimEnd hn htrimmed hends
    refine ⟨?_, fun g hg ↦ bounded_of_mem_groupsFrom hn (bounded_trimEnd hstarted) hg⟩
    exact (grouped_groupsFrom hn .nil htrimmed hafter).after hbefore (by
      have := hbefore.bounds
      omega)

end RouteWatch.Diff
