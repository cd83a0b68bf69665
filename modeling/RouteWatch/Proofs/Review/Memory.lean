import RouteWatch.Proofs.Action.Ends
import RouteWatch.Review.Memory

/-!
# What calls of the backend in memory do

No call changes the files of the change, and none but the creation of annotations changes these:
it adds one at the end. A call gives what the state says or fails with trouble, the latter only
where there are rules.
-/

namespace RouteWatch.Memory

variable {α β : Type} {m m' m'' : Memory} {added added' : List Annotation}

/-! ### Growth -/

/-- The second state differs from the first in the annotations that were added and in the calls
that were noted. -/
structure Grows (m m' : Memory) (added : List Annotation) : Prop where
  files : m'.files = m.files
  diffs : m'.diffs = m.diffs
  author : m'.author = m.author
  rules : m'.rules = m.rules
  annotations : m'.annotations = m.annotations ++ added

theorem Grows.refl (m : Memory) : m.Grows m [] := ⟨rfl, rfl, rfl, rfl, (List.append_nil _).symm⟩

theorem Grows.trans (h : m.Grows m' added) (h' : m'.Grows m'' added') :
    m.Grows m'' (added ++ added') where
  files := h'.files.trans h.files
  diffs := h'.diffs.trans h.diffs
  author := h'.author.trans h.author
  rules := h'.rules.trans h.rules
  annotations := by rw [h'.annotations, h.annotations, List.append_assoc]

/-- The contents of files stay. -/
theorem Grows.content? (h : m.Grows m' added) (path : String) (ref : Token) :
    m'.content? path ref = m.content? path ref := by
  rw [Memory.content?, Memory.content?, file?, file?, h.files]

/-- The diffs of files stay. -/
theorem Grows.diffOf (h : m.Grows m' added) (path : String) : m'.diffOf path = m.diffOf path := by
  rw [Memory.diffOf, Memory.diffOf, file?, file?, h.files, h.diffs]

/-! ### Calls that create nothing -/

/-- An action gives an answer, or fails with trouble where there are rules, and adds no
annotation. -/
def Gives (m : Memory) (a : Act Memory α) (exact : Except Failure α) : Prop :=
  a.Ends m fun x m' ↦
    m.Grows m' [] ∧ (x = exact ∨ m.rules ≠ [] ∧ ∃ t, x = .error (.trouble t))

theorem gives_pure {v : α} : m.Gives (pure v) (.ok v) := ⟨Grows.refl m, .inl rfl⟩

theorem gives_state : m.Gives Act.state (.ok m) := ⟨Grows.refl m, .inl rfl⟩

/-- What follows on an action that gives a value goes on from there, unless trouble stops it.
States are compared with one before the action. -/
theorem Gives.ends_bind {a : Act Memory α} {f : α → Act Memory β} {v : α}
    {post : Except Failure β → Memory → Prop} (ha : m.Gives a (.ok v)) (h : m'.Grows m [])
    (hstop : ∀ s t, m'.Grows s [] → m'.rules ≠ [] → post (.error (.trouble t)) s)
    (hf : ∀ s, m'.Grows s [] → (f v).Ends s post) : (a >>= f).Ends m post := by
  rw [Act.ends_bind]
  apply Act.Ends.imp ha
  rintro x s ⟨hgrows, rfl | ⟨hrules, t, rfl⟩⟩
  · exact hf s (h.trans hgrows)
  · rw [h.rules] at hrules
    exact hstop s t (h.trans hgrows) hrules

/-- Two actions in a row give what the second one gives. -/
theorem Gives.bind {a : Act Memory α} {f : α → Act Memory β} {v : α} {exact : Except Failure β}
    (ha : m.Gives a (.ok v)) (hf : ∀ m', m.Grows m' [] → m'.Gives (f v) exact) :
    m.Gives (a >>= f) exact := by
  apply ha.ends_bind (Grows.refl m)
  · intro s t hgrows hrules
    exact ⟨hgrows, .inr ⟨hrules, t, rfl⟩⟩
  · intro s hgrows
    apply Act.Ends.imp (hf s hgrows)
    rintro y s' ⟨hgrows', hy⟩
    rw [hgrows.rules] at hy
    exact ⟨hgrows.trans hgrows', hy⟩

/-- A call is noted, and answered by the first rule that covers it. -/
theorem run_note (call : Call) (m : Memory) :
    (note call).run m =
      ⟨match m.rules.find? (·.covers call.method (m.calls.count call.method + 1)) with
        | some rule => .error (.trouble rule.trouble)
        | none => .ok (),
        { m with calls := call.method :: m.calls }, [.called call]⟩ := by
  rw [← List.count_cons_self]
  simp only [note, Act.run, bind, Act.andThen, Act.emit, Act.state, Act.setState, List.nil_append]
  generalize List.find? _ _ = found
  cases found with
  | none => rfl
  | some rule => rfl

/-- Noting a call does nothing else, or fails. -/
theorem gives_note (call : Call) : m.Gives (note call) (.ok ()) := by
  have hgrows (calls : List Call.Method) : m.Grows { m with calls } [] :=
    ⟨rfl, rfl, rfl, rfl, (List.append_nil _).symm⟩
  rw [Gives, Act.Ends, run_note]
  dsimp only
  split
  next rule hrule =>
    refine ⟨hgrows _, .inr ⟨?_, rule.trouble, rfl⟩⟩
    intro hrules
    rw [hrules] at hrule
    cases hrule
  next => exact ⟨hgrows _, .inl rfl⟩

theorem gives_revisions (change : Token) :
    m.Gives (backend.revisions change) (.ok ⟨.text baseRef, .text headRef⟩) :=
  (gives_note _).bind fun _ _ ↦ gives_pure

theorem gives_changedFiles (change : Token) :
    m.Gives (backend.changedFiles change) (.ok (m.files.map fun file ↦ .text file.path)) := by
  apply (gives_note _).bind
  intro m' h
  rw [← h.files]
  exact gives_state.bind fun _ _ ↦ gives_pure

theorem gives_annotations (change : Token) :
    m.Gives (backend.annotations change) (.ok m.annotations) := by
  apply (gives_note _).bind
  intro m' h
  rw [← List.append_nil m.annotations, ← h.annotations]
  exact gives_state.bind fun _ _ ↦ gives_pure

theorem gives_diff (path : String) (revisions : Revisions) :
    m.Gives (backend.diff path revisions) (.ok (m.diffOf path)) := by
  apply (gives_note _).bind
  intro m' h
  rw [← h.diffOf]
  exact gives_state.bind fun _ _ ↦ gives_pure

/-- The content of a file, or the trouble that it is missing. -/
def read (m : Memory) (path : String) (ref : Token) : Except Failure String :=
  match m.content? path ref with
  | some content => .ok content
  | none => .error (.trouble ⟨.read, "not found at " ++ ref.plain, some path⟩)

theorem gives_content (path : String) (ref : Token) :
    m.Gives (backend.content path ref) (m.read path ref) := by
  apply (gives_note _).bind
  intro m' h
  apply gives_state.bind
  intro m'' h'
  rw [read, ← h.content?]
  cases m'.content? path ref with
  | none => exact ⟨Grows.refl m'', .inl rfl⟩
  | some content => exact gives_pure

theorem gives_requestChanges (change : Token) (body : String) :
    m.Gives (backend.requestChanges change body) (.ok ()) :=
  gives_note _

theorem gives_ensureLabel (change : Token) (name : String) :
    m.Gives (backend.ensureLabel change name) (.ok ()) :=
  gives_note _

/-! ### Creation -/

/-- The annotation that a draft becomes. -/
def stored (m : Memory) (d : Draft) : Annotation :=
  ⟨d.path, some d.line, d.body, some m.author, d.side, some (m.annotations.length + 1)⟩

/-- A creation adds the annotation of its draft, or fails and adds nothing. -/
theorem ends_create (change : Token) (d : Draft) :
    (backend.create change d).Ends m fun x m' ↦
      m.Grows m' [m.stored d] ∧ (∃ id, x = .ok id) ∨
        m.Grows m' [] ∧ m.rules ≠ [] ∧ ∃ t, x = .error (.trouble t) := by
  show (note _ >>= fun _ ↦ store d).Ends m _
  rw [Act.ends_bind]
  apply Act.Ends.imp (gives_note _)
  rintro x m' ⟨hgrows, rfl | ⟨hrules, t, rfl⟩⟩
  · simp only [store, Act.ends_bind, Act.ends_state, Act.ends_setState, Act.ends_pure]
    have hstored : m.stored d = m'.stored d := by
      rw [stored, stored, hgrows.author, hgrows.annotations, List.append_nil]
    refine .inl ⟨?_, _, rfl⟩
    rw [hstored]
    exact hgrows.trans ⟨rfl, rfl, rfl, rfl, rfl⟩
  · exact .inr ⟨hgrows, hrules, t, rfl⟩

end RouteWatch.Memory
