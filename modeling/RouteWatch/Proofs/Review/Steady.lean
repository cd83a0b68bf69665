import RouteWatch.Proofs.Action.TwoRuns
import RouteWatch.Proofs.Review.Memory
import RouteWatch.Review.Run

/-!
# Steady backends

What a steady backend answers to a run that reads from it depends on what it is asked for, and on
nothing that has been done before. The backend in memory is steady where no rule makes a call fail
that only reads.
-/

namespace RouteWatch

variable {σ V : Type} {w : Aspect σ V} {b : Backend σ} {x : Answers}

/-- What a backend answers to those who read from it. -/
structure Answers where
  revisions : Token → Except Failure Revisions
  changedFiles : Token → Except Failure (List Token)
  content : String → Token → Except Failure String
  diff : String → Revisions → Except Failure String

/-- A backend gives these answers. What it does when something is changed, and which annotations
it lists, goes by what its states look like, and each call that changes something is noted once. -/
structure Backend.Steady (b : Backend σ) (w : Aspect σ V) (x : Answers) : Prop where
  revisions : ∀ change, w.Reads (b.revisions change) (x.revisions change)
  changedFiles : ∀ change, w.Reads (b.changedFiles change) (x.changedFiles change)
  content : ∀ path ref, w.Reads (b.content path ref) (x.content path ref)
  diff : ∀ path revisions, w.Reads (b.diff path revisions) (x.diff path revisions)
  annotations : ∀ change, w.Follows (b.annotations change) []
  create : ∀ change d, w.Follows (b.create change d) [.create change d]
  requestChanges : ∀ change body,
    w.Follows (b.requestChanges change body) [.requestChanges change body]
  ensureLabel : ∀ change name, w.Follows (b.ensureLabel change name) [.ensureLabel change name]

/-- The backend with another list of the files that a change touches. -/
def Backend.listing (b : Backend σ) (files : List Token) : Backend σ :=
  { b with changedFiles := fun change ↦ (fun _ ↦ files) <$> b.changedFiles change }

/-! ### The backend in memory -/

/-- The method is one that changes something. -/
def Call.Method.writes : Call.Method → Bool
  | .create | .requestChanges | .ensureLabel => true
  | _ => false

theorem Call.writes_method (call : Call) : call.method.writes = call.writes := by
  cases call <;> rfl

namespace Memory

variable {m m₁ m₂ : Memory} {α : Type}

/-- The answers of the backend in memory. -/
def answers (m : Memory) : Answers where
  revisions _ := .ok ⟨.text baseRef, .text headRef⟩
  changedFiles _ := .ok (m.files.map fun file ↦ .text file.path)
  content := m.read
  diff path _ := .ok (m.diffOf path)

/-- The states of the backend have the files and the rules of the first one. What changes something
goes by the annotations, by who creates them, and by the calls before that changed something. -/
def aspect (m : Memory) : Aspect Memory (List Annotation × String × List Call.Method) where
  holds m' := m'.files = m.files ∧ m'.diffs = m.diffs ∧ m'.rules = m.rules
  view m' := (m'.annotations, m'.author, m'.calls.filter (·.writes))

theorem read_congr (h : m₁.files = m.files) : m₁.read = m.read := by
  funext path ref
  rw [read, read, content?, content?, file?, file?, h]

theorem diffOf_congr (h : m₁.files = m.files) (hdiffs : m₁.diffs = m.diffs) :
    m₁.diffOf = m.diffOf := by
  funext path
  rw [diffOf, diffOf, file?, file?, h, hdiffs]

/-- A call that only reads is noted, and seen in no other way. -/
private theorem reads_note {call : Call} (hrules : ∀ rule ∈ m.rules, rule.method.writes = true)
    (h : call.writes = false) : m.aspect.Reads (note call) (.ok ()) := by
  intro m' hm'
  have hnone : m'.rules.find? (·.covers call.method (m'.calls.count call.method + 1)) = none := by
    rw [hm'.2.2, List.find?_eq_none]
    intro rule hrule hcovers
    rw [FaultRule.covers, Bool.and_eq_true, decide_eq_true_eq] at hcovers
    have hwrites := hrules rule hrule
    rw [hcovers.1, call.writes_method, h] at hwrites
    cases hwrites
  rw [run_note, hnone]
  refine ⟨rfl, ⟨hm', hm', ?_⟩, ?_⟩
  · show (m'.annotations, m'.author, m'.calls.filter (·.writes)) =
      (m'.annotations, m'.author, (call.method :: m'.calls).filter (·.writes))
    rw [List.filter_cons_of_neg]
    rw [call.writes_method, h]
    exact Bool.false_ne_true
  · show [Event.called call].filterMap Event.write? = []
    rw [List.filterMap_cons_none, List.filterMap_nil]
    rw [Event.write?, h]
    rfl

/-- What is read of the state is the same in each. -/
private theorem reads_state {f : Memory → α} {v : α} (h : ∀ m', m.aspect.holds m' → f m' = v) :
    m.aspect.Reads (Act.state >>= fun m' ↦ pure (f m')) (.ok v) :=
  fun m' hm' ↦ ⟨congrArg Except.ok (h m' hm'), Aspect.Same.refl hm', rfl⟩

private theorem reads_readContent (path : String) (ref : Token) :
    m.aspect.Reads (readContent path ref) (m.read path ref) := by
  intro m' hm'
  have hrun : (readContent path ref).run m' = ⟨m'.read path ref, m', []⟩ := by
    simp only [readContent, Act.run, bind, Act.andThen, Act.state, List.nil_append, read]
    generalize m'.content? path ref = found
    cases found with
    | none => rfl
    | some content => rfl
  rw [hrun]
  exact ⟨by rw [read_congr hm'.1], Aspect.Same.refl hm', rfl⟩

/-- A call that changes something goes by the calls before that did. -/
private theorem follows_note {call : Call} (h : call.writes = true) :
    m.aspect.Follows (note call) [call] where
  same m₁ m₂ hsame := by
    have hrules : m₁.rules = m₂.rules := hsame.left.2.2.trans hsame.right.2.2.symm
    have hview := hsame.view
    simp only [aspect, Prod.mk.injEq] at hview
    obtain ⟨hannotations, hauthor, hcalls⟩ := hview
    have hcount : m₁.calls.count call.method = m₂.calls.count call.method := by
      rw [← List.count_filter (call.writes_method.trans h), hcalls,
        List.count_filter (call.writes_method.trans h)]
    rw [run_note, run_note, hrules, hcount]
    refine ⟨⟨⟨hsame.left.1, hsame.left.2.1, hsame.right.2.2⟩, hsame.right, ?_⟩, .refl _, rfl,
      fun _ _ ↦ trivial⟩
    show (m₁.annotations, m₁.author, (call.method :: m₁.calls).filter (·.writes)) =
      (m₂.annotations, m₂.author, (call.method :: m₂.calls).filter (·.writes))
    rw [List.filter_cons, List.filter_cons, hannotations, hauthor, hcalls]
  writes m' _ := by
    rw [run_note]
    show [Event.called call].filterMap Event.write? = [call]
    rw [List.filterMap_cons_some, List.filterMap_nil]
    rw [Event.write?, if_pos h]

private theorem follows_annotationsOf :
    m.aspect.Follows (Act.state >>= fun m' ↦ pure m'.annotations) [] where
  same _ _ hsame :=
    ⟨hsame, .ok (congrArg Prod.fst hsame.view), rfl, fun _ hcall ↦ absurd hcall List.not_mem_nil⟩
  writes _ _ := rfl

private theorem follows_store (d : Draft) : m.aspect.Follows (store d) [] where
  same m₁ m₂ hsame := by
    have hview := hsame.view
    simp only [aspect, Prod.mk.injEq] at hview
    obtain ⟨hannotations, hauthor, hcalls⟩ := hview
    refine ⟨⟨hsame.left, hsame.right, ?_⟩, .ok ?_, rfl, fun _ hcall ↦ absurd hcall List.not_mem_nil⟩
    · show (m₁.annotations ++ [m₁.stored d], m₁.author, m₁.calls.filter (·.writes)) =
        (m₂.annotations ++ [m₂.stored d], m₂.author, m₂.calls.filter (·.writes))
      rw [stored, stored, hannotations, hauthor, hcalls]
    · show Json.int (m₁.annotations.length + 1) = Json.int (m₂.annotations.length + 1)
      rw [hannotations]
  writes _ _ := rfl

/-- The backend in memory is steady where calls that only read do not fail. -/
theorem steady_backend (hrules : ∀ rule ∈ m.rules, rule.method.writes = true) :
    backend.Steady m.aspect m.answers where
  revisions _ := (reads_note hrules rfl).bind fun _ ↦ Aspect.reads_pure _
  changedFiles _ := (reads_note hrules rfl).bind fun _ ↦ reads_state fun _ h ↦ by rw [h.1]
  content path ref := (reads_note hrules rfl).bind fun _ ↦ reads_readContent path ref
  diff _ _ := (reads_note hrules rfl).bind fun _ ↦ reads_state fun _ h ↦ by
    rw [diffOf_congr h.1 h.2.1]
  annotations _ := (reads_note hrules rfl).follows.bind fun _ ↦ follows_annotationsOf
  create _ d := (follows_note rfl).bind fun _ ↦ follows_store d
  requestChanges _ _ := follows_note rfl
  ensureLabel _ _ := follows_note rfl

end Memory

end RouteWatch
