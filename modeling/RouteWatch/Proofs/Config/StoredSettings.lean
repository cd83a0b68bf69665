import RouteWatch.Config.Store
import RouteWatch.Proofs.Action.TwoRuns
import RouteWatch.Proofs.Config.Forms
import RouteWatch.Proofs.Json.Stored

/-!
# The stored configuration

A call that saves settings is accepted or it is not. One that is not fails for the values it was
given and changes nothing; one that is leaves a file that holds just the settings so far with its
own put in. So after any calls the file holds the settings that were there at first with the
accepted ones put in, and from the first accepted call on it is a file that can be loaded.
-/

namespace RouteWatch

namespace ConfigSource

variable {s : ConfigSource} {t : Tree} {settings overrides : Fields}

/-! ### What the file holds -/

/-- The stored file holds an object with these fields, in a text that is read: without half of a
surrogate pair, and nested no deeper than `Json.nestingLimit`. -/
def HoldsObject (path : Path) (t : Tree) (fields : Fields) : Prop :=
  ∃ text, t.readText path path.text = .ok text ∧ Json.read text = .ok (.object fields)

/-- The settings among fields. -/
def settingsOf (fields : Fields) : Fields := fields.filter fun field ↦ Config.keys.contains field.1

/-- Fields that are all settings. -/
def allKnown (fields : Fields) : Bool := fields.all fun field ↦ Config.keys.contains field.1

/-- The settings in the stored file: none where there is no file, and else those of the object
that it holds. -/
inductive Holds (path : Path) (t : Tree) : Fields → Prop
  | absent (h : t.has path = false) : Holds path t []
  | object {fields : Fields} (h : HoldsObject path t fields) : Holds path t (settingsOf fields)

private theorem run_readJson {path : Path} {shown text : String} {v : Json}
    (htext : t.readText path shown = .ok text) (hread : Json.read text = .ok v)
    (warning : String) : (readJson path shown warning).run t = ⟨.ok (some v), t, []⟩ := by
  unfold readJson
  rw [Act.run_bind_ok (a := Act.state) rfl]
  simp only [htext, hread]
  rfl

/-- The settings that the stored file holds are read from it. -/
theorem run_fromFile (h : Holds s.path t settings) : s.fromFile.run t = ⟨.ok settings, t, []⟩ := by
  unfold fromFile
  rw [Act.run_bind_ok (a := Act.state) rfl]
  cases h with
  | absent h =>
    simp only [h, Bool.not_false, if_true]
    rfl
  | object h =>
    obtain ⟨text, htext, hread⟩ := h
    simp only [Tree.has_of_readText htext, Bool.not_true, Bool.false_eq_true, if_false]
    rw [Act.run_bind_ok (run_readJson htext hread _)]
    rfl

/-! ### One call -/

/-- A configuration can be made from the settings. -/
def isValid (settings : Fields) : Bool :=
  match Config.check (.object settings) with
  | .ok _ => true
  | .error _ => false

/-- Overrides that name nothing but settings and, put into the settings that are there, give a
configuration. -/
def accepts (settings overrides : Fields) : Bool :=
  allKnown overrides && isValid (Fields.putAll settings overrides)

/-- Settings are valid where they pass the check. -/
theorem isValid_iff : isValid settings = true ↔ ∃ c, Config.check (.object settings) = .ok c := by
  unfold isValid
  generalize Config.check (.object settings) = checked
  cases checked with
  | error problems => simp
  | ok c => exact iff_of_true rfl ⟨c, rfl⟩

private theorem isEmpty_unknownKeys :
    (unknownKeys (Fields.names overrides)).isEmpty = allKnown overrides := by
  rw [Bool.eq_iff_iff, List.isEmpty_iff_length_eq_zero, unknownKeys, List.length_mergeSort,
    List.length_eq_zero_iff, List.filter_eq_nil_iff, allKnown, List.all_eq_true, Fields.names]
  simp only [List.forall_mem_map, Bool.not_eq_true, Bool.not_eq_false']

/-- Overrides with a name that is no setting change nothing. -/
theorem run_save_unknown (h : allKnown overrides = false) :
    (s.save overrides).run t =
      ⟨.error (.unknownKeys (unknownKeys (Fields.names overrides))), t, []⟩ := by
  unfold save
  simp only [isEmpty_unknownKeys, h, Bool.not_false, if_true]
  rfl

/-- Overrides that give no configuration change nothing. -/
theorem run_save_invalid (h : Holds s.path t settings)
    (hknown : allKnown overrides = true) {problems : List Validation.Problem}
    (hcheck : Config.check (.object (Fields.putAll settings overrides)) = .error problems) :
    (s.save overrides).run t = ⟨.error (.invalid ⟨Config.recordName, problems⟩), t, []⟩ := by
  unfold save
  simp only [isEmpty_unknownKeys, hknown, Bool.not_true, Bool.false_eq_true, if_false]
  have hmake : Record.make Config.recordName Config.check
      (.object (Fields.putAll settings overrides)) =
        .error (.invalid ⟨Config.recordName, problems⟩) := by
    simp only [Record.make, hcheck]
  rw [Act.run_bind_ok (run_fromFile h), hmake]
  rfl

private theorem run_store {t₁ t₂ : Tree} {fields : Fields}
    (hfolders : t.withFolders s.path.parent = .ok t₁)
    (hwrite : t₁.write s.path (Text.Utf8.encode (Json.write .stored (.object fields))) = .ok t₂) :
    (s.store fields).run t = ⟨.ok (), t₂, []⟩ := by
  unfold store
  generalize Text.Utf8.encode (Json.write .stored (.object fields)) = content at hwrite ⊢
  rw [Act.run_bind_ok (a := Act.state) rfl, hfolders]
  show (Act.ofExcept ((t₁.write s.path content).mapError (faultAs .notStored)) >>=
    Act.setState).run t₁ = _
  rw [hwrite]
  rfl

/-- Overrides that give a configuration are stored together with the settings that are there. -/
theorem run_save_accepted (h : Holds s.path t settings)
    (haccepts : accepts settings overrides = true) {t₁ t₂ : Tree}
    (hfolders : t.withFolders s.path.parent = .ok t₁)
    (hwrite : t₁.write s.path (Text.Utf8.encode (Json.write .stored
      (.object (Fields.putAll settings overrides)))) = .ok t₂) :
    (s.save overrides).run t = ⟨.ok (Fields.putAll settings overrides), t₂, []⟩ := by
  rw [accepts, Bool.and_eq_true, isValid_iff] at haccepts
  obtain ⟨hknown, c, hcheck⟩ := haccepts
  have hmake : Record.make Config.recordName Config.check
      (.object (Fields.putAll settings overrides)) = .ok c := by
    simp only [Record.make, hcheck]
  unfold save
  simp only [isEmpty_unknownKeys, hknown, Bool.not_true, Bool.false_eq_true, if_false]
  rw [Act.run_bind_ok (run_fromFile h), hmake, Act.run_bind_ok (a := Act.ofExcept (.ok c)) rfl,
    Act.run_bind_ok (run_store hfolders hwrite)]
  rfl

/-! ### Calls in a row -/

/-- A value whose text keeps it: it is legible, and the texts of its finite numbers read back. -/
structure Keeps (v : Json) : Prop where
  legible : v.Legible
  reals : v.Reals fun x ↦ x.isFinite = true → Json.ReadsBack x

/-- What holds of the stored file from call to call. -/
structure Sound (path : Path) (t : Tree) (settings : Fields) : Prop where
  holds : Holds path t settings
  known : allKnown settings = true
  keeps : Keeps (.object settings)
  writable : t.Writable path

private theorem keeps_putAll (h : Keeps (.object settings))
    (hnews : ∀ field ∈ overrides, Keeps field.2) :
    Keeps (.object (Fields.putAll settings overrides)) := by
  obtain ⟨hlegible, hreals⟩ := h
  cases hlegible with
  | object hnames hfields =>
    cases hreals with
    | object hreals =>
      exact ⟨.object (Fields.nodup_names_putAll hnames)
          (Fields.forall_putAll hfields fun f hf ↦ (hnews f hf).legible),
        .object (Fields.forall_putAll hreals fun f hf ↦ (hnews f hf).reals)⟩

/-- Settings that are accepted do not nest too deep to be read back. -/
private theorem nests_of_accepts (hknown : allKnown settings = true)
    (hlegible : (Json.object (Fields.putAll settings overrides)).Legible)
    (haccepts : accepts settings overrides = true) :
    (Json.object (Fields.putAll settings overrides)).Nests Json.nestingLimit := by
  rw [accepts, Bool.and_eq_true, isValid_iff] at haccepts
  obtain ⟨hnews, c, hcheck⟩ := haccepts
  have hall := Fields.forall_putAll (List.all_eq_true.mp hknown) (List.all_eq_true.mp hnews)
  cases hlegible with
  | object hnames _ =>
    exact Config.nests_of_ofFields (fun field hf ↦ List.contains_iff_mem.mp (hall field hf))
      hnames hcheck (Json.nestingLimit - 2)

/-- A call that is not accepted blames the values it was given and changes nothing. -/
theorem run_save_rejected (h : Holds s.path t settings)
    (hrejects : accepts settings overrides = false) :
    ∃ e, (s.save overrides).run t = ⟨.error e, t, []⟩ ∧ e.blamesValue = true := by
  cases hknown : allKnown overrides with
  | false => exact ⟨_, run_save_unknown hknown, rfl⟩
  | true =>
    rw [accepts, hknown, Bool.true_and] at hrejects
    cases hcheck : Config.check (.object (Fields.putAll settings overrides)) with
    | error problems => exact ⟨_, run_save_invalid h hknown hcheck, rfl⟩
    | ok c =>
      have := isValid_iff.mpr ⟨c, hcheck⟩
      exact Bool.noConfusion (hrejects.symm.trans this)

/-- A call that is accepted stores the settings with the overrides put in, and gives them. -/
theorem Sound.run_save (h : Sound s.path t settings) (hnews : ∀ field ∈ overrides, Keeps field.2)
    (haccepts : accepts settings overrides = true) :
    ∃ t', (s.save overrides).run t = ⟨.ok (Fields.putAll settings overrides), t', []⟩ ∧
      HoldsObject s.path t' (Fields.putAll settings overrides) ∧
      Sound s.path t' (Fields.putAll settings overrides) := by
  obtain ⟨t₁, t₂, hfolders, hwrite, hfile, hwritable⟩ := h.writable.stores
    (Text.Utf8.encode (Json.write .stored (.object (Fields.putAll settings overrides))))
  have hkeeps := keeps_putAll h.keeps hnews
  have hobject : HoldsObject s.path t₂ (Fields.putAll settings overrides) :=
    Json.read_stored hfile hkeeps.legible hkeeps.reals
      (nests_of_accepts h.known hkeeps.legible haccepts) s.path.text
  have hknown : allKnown (Fields.putAll settings overrides) = true := by
    rw [accepts, Bool.and_eq_true] at haccepts
    exact List.all_eq_true.mpr (Fields.forall_putAll (List.all_eq_true.mp h.known)
      (List.all_eq_true.mp haccepts.1))
  have hholds := Holds.object hobject
  rw [settingsOf, List.filter_eq_self.mpr (List.all_eq_true.mp hknown)] at hholds
  exact ⟨t₂, run_save_accepted h.holds haccepts hfolders hwrite, hobject,
    hholds, hknown, hkeeps, hwritable⟩

/-- Those of some calls' overrides that are accepted, each for the settings that the ones before
it left. -/
def acceptedFrom (settings : Fields) : List Fields → List Fields
  | [] => []
  | overrides :: calls =>
    if accepts settings overrides then
      overrides :: acceptedFrom (Fields.putAll settings overrides) calls
    else acceptedFrom settings calls

/-- The settings after some calls: the overrides that are accepted put in, one after the other. -/
def settingsAfter (settings : Fields) (calls : List Fields) : Fields :=
  (acceptedFrom settings calls).foldl Fields.putAll settings

/-- The tree after some calls, where each is made be the one before it accepted or not. -/
def treeAfter (s : ConfigSource) (t : Tree) (calls : List Fields) : Tree :=
  calls.foldl (fun t overrides ↦ ((s.save overrides).run t).state) t

variable {calls : List Fields}

private theorem acceptedFrom_cons_accepted (h : accepts settings overrides = true) :
    acceptedFrom settings (overrides :: calls) =
      overrides :: acceptedFrom (Fields.putAll settings overrides) calls := if_pos h

private theorem acceptedFrom_cons_rejected (h : accepts settings overrides = false) :
    acceptedFrom settings (overrides :: calls) = acceptedFrom settings calls :=
  if_neg (Bool.not_eq_true _ ▸ h)

private theorem settingsAfter_cons_accepted (h : accepts settings overrides = true) :
    settingsAfter settings (overrides :: calls) =
      settingsAfter (Fields.putAll settings overrides) calls := by
  rw [settingsAfter, acceptedFrom_cons_accepted h]
  rfl

private theorem settingsAfter_cons_rejected (h : accepts settings overrides = false) :
    settingsAfter settings (overrides :: calls) = settingsAfter settings calls := by
  rw [settingsAfter, acceptedFrom_cons_rejected h, settingsAfter]

private theorem treeAfter_cons {t' : Tree} {answer : Except Failure Fields}
    (h : (s.save overrides).run t = ⟨answer, t', []⟩) :
    s.treeAfter t (overrides :: calls) = s.treeAfter t' calls := by
  rw [treeAfter, List.foldl_cons, h]
  rfl

/-- The file is sound after any calls, with the settings that the accepted ones left. -/
theorem Sound.after (h : Sound s.path t settings)
    (hcalls : ∀ overrides ∈ calls, ∀ field ∈ overrides, Keeps field.2) :
    Sound s.path (s.treeAfter t calls) (settingsAfter settings calls) := by
  induction calls generalizing t settings with
  | nil => exact h
  | cons overrides calls ih =>
    rw [List.forall_mem_cons] at hcalls
    cases haccepts : accepts settings overrides with
    | true =>
      obtain ⟨t', hrun, -, hsound⟩ := h.run_save hcalls.1 haccepts
      rw [treeAfter_cons hrun, settingsAfter_cons_accepted haccepts]
      exact ih hsound hcalls.2
    | false =>
      obtain ⟨e, hrun, -⟩ := run_save_rejected h.holds haccepts
      rw [treeAfter_cons hrun, settingsAfter_cons_rejected haccepts]
      exact ih h hcalls.2

/-- The file holds just the settings, and they make a configuration. -/
def Complete (path : Path) (t : Tree) (settings : Fields) : Prop :=
  HoldsObject path t settings ∧ isValid settings = true

/-- The file holds just the settings of a configuration once a call is accepted, and from then
on. -/
theorem Sound.complete_after (h : Sound s.path t settings)
    (hcalls : ∀ overrides ∈ calls, ∀ field ∈ overrides, Keeps field.2)
    (hsome : acceptedFrom settings calls ≠ [] ∨ Complete s.path t settings) :
    Complete s.path (s.treeAfter t calls) (settingsAfter settings calls) := by
  induction calls generalizing t settings with
  | nil => exact hsome.resolve_left fun hne ↦ hne rfl
  | cons overrides calls ih =>
    rw [List.forall_mem_cons] at hcalls
    cases haccepts : accepts settings overrides with
    | true =>
      obtain ⟨t', hrun, hobject, hsound⟩ := h.run_save hcalls.1 haccepts
      rw [treeAfter_cons hrun, settingsAfter_cons_accepted haccepts]
      rw [accepts, Bool.and_eq_true] at haccepts
      exact ih hsound hcalls.2 (.inr ⟨hobject, haccepts.2⟩)
    | false =>
      obtain ⟨e, hrun, -⟩ := run_save_rejected h.holds haccepts
      rw [acceptedFrom_cons_rejected haccepts] at hsome
      rw [treeAfter_cons hrun, settingsAfter_cons_rejected haccepts]
      exact ih h hcalls.2 hsome

/-! ### Loading -/

/-- The variables that a configuration is put together from. -/
def sourceVariables : List String :=
  forgeVariables.map Prod.fst ++ Config.keys.map variableOf ++ ["GITHUB_EVENT_PATH"]

/-- The environment sets none of the variables that a configuration is put together from. -/
def Silent (environ : Environ) : Prop := ∀ name ∈ sourceVariables, environ.lookup name = none

private theorem fromEnviron_of_silent {environ : Environ} (h : Silent environ) :
    fromEnviron environ = [] := by
  have hforge : ∀ entry ∈ forgeVariables, environ.lookup entry.1 = none := fun entry he ↦
    h _ (List.mem_append_left _ (List.mem_append_left _ (List.mem_map_of_mem he)))
  have hown : ∀ key ∈ Config.keys, environ.lookup (variableOf key) = none := fun key hk ↦
    h _ (List.mem_append_left _ (List.mem_append_right _ (List.mem_map_of_mem hk)))
  unfold fromEnviron
  rw [List.filterMap_eq_nil_iff.mpr, List.filterMap_eq_nil_iff.mpr]
  · rfl
  · intro key hk
    rw [hown key hk, Option.map_none]
  · intro entry he
    simp only [filled, hforge entry he, Option.filter_none, Option.map_none]

private theorem run_fromEvent_of_silent {environ : Environ} (h : Silent environ) :
    (fromEvent environ).run t = ⟨.ok .null, t, []⟩ := by
  have hevent : filled environ "GITHUB_EVENT_PATH" = none := by
    rw [filled, h _ (List.mem_append_right _ (List.mem_singleton_self _)), Option.filter_none]
  unfold fromEvent
  rw [hevent]
  rfl

private theorem run_collect_of_silent (hsilent : Silent s.environ)
    (h : Holds s.path t settings) : s.collect.run t = ⟨.ok settings, t, []⟩ := by
  unfold collect
  rw [Act.run_bind_ok (run_fromFile h), fromEnviron_of_silent hsilent]
  simp only [show Fields.putAll settings [] = settings from rfl]
  split
  · rw [Act.run_bind_ok (run_fromEvent_of_silent hsilent)]
    rfl
  · rfl

/-- Without any other source the configuration is the one of the stored settings. -/
theorem run_load_of_silent (hsilent : Silent s.environ) (h : Holds s.path t settings)
    {config : Config} (hcheck : Config.check (.object settings) = .ok config) :
    (s.load []).run t = ⟨.ok config, t, []⟩ := by
  have hfields : Config.ofFields settings = .ok config := hcheck
  unfold load
  rw [Act.run_bind_ok (run_collect_of_silent hsilent h)]
  simp only [show Fields.putAll settings (effective []) = settings from rfl, hfields]
  rfl

/-! ### The store -/

/-- What the stored file is like through some calls, from a tree with these settings in it. -/
structure KeepsSettings (s : ConfigSource) (t : Tree) (settings : Fields) (calls : List Fields) :
    Prop where
  /-- A call that is not accepted fails for the values it was given and changes nothing. -/
  rejected : ∀ before overrides later, calls = before ++ overrides :: later →
    accepts (settingsAfter settings before) overrides = false →
      ∃ e, (s.save overrides).run (s.treeAfter t before) = ⟨.error e, s.treeAfter t before, []⟩ ∧
        e.blamesValue = true
  /-- A call that is accepted gives the settings so far with its overrides put in, and the file
  holds just these. -/
  accepted : ∀ before overrides later, calls = before ++ overrides :: later →
    accepts (settingsAfter settings before) overrides = true →
      ∃ t', (s.save overrides).run (s.treeAfter t before) =
          ⟨.ok (Fields.putAll (settingsAfter settings before) overrides), t', []⟩ ∧
        HoldsObject s.path t' (Fields.putAll (settingsAfter settings before) overrides)
  /-- After any of the calls the file holds the settings so far. -/
  holds : ∀ before later, calls = before ++ later →
    Holds s.path (s.treeAfter t before) (settingsAfter settings before)
  /-- Once a call has been accepted, the file holds just the settings so far. -/
  complete : acceptedFrom settings calls ≠ [] →
    HoldsObject s.path (s.treeAfter t calls) (settingsAfter settings calls)
  /-- Once a call has been accepted, the settings so far are loaded where there is no other
  source. -/
  loads : acceptedFrom settings calls ≠ [] → ∀ environ, Silent environ →
    ∃ config, Config.check (.object (settingsAfter settings calls)) = .ok config ∧
      (load ⟨s.path, environ⟩ []).run (s.treeAfter t calls) =
        ⟨.ok config, s.treeAfter t calls, []⟩

private theorem known_of_holds (h : Holds s.path t settings) : allKnown settings = true := by
  cases h with
  | absent h => rfl
  | object h => exact List.all_eq_true.mpr fun field hf ↦ (List.mem_filter.mp hf).2

private theorem legible_of_holds (h : Holds s.path t settings) :
    (Json.object settings).Legible := by
  cases h with
  | absent h => exact .object List.nodup_nil (List.forall_mem_nil _)
  | object h =>
    obtain ⟨text, -, hread⟩ := h
    cases Json.legible_of_read hread with
    | object hnames hfields =>
      exact .object (List.Nodup.sublist (List.filter_sublist.map _) hnames) fun f hf ↦
        hfields f (List.mem_filter.mp hf).1

/-- Where there is no stored file at first or it holds an object, in a text that is read, and a file
can be written there, the file keeps the settings through any calls: whatever they override, and
whichever of them are accepted. The values are taken to be such as their texts keep; their texts
are made of characters, so without half of a surrogate pair. -/
theorem saves_keep_settings (s : ConfigSource) (t : Tree) (settings : Fields)
    (calls : List Fields) (hholds : Holds s.path t settings)
    (hreals : ∀ field ∈ settings, field.2.Reals fun x ↦ x.isFinite = true → Json.ReadsBack x)
    (hwritable : t.Writable s.path)
    (hcalls : ∀ overrides ∈ calls, ∀ field ∈ overrides, Keeps field.2) :
    s.KeepsSettings t settings calls := by
  have hsound : Sound s.path t settings :=
    ⟨hholds, known_of_holds hholds, ⟨legible_of_holds hholds, .object hreals⟩, hwritable⟩
  have hbefore {before more : List Fields} (heq : calls = before ++ more) :
      Sound s.path (s.treeAfter t before) (settingsAfter settings before) :=
    hsound.after fun o ho ↦ hcalls o (heq ▸ List.mem_append_left _ ho)
  have hcomplete (hsome : acceptedFrom settings calls ≠ []) :=
    hsound.complete_after hcalls (.inl hsome)
  refine ⟨fun before o later heq hrejects ↦ run_save_rejected (hbefore heq).holds hrejects,
    fun before o later heq haccepts ↦ ?_, fun before later heq ↦ (hbefore heq).holds,
    fun hsome ↦ (hcomplete hsome).1, fun hsome environ hsilent ↦ ?_⟩
  · have ho := hcalls o (heq ▸ List.mem_append_right _ (List.mem_cons_self ..))
    obtain ⟨t', hrun, hobject, -⟩ := (hbefore heq).run_save ho haccepts
    exact ⟨t', hrun, hobject⟩
  · obtain ⟨config, hcheck⟩ := isValid_iff.mp (hcomplete hsome).2
    have hnow := (hbefore (List.append_nil calls).symm).holds
    exact ⟨config, hcheck, run_load_of_silent (s := ⟨s.path, environ⟩) hsilent hnow hcheck⟩

/-- A tree in which the stored file holds a setting and a field that is none. -/
def labelled : Tree :=
  ⟨[(["config.json"], .file (Text.Utf8.encode (Json.write .stored
    (.object [("label", .text "route"), ("theme", .int 3)]))))]⟩

/-- Calls of which one names no setting, one gives no number for the pause, one gives a label and
a pause, and one takes the label away. -/
def relabellings : List Fields := [
  [("colour", .text "red")],
  [("request_delay_seconds", .text "soon")],
  [("label", .text "Stra\u00dfe\n"),
    ("request_delay_seconds", .real (Binary64.ofDecimal false 5 (-1)))],
  [("label", .null)]]

/-- Only the third of the calls is accepted, and the label and the pause are stored. -/
theorem saves_keep_settings_labelled :
    Holds ⟨"", ["config.json"]⟩ labelled [("label", .text "route")] ∧
      labelled.Writable ⟨"", ["config.json"]⟩ ∧
      acceptedFrom [("label", .text "route")] relabellings = [[("label", .text "Stra\u00dfe\n"),
        ("request_delay_seconds", .real (Binary64.ofDecimal false 5 (-1)))]] ∧
      KeepsSettings ⟨⟨"", ["config.json"]⟩, []⟩ labelled [("label", .text "route")]
        relabellings := by
  have hfile : Keeps (.object [("label", .text "route"), ("theme", .int 3)]) := by
    refine ⟨.object (by decide) ?_, .object ?_⟩
    · simp only [List.forall_mem_cons, List.not_mem_nil, false_implies, implies_true, and_true]
      exact ⟨.text _, .int (by decide)⟩
    · simp only [List.forall_mem_cons, List.not_mem_nil, false_implies, implies_true, and_true]
      exact ⟨.text _, .int 3⟩
  have hnests : (Json.object [("label", .text "route"), ("theme", .int 3)]).Nests
      Json.nestingLimit := by
    refine .object ?_
    simp only [List.forall_mem_cons, List.not_mem_nil, false_implies, implies_true, and_true]
    exact ⟨.text _ _, .int _ _⟩
  have hholds : Holds ⟨"", ["config.json"]⟩ labelled [("label", .text "route")] :=
    Holds.object (Json.read_stored rfl hfile.legible hfile.reals hnests _)
  have hwritable : labelled.Writable ⟨"", ["config.json"]⟩ := ⟨_, _, rfl, rfl⟩
  have haccepted : acceptedFrom [("label", .text "route")] relabellings =
      [[("label", .text "Stra\u00dfe\n"),
        ("request_delay_seconds", .real (Binary64.ofDecimal false 5 (-1)))]] := by
    decide +kernel
  refine ⟨hholds, hwritable, haccepted, saves_keep_settings _ _ _ _ hholds ?_ hwritable ?_⟩
  · exact List.forall_mem_singleton.mpr (.text _)
  · simp only [relabellings, List.forall_mem_cons, List.not_mem_nil, false_implies, implies_true,
      and_true]
    exact ⟨⟨.text _, .text _⟩, ⟨.text _, .text _⟩, ⟨⟨.text _, .text _⟩,
      ⟨.real (.inl rfl), .real fun _ ↦ rfl⟩⟩, ⟨.null, .null⟩⟩

end ConfigSource

end RouteWatch
