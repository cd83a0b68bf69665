import RouteWatch.Proofs.Config.Fallback
import RouteWatch.Proofs.Config.Forms

/-!
# The source that a setting comes from

Each setting comes from the first source that gives it: what a caller overrides, the variable of the
setting, a variable of the forge, the stored file, the default. For the number of the change the
event steps in where environment and file give none. Loading is checking the values that come from
there, and fails for each part of them that does not fit.
-/

namespace RouteWatch

open RouteWatch.Validation

namespace ConfigSource

variable {s : ConfigSource} {t : Tree} {environ : Environ} {stored overrides : Fields}
  {number : Json} {key : String}

/-! ### What the sources give -/

/-- The fields of the object in a stored file, whatever their names; none where no file stands. -/
inductive Stores (path : Path) (t : Tree) : Fields → Prop
  | absent (h : ∀ bytes, t.at? path ≠ some (.file bytes)) : Stores path t []
  | object {fields : Fields} (h : HoldsObject path t fields) : Stores path t fields

/-- The number of the change that the event of an environment tells. It is null where no event is
named, where no file stands for it, and where its payload has no pull request or none with a
number. A name with a NUL character names no event, and as in `HoldsObject` the payload is in a text
that is read. -/
inductive Tells (environ : Environ) (t : Tree) : Json → Prop
  | unnamed (h : filled environ "GITHUB_EVENT_PATH" = none) : Tells environ t .null
  | absent {name : String} (hname : filled environ "GITHUB_EVENT_PATH" = some name)
      (hnul : (Path.ofRawText name).hasNul = false)
      (h : ∀ bytes, t.at? (Path.ofRawText name) ≠ some (.file bytes)) : Tells environ t .null
  | noPull {name : String} {event : Fields} (hname : filled environ "GITHUB_EVENT_PATH" = some name)
      (hevent : HoldsObject (Path.ofRawText name) t event) (hpull : pullIn event = .null) :
      Tells environ t .null
  | pull {name : String} {event fields : Fields}
      (hname : filled environ "GITHUB_EVENT_PATH" = some name)
      (hevent : HoldsObject (Path.ofRawText name) t event) (hpull : pullIn event = .object fields) :
      Tells environ t ((fields.get? "number").getD .null)

/-- The variable of the forge that gives a setting. -/
def forgeVariable? : String → Option String
  | "github_token" => some "GITHUB_TOKEN"
  | "repository" => some "GITHUB_REPOSITORY"
  | "api_url" => some "GITHUB_API_URL"
  | _ => none

/-- What an environment gives for a setting: its own variable, even an empty one, and else the one
of the forge, unless it is empty. -/
def environValue? (environ : Environ) (key : String) : Option Json :=
  ((environ.lookup (variableOf key)).map (settingOf key)).or
    ((forgeVariable? key).bind fun name ↦ (filled environ name).map .text)

/-- What the sources below the overrides give for a setting: the environment, else the stored file.
For the number of the change the event is asked where these give none. -/
def collectedValue? (environ : Environ) (stored : Fields) (number : Json) (key : String) :
    Option Json :=
  let value := (environValue? environ key).or (stored.get? key)
  if key = "pull_number" ∧ value.getD .null = .null ∧ number ≠ .null then some number else value

/-- The value that is chosen for a setting: what overrides it, unless that is null, and else what
the sources below give. -/
def chosen? (environ : Environ) (stored : Fields) (number : Json) (overrides : Fields)
    (key : String) : Option Json :=
  ((overrides.get? key).filter (· ≠ .null)).or (collectedValue? environ stored number key)

private theorem ownSettings_eq :
    (Config.keys.filterMap fun key ↦
      (environ.lookup (variableOf key)).map fun raw ↦ (key, settingOf key raw)) =
        Fields.ofNames (fun key ↦ (environ.lookup (variableOf key)).map (settingOf key))
          Config.keys := by
  simp only [Fields.ofNames, Option.map_map]
  rfl

private theorem forgeSettings_eq :
    (forgeVariables.filterMap fun (name, key) ↦
      (filled environ name).map fun raw ↦ (key, Json.text raw)) =
        Fields.ofNames (fun key ↦
          (forgeVariable? key).bind fun name ↦ (filled environ name).map .text)
          ["github_token", "repository", "api_url"] := by
  simp only [Fields.ofNames, forgeVariables, List.filterMap_cons, forgeVariable?,
    Option.bind_some, Option.map_map]
  rfl

private theorem fromEnviron_eq :
    fromEnviron environ = Fields.putAll
      (Fields.ofNames (fun key ↦
        (forgeVariable? key).bind fun name ↦ (filled environ name).map .text)
        ["github_token", "repository", "api_url"])
      (Fields.ofNames (fun key ↦ (environ.lookup (variableOf key)).map (settingOf key))
        Config.keys) := by
  rw [← forgeSettings_eq, ← ownSettings_eq]
  rfl

theorem nodup_names_fromEnviron : (Fields.names (fromEnviron environ)).Nodup := by
  rw [fromEnviron_eq]
  exact Fields.nodup_names_putAll (List.Nodup.sublist Fields.names_ofNames_sublist (by decide))

private theorem forgeVariable?_of_notMem (h : key ∉ ["github_token", "repository", "api_url"]) :
    forgeVariable? key = none := by
  simp only [List.mem_cons, List.not_mem_nil, or_false, not_or] at h
  unfold forgeVariable?
  split
  · exact absurd rfl h.1
  · exact absurd rfl h.2.1
  · exact absurd rfl h.2.2
  · rfl

/-- The settings in an environment are read as it gives them. -/
theorem get?_fromEnviron (h : key ∈ Config.keys) :
    (fromEnviron environ).get? key = environValue? environ key := by
  rw [fromEnviron_eq, environValue?,
    Fields.get?_putAll _ _ (Config.nodup_keys.sublist Fields.names_ofNames_sublist),
    Fields.get?_ofNames, Fields.get?_ofNames, if_pos h]
  split
  next => rfl
  next hforge => rw [forgeVariable?_of_notMem hforge, Option.bind_none]

/-- Of the fields in the stored file the settings are read. -/
theorem Stores.map_storedSettings (h : Stores s.path t stored) :
    (jsonIn t s.path).map storedSettings = .ok (settingsOf stored) := by
  cases h with
  | absent h =>
    rw [jsonIn_of_no_file h]
    rfl
  | object h =>
    rw [holdsJson_iff.mp h]
    rfl

private theorem changeNumber_of_object {event fields : Fields} (h : pullIn event = .object fields) :
    changeNumber (.object event) = .ok ((fields.get? "number").getD .null) := by
  cases fields with
  | nil => exact changeNumber_of_blank (by rw [h]; rfl)
  | cons field fields =>
    simp only [changeNumber]
    rw [← pullIn, h]
    rfl

/-- The number that an event tells is found. -/
theorem Tells.eventNumber_eq (h : Tells environ t number) : eventNumber environ t = .ok number := by
  cases h with
  | unnamed h => rw [eventNumber, h]
  | absent hname hnul h =>
    simp only [eventNumber, hname, hnul, Bool.false_eq_true, if_false, jsonIn_of_no_file h]
  | noPull hname hevent hpull =>
    rw [eventNumber_of_holdsObject hname hevent]
    exact changeNumber_of_blank (by rw [hpull]; rfl)
  | pull hname hevent hpull =>
    rw [eventNumber_of_holdsObject hname hevent]
    exact changeNumber_of_object hpull

/-- What is collected is read under the name of each setting as the sources give it. -/
theorem Tells.exists_collected (h : Tells environ t number) (stored : Fields) :
    ∃ fields, collected environ t (settingsOf stored) = .ok fields ∧
      ∀ key ∈ Config.keys, fields.get? key = collectedValue? environ stored number key := by
  have hget (key : String) (hkey : key ∈ Config.keys) :
      (Fields.putAll (settingsOf stored) (fromEnviron environ)).get? key =
        (environValue? environ key).or (stored.get? key) := by
    rw [Fields.get?_putAll _ _ nodup_names_fromEnviron, get?_fromEnviron hkey, settingsOf,
      Fields.get?_filter_name stored (List.contains_iff_mem.mpr hkey)]
  have hpull := hget "pull_number" (by decide)
  unfold collected collectedValue?
  dsimp only
  generalize Fields.putAll (settingsOf stored) (fromEnviron environ) = fields at hget hpull ⊢
  rw [hpull]
  -- the event is asked only where nothing gives a number, and only a number that it tells is put in
  by_cases hnull : ((environValue? environ "pull_number").or
      (stored.get? "pull_number")).getD .null = .null
  · rw [if_pos hnull, h.eventNumber_eq]
    by_cases hnumber : number = .null
    · subst hnumber
      refine ⟨fields, rfl, fun key hkey ↦ ?_⟩
      rw [hget key hkey, if_neg fun hc ↦ hc.2.2 rfl]
    · refine ⟨fields.put "pull_number" number, ?_, fun key hkey ↦ ?_⟩
      · cases number with
        | null => exact absurd rfl hnumber
        | _ => rfl
      · by_cases hkey' : key = "pull_number"
        · subst hkey'
          rw [Fields.get?_put_self, if_pos ⟨rfl, hnull, hnumber⟩]
        · rw [Fields.get?_put_of_ne _ _ hkey', hget key hkey, if_neg fun hc ↦ hkey' hc.1]
  · rw [if_neg hnull]
    refine ⟨fields, rfl, fun key hkey ↦ ?_⟩
    rw [hget key hkey, if_neg]
    rintro ⟨rfl, hnull', -⟩
    exact hnull hnull'

/-! ### Loading -/

private theorem get?_effective (h : (Fields.names overrides).Nodup) (fields : Fields) :
    (Fields.putAll fields (effective overrides)).get? key =
      ((overrides.get? key).filter (· ≠ .null)).or (fields.get? key) := by
  have hnodup : (Fields.names (effective overrides)).Nodup :=
    h.sublist (List.filter_sublist.map Prod.fst)
  rw [Fields.get?_putAll _ _ hnodup]
  exact congrArg (·.or (fields.get? key)) (Fields.get?_filter_value (· ≠ .null) h)

/-- Loading checks the values that are chosen for the settings. -/
theorem answer_load_eq (hfile : Stores s.path t stored) (hevent : Tells s.environ t number)
    (hoverrides : (Fields.names overrides).Nodup) :
    ((s.load overrides).run t).answer =
      (Config.check (.object (Fields.ofNames (chosen? s.environ stored number overrides)
        Config.keys))).mapError fun problems ↦
          .invalidConfiguration ⟨Config.recordName, problems⟩ := by
  obtain ⟨fields, hcollected, hget⟩ := hevent.exists_collected stored
  have hsame : Config.ofFields (Fields.putAll fields (effective overrides)) =
      Config.ofFields (Fields.ofNames (chosen? s.environ stored number overrides) Config.keys) := by
    refine Config.ofFields_congr fun key hkey ↦ ?_
    rw [get?_effective hoverrides, hget key hkey, Fields.get?_ofNames, if_pos hkey, chosen?]
  rw [answer_load, hfile.map_storedSettings]
  show collected s.environ t (settingsOf stored) >>= made overrides = _
  rw [hcollected]
  show made overrides fields = _
  rw [made, hsame]
  rfl

private theorem mem_of_forgeVariable? {name : String} (h : forgeVariable? key = some name) :
    name ∈ forgeVariables.map Prod.fst := by
  unfold forgeVariable? at h
  split at h
  next => exact Option.some.inj h ▸ by decide
  next => exact Option.some.inj h ▸ by decide
  next => exact Option.some.inj h ▸ by decide
  next => exact nomatch h

/-- An environment gives the settings by nothing but the variables of the sources. -/
theorem environValue?_congr {environ' : Environ}
    (h : ∀ name ∈ sourceVariables, environ'.lookup name = environ.lookup name)
    (hkey : key ∈ Config.keys) : environValue? environ' key = environValue? environ key := by
  have hown := h (variableOf key)
    (List.mem_append_left _ (List.mem_append_right _ (List.mem_map_of_mem hkey)))
  unfold environValue?
  rw [hown]
  cases hforge : forgeVariable? key with
  | none => rfl
  | some name =>
    have hname := h name
      (List.mem_append_left _ (List.mem_append_left _ (mem_of_forgeVariable? hforge)))
    rw [Option.bind_some, Option.bind_some, filled, filled, hname]

/-- What loading comes to, with these fields in the stored file, this number in the event and these
overrides. -/
structure LoadsChosen (s : ConfigSource) (t : Tree) (stored : Fields) (number : Json)
    (overrides : Fields) : Prop where
  /-- The values that are chosen for the settings are checked, and where no value is chosen for a
  setting it keeps its default. -/
  answer : ((s.load overrides).run t).answer =
    (Config.check (.object (Fields.ofNames (chosen? s.environ stored number overrides)
      Config.keys))).mapError fun problems ↦ .invalidConfiguration ⟨Config.recordName, problems⟩
  /-- Where loading succeeds, each setting has what its check makes of the value that is chosen for
  it, and its default where none is. -/
  settings : ∀ c, ((s.load overrides).run t).answer = .ok c → ∀ setting ∈ Config.settings,
    setting.IsFrom (chosen? s.environ stored number overrides) c
  /-- Loading fails just where one of the values does not fit its setting. -/
  fails_iff : (∃ e, ((s.load overrides).run t).answer = .error e) ↔
    ∃ setting ∈ Config.settings, ∃ v,
      chosen? s.environ stored number overrides setting.key = some v ∧
        setting.form.check.takes v = false
  /-- Where it fails, the problems are the parts of the values that do not fit, in the order of the
  settings. -/
  reports : ∀ e, ((s.load overrides).run t).answer = .error e →
    ∃ problems, e = .invalidConfiguration ⟨Config.recordName, problems⟩ ∧
      problems.map Problem.part =
        Config.misfits (chosen? s.environ stored number overrides)
  /-- Nothing else in the stored file, the environment and the overrides counts. -/
  others : ∀ (s' : ConfigSource) (t' : Tree) (stored' overrides' : Fields),
    Stores s'.path t' stored' → Tells s'.environ t' number → (Fields.names overrides').Nodup →
    (∀ name ∈ sourceVariables, s'.environ.lookup name = s.environ.lookup name) →
    (∀ key ∈ Config.keys, stored'.get? key = stored.get? key ∧
      overrides'.get? key = overrides.get? key) →
    ((s'.load overrides').run t').answer = ((s.load overrides).run t).answer

/-- The values that are chosen depend on nothing but the settings in the sources. -/
theorem chosen?_congr {environ' : Environ} {stored' overrides' : Fields}
    (hnames : ∀ name ∈ sourceVariables, environ'.lookup name = environ.lookup name)
    (hsame : ∀ key ∈ Config.keys, stored'.get? key = stored.get? key ∧
      overrides'.get? key = overrides.get? key) (hkey : key ∈ Config.keys) :
    chosen? environ' stored' number overrides' key =
      chosen? environ stored number overrides key := by
  rw [chosen?, chosen?, collectedValue?, collectedValue?, environValue?_congr hnames hkey,
    (hsame key hkey).1, (hsame key hkey).2]

/-- What the check of the chosen values finds bad is what does not fit of them. -/
theorem blames_chosen (value? : String → Option Json) :
    (Config.check (.object (Fields.ofNames value? Config.keys))).Blames
      (Config.misfits value?) := by
  have hget : Config.misfits (Fields.get? (Fields.ofNames value? Config.keys)) =
      Config.misfits value? :=
    Config.misfits_congr fun key hkey ↦ by rw [Fields.get?_ofNames, if_pos hkey]
  exact hget ▸ Config.blames_ofFields _

/-- Each setting of a configuration that the check of the chosen values makes is from them. -/
theorem isFrom_chosen {value? : String → Option Json} {c : Config}
    (h : Config.check (.object (Fields.ofNames value? Config.keys)) = .ok c) :
    ∀ setting ∈ Config.settings, setting.IsFrom value? c := by
  intro setting hsetting
  have hfrom := Config.isFrom_of_ofFields h setting hsetting
  rwa [Config.Setting.IsFrom, Fields.get?_ofNames, if_pos (Config.mem_keys hsetting)] at hfrom

/-- Each setting comes from the first of its sources that gives it, whatever object the stored file
holds, whatever the environment and the overrides set, and whatever number the event tells. -/
theorem load_chosen (s : ConfigSource) (t : Tree) (stored : Fields) (number : Json)
    (overrides : Fields) (hfile : Stores s.path t stored) (hevent : Tells s.environ t number)
    (hoverrides : (Fields.names overrides).Nodup) :
    s.LoadsChosen t stored number overrides := by
  have hanswer := answer_load_eq hfile hevent hoverrides
  have hblames := blames_chosen (chosen? s.environ stored number overrides)
  refine ⟨hanswer, fun c hc ↦ ?_, ?_, fun e he ↦ ?_,
    fun s' t' stored' overrides' hfile' hevent' hnodup hnames hsame ↦ ?_⟩
  · rw [hanswer] at hc
    exact isFrom_chosen (except_mapError_eq_ok_iff.mp hc)
  · have hfails : (∃ e, ((s.load overrides).run t).answer = .error e) ↔
        ∃ problems, Config.check (.object (Fields.ofNames
          (chosen? s.environ stored number overrides) Config.keys)) = .error problems := by
      rw [hanswer]
      exact ⟨fun ⟨e, he⟩ ↦ (except_mapError_eq_error_iff.mp he).imp fun _ h ↦ h.1,
        fun ⟨problems, h⟩ ↦ ⟨_, except_mapError_eq_error_iff.mpr ⟨problems, h, rfl⟩⟩⟩
    rw [hfails, hblames.exists_error_iff, ne_eq, Config.misfits_eq_nil_iff]
    simp only [not_forall, Bool.not_eq_true, exists_prop]
  · rw [hanswer] at he
    obtain ⟨problems, hproblems, rfl⟩ := except_mapError_eq_error_iff.mp he
    rw [hproblems] at hblames
    exact ⟨problems, rfl, hblames.2⟩
  · rw [hanswer, answer_load_eq hfile' hevent' hnodup,
      Fields.ofNames_congr fun key hkey ↦ chosen?_congr hnames hsame hkey]

/-- Fields of a stored file: two settings that count, a list with an item that is no text, and a
field that is no setting. -/
def mixedFields : Fields := [
  ("label", .text "api-review"), ("pull_number", .null),
  ("excluded_segments", .list [.text "lambda", .int 3]), ("theme", .int 1)]

/-- A tree with a stored file and the payload of an event. -/
def mixedTree : Tree := ⟨[
  (["config.json"], .file (Text.Utf8.encode (Json.write .stored (.object mixedFields)))),
  (["event.json"], .file (Text.Utf8.encode (Json.write .stored
    (.object [("pull_request", .object [("number", .int 42)])]))))]⟩

/-- An environment with an empty variable of the forge, an empty one of a setting, and one that is
no number. -/
def mixedEnviron : Environ := [
  ("GITHUB_EVENT_PATH", "event.json"), ("GITHUB_TOKEN", ""), ("GITHUB_REPOSITORY", "acme/api"),
  ("ROUTE_REVIEW_LABEL", ""), ("ROUTE_REVIEW_MAX_RETRIES", "many")]

/-- Overrides with a setting, one that is null and a name that is no setting. -/
def mixedOverrides : Fields :=
  [("root_path", .text "apps"), ("repository", .null), ("colour", .text "red")]

/-- With a source of each kind the number is the one of the event, and a variable and an item of the
stored list do not fit. -/
theorem load_chosen_mixed :
    Stores ⟨"", ["config.json"]⟩ mixedTree mixedFields ∧
      Tells mixedEnviron mixedTree (.int 42) ∧ (Fields.names mixedOverrides).Nodup ∧
      Fields.ofNames (chosen? mixedEnviron mixedFields (.int 42) mixedOverrides) Config.keys = [
        ("repository", .text "acme/api"), ("pull_number", .int 42), ("max_retries", .text "many"),
        ("label", .text ""), ("root_path", .text "apps"),
        ("excluded_segments", .list [.text "lambda", .int 3])] ∧
      Config.misfits (chosen? mixedEnviron mixedFields (.int 42) mixedOverrides) = [
        ([.field "max_retries"], .text "many"),
        ([.field "excluded_segments", .item 1], .int 3)] ∧
      LoadsChosen ⟨⟨"", ["config.json"]⟩, mixedEnviron⟩ mixedTree mixedFields (.int 42)
        mixedOverrides := by
  have hkeepsFile : Keeps (.object mixedFields) := by
    refine ⟨.object (by decide) ?_, .object ?_⟩
    · simp only [mixedFields, List.forall_mem_cons, List.not_mem_nil, false_implies, implies_true,
        and_true]
      exact ⟨.text _, .null, .list (List.forall_mem_cons.mpr
        ⟨.text _, List.forall_mem_singleton.mpr (.int (by decide))⟩), .int (by decide)⟩
    · simp only [mixedFields, List.forall_mem_cons, List.not_mem_nil, false_implies, implies_true,
        and_true]
      exact ⟨.text _, .null, .list (List.forall_mem_cons.mpr
        ⟨.text _, List.forall_mem_singleton.mpr (.int 3)⟩), .int 1⟩
  have hkeepsEvent : Keeps (.object [("pull_request", .object [("number", .int 42)])]) :=
    ⟨.object (by decide) (List.forall_mem_singleton.mpr (.object (by decide)
        (List.forall_mem_singleton.mpr (.int (by decide))))),
      .object (List.forall_mem_singleton.mpr (.object (List.forall_mem_singleton.mpr (.int 42))))⟩
  have hnestsFile : (Json.object mixedFields).Nests Json.nestingLimit := by
    refine .object ?_
    simp only [mixedFields, List.forall_mem_cons, List.not_mem_nil, false_implies, implies_true,
      and_true]
    exact ⟨.text _ _, .null _, .list (List.forall_mem_cons.mpr
      ⟨.text _ _, List.forall_mem_singleton.mpr (.int _ 3)⟩), .int _ 1⟩
  have hnestsEvent : (Json.object [("pull_request", .object [("number", .int 42)])]).Nests
      Json.nestingLimit :=
    .object (List.forall_mem_singleton.mpr (.object (List.forall_mem_singleton.mpr (.int _ 42))))
  have hfile : Stores ⟨"", ["config.json"]⟩ mixedTree mixedFields :=
    .object (Json.read_stored rfl hkeepsFile.legible hkeepsFile.reals hnestsFile _)
  have hname : filled mixedEnviron "GITHUB_EVENT_PATH" = some "event.json" := rfl
  have hevent : Tells mixedEnviron mixedTree (.int 42) :=
    .pull hname (Json.read_stored rfl hkeepsEvent.legible hkeepsEvent.reals hnestsEvent _) rfl
  exact ⟨hfile, hevent, by decide, by decide +kernel, by decide +kernel,
    load_chosen _ _ _ _ _ hfile hevent (by decide)⟩

end ConfigSource

end RouteWatch
