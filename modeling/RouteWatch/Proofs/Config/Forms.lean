import RouteWatch.Config.Settings
import RouteWatch.Proofs.Json.Fields
import RouteWatch.Proofs.Json.Legible
import RouteWatch.Proofs.Validation.BadParts

/-!
# The forms of settings

Each setting takes its values in one form. Fields make a configuration exactly where the value
under the name of each setting fits its form, and then every setting of the configuration is what
the check of its form makes of the value, or the default where no value is given.
-/

namespace RouteWatch

open RouteWatch.Validation

namespace Validation

/-! ### Values that are taken -/

variable {α β : Type}

namespace Checked

theorem seq_eq_ok {f : Checked (α → β)} {x : Checked α} {b : β} (h : f <*> x = .ok b) :
    ∃ g a, f = .ok g ∧ x = .ok a ∧ g a = b := by
  cases f with
  | ok g =>
    cases x with
    | ok a => exact ⟨g, a, rfl, rfl, Except.ok.inj h⟩
    | error ps => exact nomatch h
  | error ps => cases x <;> exact nomatch h

theorem map_eq_ok {g : α → β} {x : Checked α} {b : β} (h : g <$> x = .ok b) :
    ∃ a, x = .ok a ∧ g a = b := by
  cases x with
  | ok a => exact ⟨a, rfl, Except.ok.inj h⟩
  | error ps => exact nomatch h

theorem within_eq_ok_iff {step : Step} {x : Checked α} {a : α} :
    x.within step = .ok a ↔ x = .ok a := by
  cases x with
  | ok b => exact Iff.rfl
  | error ps => exact iff_of_false nofun nofun

end Checked

private theorem eq_text_of_takes {v : Json} (h : Check.takes text v = true) :
    ∃ s, v = .text s := by
  cases v with
  | text s => exact ⟨s, rfl⟩
  | _ => exact nomatch h

private theorem nests_of_items {vs : List Json} {room index : Nat}
    (h : Check.inItems (Check.whole text) index vs = []) : ∀ v ∈ vs, v.Nests room := by
  induction vs generalizing index with
  | nil => exact List.forall_mem_nil _
  | cons v vs ih =>
    rw [Check.inItems, List.zipIdx_cons, List.flatMap_cons, List.append_eq_nil_iff] at h
    obtain ⟨hv, hvs⟩ := h
    refine List.forall_mem_cons.mpr ⟨?_, ih hvs⟩
    have hwhole : Check.whole text v = [] := List.map_eq_nil_iff.mp hv
    have htakes : Check.takes text v = true := by
      by_cases ht : Check.takes text v = true
      · exact ht
      · rw [Check.whole, if_neg ht] at hwhole
        exact nomatch hwhole
    obtain ⟨s, rfl⟩ := eq_text_of_takes htakes
    exact .text room s

/-- No form takes a value with more than one list within it. -/
theorem Form.nests_of_takes (form : Form) {v : Json} (h : form.check.takes v = true)
    (room : Nat) : v.Nests (room + 1) := by
  cases v with
  | null => exact .null _
  | bool b => exact .bool _ b
  | int n => exact .int _ n
  | real x => exact .real _ x
  | text s => exact .text _ s
  | list vs =>
    cases form with
    | texts => exact .list (nests_of_items ((Form.misfits_eq_nil_iff .texts _).mpr h))
    | _ => exact nomatch h
  | object fields => cases form <;> exact nomatch h

end Validation

namespace Config

variable {fields fields' : Fields} {value? : String → Option Json} {c : Config}

/-! ### The settings -/

/-- A setting: its name, the form of its values, and where a configuration has it. -/
structure Setting where
  key : String
  form : Form
  get : Config → form.Value

/-- The settings in order. -/
def settings : List Setting := [
    ⟨"github_token", .text, Config.token⟩, ⟨"repository", .text, Config.repository⟩,
    ⟨"api_url", .text, Config.apiUrl⟩, ⟨"pull_number", .intOrNull, Config.pullNumber⟩,
    ⟨"annotation_author", .text, Config.author⟩, ⟨"timeout_seconds", .int, Config.timeout⟩,
    ⟨"max_retries", .int, Config.maxRetries⟩,
    ⟨"comment_body_path", .textOrNull, Config.commentPath⟩,
    ⟨"default_comment_body", .text, Config.comment⟩, ⟨"label", .text, Config.label⟩,
    ⟨"request_delay_seconds", .real, Config.delay⟩, ⟨"root_path", .text, Config.rootPath⟩,
    ⟨"routes_marker", .text, Config.routesMarker⟩, ⟨"file_suffix", .text, Config.fileSuffix⟩,
    ⟨"excluded_segments", .texts, Config.excludedSegments⟩,
    ⟨"declaration_pattern", .text, Config.declaration⟩,
    ⟨"check_removed_routes", .flag, Config.checkRemoved⟩, ⟨"fail_fast", .flag, Config.failFast⟩]

theorem map_key_settings : settings.map Setting.key = keys := rfl

theorem nodup_keys : keys.Nodup := by decide

theorem mem_keys {setting : Setting} (h : setting ∈ settings) : setting.key ∈ keys :=
  map_key_settings ▸ List.mem_map_of_mem h

/-- The configuration has for a setting what the check makes of the value that is given for it, and
the default where none is given. -/
def Setting.IsFrom (setting : Setting) (value? : String → Option Json) (c : Config) : Prop :=
  match value? setting.key with
  | some v => setting.form.check v = .ok (setting.get c)
  | none => setting.get c = setting.get initial

theorem Setting.IsFrom.of_fieldD {setting : Setting}
    (h : fieldD fields setting.key setting.form.check (setting.get initial) =
      .ok (setting.get c)) : setting.IsFrom fields.get? c := by
  unfold fieldD at h
  unfold Setting.IsFrom
  cases hv : fields.get? setting.key with
  | some v =>
    rw [hv] at h
    exact Checked.within_eq_ok_iff.mp h
  | none =>
    rw [hv] at h
    exact (Except.ok.inj h).symm

/-- Each setting of a configuration is from the fields it is made of. -/
theorem isFrom_of_ofFields (h : ofFields fields = .ok c) :
    ∀ setting ∈ settings, setting.IsFrom fields.get? c := by
  -- the fields are taken off one by one, the last one first
  obtain ⟨_, _, h₁₇, hfast, rfl⟩ := Checked.seq_eq_ok h
  obtain ⟨_, _, h₁₆, hremoved, rfl⟩ := Checked.seq_eq_ok h₁₇
  obtain ⟨_, _, h₁₅, hdeclaration, rfl⟩ := Checked.seq_eq_ok h₁₆
  obtain ⟨_, _, h₁₄, hexcluded, rfl⟩ := Checked.seq_eq_ok h₁₅
  obtain ⟨_, _, h₁₃, hsuffix, rfl⟩ := Checked.seq_eq_ok h₁₄
  obtain ⟨_, _, h₁₂, hmarker, rfl⟩ := Checked.seq_eq_ok h₁₃
  obtain ⟨_, _, h₁₁, hroot, rfl⟩ := Checked.seq_eq_ok h₁₂
  obtain ⟨_, _, h₁₀, hdelay, rfl⟩ := Checked.seq_eq_ok h₁₁
  obtain ⟨_, _, h₉, hlabel, rfl⟩ := Checked.seq_eq_ok h₁₀
  obtain ⟨_, _, h₈, hcomment, rfl⟩ := Checked.seq_eq_ok h₉
  obtain ⟨_, _, h₇, hpath, rfl⟩ := Checked.seq_eq_ok h₈
  obtain ⟨_, _, h₆, hretries, rfl⟩ := Checked.seq_eq_ok h₇
  obtain ⟨_, _, h₅, htimeout, rfl⟩ := Checked.seq_eq_ok h₆
  obtain ⟨_, _, h₄, hauthor, rfl⟩ := Checked.seq_eq_ok h₅
  obtain ⟨_, _, h₃, hpull, rfl⟩ := Checked.seq_eq_ok h₄
  obtain ⟨_, _, h₂, hurl, rfl⟩ := Checked.seq_eq_ok h₃
  obtain ⟨_, _, h₁, hrepository, rfl⟩ := Checked.seq_eq_ok h₂
  obtain ⟨_, htoken, rfl⟩ := Checked.map_eq_ok h₁
  simp only [settings, List.forall_mem_cons, List.not_mem_nil, false_implies, implies_true,
    and_true]
  exact ⟨.of_fieldD htoken, .of_fieldD hrepository, .of_fieldD hurl, .of_fieldD hpull,
    .of_fieldD hauthor, .of_fieldD htimeout, .of_fieldD hretries, .of_fieldD hpath,
    .of_fieldD hcomment, .of_fieldD hlabel, .of_fieldD hdelay, .of_fieldD hroot,
    .of_fieldD hmarker, .of_fieldD hsuffix, .of_fieldD hexcluded, .of_fieldD hdeclaration,
    .of_fieldD hremoved, .of_fieldD hfast⟩

/-- Fields of which a configuration is made, all of them settings, do not nest deep. -/
theorem nests_of_ofFields (hknown : ∀ field ∈ fields, field.1 ∈ keys)
    (hnames : (Fields.names fields).Nodup) (h : ofFields fields = .ok c) (room : Nat) :
    (Json.object fields).Nests (room + 2) := by
  refine .object fun field hfield ↦ ?_
  obtain ⟨setting, hsetting, hkey⟩ := List.mem_map.mp
    (map_key_settings ▸ hknown field hfield : field.1 ∈ settings.map Setting.key)
  have hfrom := isFrom_of_ofFields h setting hsetting
  rw [Setting.IsFrom, hkey, Fields.get?_of_mem hnames hfield] at hfrom
  apply setting.form.nests_of_takes
  rw [Check.takes, hfrom]

/-! ### What does not fit -/

/-- The parts that do not fit of the values that are given for the settings, in order. -/
def misfits (value? : String → Option Json) : List Part :=
  settings.flatMap fun setting ↦
    Check.inField setting.form.misfits setting.key (value? setting.key)

/-- The problems of settings are the parts of them that do not fit. -/
theorem blames_ofFields (fields : Fields) : (ofFields fields).Blames (misfits fields.get?) := by
  have h (key : String) (form : Form) (default : form.Value) :=
    form.finds.fieldD fields key default
  -- the fields in the order in which a configuration is made from them
  have hall : (ofFields fields).Blames _ := ((h "github_token" .text initial.token).map Config.mk)
    |>.seq (h "repository" .text initial.repository)
    |>.seq (h "api_url" .text initial.apiUrl)
    |>.seq (h "pull_number" .intOrNull initial.pullNumber)
    |>.seq (h "annotation_author" .text initial.author)
    |>.seq (h "timeout_seconds" .int initial.timeout)
    |>.seq (h "max_retries" .int initial.maxRetries)
    |>.seq (h "comment_body_path" .textOrNull initial.commentPath)
    |>.seq (h "default_comment_body" .text initial.comment)
    |>.seq (h "label" .text initial.label)
    |>.seq (h "request_delay_seconds" .real initial.delay)
    |>.seq (h "root_path" .text initial.rootPath)
    |>.seq (h "routes_marker" .text initial.routesMarker)
    |>.seq (h "file_suffix" .text initial.fileSuffix)
    |>.seq (h "excluded_segments" .texts initial.excludedSegments)
    |>.seq (h "declaration_pattern" .text initial.declaration)
    |>.seq (h "check_removed_routes" .flag initial.checkRemoved)
    |>.seq (h "fail_fast" .flag initial.failFast)
  simpa only [misfits, settings, List.flatMap_cons, List.flatMap_nil, List.append_nil,
    List.append_assoc] using hall

/-- Fields that are read alike under the names of settings make the same configuration. -/
theorem ofFields_congr (h : ∀ key ∈ keys, fields.get? key = fields'.get? key) :
    ofFields fields = ofFields fields' := by
  simp (disch := decide) only [ofFields, fieldD, h]

theorem misfits_congr {value?' : String → Option Json}
    (h : ∀ key ∈ keys, value? key = value?' key) : misfits value? = misfits value?' := by
  refine List.flatMap_congr fun setting hsetting ↦ ?_
  rw [h setting.key (mem_keys hsetting)]

/-- Nothing is bad where each value that a setting is given fits it. -/
theorem misfits_eq_nil_iff :
    misfits value? = [] ↔ ∀ setting ∈ settings, ∀ v, value? setting.key = some v →
      setting.form.check.takes v = true := by
  rw [misfits, List.flatMap_eq_nil_iff]
  refine forall₂_congr fun setting _ ↦ ?_
  cases value? setting.key with
  | none => exact iff_of_true rfl nofun
  | some v =>
    simp only [Check.inField, List.map_eq_nil_iff, Option.some.injEq, forall_eq']
    exact setting.form.misfits_eq_nil_iff v

end Config

end RouteWatch
