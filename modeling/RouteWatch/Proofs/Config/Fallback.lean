import RouteWatch.Config.Comment
import RouteWatch.Proofs.Action.Ends
import RouteWatch.Proofs.Config.StoredSettings
import RouteWatch.Proofs.Except
import RouteWatch.Proofs.Files.Reading

/-!
# Sources that cannot be used

The stored file, the payload of an event and the file of the comment each have a value in their
place: no settings, no number, and the comment of the configuration. A file that is missing, that
is a folder, that is no JSON or holds another value than an object is passed over. A file that is
no UTF-8 is not, nor is one with a number of too many digits, nor an event in which no number can
be looked up, nor a name with a NUL character for the event or the comment: these make loading
fail, or reading the comment. So the fallback is complete exactly where no such file is read.

JSON texts beyond the limits of what is read, as `Json.Limit` has them, are left out: nothing is
said of a stored file or an event that holds one.
-/

namespace RouteWatch

open RouteWatch.Text (universalNewlines)

namespace ConfigSource

variable {s : ConfigSource} {t : Tree} {path : Path} {environ : Environ} {fields : Fields}

/-! ### Reading JSON -/

/-- What reading the file at a path as JSON comes to: a value, or none where it is passed over. -/
def jsonIn (t : Tree) (path : Path) : Except Failure (Option Json) :=
  match t.at? path with
  | some (.file bytes) =>
    match Text.Utf8.decode bytes with
    | .error fault => .error (.undecodable fault)
    | .ok text =>
      match Json.read (universalNewlines text) with
      | .ok v => .ok (some v)
      | .error (.tooManyDigits count) => .error (.tooManyDigits count)
      | .error (.beyond limit) => .error (.beyond (.json limit))
      | .error (.flaw _ _) => .ok none
  | _ => .ok none

/-- The file at a path, if one stands there, is no JSON text beyond the limits of what is read: it
has no escape for half of a surrogate pair, and does not nest deeper than `Json.nestingLimit`. -/
def WithinLimits (path : Path) (t : Tree) : Prop :=
  ∀ bytes text limit, t.at? path = some (.file bytes) → Text.Utf8.decode bytes = .ok text →
    Json.read (universalNewlines text) ≠ .error (.beyond limit)

/-- The file at a path, if one stands there, is UTF-8, and has no number of too many digits. -/
def Usable (path : Path) (t : Tree) : Prop :=
  ∀ bytes, t.at? path = some (.file bytes) → ∃ text, Text.Utf8.decode bytes = .ok text ∧
    ∀ count, Json.read (universalNewlines text) ≠ .error (.tooManyDigits count)

/-- The file at a path holds a value as JSON. -/
def HoldsJson (path : Path) (t : Tree) (v : Json) : Prop :=
  ∃ text, t.readText path path.text = .ok text ∧ Json.read text = .ok v

theorem jsonIn_of_no_file (h : ∀ bytes, t.at? path ≠ some (.file bytes)) :
    jsonIn t path = .ok none := by
  unfold jsonIn
  split
  next bytes hfile => exact absurd hfile (h bytes)
  next => rfl

private theorem ends_readJson {shown warning : String} :
    (readJson path shown warning).Ends t fun x t' ↦
      x = (if path.hasNul then .error .nulPath else jsonIn t path) ∧ t' = t := by
  unfold readJson
  rw [Act.ends_bind, Act.ends_state]
  dsimp only
  cases t.reads path with
  | @file bytes hnul hfile hread =>
    rw [hread, jsonIn, hfile, hnul]
    dsimp only
    cases Text.Utf8.decode bytes with
    | error fault => exact ⟨rfl, rfl⟩
    | ok text =>
      dsimp only
      cases Json.read (universalNewlines text) with
      | ok v => exact ⟨rfl, rfl⟩
      | error refusal => cases refusal <;> exact ⟨rfl, rfl⟩
  | missing hnul hnone hread =>
    obtain ⟨fault, hfault⟩ := hread shown
    rw [hfault, jsonIn_of_no_file hnone, hnul]
    exact ⟨rfl, rfl⟩
  | nul hnul hread =>
    rw [hread, hnul]
    exact ⟨rfl, rfl⟩

private theorem usable_iff (hlimits : WithinLimits path t) :
    Usable path t ↔ ∃ v, jsonIn t path = .ok v := by
  unfold WithinLimits at hlimits
  unfold Usable jsonIn
  split
  next bytes hfile =>
    simp only [hfile, Option.some.injEq, Entry.file.injEq, forall_eq']
    cases hdecode : Text.Utf8.decode bytes with
    | error fault => simp
    | ok text =>
      have hlimits := hlimits bytes text
      dsimp only
      cases hread : Json.read (universalNewlines text) with
      | ok v => simp [hread]
      | error refusal =>
        cases refusal with
        | beyond limit => exact absurd hread (hlimits limit hfile hdecode)
        | _ => simp [hread]
  next hnone =>
    exact iff_of_true (fun bytes hfile ↦ absurd hfile (hnone bytes)) ⟨none, rfl⟩

theorem holdsJson_iff {v : Json} :
    HoldsJson path t v ↔ jsonIn t path = .ok (some v) := by
  unfold HoldsJson
  cases t.reads path with
  | @file bytes hnul hfile hread =>
    rw [hread, jsonIn, hfile]
    dsimp only
    cases Text.Utf8.decode bytes with
    | error fault => simp
    | ok text =>
      simp only [Except.ok.injEq, exists_eq_left']
      cases Json.read (universalNewlines text) with
      | ok v => simp
      | error refusal => cases refusal <;> simp
  | missing hnul hnone hread =>
    obtain ⟨fault, hfault⟩ := hread path.text
    rw [hfault, jsonIn_of_no_file hnone]
    simp
  | nul hnul hread =>
    rw [hread, jsonIn, Tree.at?_of_hasNul hnul]
    simp

private theorem jsonIn_eq_error {e : Failure} (h : jsonIn t path = .error e) :
    ∀ i, e ≠ .invalidConfiguration i := by
  unfold jsonIn at h
  split at h
  next =>
    split at h
    next =>
      obtain rfl := Except.error.inj h
      exact nofun
    next =>
      split at h
      next => exact nomatch h
      next =>
        obtain rfl := Except.error.inj h
        exact nofun
      next =>
        obtain rfl := Except.error.inj h
        exact nofun
      next => exact nomatch h
  next => exact nomatch h

/-! ### The stored file -/

/-- The settings in what the stored file holds: none where it holds no object. -/
def storedSettings : Option Json → Fields
  | some (.object fields) => settingsOf fields
  | _ => []

private theorem ends_fromFile :
    s.fromFile.Ends t fun x t' ↦ x = (jsonIn t s.path).map storedSettings ∧ t' = t := by
  unfold fromFile
  rw [Act.ends_bind, Act.ends_state]
  dsimp only
  split
  next habsent =>
    have hnone : t.at? s.path = none := by simpa [Tree.has] using habsent
    have hjson : jsonIn t s.path = .ok none := by rw [jsonIn, hnone]
    rw [hjson]
    exact ⟨rfl, rfl⟩
  next hthere =>
    have hnul : s.path.hasNul = false := by
      rw [← Bool.not_eq_true]
      intro hnul
      simp [Tree.has, Tree.at?_of_hasNul hnul] at hthere
    rw [Act.ends_bind]
    refine ends_readJson.imp fun x t' hx ↦ ?_
    obtain ⟨rfl, rfl⟩ := hx
    rw [hnul, if_neg Bool.false_ne_true]
    cases jsonIn t' s.path with
    | error e => exact ⟨rfl, rfl⟩
    | ok v =>
      cases v with
      | none => exact ⟨rfl, rfl⟩
      | some v => cases v <;> exact ⟨rfl, rfl⟩

/-! ### The event -/

/-- What the payload of an event says of a pull request, null where it says nothing. -/
def pullIn (event : Fields) : Json := (Fields.get? event "pull_request").getD .null

/-- A payload in which the number of a change can be looked up: an object whose pull request is an
object too, or blank. -/
def IsEvent (v : Json) : Prop :=
  ∃ event, v = .object event ∧
    ((pullIn event).isBlank = true ∨ ∃ fields, pullIn event = .object fields)

/-- The file of the event that the environment tells of, if it does, has a name without a NUL
character, can be read, and is an event if it is JSON. -/
def EventUsable (environ : Environ) (t : Tree) : Prop :=
  ∀ name, filled environ "GITHUB_EVENT_PATH" = some name →
    (Path.ofRawText name).hasNul = false ∧ Usable (Path.ofRawText name) t ∧
      ∀ v, HoldsJson (Path.ofRawText name) t v → IsEvent v

/-- The environment tells of an event whose payload is an object with an object for the pull
request. -/
def HoldsPull (environ : Environ) (t : Tree) : Prop :=
  ∃ name event fields, filled environ "GITHUB_EVENT_PATH" = some name ∧
    HoldsObject (Path.ofRawText name) t event ∧ pullIn event = .object fields

/-- What looking up the number in the payload of the event comes to. -/
def eventNumber (environ : Environ) (t : Tree) : Except Failure Json :=
  match filled environ "GITHUB_EVENT_PATH" with
  | none => .ok .null
  | some name =>
    if (Path.ofRawText name).hasNul then .error .nulPath
    else
      match jsonIn t (Path.ofRawText name) with
      | .error e => .error e
      | .ok none => .ok .null
      | .ok (some event) => changeNumber event

private theorem ends_fromEvent :
    (fromEvent environ).Ends t fun x t' ↦ x = eventNumber environ t ∧ t' = t := by
  unfold fromEvent eventNumber
  cases filled environ "GITHUB_EVENT_PATH" with
  | none => exact ⟨rfl, rfl⟩
  | some name =>
    dsimp only
    rw [Act.ends_bind]
    refine ends_readJson.imp fun x t' hx ↦ ?_
    obtain ⟨rfl, rfl⟩ := hx
    cases (Path.ofRawText name).hasNul with
    | true => exact ⟨rfl, rfl⟩
    | false =>
      cases jsonIn t' (Path.ofRawText name) with
      | error e => exact ⟨rfl, rfl⟩
      | ok v =>
        cases v with
        | none => exact ⟨rfl, rfl⟩
        | some event => exact Act.ends_ofExcept.mpr ⟨rfl, rfl⟩

private theorem isEvent_iff {v : Json} : IsEvent v ↔ ∃ n, changeNumber v = .ok n := by
  cases v with
  | object event =>
    simp only [IsEvent, Json.object.injEq, exists_eq_left', changeNumber]
    rw [← pullIn]
    by_cases hblank : (pullIn event).isBlank = true
    · simp [hblank]
    · simp only [hblank, Bool.false_eq_true, false_or, if_false]
      cases pullIn event <;> simp
  | _ => simp [IsEvent, changeNumber]

theorem changeNumber_of_blank {event : Fields} (h : (pullIn event).isBlank = true) :
    changeNumber (.object event) = .ok .null := by
  rw [changeNumber]
  exact if_pos h

/-- The number is looked up in the object that the event's file holds. -/
theorem eventNumber_of_holdsObject {name : String} {event : Fields}
    (hname : filled environ "GITHUB_EVENT_PATH" = some name)
    (hevent : HoldsObject (Path.ofRawText name) t event) :
    eventNumber environ t = changeNumber (.object event) := by
  have hnul : (Path.ofRawText name).hasNul = false := by
    obtain ⟨text, htext, -⟩ := hevent
    cases t.reads (Path.ofRawText name) with
    | file hnul _ _ => exact hnul
    | missing hnul _ _ => exact hnul
    | nul _ hread => exact nomatch (hread _).symm.trans htext
  have hjson : jsonIn t (Path.ofRawText name) = .ok (some (.object event)) :=
    holdsJson_iff.mp hevent
  simp only [eventNumber, hname, hnul, Bool.false_eq_true, if_false, hjson]

/-- Where the payload of an event has no object for the pull request, no number is found, unless
looking it up fails. -/
private theorem eventNumber_of_no_pull {n : Json} (hnone : ¬HoldsPull environ t)
    (h : eventNumber environ t = .ok n) : n = .null := by
  unfold eventNumber at h
  cases hname : filled environ "GITHUB_EVENT_PATH" with
  | none =>
    rw [hname] at h
    exact (Except.ok.inj h).symm
  | some name =>
    rw [hname] at h
    dsimp only at h
    split at h
    · exact nomatch h
    cases hjson : jsonIn t (Path.ofRawText name) with
    | error e =>
      rw [hjson] at h
      exact nomatch h
    | ok v =>
      rw [hjson] at h
      cases v with
      | none => exact (Except.ok.inj h).symm
      | some v =>
        dsimp only at h
        obtain ⟨event, rfl, hpull⟩ := isEvent_iff.mpr ⟨n, h⟩
        rcases hpull with hblank | ⟨fields, hpull⟩
        · exact Except.ok.inj (h.symm.trans (changeNumber_of_blank hblank))
        · exact absurd ⟨name, event, fields, hname, holdsJson_iff.mpr hjson, hpull⟩ hnone

private theorem eventUsable_iff (hlimits : ∀ name, filled environ "GITHUB_EVENT_PATH" = some name →
      WithinLimits (Path.ofRawText name) t) :
    EventUsable environ t ↔ ∃ n, eventNumber environ t = .ok n := by
  unfold EventUsable eventNumber
  cases hname : filled environ "GITHUB_EVENT_PATH" with
  | none => simp
  | some name =>
    simp only [Option.some.injEq, forall_eq', usable_iff (hlimits name hname), holdsJson_iff]
    cases (Path.ofRawText name).hasNul with
    | true => simp
    | false =>
      simp only [true_and, Bool.false_eq_true, if_false]
      cases jsonIn t (Path.ofRawText name) with
      | error e => simp
      | ok v =>
        cases v with
        | none => simp
        | some v => simp [isEvent_iff]

/-! ### Loading -/

/-- The settings of the stored file with those of the environment put in, and with the number that
looking at the event comes to where they give none. -/
def collected (environ : Environ) (t : Tree) (stored : Fields) : Except Failure Fields :=
  let fields := Fields.putAll stored (fromEnviron environ)
  if (Fields.get? fields "pull_number").getD .null = .null then
    (eventNumber environ t).map fun
      | .null => fields
      | number => fields.put "pull_number" number
  else .ok fields

/-- The configuration of settings into which overrides are put. -/
def made (overrides settings : Fields) : Except Failure Config :=
  (Config.ofFields (Fields.putAll settings (effective overrides))).mapError fun problems ↦
    .invalidConfiguration ⟨Config.recordName, problems⟩

private theorem ends_collect :
    s.collect.Ends t fun x t' ↦
      x = (jsonIn t s.path).map storedSettings >>= collected s.environ t ∧ t' = t := by
  unfold collect
  rw [Act.ends_bind]
  refine ends_fromFile.imp fun x t' hx ↦ ?_
  obtain ⟨rfl, rfl⟩ := hx
  cases (jsonIn t' s.path).map storedSettings with
  | error e => exact ⟨rfl, rfl⟩
  | ok stored =>
    show (ite _ _ _ : Act Tree Fields).Ends t' _
    simp only [bind, Except.bind, collected]
    split
    next =>
      show (_ >>= _ : Act Tree Fields).Ends t' _
      rw [Act.ends_bind]
      refine ends_fromEvent.imp fun x t'' hx ↦ ?_
      obtain ⟨rfl, rfl⟩ := hx
      cases eventNumber s.environ t'' with
      | error e => exact ⟨rfl, rfl⟩
      | ok number => cases number <;> exact ⟨rfl, rfl⟩
    next => exact ⟨rfl, rfl⟩

/-- What loading comes to: the sources one after the other, where the first that fails decides. -/
theorem answer_load (overrides : Fields) :
    ((s.load overrides).run t).answer =
      (jsonIn t s.path).map storedSettings >>= collected s.environ t >>= made overrides := by
  suffices h : (s.load overrides).Ends t fun x _ ↦
      x = (jsonIn t s.path).map storedSettings >>= collected s.environ t >>= made overrides from h
  unfold load
  rw [Act.ends_bind]
  refine ends_collect.imp fun x t' hx ↦ ?_
  obtain ⟨rfl, rfl⟩ := hx
  cases (jsonIn t' s.path).map storedSettings >>= collected s.environ t' with
  | error e => rfl
  | ok fields =>
    simp only [bind, Except.bind, made]
    cases Config.ofFields (Fields.putAll fields (effective overrides)) <;> rfl

/-- Where neither the stored file nor the event stops it, loading fails only for settings that are
no configuration. -/
private theorem blames_settings {overrides : Fields} {e : Failure} {v : Option Json} {n : Json}
    (hfile : jsonIn t s.path = .ok v) (hevent : eventNumber s.environ t = .ok n)
    (h : ((s.load overrides).run t).answer = .error e) :
    ∃ i, e = .invalidConfiguration i := by
  rw [answer_load, hfile, except_bind_eq_error_iff] at h
  rcases h with h | ⟨fields, -, h⟩
  · have hcollected : collected s.environ t (storedSettings v) = .error e := h
    unfold collected at hcollected
    dsimp only at hcollected
    split at hcollected
    · rw [hevent] at hcollected
      exact nomatch hcollected
    · exact nomatch hcollected
  · unfold made at h
    cases hchecked : Config.ofFields (Fields.putAll fields (effective overrides)) with
    | ok c =>
      rw [hchecked] at h
      exact nomatch h
    | error problems =>
      rw [hchecked] at h
      exact ⟨_, (Except.error.inj h).symm⟩

end ConfigSource

/-! ### The comment -/

namespace Config

variable {c : Config} {t : Tree}

/-- The text of the file that the configuration names for the comment, without the blanks around
it, where it can be read and holds more than blanks. -/
def storedComment? (c : Config) (t : Tree) : Option String := do
  let name ← c.commentPath.filter (· ≠ "")
  let path := Path.ofText name
  let text ← (t.readText path path.text).toOption
  if Text.strip text = "" then none else some (Text.strip text)

/-- The file that the configuration names for the comment, if it names one, has a name without a NUL
character and is UTF-8, if it stands there. -/
def CommentUsable (c : Config) (t : Tree) : Prop :=
  ∀ name, c.commentPath.filter (· ≠ "") = some name →
    (Path.ofText name).hasNul = false ∧ t.IsUtf8 (Path.ofText name)

/-- What reading the comment comes to. -/
theorem answer_readComment :
    (c.readComment.run t).answer =
      match c.commentPath.filter (· ≠ "") with
      | none => .ok c.comment
      | some name =>
        match t.readText (Path.ofText name) (Path.ofText name).text with
        | .ok text => .ok (if Text.strip text = "" then c.comment else Text.strip text)
        | .error (.file _) => .ok c.comment
        | .error fault => .error fault.failure := by
  unfold readComment
  cases c.commentPath.filter (· ≠ "") with
  | none => rfl
  | some name =>
    dsimp only
    rw [Act.run_bind_ok (a := Act.state) rfl]
    cases t.readText (Path.ofText name) (Path.ofText name).text with
    | ok text => rfl
    | error fault => cases fault <;> rfl

/-- The comment is read exactly where its file can be, and is then the stored one, else that of the
configuration. -/
theorem answer_readComment_eq_ok_iff {body : String} :
    (c.readComment.run t).answer = .ok body ↔
      c.CommentUsable t ∧ (c.storedComment? t).getD c.comment = body := by
  rw [answer_readComment, CommentUsable, storedComment?]
  cases c.commentPath.filter (· ≠ "") with
  | none => simp
  | some name =>
    simp only [Option.some.injEq, forall_eq', Tree.blames_file_iff (Path.ofText name).text]
    cases hread : t.readText (Path.ofText name) (Path.ofText name).text with
    | ok text =>
      by_cases hblank : Text.strip text = "" <;>
        simp [hread, hblank, Except.toOption]
    | error fault => cases fault <;> simp [hread, Except.toOption]

/-- Reading the comment fails only for the text of a file, and not for the file system. -/
theorem exists_of_answer_readComment {e : Failure}
    (h : (c.readComment.run t).answer = .error e) :
    ∃ fault, (∀ f, fault ≠ .file f) ∧ e = TextFault.failure fault := by
  rw [answer_readComment] at h
  split at h
  next => exact nomatch h
  next =>
    split at h
    next => exact nomatch h
    next => exact nomatch h
    next fault hne _ => exact ⟨fault, hne, (Except.error.inj h).symm⟩

end Config

namespace ConfigSource

variable {s : ConfigSource} {t : Tree} {c : Config}

/-! ### The fallback -/

/-- Sources that cannot be used are passed over, in a tree of files and with a configuration that
may name a file for the comment. -/
structure FallsBack (s : ConfigSource) (t : Tree) (c : Config) : Prop where
  /-- A stored file that holds no object counts as one that is not there. -/
  file : (∀ fields, ¬HoldsObject s.path t fields) → ∀ path overrides, t.has path = false →
    ((s.load overrides).run t).answer = ((load ⟨path, s.environ⟩ overrides).run t).answer
  /-- An event that has no object for the pull request gives no number. -/
  event : ¬HoldsPull s.environ t → ((fromEvent s.environ).run t).answer = .ok .null
  /-- Loading fails for nothing but settings that are no configuration. -/
  load : ∀ overrides e, ((s.load overrides).run t).answer = .error e →
    ∃ i, e = .invalidConfiguration i
  /-- The comment is the stored one, else that of the configuration. -/
  comment : (c.readComment.run t).answer = .ok ((c.storedComment? t).getD c.comment)

/-- Neither the stored file nor that of the event is a JSON text beyond the limits of what is
read. -/
structure Covers (s : ConfigSource) (t : Tree) : Prop where
  file : WithinLimits s.path t
  event : ∀ name, filled s.environ "GITHUB_EVENT_PATH" = some name →
    WithinLimits (Path.ofRawText name) t

private theorem usable_of_load (hlimits : WithinLimits s.path t)
    (h : ∀ e, ((s.load []).run t).answer = .error e → ∃ i, e = .invalidConfiguration i) :
    Usable s.path t := by
  rw [usable_iff hlimits]
  cases hjson : jsonIn t s.path with
  | ok v => exact ⟨v, rfl⟩
  | error e =>
    have hfails : ((s.load []).run t).answer = .error e := by
      rw [answer_load, hjson]
      rfl
    obtain ⟨i, rfl⟩ := h e hfails
    exact absurd rfl (jsonIn_eq_error hjson i)

private theorem eventUsable_of_event (hcovers : s.Covers t)
    (h : ¬HoldsPull s.environ t → ((fromEvent s.environ).run t).answer = .ok .null) :
    EventUsable s.environ t := by
  rw [eventUsable_iff hcovers.event]
  by_cases hpull : HoldsPull s.environ t
  · obtain ⟨name, event, fields, hname, hobject, hpull⟩ := hpull
    obtain ⟨n, hn⟩ := isEvent_iff.mp ⟨event, rfl, .inr ⟨fields, hpull⟩⟩
    refine ⟨n, ?_⟩
    rw [eventNumber_of_holdsObject hname hobject]
    exact hn
  · exact ⟨.null, ends_fromEvent.1.symm.trans (h hpull)⟩

private theorem storedSettings_of_no_object {v : Option Json} (hjson : jsonIn t s.path = .ok v)
    (hnone : ∀ fields, ¬HoldsObject s.path t fields) : storedSettings v = [] := by
  unfold storedSettings
  split
  next fields => exact absurd (holdsJson_iff.mpr hjson) (hnone fields)
  next => rfl

/-- Where no source is beyond the limits of what is read, the fallback is complete exactly where the
stored file, the payload of the event and the file of the comment can be read: where they are UTF-8
if they stand there, the first two without a number of too many digits, the payload is an event if
it is JSON, and the names of the last two hold no NUL character. -/
theorem fallsBack_iff (s : ConfigSource) (t : Tree) (c : Config) (hcovers : s.Covers t) :
    s.FallsBack t c ↔
      Usable s.path t ∧ EventUsable s.environ t ∧ c.CommentUsable t := by
  constructor
  · intro h
    exact ⟨usable_of_load hcovers.file (h.load []), eventUsable_of_event hcovers h.event,
      (Config.answer_readComment_eq_ok_iff.mp h.comment).1⟩
  · rintro ⟨hfile, hevent, hcomment⟩
    obtain ⟨v, hv⟩ := (usable_iff hcovers.file).mp hfile
    obtain ⟨n, hn⟩ := (eventUsable_iff hcovers.event).mp hevent
    refine ⟨fun hnone path overrides habsent ↦ ?_, fun hpull ↦ ?_,
      fun overrides e he ↦ blames_settings hv hn he,
      Config.answer_readComment_eq_ok_iff.mpr ⟨hcomment, rfl⟩⟩
    · have hat : t.at? path = none := by simpa [Tree.has] using habsent
      have habsent : jsonIn t path = .ok none := by rw [jsonIn, hat]
      rw [answer_load, answer_load, hv, habsent]
      dsimp only [Except.map]
      rw [storedSettings_of_no_object hv hnone]
      rfl
    · rw [← eventNumber_of_no_pull hpull hn, ← hn]
      exact ends_fromEvent.1

/-- Text that is no JSON in the stored file, a payload that is missing, and blanks in the file of
the comment are passed over. -/
theorem fallsBack_malformed :
    Covers ⟨⟨"", ["config.json"]⟩, [("GITHUB_EVENT_PATH", "event.json")]⟩
        ⟨[(["config.json"], .file [0x7b]), (["comment.md"], .file [0x20, 0x0a])]⟩ ∧
      FallsBack ⟨⟨"", ["config.json"]⟩, [("GITHUB_EVENT_PATH", "event.json")]⟩
        ⟨[(["config.json"], .file [0x7b]), (["comment.md"], .file [0x20, 0x0a])]⟩
        { commentPath := some "comment.md" } := by
  have hcovers : Covers ⟨⟨"", ["config.json"]⟩, [("GITHUB_EVENT_PATH", "event.json")]⟩
      ⟨[(["config.json"], .file [0x7b]), (["comment.md"], .file [0x20, 0x0a])]⟩ := by
    refine ⟨fun bytes text limit hfile htext ↦ ?_, fun name hname bytes text limit hfile ↦ ?_⟩
    · obtain rfl : [0x7b] = bytes := Entry.file.inj (Option.some.inj hfile)
      obtain rfl : "\x7b" = text := Except.ok.inj htext
      exact nofun
    · obtain rfl : "event.json" = name := Option.some.inj hname
      exact nomatch hfile
  refine ⟨hcovers, (fallsBack_iff _ _ _ hcovers).mpr ⟨fun bytes hfile ↦ ?_, ?_, ?_⟩⟩
  · obtain rfl : [0x7b] = bytes := Entry.file.inj (Option.some.inj hfile)
    exact ⟨"\x7b", rfl, nofun⟩
  · intro name hname
    obtain rfl : "event.json" = name := Option.some.inj hname
    exact ⟨rfl, nofun, fun v ⟨text, htext, _⟩ ↦ nomatch htext⟩
  · intro name hname
    obtain rfl : "comment.md" = name := Option.some.inj hname
    refine ⟨rfl, fun bytes hfile ↦ ?_⟩
    obtain rfl : [0x20, 0x0a] = bytes := Entry.file.inj (Option.some.inj hfile)
    exact ⟨" \n", rfl⟩

/-- A byte that is no UTF-8 in the stored file, a payload that is a list, and a byte that is no
UTF-8 in the file of the comment: nothing of these is passed over. -/
theorem fallsBack_not_utf8 :
    ¬FallsBack ⟨⟨"", ["config.json"]⟩, []⟩ ⟨[(["config.json"], .file [0xff])]⟩ {} ∧
      ¬FallsBack ⟨⟨"", ["config.json"]⟩, [("GITHUB_EVENT_PATH", "event.json")]⟩
        ⟨[(["event.json"], .file [0x5b, 0x5d])]⟩ {} ∧
      ¬FallsBack ⟨⟨"", ["config.json"]⟩, []⟩ ⟨[(["comment.md"], .file [0xff])]⟩
        { commentPath := some "comment.md" } := by
  refine ⟨fun h ↦ ?_, fun h ↦ ?_, fun h ↦ ?_⟩
  · obtain ⟨i, hi⟩ := h.load [] _ rfl
    exact nomatch hi
  · obtain ⟨i, hi⟩ := h.load [] _ rfl
    exact nomatch hi
  · exact nomatch h.comment

end ConfigSource

end RouteWatch
