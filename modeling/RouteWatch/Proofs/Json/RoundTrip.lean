import RouteWatch.Proofs.Json.Legible
import RouteWatch.Proofs.Json.Strings

/-!
# JSON that is written and read

A legible value is read as itself from its text, in every style, if the texts of the finite
numbers in it read back and it does not nest deeper than is read.
-/

namespace RouteWatch.Json

open RouteWatch.Text (isAsciiDigit)

/-- The step gives a value and leaves a rest. -/
def Step.Gives {α : Type} (step : Step α) (a : α) (rest : List Char) : Prop :=
  ∃ pos, step = .ok (a, ⟨rest, pos⟩)

/-- A character that opens a value and stands neither for a blank nor for the end of a list. -/
def OpensValue (c : Char) : Prop := isGap c = false ∧ c ≠ ']' ∧ c ≠ '\ufeff'

/-- A text that is read as a value where so many lists and objects may stand within one another,
whatever follows that ends a number. -/
structure Spells (room : Nat) (t : List Char) (v : Json) : Prop where
  opens : ∃ c cs, t = c :: cs ∧ OpensValue c
  reads {rest : List Char} {fuel pos : Nat} (hrest : EndsNumber rest) (hfuel : t.length ≤ fuel) :
    (value fuel room ⟨t ++ rest, pos⟩).Gives v rest

/-- What follows does not change how a value opens. -/
theorem Spells.head {room : Nat} {t : List Char} {v : Json} (h : Spells room t v)
    (rest : List Char) : ∀ c ∈ (t ++ rest).head?, OpensValue c := by
  obtain ⟨c, cs, rfl, hc⟩ := h.opens
  rintro d ⟨⟩
  exact hc

variable {style : Style} {depth room : Nat} {gaps rest : List Char}

/-! ### Blanks between the parts -/

private theorem isGap_lineBreak (style : Style) (depth : Nat) :
    ∀ c ∈ (style.lineBreak depth).toList, isGap c = true := by
  unfold Style.lineBreak
  split
  · exact nofun
  · rw [String.toList_append, String.toList_ofList, String.toList_ofList]
    intro c hc
    rcases List.mem_append.mp hc with hc | hc
    · rw [List.mem_singleton.mp hc]
      rfl
    · rw [List.eq_of_mem_replicate hc]
      rfl

private theorem toList_between (style : Style) (depth : Nat) :
    ∃ gaps, (style.between depth).toList = ',' :: gaps ∧ ∀ c ∈ gaps, isGap c = true := by
  unfold Style.between
  split
  · exact ⟨[' '], rfl, List.forall_mem_singleton.mpr rfl⟩
  · refine ⟨(style.lineBreak depth).toList, ?_, isGap_lineBreak style depth⟩
    rw [String.toList_append]
    rfl

private theorem endsNumber_cons {c : Char} (hc : isNumberChar c = false) :
    EndsNumber (c :: rest) := by
  rintro d ⟨⟩
  exact hc

/-- Blanks and then a character that no number holds end a number. -/
private theorem endsNumber_gaps {c : Char} (hgaps : ∀ c ∈ gaps, isGap c = true)
    (hc : isNumberChar c = false) : EndsNumber (gaps ++ c :: rest) := by
  cases gaps with
  | nil => exact endsNumber_cons hc
  | cons g gaps => exact endsNumber_cons (isNumberChar_of_isGap (hgaps g (List.mem_cons_self ..)))

private theorem skipGaps_cons {c : Char} (hgaps : ∀ c ∈ gaps, isGap c = true)
    (hc : isGap c = false) (rest : List Char) (pos : Nat) :
    (⟨gaps ++ c :: rest, pos⟩ : Cursor).skipGaps = ⟨c :: rest, pos + gaps.length⟩ := by
  apply Cursor.skipGaps_append hgaps
  rintro d ⟨⟩
  exact hc

/-! ### Lists -/

variable {v : Json} {held : List Json} {fuel pos : Nat}

private theorem items_last {c : Cursor} (hgaps : ∀ c ∈ gaps, isGap c = true)
    (h : (value fuel room c).Gives v (gaps ++ ']' :: rest)) :
    (items (fuel + 1) room held c).Gives (.list (held.reverse ++ [v])) rest := by
  obtain ⟨p, h⟩ := h
  have hskip := skipGaps_cons (c := ']') hgaps rfl rest p
  refine ⟨p + gaps.length + 1, ?_⟩
  rw [items, h]
  simp only [hskip, List.reverse_cons]
  rfl

private theorem items_next {c : Cursor} {more : List Char} {w : Json}
    (hgaps : ∀ c ∈ gaps, isGap c = true) (hmore : ∀ c ∈ more.head?, OpensValue c)
    (h : (value fuel room c).Gives v (',' :: (gaps ++ more)))
    (hitems : ∀ pos, (items fuel room (v :: held) ⟨more, pos⟩).Gives w rest) :
    (items (fuel + 1) room held c).Gives w rest := by
  obtain ⟨p, h⟩ := h
  have hcomma := skipGaps_cons (c := ',') (List.forall_mem_nil _) rfl (gaps ++ more) p
  have hskip := Cursor.skipGaps_append hgaps (fun c hc ↦ (hmore c hc).1) (p + 1)
  obtain ⟨q, hitems⟩ := hitems (p + 1 + gaps.length)
  refine ⟨q, ?_⟩
  rw [List.nil_append] at hcomma
  rw [items, h]
  simp only [hcomma]
  exact (congrArg (items fuel room (v :: held)) hskip).trans hitems

/-- The items of a list are read one after the other. -/
private theorem items_writeItems {vs : List Json}
    (hvs : ∀ v ∈ vs, Spells room (writeAt style depth v).toList v)
    (hgaps : ∀ c ∈ gaps, isGap c = true) (hv : Spells room (writeAt style depth v).toList v)
    (hfuel : (writeAt style depth v).toList.length + (writeItems style depth vs).toList.length
      < fuel) :
    (items fuel room held ⟨(writeAt style depth v).toList ++ ((writeItems style depth vs).toList ++
      (gaps ++ ']' :: rest)), pos⟩).Gives (.list (held.reverse ++ v :: vs)) rest := by
  induction vs generalizing v held fuel pos with
  | nil =>
    obtain ⟨fuel, rfl⟩ : ∃ k, fuel = k + 1 := ⟨fuel - 1, by omega⟩
    exact items_last hgaps (hv.reads (endsNumber_gaps hgaps rfl) (by omega))
  | cons w ws ih =>
    obtain ⟨fuel, rfl⟩ : ∃ k, fuel = k + 1 := ⟨fuel - 1, by omega⟩
    obtain ⟨more, hbetween, hmore⟩ := toList_between style depth
    have hw := hvs w (List.mem_cons_self ..)
    simp only [writeItems, String.toList_append, hbetween, List.cons_append, List.append_assoc,
      List.length_cons, List.length_append] at hfuel ⊢
    refine items_next hmore (hw.head _) (hv.reads (endsNumber_cons rfl) (by omega)) fun p ↦ ?_
    have hrest : (items fuel room (v :: held) ⟨_, p⟩).Gives _ rest :=
      ih (fun x hx ↦ hvs x (List.mem_cons_of_mem _ hx)) hw (by omega)
    rwa [List.reverse_cons, List.append_assoc] at hrest

private theorem value_list {more : List Char} {w : Json} (hgaps : ∀ c ∈ gaps, isGap c = true)
    (hmore : ∀ c ∈ more.head?, OpensValue c)
    (hitems : ∀ pos, (items fuel room [] ⟨more, pos⟩).Gives w rest) :
    (value (fuel + 1) (room + 1) ⟨'[' :: (gaps ++ more), pos⟩).Gives w rest := by
  have hskip := Cursor.skipGaps_append hgaps (fun c hc ↦ (hmore c hc).1) (pos + 1)
  have hopen : ((⟨'[' :: (gaps ++ more), pos⟩ : Cursor).skip 1).skipGaps =
      ⟨more, pos + 1 + gaps.length⟩ := hskip
  rw [value]
  simp only [hopen]
  split
  · exact absurd rfl (hmore ']' rfl).2.1
  · exact hitems _

private theorem spells_list {vs : List Json}
    (hvs : ∀ v ∈ vs, Spells room (writeAt style (depth + 1) v).toList v) :
    Spells (room + 1) (writeAt style depth (.list vs)).toList (.list vs) := by
  cases vs with
  | nil =>
    have htext : (writeAt style depth (.list [])).toList = ['[', ']'] := by
      rw [writeAt]
      rfl
    rw [htext]
    refine ⟨⟨'[', [']'], rfl, rfl, by decide, by decide⟩, fun {rest fuel pos} _ hfuel ↦ ?_⟩
    obtain ⟨fuel, rfl⟩ : ∃ k, fuel = k + 1 := Nat.exists_eq_succ_of_ne_zero (by
      rintro rfl
      exact nomatch hfuel)
    exact ⟨_, rfl⟩
  | cons v vs =>
    rw [List.forall_mem_cons] at hvs
    obtain ⟨hv, hvs⟩ := hvs
    have htext : (writeAt style depth (.list (v :: vs))).toList = '[' ::
        ((style.lineBreak (depth + 1)).toList ++ ((writeAt style (depth + 1) v).toList ++
          ((writeItems style (depth + 1) vs).toList ++
            ((style.lineBreak depth).toList ++ [']'])))) := by
      simp only [writeAt, String.toList_append, List.append_assoc]
      rfl
    rw [htext]
    refine ⟨⟨'[', _, rfl, rfl, by decide, by decide⟩, fun {rest fuel pos} _ hfuel ↦ ?_⟩
    simp only [List.length_cons, List.length_append] at hfuel
    obtain ⟨fuel, rfl⟩ : ∃ k, fuel = k + 1 := ⟨fuel - 1, by omega⟩
    simp only [List.cons_append, List.append_assoc, List.nil_append]
    refine value_list (isGap_lineBreak style _) (hv.head _) fun p ↦ ?_
    exact items_writeItems hvs (isGap_lineBreak style _) hv (by omega)

/-! ### Objects -/

variable {put : Fields} {name : String} {asciiOnly : Bool}

/-- How the reading of an object goes on after a field, where the cursor is past the blanks. -/
private def afterField (fuel room : Nat) (put : Fields) (c : Cursor) : Step Json :=
  match c.rest with
  | '}' :: _ => .ok (.object put, c.skip 1)
  | ',' :: _ => fields fuel room put (c.skip 1).skipGaps
  | _ => c.refuse .expectingComma

private theorem fields_field (put : Fields) (asciiOnly : Bool) (name : String) (pos : Nat)
    {more : List Char} (hmore : ∀ c ∈ more.head?, OpensValue c)
    (hvalue : ∀ pos, (value fuel room ⟨more, pos⟩).Gives v rest) :
    ∃ p, fields (fuel + 1) room put
        ⟨(stringText asciiOnly name).toList ++ ':' :: ' ' :: more, pos⟩ =
      afterField fuel room (Fields.put put name v) (⟨rest, p⟩ : Cursor).skipGaps := by
  obtain ⟨p, hp⟩ : ∃ p, p = pos + (stringText asciiOnly name).toList.length := ⟨_, rfl⟩
  have hstring := string_stringText asciiOnly name (':' :: ' ' :: more) pos
  have hcolon : (⟨':' :: ' ' :: more, p⟩ : Cursor).skipGaps = ⟨':' :: ' ' :: more, p⟩ :=
    skipGaps_cons (List.forall_mem_nil _) rfl _ p
  have hspace : ((⟨':' :: ' ' :: more, p⟩ : Cursor).skip 1).skipGaps = ⟨more, p + 1 + 1⟩ :=
    Cursor.skipGaps_append (List.forall_mem_singleton.mpr rfl : ∀ c ∈ [' '], isGap c = true)
      (fun c hc ↦ (hmore c hc).1) (p + 1)
  obtain ⟨q, hvalue⟩ := hvalue (p + 1 + 1)
  refine ⟨q, ?_⟩
  rw [← hp] at hstring
  simp only [toList_stringText, List.cons_append] at hstring ⊢
  rw [fields]
  simp only [hstring, hcolon, hspace, hvalue]
  rfl

private theorem fields_last {more : List Char} (hgaps : ∀ c ∈ gaps, isGap c = true)
    (hmore : ∀ c ∈ more.head?, OpensValue c)
    (hvalue : ∀ pos, (value fuel room ⟨more, pos⟩).Gives v (gaps ++ '\x7d' :: rest)) :
    (fields (fuel + 1) room put
      ⟨(stringText asciiOnly name).toList ++ ':' :: ' ' :: more, pos⟩).Gives
        (.object (Fields.put put name v)) rest := by
  obtain ⟨p, hfields⟩ := fields_field put asciiOnly name pos hmore hvalue
  rw [hfields, skipGaps_cons hgaps rfl]
  exact ⟨_, rfl⟩

private theorem fields_next {more after : List Char} {w : Json}
    (hgaps : ∀ c ∈ gaps, isGap c = true) (hmore : ∀ c ∈ more.head?, OpensValue c)
    (hafter : ∀ c ∈ after.head?, isGap c = false)
    (hvalue : ∀ pos, (value fuel room ⟨more, pos⟩).Gives v (',' :: (gaps ++ after)))
    (hfields : ∀ pos, (fields fuel room (Fields.put put name v) ⟨after, pos⟩).Gives w rest) :
    (fields (fuel + 1) room put
      ⟨(stringText asciiOnly name).toList ++ ':' :: ' ' :: more, pos⟩).Gives w rest := by
  obtain ⟨p, hfield⟩ := fields_field put asciiOnly name pos hmore hvalue
  have hcomma : (⟨',' :: (gaps ++ after), p⟩ : Cursor).skipGaps = ⟨',' :: (gaps ++ after), p⟩ :=
    skipGaps_cons (List.forall_mem_nil _) rfl _ p
  have hskip : ((⟨',' :: (gaps ++ after), p⟩ : Cursor).skip 1).skipGaps =
      ⟨after, p + 1 + gaps.length⟩ := Cursor.skipGaps_append hgaps hafter (p + 1)
  rw [hfield, hcomma, afterField]
  simp only [hskip]
  exact hfields _

private theorem head?_stringText (s : String) (rest : List Char) :
    ∀ c ∈ ((stringText asciiOnly s).toList ++ rest).head?, isGap c = false := by
  rw [toList_stringText]
  rintro c ⟨⟩
  rfl

private theorem put_of_nodup {news : Fields}
    (h : (Fields.names (put ++ (name, v) :: news)).Nodup) :
    Fields.put put name v = put ++ [(name, v)] := by
  apply Fields.put_of_notMem
  rw [Fields.names, List.map_append, List.nodup_append] at h
  exact fun hm ↦ h.2.2 name hm name (List.mem_cons_self ..) rfl

/-- The fields of an object are read one after the other. -/
private theorem fields_writeFields {news : Fields}
    (hnews : ∀ field ∈ news, Spells room (writeAt style depth field.2).toList field.2)
    (hgaps : ∀ c ∈ gaps, isGap c = true) (hv : Spells room (writeAt style depth v).toList v)
    (hnames : (Fields.names (put ++ (name, v) :: news)).Nodup)
    (hfuel : (writeAt style depth v).toList.length + (writeFields style depth news).toList.length
      < fuel) :
    (fields fuel room put ⟨(stringText style.asciiOnly name).toList ++ ':' :: ' ' ::
      ((writeAt style depth v).toList ++ ((writeFields style depth news).toList ++
        (gaps ++ '\x7d' :: rest))), pos⟩).Gives (.object (put ++ (name, v) :: news)) rest := by
  induction news generalizing v name put fuel pos with
  | nil =>
    obtain ⟨fuel, rfl⟩ : ∃ k, fuel = k + 1 := ⟨fuel - 1, by omega⟩
    rw [← put_of_nodup hnames]
    exact fields_last hgaps (hv.head _) fun p ↦ hv.reads (endsNumber_gaps hgaps rfl) (by omega)
  | cons field news ih =>
    obtain ⟨other, w⟩ := field
    obtain ⟨fuel, rfl⟩ : ∃ k, fuel = k + 1 := ⟨fuel - 1, by omega⟩
    obtain ⟨more, hbetween, hmore⟩ := toList_between style depth
    have hw : Spells room (writeAt style depth w).toList w := hnews _ (List.mem_cons_self ..)
    have hcolon : (": ").toList = [':', ' '] := rfl
    simp only [writeFields, String.toList_append, hbetween, hcolon, List.cons_append,
      List.append_assoc, List.nil_append, List.length_cons, List.length_append] at hfuel ⊢
    refine fields_next hmore (hv.head _) (head?_stringText _ _)
      (fun p ↦ hv.reads (endsNumber_cons rfl) (by omega)) fun p ↦ ?_
    rw [put_of_nodup hnames]
    have hrest : (fields fuel room (put ++ [(name, v)]) ⟨_, p⟩).Gives _ rest :=
      ih (fun f hf ↦ hnews f (List.mem_cons_of_mem _ hf)) hw (by rwa [List.append_assoc])
        (by omega)
    rwa [List.append_assoc] at hrest

private theorem value_object {more : List Char} {w : Json} (hgaps : ∀ c ∈ gaps, isGap c = true)
    (hmore : more.head? = some '"')
    (hfields : ∀ pos, (fields fuel room [] ⟨more, pos⟩).Gives w rest) :
    (value (fuel + 1) (room + 1) ⟨'\x7b' :: (gaps ++ more), pos⟩).Gives w rest := by
  have hgap : ∀ c ∈ more.head?, isGap c = false := by
    rw [hmore]
    rintro c ⟨⟩
    rfl
  have hopen : ((⟨'\x7b' :: (gaps ++ more), pos⟩ : Cursor).skip 1).skipGaps =
      ⟨more, pos + 1 + gaps.length⟩ := Cursor.skipGaps_append hgaps hgap (pos + 1)
  rw [value]
  simp only [hopen]
  split
  · cases hmore
  · exact hfields _

private theorem spells_object {news : Fields} (hnames : (Fields.names news).Nodup)
    (hnews : ∀ field ∈ news, Spells room (writeAt style (depth + 1) field.2).toList field.2) :
    Spells (room + 1) (writeAt style depth (.object news)).toList (.object news) := by
  cases news with
  | nil =>
    have htext : (writeAt style depth (.object [])).toList = ['\x7b', '\x7d'] := by
      rw [writeAt]
      rfl
    rw [htext]
    refine ⟨⟨'\x7b', ['\x7d'], rfl, rfl, by decide, by decide⟩, fun {rest fuel pos} _ hfuel ↦ ?_⟩
    obtain ⟨fuel, rfl⟩ : ∃ k, fuel = k + 1 := Nat.exists_eq_succ_of_ne_zero (by
      rintro rfl
      exact nomatch hfuel)
    exact ⟨_, rfl⟩
  | cons field news =>
    obtain ⟨name, v⟩ := field
    have hv : Spells room (writeAt style (depth + 1) v).toList v := hnews _ (List.mem_cons_self ..)
    have hcolon : (": ").toList = [':', ' '] := rfl
    have htext : (writeAt style depth (.object ((name, v) :: news))).toList = '\x7b' ::
        ((style.lineBreak (depth + 1)).toList ++ ((stringText style.asciiOnly name).toList ++
          ':' :: ' ' :: ((writeAt style (depth + 1) v).toList ++
            ((writeFields style (depth + 1) news).toList ++
              ((style.lineBreak depth).toList ++ ['\x7d']))))) := by
      simp only [writeAt, String.toList_append, List.append_assoc, hcolon, List.cons_append,
        List.nil_append]
      rfl
    rw [htext]
    refine ⟨⟨'\x7b', _, rfl, rfl, by decide, by decide⟩, fun {rest fuel pos} _ hfuel ↦ ?_⟩
    simp only [List.length_cons, List.length_append] at hfuel
    obtain ⟨fuel, rfl⟩ : ∃ k, fuel = k + 1 := ⟨fuel - 1, by omega⟩
    simp only [List.cons_append, List.append_assoc, List.nil_append]
    refine value_object (isGap_lineBreak style _) (by rw [toList_stringText]; rfl) fun p ↦ ?_
    show (fields fuel room [] _).Gives (.object ([] ++ (name, v) :: news)) rest
    exact fields_writeFields (fun f hf ↦ hnews f (List.mem_cons_of_mem _ hf))
      (isGap_lineBreak style _) hv hnames (by omega)

/-! ### All values -/

private theorem exists_succ {t : List Char} (ht : t ≠ []) (h : t.length ≤ fuel) :
    ∃ k, fuel = k + 1 := by
  apply Nat.exists_eq_succ_of_ne_zero
  rintro rfl
  exact ht (List.eq_nil_of_length_eq_zero (Nat.le_zero.mp h))

private theorem spells_word {w : List Char × Json} (h : w ∈ words) : Spells room w.1 w.2 := by
  have hopens : ∃ c cs, w.1 = c :: cs ∧ OpensValue c := by
    simp only [words, List.mem_cons, List.not_mem_nil, or_false] at h
    rcases h with rfl | rfl | rfl | rfl | rfl | rfl
    all_goals exact ⟨_, _, rfl, rfl, by decide, by decide⟩
  refine ⟨hopens, fun {rest fuel pos} _ hfuel ↦ ?_⟩
  obtain ⟨fuel, rfl⟩ := exists_succ (by obtain ⟨c, cs, heq, -⟩ := hopens; simp [heq]) hfuel
  exact ⟨_, value_word h rest fuel room pos⟩

private theorem opensValue_of_isAsciiDigit {c : Char} (h : isAsciiDigit c = true) :
    OpensValue c := by
  refine ⟨isGap_of_isNumberChar (isNumberChar_of_isAsciiDigit h), ?_, ?_⟩
  all_goals
    rintro rfl
    exact absurd h (by decide)

private theorem spells_number {cs : List Char} {n : Numeral}
    (h : Numeral.at? cs = some (n, cs.length)) (hv : n.value = .ok v) : Spells room cs v := by
  obtain ⟨d, ds, hd, hcs⟩ := (Numeral.opens_of_at? h).1.cases
  have hopens : ∃ c cs', cs = c :: cs' ∧ OpensValue c := by
    rcases hcs with rfl | rfl
    · exact ⟨d, ds, rfl, opensValue_of_isAsciiDigit hd⟩
    · exact ⟨'-', d :: ds, rfl, rfl, by decide, by decide⟩
  refine ⟨hopens, fun {rest fuel pos} hrest hfuel ↦ ?_⟩
  obtain ⟨fuel, rfl⟩ := exists_succ (by obtain ⟨c, cs, heq, -⟩ := hopens; simp [heq]) hfuel
  exact ⟨_, value_of_at? h hv hrest fuel room pos⟩

private theorem spells_string (asciiOnly : Bool) (s : String) :
    Spells room (stringText asciiOnly s).toList (.text s) := by
  have htext := toList_stringText asciiOnly s
  refine ⟨⟨'"', _, htext, rfl, by decide, by decide⟩, fun {rest fuel pos} _ hfuel ↦ ?_⟩
  obtain ⟨fuel, rfl⟩ := exists_succ (by simp [htext]) hfuel
  have hread := string_stringText asciiOnly s rest pos
  refine ⟨pos + (stringText asciiOnly s).toList.length, ?_⟩
  rw [htext, List.append_assoc, List.cons_append] at hread ⊢
  rw [value]
  simp only [hread]
  rfl

/-- A finite number is written as its text. -/
theorem realText_of_isFinite {x : Binary64} (h : x.isFinite = true) :
    realText x = x.text := by
  simp only [realText, Binary64.isNaN_of_isFinite h, Binary64.isInfinite_of_isFinite h,
    Bool.false_eq_true, if_false]

private theorem spells_real {x : Binary64} (h : x.IsLegible)
    (hx : x.isFinite = true → ReadsBack x) : Spells room (realText x).toList (.real x) := by
  rcases h with h | rfl | rfl | rfl
  · obtain ⟨n, hat, hvalue⟩ := (hx h).exists_at? h
    rw [realText_of_isFinite h]
    exact spells_number hat hvalue
  · exact spells_word (w := ("NaN".toList, .real Binary64.nan)) (by simp [words])
  · exact spells_word (w := ("Infinity".toList, .real Binary64.infinity)) (by simp [words])
  · exact spells_word (w := ("-Infinity".toList, .real Binary64.infinity.neg)) (by simp [words])

/-- A legible value is read as itself from its text, wherever that stands. -/
theorem spells_writeAt (h : v.Legible) (hreals : v.Reals fun x ↦ x.isFinite = true → ReadsBack x)
    (hnests : v.Nests room) (style : Style) (depth : Nat) :
    Spells room (writeAt style depth v).toList v := by
  induction h generalizing room depth with
  | null => exact spells_word (w := ("null".toList, .null)) (by simp [words])
  | bool b =>
    cases b with
    | false => exact spells_word (w := ("false".toList, .bool false)) (by simp [words])
    | true => exact spells_word (w := ("true".toList, .bool true)) (by simp [words])
  | int hdigits =>
    obtain ⟨m, hat, hvalue⟩ := exists_at?_showInt hdigits
    rw [writeAt]
    exact spells_number hat hvalue
  | real hx =>
    cases hreals with
    | real hread => exact spells_real hx hread
  | text s => exact spells_string _ s
  | list _ ih =>
    cases hreals with
    | list hreals =>
      cases hnests with
      | list hnests => exact spells_list fun v hv ↦ ih v hv (hreals v hv) (hnests v hv) _
  | object hnames _ ih =>
    cases hreals with
    | object hreals =>
      cases hnests with
      | object hnests =>
        exact spells_object hnames fun f hf ↦ ih f hf (hreals f hf) (hnests f hf) _

/-- A legible value that does not nest too deep is read as itself from its text. -/
theorem read_write (h : v.Legible) (hreals : v.Reals fun x ↦ x.isFinite = true → ReadsBack x)
    (hnests : v.Nests nestingLimit) (style : Style) : read (write style v) = .ok v := by
  have hspells := spells_writeAt h hreals hnests style 0
  obtain ⟨c, cs, heq, hgap, -, hmark⟩ := hspells.opens
  have htext : (write style v).toList = c :: cs := heq
  have hskip : (⟨c :: cs, 0⟩ : Cursor).skipGaps = ⟨c :: cs, 0⟩ :=
    skipGaps_cons (List.forall_mem_nil _) hgap cs 0
  obtain ⟨p, hread⟩ : (value (2 * (c :: cs).length + 2) nestingLimit
      ⟨(c :: cs) ++ [], 0⟩).Gives v [] := by
    rw [heq] at hspells
    exact hspells.reads nofun (by omega)
  have hend : (⟨[], p⟩ : Cursor).skipGaps = ⟨[], p⟩ := rfl
  rw [List.append_nil] at hread
  unfold read
  simp only [htext, hskip, hread, hend]
  split
  · next hbom => exact absurd (List.cons.inj hbom).1 hmark
  · rfl

end RouteWatch.Json
