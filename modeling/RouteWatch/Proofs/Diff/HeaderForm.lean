import RouteWatch.Proofs.Diff.Header
import RouteWatch.Proofs.Text.Lines
import RouteWatch.Review.Preview

/-!
# The form of a header

`HasForm` is the grammar of the headers of hunks: two ranges between fixed texts, each given by the
digits of its first line and, behind a comma, of its length, in any script, and any text after them.
Reading a diff fails exactly where a line that begins as a header has not this form; else its hunks
are those of these lines. A header that is printed from numbers is read as the hunk with these
numbers.
-/

namespace RouteWatch.Diff

open RouteWatch.Reviewer (readDiff)
open RouteWatch.Text

/-- The digits of a range: those of its first line and, where it is given, those of its length. -/
abbrev RangeDigits := List Char × Option (List Char)

namespace RangeDigits

/-- Where there are digits, there is at least one. -/
def Valid (r : RangeDigits) : Prop := AreDigits r.1 ∧ ∀ ds ∈ r.2, AreDigits ds

/-- The range in a header. -/
def text (r : RangeDigits) : String := String.ofList (writtenRange r.1 r.2)

/-- The number of the first line. -/
def start (r : RangeDigits) : Int := readNat r.1

/-- The number of lines; where it is not given, it is one. -/
def count (r : RangeDigits) : Int := r.2.elim 1 fun ds ↦ readNat ds

/-- No number has more digits than can be read. -/
def Short (r : RangeDigits) : Prop :=
  r.1.length ≤ digitLimit ∧ ∀ ds ∈ r.2, ds.length ≤ digitLimit

end RangeDigits

/-- The line is a header with these ranges of the base and of the head revision. -/
def HasForm (line : String) (base head : RangeDigits) : Prop :=
  base.Valid ∧ head.Valid ∧
    ∃ rest, line = "@@ -" ++ base.text ++ " +" ++ head.text ++ " @@" ++ rest

/-- The hunk of two ranges. -/
def Hunk.ofRanges (base head : RangeDigits) : Hunk :=
  ⟨base.start, head.start, base.count, head.count⟩

variable {line : String} {base head : RangeDigits}

/-! ### Reading accepts the form and no more -/

private theorem eq_append_of_after? {expected cs rest : List Char}
    (h : after? expected cs = some rest) : cs = expected ++ rest := by
  induction expected generalizing cs with
  | nil => exact Option.some.inj h
  | cons e es ih =>
    cases cs with
    | nil => cases h
    | cons c cs =>
      rw [after?] at h
      split at h
      · next heq => rw [heq, ih h, List.cons_append]
      · cases h

private theorem of_digits? {cs ds rest : List Char} (h : digits? cs = some (ds, rest)) :
    AreDigits ds ∧ cs = ds ++ rest := by
  rw [digits?] at h
  split at h
  · cases h
  · next hsome =>
    obtain ⟨rfl, rfl⟩ := Prod.mk.inj (Option.some.inj h)
    refine ⟨⟨by simpa using hsome, fun d hd ↦ ?_⟩, List.takeWhile_append_dropWhile.symm⟩
    exact List.all_eq_true.mp List.all_takeWhile d hd

private theorem of_range? {cs rest : List Char} {r : RangeDigits}
    (h : range? cs = some (r, rest)) : r.Valid ∧ cs = writtenRange r.1 r.2 ++ rest := by
  simp only [range?, Option.bind_eq_bind, Option.bind_eq_some_iff] at h
  obtain ⟨⟨start, more⟩, hstart, h⟩ := h
  obtain ⟨hdigits, rfl⟩ := of_digits? hstart
  dsimp only at h
  split at h
  · obtain ⟨⟨count, cs⟩, hcount, hr⟩ := Option.bind_eq_some_iff.mp h
    obtain ⟨hcountDigits, rfl⟩ := of_digits? hcount
    obtain ⟨rfl, rfl⟩ := Prod.mk.inj (Option.some.inj hr)
    refine ⟨⟨hdigits, fun ds hds ↦ Option.some.inj hds ▸ hcountDigits⟩, ?_⟩
    simp [writtenRange]
  · obtain ⟨rfl, rfl⟩ := Prod.mk.inj (Option.some.inj h)
    exact ⟨⟨hdigits, fun ds hds ↦ absurd hds (Option.not_mem_none ds)⟩, rfl⟩

/-- The ranges of a line are found where it has the form of a header with them. -/
theorem ranges?_eq_some_iff :
    ranges? line.toList = some (base, head) ↔ HasForm line base head := by
  constructor
  · intro h
    simp only [ranges?, Option.bind_eq_bind, Option.bind_eq_some_iff] at h
    obtain ⟨cs₁, h₁, ⟨r, cs₂⟩, h₂, cs₃, h₃, ⟨r', cs₄⟩, h₄, rest, h₅, h⟩ := h
    obtain ⟨rfl, rfl⟩ := Prod.mk.inj (Option.some.inj h)
    obtain ⟨hbase, hcs₁⟩ := of_range? h₂
    obtain ⟨hhead, hcs₃⟩ := of_range? h₄
    refine ⟨hbase, hhead, String.ofList rest, String.toList_inj.mp ?_⟩
    dsimp only at h₃ h₅ ⊢
    rw [eq_append_of_after? h₁, hcs₁, eq_append_of_after? h₃, hcs₃, eq_append_of_after? h₅]
    simp [RangeDigits.text]
  · rintro ⟨hbase, hhead, rest, rfl⟩
    rw [← ranges?_written rest.toList hbase.1 hbase.2 hhead.1 hhead.2]
    simp [RangeDigits.text]

/-! ### Numbers of few enough digits -/

private theorem RangeDigits.Short.numberOf_start (h : base.Short) :
    numberOf base.1 = .ok base.start :=
  numberOf_eq_ok_iff.mpr ⟨h.1, rfl⟩

private theorem RangeDigits.Short.countOf_count (h : base.Short) :
    countOf base.2 = .ok base.count := by
  obtain ⟨start, count⟩ := base
  cases count with
  | none => rfl
  | some ds => exact numberOf_eq_ok_iff.mpr ⟨h.2 ds rfl, rfl⟩

/-- A header whose numbers can be read is read as the hunk of its ranges. -/
private theorem ofHeader_of_hasForm (h : HasForm line base head) (hbase : base.Short)
    (hhead : head.Short) : Hunk.ofHeader line = .ok (Hunk.ofRanges base head) :=
  (Hunk.ofHeader_eq_ok_iff (ranges?_eq_some_iff.mpr h)).mpr
    ⟨hbase.numberOf_start, hbase.countOf_count, hhead.numberOf_start, hhead.countOf_count⟩

/-- No run of digits in a line is longer than a number that can be read. -/
def HasShortRuns (line : String) : Prop :=
  ∀ ds, ds <:+: line.toList → (∀ d ∈ ds, isDigit d = true) → ds.length ≤ digitLimit

private theorem RangeDigits.Valid.short (h : base.Valid) (hline : HasShortRuns line)
    (hin : base.text.toList <:+: line.toList) : base.Short := by
  obtain ⟨start, count⟩ := base
  rw [text, String.toList_ofList] at hin
  cases count with
  | none => exact ⟨hline start hin h.1.2, nofun⟩
  | some ds =>
    have hstart : start <:+: start ++ ',' :: ds := (List.prefix_append ..).isInfix
    have hcount : ds <:+: start ++ ',' :: ds := ⟨start ++ [','], [], by simp⟩
    refine ⟨hline start (hstart.trans hin) h.1.2, fun es hes ↦ ?_⟩
    obtain rfl := Option.some.inj hes
    exact hline ds (hcount.trans hin) (h.2 ds rfl).2

/-- In a line whose runs of digits are short enough the numbers of a header can be read. -/
private theorem HasForm.short (h : HasForm line base head) (hline : HasShortRuns line) :
    base.Short ∧ head.Short := by
  obtain ⟨hbase, hhead, rest, rfl⟩ := h
  refine ⟨hbase.short hline ⟨"@@ -".toList, (" +" ++ head.text ++ " @@" ++ rest).toList, ?_⟩,
    hhead.short hline ⟨("@@ -" ++ base.text ++ " +").toList, (" @@" ++ rest).toList, ?_⟩⟩
  · simp
  · simp

private theorem isPlain_iff (hline : HasShortRuns line) :
    isPlain line = true ↔ ∃ base head, HasForm line base head := by
  constructor
  · intro h
    rw [isPlain, Option.any_eq_true] at h
    obtain ⟨⟨base, head⟩, hranges, -⟩ := h
    exact ⟨base, head, ranges?_eq_some_iff.mp hranges⟩
  · rintro ⟨base, head, h⟩
    obtain ⟨hbase, hhead⟩ := h.short hline
    have hread := ofHeader_of_hasForm h hbase hhead
    rcases Hunk.ofHeader_cases line with ⟨hplain, -⟩ | ⟨-, -, he⟩ | ⟨-, -, n, he⟩
    · exact hplain
    · cases hread.symm.trans he
    · cases hread.symm.trans he

/-! ### Diffs -/

/-- The lines of a diff that begin as headers. -/
def headerLines (diff : String) : List String :=
  (split diff).filter fun line ↦ "@@".toList.isPrefixOf line.toList

private theorem isSome_after? (expected cs : List Char) :
    (after? expected cs).isSome = expected.isPrefixOf cs := by
  induction expected generalizing cs with
  | nil => rfl
  | cons e es ih =>
    cases cs with
    | nil => rfl
    | cons c cs =>
      rw [after?, List.isPrefixOf_cons_cons]
      split
      · next h => rw [ih, beq_iff_eq.mpr h.symm, Bool.true_and]
      · next h => rw [beq_eq_false_iff_ne.mpr (Ne.symm h), Bool.false_and, Option.isSome_none]

private theorem filter_isHeader (diff : String) :
    (split diff).filter isHeader = headerLines diff := by
  rw [headerLines]
  congr 1
  funext line
  exact isSome_after? ['@', '@'] line.toList

/-- How a diff is read. -/
structure HeadersRead (diff path : String) : Prop where
  /-- Reading fails, with trouble that names the file, where a line that begins as a header has not
  its form. -/
  fails : (∃ t, readDiff diff path = .error (.trouble t) ∧ t.kind = .parse ∧ t.path = some path) ↔
    ∃ line ∈ headerLines diff, ∀ base head, ¬HasForm line base head
  /-- It fails in no other way, and for the first such line. -/
  failure : ∀ e, readDiff diff path = .error e → ∃ before line after,
    headerLines diff = before ++ line :: after ∧
      (∀ l ∈ before, ∃ base head, HasForm l base head) ∧ (∀ base head, ¬HasForm line base head) ∧
        e = .trouble ⟨.parse, "malformed hunk header: " ++ quoted line, some path⟩
  /-- Else the hunks are those of the headers, and the changed and the removed lines are those that
  their ranges cover. -/
  reads : (∀ line ∈ headerLines diff, ∃ base head, HasForm line base head) →
    ∃ (ranges : String → RangeDigits × RangeDigits) (d : FileDiff),
      (∀ line ∈ headerLines diff, HasForm line (ranges line).1 (ranges line).2) ∧
        readDiff diff path = .ok d ∧ d.path = path ∧
        d.hunks = (headerLines diff).map (fun line ↦ .ofRanges (ranges line).1 (ranges line).2) ∧
        (∀ n, n ∈ d.changed ↔
          ∃ h ∈ d.hunks, h.headStart ≤ n ∧ n ≤ h.headStart + h.headCount - 1) ∧
        ∀ n, n ∈ d.removed ↔ ∃ h ∈ d.hunks, h.baseStart ≤ n ∧ n ≤ h.baseStart + h.baseCount - 1
  /-- Other lines do not matter. -/
  others : ∀ other, headerLines other = headerLines diff → readDiff other path = readDiff diff path

variable {diff path : String}

/-- The headers of a diff all have their form and are read, or the first that has not is named. -/
private theorem hunksOf_of_shortRuns (hshort : ∀ line ∈ headerLines diff, HasShortRuns line) :
    (∃ ranges : String → RangeDigits × RangeDigits,
        (∀ line ∈ headerLines diff, HasForm line (ranges line).1 (ranges line).2) ∧
          hunksOf diff = .ok
            ((headerLines diff).map fun line ↦ .ofRanges (ranges line).1 (ranges line).2)) ∨
      ∃ before line after, headerLines diff = before ++ line :: after ∧
        (∀ l ∈ before, ∃ base head, HasForm l base head) ∧
          (∀ base head, ¬HasForm line base head) ∧ hunksOf diff = .error (.malformed line) := by
  have hplain (l : String) (hl : l ∈ headerLines diff) := isPlain_iff (hshort l hl)
  have hcases := hunksOf_cases diff
  rw [firstUnread, filter_isHeader] at hcases
  rcases hcases with ⟨hnone, -⟩ | ⟨line, hfirst, hranges, hread⟩ | ⟨line, n, hfirst, hranges, -⟩
  · let ranges (line : String) : RangeDigits × RangeDigits :=
      (ranges? line.toList).getD (([], none), ([], none))
    have hform : ∀ line ∈ headerLines diff, HasForm line (ranges line).1 (ranges line).2 := by
      intro line hline
      obtain ⟨base, head, h⟩ := (hplain line hline).mp
        (by simpa using List.find?_eq_none.mp hnone line hline)
      have hvalue : ranges line = (base, head) :=
        congrArg (Option.getD · _) (ranges?_eq_some_iff.mpr h)
      rwa [hvalue]
    refine .inl ⟨ranges, hform, ?_⟩
    rw [hunksOf, filter_isHeader]
    refine mapM_eq_ok_of_forall fun line hline ↦ ?_
    obtain ⟨hbase, hhead⟩ := (hform line hline).short (hshort line hline)
    exact ofHeader_of_hasForm (hform line hline) hbase hhead
  · obtain ⟨-, before, after, hlines, hbefore⟩ := List.find?_eq_some_iff_append.mp hfirst
    refine .inr ⟨before, line, after, hlines, fun l hl ↦ ?_, fun base head h ↦ ?_, hread⟩
    · have hmem : l ∈ headerLines diff := by
        rw [hlines]
        exact List.mem_append_left _ hl
      exact (hplain l hmem).mp (by simpa using hbefore l hl)
    · cases hranges.symm.trans (ranges?_eq_some_iff.mpr h)
  · have hline := List.mem_of_find?_eq_some hfirst
    obtain ⟨⟨base, head⟩, hsome⟩ := Option.ne_none_iff_exists'.mp hranges
    have := (hplain line hline).mpr ⟨base, head, ranges?_eq_some_iff.mp hsome⟩
    exact absurd this (by simpa using List.find?_some hfirst)

/-- A diff is read by its headers. -/
private theorem readDiff_congr {other : String} (h : headerLines other = headerLines diff) :
    readDiff other path = readDiff diff path := by
  rw [readDiff, readDiff, FileDiff.ofText, FileDiff.ofText, hunksOf, hunksOf, filter_isHeader,
    filter_isHeader, h]

private theorem HeadersRead.of_ranges {ranges : String → RangeDigits × RangeDigits}
    (hform : ∀ line ∈ headerLines diff, HasForm line (ranges line).1 (ranges line).2)
    (hread : hunksOf diff =
      .ok ((headerLines diff).map fun line ↦ .ofRanges (ranges line).1 (ranges line).2)) :
    HeadersRead diff path := by
  have hok : readDiff diff path = .ok (.ofHunks path
      ((headerLines diff).map fun line ↦ .ofRanges (ranges line).1 (ranges line).2)) := by
    rw [readDiff, FileDiff.ofText, hread]
    rfl
  refine ⟨⟨?_, ?_⟩, ?_, fun _ ↦ ⟨ranges, _, hform, hok, rfl, rfl, ?_, ?_⟩,
    fun _ ↦ readDiff_congr⟩
  · rintro ⟨t, ht, -⟩
    cases hok.symm.trans ht
  · rintro ⟨line, hmem, hnot⟩
    exact absurd (hform line hmem) (hnot _ _)
  · intro e he
    cases hok.symm.trans he
  · intro n
    rw [FileDiff.ofHunks, LineSet.mem_ofList, List.mem_flatMap]
    simp only [Hunk.headLines, mem_rangeLines, Int.le_sub_one_iff]
  · intro n
    rw [FileDiff.ofHunks, LineSet.mem_ofList, List.mem_flatMap]
    simp only [Hunk.baseLines, mem_rangeLines, Int.le_sub_one_iff]

private theorem HeadersRead.of_malformed {before after : List String}
    (hlines : headerLines diff = before ++ line :: after)
    (hbefore : ∀ l ∈ before, ∃ base head, HasForm l base head)
    (hline : ∀ base head, ¬HasForm line base head)
    (hread : hunksOf diff = .error (.malformed line)) : HeadersRead diff path := by
  have herror : readDiff diff path =
      .error (.trouble ⟨.parse, "malformed hunk header: " ++ quoted line, some path⟩) := by
    rw [readDiff, FileDiff.ofText, hread]
    rfl
  have hmem : line ∈ headerLines diff := by
    rw [hlines]
    exact List.mem_append_right _ (List.mem_cons_self ..)
  refine ⟨⟨fun _ ↦ ⟨line, hmem, hline⟩, fun _ ↦ ⟨_, herror, rfl, rfl⟩⟩, fun e he ↦ ?_,
    fun hall ↦ ?_, fun _ ↦ readDiff_congr⟩
  · obtain rfl := Except.error.inj (herror.symm.trans he)
    exact ⟨before, line, after, hlines, hbefore, hline, rfl⟩
  · obtain ⟨base, head, h⟩ := hall line hmem
    exact absurd h (hline base head)

/-- A diff in which no header has a number of too many digits is read by the headers in it. -/
private theorem headersRead (hshort : ∀ line ∈ headerLines diff, HasShortRuns line) :
    HeadersRead diff path := by
  rcases hunksOf_of_shortRuns hshort with ⟨ranges, hform, hread⟩ |
    ⟨before, line, after, hlines, hbefore, hline, hread⟩
  · exact .of_ranges hform hread
  · exact .of_malformed hlines hbefore hline hread

/-! ### Headers that are printed -/

/-- A range with these numbers, where the number of lines may be left out. -/
def printedRange (start count : Nat) (short : Bool) : String :=
  if short then showInt start else showInt start ++ "," ++ showInt count

/-- A header with these numbers, and a text after it. -/
def printedHeader (baseStart baseCount headStart headCount : Nat) (shortBase shortHead : Bool)
    (suffix : String) : String :=
  "@@ -" ++ printedRange baseStart baseCount shortBase ++ " +" ++
    printedRange headStart headCount shortHead ++ " @@" ++ suffix

/-- The digits of a range that is printed. -/
private def printedDigits (start count : Nat) (short : Bool) : RangeDigits :=
  (showNat start, if short then none else some (showNat count))

private theorem text_printedDigits (start count : Nat) (short : Bool) :
    (printedDigits start count short).text = printedRange start count short := by
  have hshow (n : Nat) : (showInt n).toList = showNat n := showInt_toList (Int.natCast_nonneg n)
  apply String.toList_inj.mp
  rw [RangeDigits.text, String.toList_ofList, printedRange, printedDigits]
  cases short
  · simp [writtenRange, hshow]
  · simp [writtenRange, hshow]

private theorem valid_printedDigits (start count : Nat) (short : Bool) :
    (printedDigits start count short).Valid := by
  refine ⟨areDigits_showNat start, fun ds hds ↦ ?_⟩
  cases short
  · exact Option.some.inj hds ▸ areDigits_showNat count
  · cases hds

private theorem short_printedDigits {start count : Nat} (short : Bool)
    (hstart : (showNat start).length ≤ digitLimit) (hcount : (showNat count).length ≤ digitLimit) :
    (printedDigits start count short).Short := by
  refine ⟨hstart, fun ds hds ↦ ?_⟩
  cases short
  · exact Option.some.inj hds ▸ hcount
  · cases hds

private theorem start_printedDigits (start count : Nat) (short : Bool) :
    (printedDigits start count short).start = start :=
  congrArg Int.ofNat (readNat_showNat start)

private theorem count_printedDigits {start count : Nat} {short : Bool}
    (h : short = true → count = 1) : (printedDigits start count short).count = count := by
  cases short
  · exact congrArg Int.ofNat (readNat_showNat count)
  · rw [h rfl]
    rfl

/-- No line end stands in a range that is printed. -/
private theorem lineEnd_notMem_printedRange (start count : Nat) (short : Bool) :
    '\n' ∉ (printedRange start count short).toList := by
  rw [← text_printedDigits, RangeDigits.text, String.toList_ofList]
  exact lineEnd_notMem_writtenRange (valid_printedDigits start count short).1
    (valid_printedDigits start count short).2

section

variable {baseStart baseCount headStart headCount : Nat} {shortBase shortHead : Bool}
  (suffix : String)

private theorem ofHeader_printedHeader
    (hdigits : ∀ n ∈ [baseStart, baseCount, headStart, headCount],
      (showNat n).length ≤ digitLimit)
    (hbase : shortBase = true → baseCount = 1) (hhead : shortHead = true → headCount = 1) :
    Hunk.ofHeader
        (printedHeader baseStart baseCount headStart headCount shortBase shortHead suffix) =
      .ok ⟨baseStart, headStart, baseCount, headCount⟩ := by
  have hform : HasForm
      (printedHeader baseStart baseCount headStart headCount shortBase shortHead suffix)
      (printedDigits baseStart baseCount shortBase)
      (printedDigits headStart headCount shortHead) := by
    refine ⟨valid_printedDigits .., valid_printedDigits .., suffix, ?_⟩
    rw [text_printedDigits, text_printedDigits, printedHeader]
  rw [ofHeader_of_hasForm hform
    (short_printedDigits shortBase (hdigits _ (by simp)) (hdigits _ (by simp)))
    (short_printedDigits shortHead (hdigits _ (by simp)) (hdigits _ (by simp)))]
  rw [Hunk.ofRanges, start_printedDigits, start_printedDigits, count_printedDigits hbase,
    count_printedDigits hhead]

private theorem headerLines_printedHeader (hsuffix : '\n' ∉ suffix.toList) :
    headerLines
        (printedHeader baseStart baseCount headStart headCount shortBase shortHead suffix) =
      [printedHeader baseStart baseCount headStart headCount shortBase shortHead suffix] := by
  have hline : '\n' ∉ String.toList
      (printedHeader baseStart baseCount headStart headCount shortBase shortHead suffix) := by
    simp only [printedHeader, String.toList_append, List.mem_append, not_or]
    have hranges := lineEnd_notMem_printedRange
    exact ⟨⟨⟨⟨⟨by decide, hranges _ _ _⟩, by decide⟩, hranges _ _ _⟩, by decide⟩, hsuffix⟩
  rw [headerLines, split_of_notMem hline, List.filter_cons_of_pos, List.filter_nil]
  simp only [printedHeader, String.toList_append, List.append_assoc]
  rfl

end

/-- In any diff in which no header has a number of too many digits the headers are read by their
form, and nothing else matters; and a header that is printed is read as the hunk that it was printed
from, whether lengths of one are left out or not and whatever follows. -/
theorem headers_read_exactly :
    (∀ diff path, (∀ line ∈ headerLines diff, HasShortRuns line) → HeadersRead diff path) ∧
      ∀ (baseStart baseCount headStart headCount : Nat) (shortBase shortHead : Bool)
        (suffix : String),
        (∀ n ∈ [baseStart, baseCount, headStart, headCount], (showNat n).length ≤ digitLimit) →
        (shortBase = true → baseCount = 1) → (shortHead = true → headCount = 1) →
          Hunk.ofHeader
              (printedHeader baseStart baseCount headStart headCount shortBase shortHead suffix) =
            .ok ⟨baseStart, headStart, baseCount, headCount⟩ ∧
          ('\n' ∉ suffix.toList → ∀ path,
            readDiff
                (printedHeader baseStart baseCount headStart headCount shortBase shortHead suffix)
                path =
              .ok (.ofHunks path [⟨baseStart, headStart, baseCount, headCount⟩])) := by
  refine ⟨fun _ _ hshort ↦ headersRead hshort, fun _ _ _ _ _ _ suffix hdigits hbase hhead ↦ ?_⟩
  have hread := ofHeader_printedHeader suffix hdigits hbase hhead
  refine ⟨hread, fun hsuffix path ↦ ?_⟩
  rw [readDiff, FileDiff.ofText, hunksOf, filter_isHeader, headerLines_printedHeader suffix hsuffix,
    List.mapM_cons, hread]
  rfl

/-- A header with digits of another script is read, and one without a number is not: of two lines
that begin as headers the second has not the form of one. -/
theorem headers_read_exactly_malformed :
    (∃ t, readDiff "@@ -٣ +12,0 @@ f\n@@ -4 +, @@\n" "r.js" = .error (.trouble t) ∧
        t.kind = .parse ∧ t.path = some "r.js") ∧
      readDiff (printedHeader 3 1 12 0 true false " f") "r.js" =
        .ok (.ofHunks "r.js" [⟨3, 12, 1, 0⟩]) := by
  have hlines : headerLines "@@ -٣ +12,0 @@ f\n@@ -4 +, @@\n" =
      ["@@ -٣ +12,0 @@ f", "@@ -4 +, @@"] := by decide +kernel
  have hshort : ∀ line ∈ ["@@ -٣ +12,0 @@ f", "@@ -4 +, @@"], HasShortRuns line := by
    have hlength : ∀ line ∈ ["@@ -٣ +12,0 @@ f", "@@ -4 +, @@"],
        line.toList.length ≤ digitLimit := by decide
    exact fun line hline ds hds _ ↦ Nat.le_trans hds.length_le (hlength line hline)
  constructor
  · refine (headers_read_exactly.1 _ _ (hlines ▸ hshort)).fails.mpr
      ⟨"@@ -4 +, @@", by rw [hlines]; decide, fun base head h ↦ ?_⟩
    have hnone : ranges? "@@ -4 +, @@".toList = none := by decide
    cases hnone.symm.trans (ranges?_eq_some_iff.mpr h)
  · exact (headers_read_exactly.2 3 1 12 0 true false " f" (by decide) (by decide)
      (by decide)).2 (by decide) "r.js"

end RouteWatch.Diff
