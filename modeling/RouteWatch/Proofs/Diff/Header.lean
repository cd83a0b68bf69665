import RouteWatch.Diff.Hunk
import RouteWatch.Diff.Unified
import RouteWatch.Proofs.Diff.Changes
import RouteWatch.Proofs.Except
import RouteWatch.Proofs.Text.Digit

/-!
# Headers written and read

The header that a diff gives a change is read as the hunk of that change: its ranges begin where
the change begins, except that an empty range begins one line earlier. Reading fails only where a
number has too many digits. Of the headers of any diff the first that is not read decides: it is
malformed, or has such a number.
-/

namespace RouteWatch.Diff

open RouteWatch.Text

/-! ### Reading the digits of a header -/

/-- The digits of a range as a header gives them. -/
def writtenRange (start : List Char) (count : Option (List Char)) : List Char :=
  match count with
  | none => start
  | some ds => start ++ ',' :: ds

/-- Some digits, at least one. -/
def AreDigits (ds : List Char) : Prop := ds ≠ [] ∧ ∀ d ∈ ds, isDigit d = true

theorem areDigits_showNat (n : Nat) : AreDigits (showNat n) :=
  ⟨showNat_ne_nil n, fun _ h ↦ isDigit_of_mem_showNat h⟩

private theorem digits?_append {ds : List Char} {c : Char} (cs : List Char) (hds : AreDigits ds)
    (hc : isDigit c = false) : digits? (ds ++ c :: cs) = some (ds, c :: cs) := by
  have htake : (ds ++ c :: cs).takeWhile isDigit = ds := by
    rw [List.takeWhile_append_of_pos hds.2, List.takeWhile_cons_of_neg (by simp [hc]),
      List.append_nil]
  have hdrop : (ds ++ c :: cs).dropWhile isDigit = c :: cs := by
    rw [List.dropWhile_append_of_pos hds.2, List.dropWhile_cons_of_neg (by simp [hc])]
  rw [digits?, htake, hdrop, if_neg (by simpa using hds.1)]

/-- A range is read up to what follows its last digit. -/
theorem range?_writtenRange {start : List Char} {count : Option (List Char)} (cs : List Char)
    (hstart : AreDigits start) (hcount : ∀ ds ∈ count, AreDigits ds) :
    range? (writtenRange start count ++ ' ' :: cs) = some ((start, count), ' ' :: cs) := by
  have hblank : isDigit ' ' = false := by decide
  cases count with
  | none =>
    rw [writtenRange, range?, digits?_append cs hstart hblank]
    rfl
  | some ds =>
    have hds := digits?_append cs (hcount ds rfl) hblank
    rw [writtenRange, range?, List.append_assoc, List.cons_append,
      digits?_append _ hstart (by decide)]
    simp only [Option.bind_eq_bind, Option.bind_some, hds]
    rfl

private theorem after?_append (expected cs : List Char) :
    after? expected (expected ++ cs) = some cs := by
  induction expected with
  | nil => rfl
  | cons e es ih => simp [after?, ih]

/-- A header is read range by range, whatever follows it. -/
theorem ranges?_written {base head : List Char} {baseCount headCount : Option (List Char)}
    (cs : List Char) (hbase : AreDigits base) (hbaseCount : ∀ ds ∈ baseCount, AreDigits ds)
    (hhead : AreDigits head) (hheadCount : ∀ ds ∈ headCount, AreDigits ds) :
    ranges? (['@', '@', ' ', '-'] ++ (writtenRange base baseCount ++ ([' ', '+'] ++
      (writtenRange head headCount ++ ([' ', '@', '@'] ++ cs))))) =
        some ((base, baseCount), (head, headCount)) := by
  rw [ranges?, after?_append]
  simp only [Option.bind_eq_bind, Option.bind_some]
  have hfirst := range?_writtenRange ('+' :: (writtenRange head headCount ++
    ([' ', '@', '@'] ++ cs))) hbase hbaseCount
  have hsecond := range?_writtenRange ('@' :: '@' :: cs) hhead hheadCount
  change (range? (writtenRange base baseCount ++ ' ' :: '+' :: (writtenRange head headCount ++
    ([' ', '@', '@'] ++ cs)))).bind _ = _
  rw [hfirst, Option.bind_some]
  change (after? [' ', '+'] ([' ', '+'] ++ (writtenRange head headCount ++
    ' ' :: '@' :: '@' :: cs))).bind _ = _
  rw [after?_append, Option.bind_some]
  simp only [hsecond, Option.bind_some]
  change (after? [' ', '@', '@'] ([' ', '@', '@'] ++ cs)).bind _ = _
  rw [after?_append]
  rfl

/-! ### Numbers of a header -/

theorem numberOf_eq_ok_iff {ds : List Char} {n : Int} :
    numberOf ds = .ok n ↔ ds.length ≤ digitLimit ∧ n = readNat ds := by
  unfold numberOf
  split
  · simp; omega
  · simp [eq_comm]; omega

private theorem numberOf_showNat {n : Nat} {m : Int} (h : numberOf (showNat n) = .ok m) :
    m = n := by
  rw [(numberOf_eq_ok_iff.mp h).2, readNat_showNat]

private theorem numberOf_showNat_of_lt {n : Nat} (h : n < Nat.pow 10 digitLimit) :
    numberOf (showNat n) = .ok n :=
  numberOf_eq_ok_iff.mpr ⟨length_showNat_le (by decide) h, by rw [readNat_showNat]⟩

/-- A header with these digits is read as the hunk of their numbers. -/
theorem Hunk.ofHeader_eq_ok_iff {line : String} {base head : List Char}
    {baseCount headCount : Option (List Char)} {h : Hunk}
    (hr : ranges? line.toList = some ((base, baseCount), (head, headCount))) :
    Hunk.ofHeader line = .ok h ↔ numberOf base = .ok h.baseStart ∧
      countOf baseCount = .ok h.baseCount ∧ numberOf head = .ok h.headStart ∧
        countOf headCount = .ok h.headCount := by
  rw [Hunk.ofHeader, hr]
  simp only [except_bind_eq_ok_iff, pure, Except.pure, Except.ok.injEq]
  constructor
  · rintro ⟨_, hbase, _, hbaseCount, _, hhead, _, hheadCount, rfl⟩
    exact ⟨hbase, hbaseCount, hhead, hheadCount⟩
  · rintro ⟨hbase, hbaseCount, hhead, hheadCount⟩
    exact ⟨_, hbase, _, hbaseCount, _, hhead, _, hheadCount, rfl⟩

/-! ### Headers that are not read -/

/-- The numbers in a header as it gives them, where those of lengths may be left out. -/
def numeralsOf :
    (List Char × Option (List Char)) × (List Char × Option (List Char)) →
      List (Option (List Char))
  | ((base, baseCount), (head, headCount)) => [some base, baseCount, some head, headCount]

/-- A header whose numbers have no more digits than can be read. -/
def isPlain (line : String) : Bool :=
  (ranges? line.toList).any fun ranges ↦
    (numeralsOf ranges).all fun numeral ↦ numeral.all (·.length ≤ digitLimit)

/-- The first header of a diff that is not read. -/
def firstUnread (diff : String) : Option String :=
  ((split diff).filter isHeader).find? (!isPlain ·)

private theorem countOf_cases (numeral : Option (List Char)) :
    (numeral.all (·.length ≤ digitLimit) = true ∧ ∃ n, countOf numeral = .ok n) ∨
      (numeral.all (·.length ≤ digitLimit) = false ∧
        ∃ n, countOf numeral = .error (.tooManyDigits n)) := by
  cases numeral with
  | none => exact .inl ⟨rfl, 1, rfl⟩
  | some ds =>
    rw [countOf, numberOf]
    by_cases hlong : digitLimit < ds.length
    · exact .inr ⟨by simpa using hlong, _, if_pos hlong⟩
    · exact .inl ⟨by simpa using hlong, _, if_neg hlong⟩

/-- A header is read where each of its numbers is, and else fails as one of them does. -/
private theorem ofHeader_numerals {line : String}
    {ranges : (List Char × Option (List Char)) × (List Char × Option (List Char))}
    (hr : ranges? line.toList = some ranges) :
    (∃ h, Hunk.ofHeader line = .ok h ∧
        ∀ numeral ∈ numeralsOf ranges, ∃ n, countOf numeral = .ok n) ∨
      ∃ e, Hunk.ofHeader line = .error e ∧
        ∃ numeral ∈ numeralsOf ranges, countOf numeral = .error e := by
  obtain ⟨⟨base, baseCount⟩, ⟨head, headCount⟩⟩ := ranges
  cases hread : Hunk.ofHeader line with
  | ok h =>
    obtain ⟨hbase, hbaseCount, hhead, hheadCount⟩ := (Hunk.ofHeader_eq_ok_iff hr).mp hread
    refine .inl ⟨h, rfl, ?_⟩
    simp only [numeralsOf, List.forall_mem_cons, List.not_mem_nil, false_implies, implies_true,
      and_true]
    exact ⟨⟨_, hbase⟩, ⟨_, hbaseCount⟩, ⟨_, hhead⟩, ⟨_, hheadCount⟩⟩
  | error e =>
    refine .inr ⟨e, rfl, ?_⟩
    rw [Hunk.ofHeader, hr] at hread
    simp only [except_bind_eq_error_iff] at hread
    rcases hread with he | ⟨_, -, he | ⟨_, -, he | ⟨_, -, he | ⟨_, -, he⟩⟩⟩⟩
    · exact ⟨some base, by simp [numeralsOf], he⟩
    · exact ⟨baseCount, by simp [numeralsOf], he⟩
    · exact ⟨some head, by simp [numeralsOf], he⟩
    · exact ⟨headCount, by simp [numeralsOf], he⟩
    · exact nomatch he

/-- A line is read as a header where it is plain, is malformed where it has not the form of one,
and else has a number of too many digits. -/
theorem Hunk.ofHeader_cases (line : String) :
    (isPlain line = true ∧ ∃ h, Hunk.ofHeader line = .ok h) ∨
      (isPlain line = false ∧ ranges? line.toList = none ∧
        Hunk.ofHeader line = .error (.malformed line)) ∨
      (isPlain line = false ∧ ranges? line.toList ≠ none ∧
        ∃ n, Hunk.ofHeader line = .error (.tooManyDigits n)) := by
  cases hr : ranges? line.toList with
  | none => exact .inr (.inl ⟨by rw [isPlain, hr]; rfl, rfl, by rw [Hunk.ofHeader, hr]⟩)
  | some ranges =>
    rw [isPlain, hr, Option.any_some]
    rcases ofHeader_numerals hr with ⟨h, hread, hall⟩ | ⟨e, hread, numeral, hin, he⟩
    · refine .inl ⟨List.all_eq_true.mpr fun numeral hin ↦ ?_, h, hread⟩
      obtain ⟨n, hn⟩ := hall numeral hin
      rcases countOf_cases numeral with ⟨hshort, -⟩ | ⟨-, m, hm⟩
      · exact hshort
      · exact nomatch hn.symm.trans hm
    · rcases countOf_cases numeral with ⟨-, m, hm⟩ | ⟨hlong, n, hn⟩
      · exact nomatch he.symm.trans hm
      · obtain rfl := Except.error.inj (he.symm.trans hn)
        exact .inr (.inr ⟨List.all_eq_false.mpr ⟨numeral, hin, by simp [hlong]⟩, nofun, n, hread⟩)

/-- The headers of a diff are read, or the first that is not is malformed or has a number of too
many digits. -/
theorem hunksOf_cases (diff : String) :
    (firstUnread diff = none ∧ ∃ hs, hunksOf diff = .ok hs) ∨
      (∃ l, firstUnread diff = some l ∧ ranges? l.toList = none ∧
        hunksOf diff = .error (.malformed l)) ∨
      ∃ l n, firstUnread diff = some l ∧ ranges? l.toList ≠ none ∧
        hunksOf diff = .error (.tooManyDigits n) := by
  have hplain (l : String) : isPlain l = true ↔ ∃ h, Hunk.ofHeader l = .ok h := by
    rcases Hunk.ofHeader_cases l with ⟨hl, hh⟩ | ⟨hl, -, hh⟩ | ⟨hl, -, n, hh⟩
    · exact iff_of_true hl hh
    · simp [hl, hh]
    · simp [hl, hh]
  rcases mapM_cases hplain ((split diff).filter isHeader) with
    ⟨hnone, hread⟩ | ⟨l, e, hl, he, hfails⟩
  · exact .inl ⟨hnone, hread⟩
  · rcases Hunk.ofHeader_cases l with ⟨-, h, hh⟩ | ⟨-, hranges, hh⟩ | ⟨-, hranges, n, hh⟩
    · exact nomatch he.symm.trans hh
    · obtain rfl := Except.error.inj (he.symm.trans hh)
      exact .inr (.inl ⟨l, hl, hranges, hfails⟩)
    · obtain rfl := Except.error.inj (he.symm.trans hh)
      exact .inr (.inr ⟨l, n, hl, hranges, hfails⟩)

/-! ### The header of a change -/

/-- The number of the first line of a range that a header gives, from the positions of its first
line and after its last. -/
def startNumber (start stop : Int) : Int := if stop = start then start else start + 1

/-- The hunk of a change. -/
def Hunk.ofChange (e : Edit) : Hunk where
  baseStart := startNumber e.left e.leftEnd
  headStart := startNumber e.right e.rightEnd
  baseCount := e.leftEnd - e.left
  headCount := e.rightEnd - e.right

/-- The header of a change, without its line end. -/
def headerText (e : Edit) : String :=
  "@@ -" ++ rangeText e.left e.leftEnd ++ " +" ++ rangeText e.right e.rightEnd ++ " @@"

/-- The digits of the number of lines of a range, if it is written. -/
private def countDigits (start stop : Int) : Option (List Char) :=
  if stop - start = 1 then none else some (showNat (stop - start).natAbs)

theorem showInt_toList {n : Int} (h : 0 ≤ n) : (showInt n).toList = showNat n.natAbs := by
  rw [showInt, String.toList_ofList, if_neg (by omega)]

private theorem rangeText_toList {start stop : Int} (h : 0 ≤ start) (hle : start ≤ stop) :
    (rangeText start stop).toList =
      writtenRange (showNat (startNumber start stop).natAbs) (countDigits start stop) := by
  by_cases hone : stop - start = 1
  · simp only [rangeText, if_pos hone, countDigits, writtenRange, startNumber]
    rw [if_neg (by omega), showInt_toList (by omega)]
  · by_cases hzero : stop - start = 0
    · simp only [rangeText, if_pos hzero, countDigits, writtenRange, startNumber, if_neg hone,
        String.toList_append]
      rw [if_pos (by omega), showInt_toList h, showInt_toList (by omega)]
      simp
    · simp only [rangeText, if_neg hzero, countDigits, writtenRange, startNumber, if_neg hone,
        String.toList_append]
      rw [if_neg (by omega), showInt_toList (by omega), showInt_toList (by omega)]
      simp

private theorem areDigits_countDigits (start stop : Int) :
    ∀ ds ∈ countDigits start stop, AreDigits ds := by
  intro ds hds
  unfold countDigits at hds
  split at hds
  · cases hds
  · cases hds
    exact areDigits_showNat _

private theorem ranges?_headerText {e : Edit} (h : e.Forward) :
    ranges? (headerText e).toList =
      some ((showNat (startNumber e.left e.leftEnd).natAbs, countDigits e.left e.leftEnd),
        (showNat (startNumber e.right e.rightEnd).natAbs, countDigits e.right e.rightEnd)) := by
  rw [← ranges?_written [] (areDigits_showNat _) (areDigits_countDigits _ _)
    (areDigits_showNat _) (areDigits_countDigits _ _)]
  simp only [headerText, String.toList_append, rangeText_toList h.left_nonneg h.left_le,
    rangeText_toList h.right_nonneg h.right_le, List.append_assoc]
  rfl

private theorem natAbs_startNumber {start stop : Int} (h : 0 ≤ start) :
    ((startNumber start stop).natAbs : Int) = startNumber start stop := by
  unfold startNumber
  split <;> omega

private theorem countOf_countDigits {start stop m : Int} (hle : start ≤ stop)
    (h : countOf (countDigits start stop) = .ok m) : m = stop - start := by
  unfold countDigits at h
  split at h
  · next hone =>
    cases h
    omega
  · rw [numberOf_showNat h]
    omega

private theorem countOf_countDigits_of_lt {start stop : Int} (hle : start ≤ stop)
    (h : (stop - start).natAbs < Nat.pow 10 digitLimit) :
    countOf (countDigits start stop) = .ok (stop - start) := by
  unfold countDigits
  split
  · next hone =>
    rw [hone]
    rfl
  · rw [countOf, numberOf_showNat_of_lt h]
    congr 1
    omega

/-- Where the header of a change is read, it is read as the hunk of the change. -/
theorem eq_ofChange_of_ofHeader {e : Edit} {h : Hunk} (he : e.Forward)
    (hh : Hunk.ofHeader (headerText e) = .ok h) : h = Hunk.ofChange e := by
  obtain ⟨hbase, hbaseCount, hhead, hheadCount⟩ :=
    (Hunk.ofHeader_eq_ok_iff (ranges?_headerText he)).mp hh
  have h₁ := numberOf_showNat hbase
  have h₂ := numberOf_showNat hhead
  rw [natAbs_startNumber he.left_nonneg] at h₁
  rw [natAbs_startNumber he.right_nonneg] at h₂
  cases h
  simp only [Hunk.ofChange, Hunk.mk.injEq]
  exact ⟨h₁, h₂, countOf_countDigits he.left_le hbaseCount,
    countOf_countDigits he.right_le hheadCount⟩

/-- The header of a change is read where its positions have fewer digits than is allowed. -/
theorem ofHeader_headerText {e : Edit} (he : e.Forward)
    (hleft : e.leftEnd.natAbs < Nat.pow 10 digitLimit)
    (hright : e.rightEnd.natAbs < Nat.pow 10 digitLimit) :
    Hunk.ofHeader (headerText e) = .ok (Hunk.ofChange e) := by
  have hl := he.left_le
  have hr := he.right_le
  have start {start stop : Int} (h : 0 ≤ start) (hle : start ≤ stop)
      (hlt : stop.natAbs < Nat.pow 10 digitLimit) :
      numberOf (showNat (startNumber start stop).natAbs) = .ok (startNumber start stop) := by
    rw [numberOf_showNat_of_lt, natAbs_startNumber h]
    unfold startNumber
    split <;> omega
  rw [Hunk.ofHeader_eq_ok_iff (ranges?_headerText he)]
  exact ⟨start he.left_nonneg hl hleft, countOf_countDigits_of_lt hl (by
    have := he.left_nonneg
    omega), start he.right_nonneg hr hright, countOf_countDigits_of_lt hr (by
    have := he.right_nonneg
    omega)⟩

/-- The header of a change is its text, closed by a line end. -/
theorem hunkHeader_eq (e : Edit) : hunkHeader e e = headerText e ++ "\n" := by
  simp only [hunkHeader, headerText, String.append_assoc]
  rfl

/-- The header of a change is known as a header. -/
theorem isHeader_headerText (e : Edit) : isHeader (headerText e) = true := by
  simp only [isHeader, headerText, String.toList_append, List.append_assoc]
  rfl

theorem lineEnd_notMem_writtenRange {ds : List Char} {count : Option (List Char)}
    (hds : AreDigits ds) (hcount : ∀ ds ∈ count, AreDigits ds) :
    '\n' ∉ writtenRange ds count := by
  have notDigits {ds : List Char} (h : AreDigits ds) : '\n' ∉ ds := by
    intro hm
    have := h.2 _ hm
    revert this
    decide
  cases count with
  | none => exact notDigits hds
  | some cs =>
    simp only [writtenRange, List.mem_append, List.mem_cons, not_or]
    exact ⟨notDigits hds, by decide, notDigits (hcount cs rfl)⟩

/-- The header of a change holds no line end but the one that closes it. -/
theorem lineEnd_notMem_headerText {e : Edit} (h : e.Forward) :
    '\n' ∉ (headerText e).toList := by
  have base := lineEnd_notMem_writtenRange (areDigits_showNat (startNumber e.left e.leftEnd).natAbs)
    (areDigits_countDigits e.left e.leftEnd)
  have head := lineEnd_notMem_writtenRange
    (areDigits_showNat (startNumber e.right e.rightEnd).natAbs)
    (areDigits_countDigits e.right e.rightEnd)
  simp only [headerText, String.toList_append, rangeText_toList h.left_nonneg h.left_le,
    rangeText_toList h.right_nonneg h.right_le, List.mem_append, not_or]
  exact ⟨⟨⟨⟨by decide, base⟩, by decide⟩, head⟩, by decide⟩

end RouteWatch.Diff
