import RouteWatch.Proofs.Diff.Header
import RouteWatch.Proofs.Diff.ZeroContext
import RouteWatch.Proofs.Text.Lines

/-!
# Diffs written and read

Of the lines of a diff without context only the headers of hunks are known as headers, so what is
read are the hunks of the changes, in order. The name of the file must not hold a line end: one
that does could bring in a header of its own.
-/

namespace RouteWatch.Diff

open RouteWatch.Text

/-- Closed lines, of which only those with the texts `headers` are headers. -/
def Writes (ls headers : List String) : Prop :=
  ∃ texts : List String, ls = texts.map (· ++ "\n") ∧ (∀ t ∈ texts, '\n' ∉ t.toList) ∧
    texts.filter isHeader = headers

theorem writes_nil : Writes [] [] := ⟨[], rfl, fun _ h ↦ absurd h List.not_mem_nil, rfl⟩

theorem writes_append {ls ms headers more : List String} (hl : Writes ls headers)
    (hm : Writes ms more) : Writes (ls ++ ms) (headers ++ more) := by
  obtain ⟨texts, rfl, htexts, rfl⟩ := hl
  obtain ⟨others, rfl, hothers, rfl⟩ := hm
  refine ⟨texts ++ others, by rw [List.map_append], ?_, List.filter_append ..⟩
  intro t ht
  rcases List.mem_append.mp ht with h | h
  · exact htexts t h
  · exact hothers t h

theorem writes_flatMap {α : Type} {es : List α} {f g : α → List String}
    (h : ∀ e ∈ es, Writes (f e) (g e)) : Writes (es.flatMap f) (es.flatMap g) := by
  induction es with
  | nil => exact writes_nil
  | cons e es ih =>
    rw [List.flatMap_cons, List.flatMap_cons]
    exact writes_append (h e (List.mem_cons_self ..))
      (ih fun f hf ↦ h f (List.mem_cons_of_mem _ hf))

/-- A mark that keeps a line from being a header. -/
private structure IsMark (mark : String) : Prop where
  lineEnd_notMem : '\n' ∉ mark.toList
  not_header : ∀ line : String, isHeader (mark ++ line) = false

private theorem isMark_of_head {mark : String} {c : Char} {cs : List Char}
    (hmark : mark.toList = c :: cs) (hc : c ≠ '@') (hcs : '\n' ∉ c :: cs) : IsMark mark where
  lineEnd_notMem := by rwa [hmark]
  not_header line := by simp [isHeader, after?, hmark, hc]

private theorem writes_marked {mark : String} (hmark : IsMark mark) {ls : List String}
    (hls : ∀ l ∈ ls, '\n' ∉ l.toList) :
    Writes ((ls.map (· ++ "\n")).map (hunkLine mark)) [] := by
  refine ⟨ls.map (mark ++ ·), ?_, ?_, ?_⟩
  · simp only [List.map_map, Function.comp_def, hunkLine, String.append_assoc]
  · intro t ht
    obtain ⟨l, hl, rfl⟩ := List.mem_map.mp ht
    rw [String.toList_append, List.mem_append, not_or]
    exact ⟨hmark.lineEnd_notMem, hls l hl⟩
  · rw [List.filter_eq_nil_iff]
    intro t ht
    obtain ⟨l, -, rfl⟩ := List.mem_map.mp ht
    rw [hmark.not_header]
    exact Bool.false_ne_true

theorem slice_map (lines : List String) (start stop : Int) :
    slice (lines.map (· ++ "\n")) start stop = (slice lines start stop).map (· ++ "\n") := by
  simp [slice, List.map_drop, List.map_take]

private theorem mem_of_mem_slice {lines : List String} {start stop : Int} {l : String}
    (h : l ∈ slice lines start stop) : l ∈ lines :=
  List.mem_of_mem_drop (List.mem_of_mem_take h)

private theorem writes_slice {mark : String} (hmark : IsMark mark) (text : String)
    (start stop : Int) : Writes ((slice (closedLines text) start stop).map (hunkLine mark)) [] := by
  rw [closedLines_eq, slice_map]
  exact writes_marked hmark fun l hl ↦ lineEnd_notMem_of_mem_lines (mem_of_mem_slice hl)

/-- No line that an edit gives is a header. -/
theorem writes_editLines (base head : String) (e : Edit) :
    Writes (editLines (closedLines base) (closedLines head) e) [] := by
  have kept : IsMark " " := isMark_of_head rfl (by decide) (by decide)
  have removed : IsMark "-" := isMark_of_head rfl (by decide) (by decide)
  have added : IsMark "+" := isMark_of_head rfl (by decide) (by decide)
  unfold editLines
  split
  · exact writes_slice kept base e.left e.leftEnd
  · exact writes_append (writes_slice removed base e.left e.leftEnd)
      (writes_slice added head e.right e.rightEnd)
  · exact writes_slice removed base e.left e.leftEnd
  · exact writes_slice added head e.right e.rightEnd

theorem writes_headerText {e : Edit} (h : e.Forward) :
    Writes [headerText e ++ "\n"] [headerText e] := by
  refine ⟨[headerText e], rfl, ?_, ?_⟩
  · intro t ht
    rw [List.mem_singleton.mp ht]
    exact lineEnd_notMem_headerText h
  · rw [List.filter_cons_of_pos (isHeader_headerText e), List.filter_nil]

private theorem writes_changeLines (base head : String) {e : Edit} (h : e.Forward) :
    Writes (changeLines (closedLines base) (closedLines head) e) [headerText e] := by
  rw [changeLines, hunkHeader_eq]
  exact writes_append (writes_headerText h) (writes_editLines base head e)

private theorem writes_nameLine {mark path : String} (hmark : IsMark mark)
    (hpath : '\n' ∉ path.toList) : Writes [mark ++ path ++ "\n"] [] := by
  have hpaths : ∀ l ∈ [path], '\n' ∉ l.toList := fun l hl ↦ by rwa [List.mem_singleton.mp hl]
  have := writes_marked hmark hpaths
  rwa [List.map_singleton, List.map_singleton, hunkLine, ← String.append_assoc] at this

/-- The headers of a diff are those of its hunks. -/
theorem writes_unifiedLines {a b headers : List String} {path : String} {context : Int}
    (hpath : '\n' ∉ path.toList)
    (h : Writes ((groups context a b).flatMap (hunkLines a b)) headers) :
    Writes (unifiedLines a b path context) headers := by
  unfold unifiedLines
  split
  · next hnone =>
    rwa [hnone] at h
  · have hbase : IsMark "--- a/" := isMark_of_head rfl (by decide) (by decide)
    have hhead : IsMark "+++ b/" := isMark_of_head rfl (by decide) (by decide)
    have all := writes_append (writes_nameLine hbase hpath)
      (writes_append (writes_nameLine hhead hpath) h)
    simpa only [List.cons_append, List.nil_append] using all

/-! ### Reading what was written -/

/-- What is read of closed lines are the headers among them. -/
theorem hunksOf_join {ls headers : List String} (h : Writes ls headers) :
    hunksOf (String.join ls) = headers.mapM Hunk.ofHeader := by
  obtain ⟨texts, hlines, htexts, hheaders⟩ := h
  have hempty : isHeader "" = false := by decide
  rw [hunksOf, hlines, split_join_closed htexts, List.filter_append, hheaders,
    List.filter_cons_of_neg (by rw [hempty]; exact Bool.false_ne_true), List.filter_nil,
    List.append_nil]

/-- What is read of a diff without context are the headers of the changes. -/
theorem hunksOf_unified {base head path : String} (hpath : '\n' ∉ path.toList) :
    hunksOf (unified base head path 0) =
      ((changes (closedLines base) (closedLines head)).map headerText).mapM Hunk.ofHeader := by
  apply hunksOf_join
  apply writes_unifiedLines hpath
  rw [List.flatMap_def, map_hunkLines_groups_zero, ← List.flatMap_def, List.map_eq_flatMap]
  exact writes_flatMap fun e he ↦
    writes_changeLines base head (within_of_mem_changes he).toForward

/-- Where a diff without context is read, its hunks are those of the changes. -/
theorem eq_map_ofChange_of_hunksOf {base head path : String} {hs : List Hunk}
    (hpath : '\n' ∉ path.toList) (h : hunksOf (unified base head path 0) = .ok hs) :
    hs = (changes (closedLines base) (closedLines head)).map Hunk.ofChange := by
  rw [hunksOf_unified hpath, List.mapM_map] at h
  exact eq_map_of_mapM_eq_ok h fun e he _ hread ↦
    eq_ofChange_of_ofHeader (within_of_mem_changes he).toForward hread

/-- A diff without context is read where its texts have few enough lines for their numbers to
have fewer digits than is allowed. -/
theorem hunksOf_unified_of_lt {base head path : String} (hpath : '\n' ∉ path.toList)
    (hbase : (lines base).length < Nat.pow 10 digitLimit)
    (hhead : (lines head).length < Nat.pow 10 digitLimit) :
    hunksOf (unified base head path 0) =
      .ok ((changes (closedLines base) (closedLines head)).map Hunk.ofChange) := by
  rw [hunksOf_unified hpath, List.mapM_map]
  apply mapM_eq_ok_of_forall
  intro e he
  have hwithin := within_of_mem_changes he
  have hleft := hwithin.leftEnd_le
  have hright := hwithin.rightEnd_le
  have hl := Int.le_trans hwithin.left_nonneg hwithin.left_le
  have hr := Int.le_trans hwithin.right_nonneg hwithin.right_le
  rw [length_closedLines] at hleft hright
  apply ofHeader_headerText hwithin.toForward
  · exact Nat.lt_of_le_of_lt (by omega) hbase
  · exact Nat.lt_of_le_of_lt (by omega) hhead

end RouteWatch.Diff
