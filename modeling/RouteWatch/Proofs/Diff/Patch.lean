import RouteWatch.Proofs.Diff.HunkTable

/-!
# Patches

A patch is a list of hunks, each a header and lines that are kept, removed or added. It is applied
to the lines of the base revision, where each hunk has to find its kept and removed lines at the
place that its header gives; reversed, it is applied to the lines of the head revision. `Turns` says
of hunks that they turn one revision into the other and follow from it both ways.
-/

namespace RouteWatch.Diff

open RouteWatch.Text (linesFrom showInt)

/-- What a line of a hunk says of its text. -/
inductive Mark where
  | keep
  | remove
  | add
  deriving DecidableEq, Repr

/-- The character that a marked line begins with. -/
def Mark.text : Mark → String
  | .keep => " "
  | .remove => "-"
  | .add => "+"

/-- The mark of a line in the reversed hunk. -/
def Mark.reverse : Mark → Mark
  | .keep => .keep
  | .remove => .add
  | .add => .remove

/-- A line of a hunk. -/
structure PatchLine where
  mark : Mark
  text : String
  deriving DecidableEq, Repr

/-- The text of a line of a hunk. -/
def PatchLine.written (l : PatchLine) : String := l.mark.text ++ l.text ++ "\n"

/-- A header with the lines that follow it. -/
structure PatchHunk where
  header : Hunk
  body : List PatchLine
  deriving DecidableEq, Repr

/-- A range of a header: where it begins and its length, which is left out where it is one. -/
def rangeWritten (start count : Int) : String :=
  if count = 1 then showInt start else showInt start ++ "," ++ showInt count

namespace PatchHunk

/-- The lines of the base revision that a hunk is for. -/
def baseLines (h : PatchHunk) : List String :=
  (h.body.filter (·.mark ≠ .add)).map PatchLine.text

/-- The lines of the head revision that a hunk gives. -/
def headLines (h : PatchHunk) : List String :=
  (h.body.filter (·.mark ≠ .remove)).map PatchLine.text

/-- The hunk that undoes a hunk. -/
def reverse (h : PatchHunk) : PatchHunk where
  header := ⟨h.header.headStart, h.header.baseStart, h.header.headCount, h.header.baseCount⟩
  body := h.body.map fun l ↦ ⟨l.mark.reverse, l.text⟩

/-- The text of a hunk. -/
def written (h : PatchHunk) : List String :=
  ("@@ -" ++ rangeWritten h.header.baseStart h.header.baseCount ++ " +" ++
    rangeWritten h.header.headStart h.header.headCount ++ " @@\n") ::
      h.body.map PatchLine.written

end PatchHunk

/-- The text of a patch of a file: nothing where there is no hunk, and else two lines with the names
of the file and the hunks. -/
def patchText (path : String) : List PatchHunk → String
  | [] => ""
  | hs => "--- a/" ++ path ++ "\n" ++ ("+++ b/" ++ path ++ "\n") ++
      String.join (hs.flatMap PatchHunk.written)

/-- The number of kept lines that the lines of a hunk begin with. -/
def leadingKept (body : List PatchLine) : Nat := (body.takeWhile (·.mark = .keep)).length

/-- What hunks make of the lines from the number `line` on. Each hunk stands at its place behind
the one before it, and its kept and removed lines are those that stand there; else there is no
result. -/
def applyFrom (line : Int) (ls : List String) : List PatchHunk → Option (List String)
  | [] => some ls
  | h :: hs =>
    let before := ls.take (h.header.baseFirst - line).toNat
    let rest := ls.drop (h.header.baseFirst - line).toNat
    if h.header.baseFirst = line + before.length ∧ h.header.baseCount = h.baseLines.length ∧
        h.baseLines.isPrefixOf rest then
      (applyFrom h.header.baseNext (rest.drop h.baseLines.length) hs).map fun done ↦
        before ++ (h.headLines ++ done)
    else none

/-- The lines that a patch makes of the lines of the base revision. -/
def applyPatch (hs : List PatchHunk) (base : List String) : Option (List String) :=
  applyFrom 1 base hs

/-- The patch that undoes a patch. -/
def reversePatch (hs : List PatchHunk) : List PatchHunk := hs.map PatchHunk.reverse

/-- A patch from one list of lines to another with at most `context` kept lines at either end of
a hunk. -/
structure IsPatch (context : Nat) (base head : List String) (hs : List PatchHunk) : Prop where
  base_count : ∀ h ∈ hs, h.header.baseCount = h.baseLines.length
  head_count : ∀ h ∈ hs, h.header.headCount = h.headLines.length
  base_first : ∀ h ∈ hs, 1 ≤ h.header.baseFirst
  head_first : ∀ h ∈ hs, 1 ≤ h.header.headFirst
  base_lines : ∀ h ∈ hs, linesFrom base h.header.baseFirst h.header.baseNext = h.baseLines
  head_lines : ∀ h ∈ hs, linesFrom head h.header.headFirst h.header.headNext = h.headLines
  ascending : hs.Pairwise fun h k ↦
    h.header.baseStart < k.header.baseStart ∧ h.header.headStart < k.header.headStart
  apart : hs.Pairwise fun h k ↦
    h.header.baseNext < k.header.baseFirst ∧ h.header.headNext < k.header.headFirst
  leading : ∀ h ∈ hs, leadingKept h.body ≤ context
  trailing : ∀ h ∈ hs, leadingKept h.body.reverse ≤ context
  changes : ∀ h ∈ hs, ∃ l ∈ h.body, l.mark ≠ .keep
  applies : applyPatch hs base = some head
  reverts : applyPatch (reversePatch hs) head = some base

/-! ### Hunks that turn one revision into the other -/

/-- Hunks turn the lines from the number `i` on of the base revision into those from the number `j`
on of the head revision, with at least `least` kept lines before the first hunk and at least one
between two. -/
inductive Turns : Nat → Int → Int → List String → List String → List PatchHunk → Prop
  | nil {least : Nat} {i j : Int} {ls : List String} : Turns least i j ls ls []
  | cons {least : Nat} {i j : Int} {ls as bs : List String} {h : PatchHunk} {hs : List PatchHunk}
      (hleast : least ≤ ls.length) (hbase : h.header.baseFirst = i + ls.length)
      (hhead : h.header.headFirst = j + ls.length)
      (hbaseCount : h.header.baseCount = h.baseLines.length)
      (hheadCount : h.header.headCount = h.headLines.length)
      (hrest : Turns 1 h.header.baseNext h.header.headNext as bs hs) :
      Turns least i j (ls ++ (h.baseLines ++ as)) (ls ++ (h.headLines ++ bs)) (h :: hs)

namespace PatchHunk

@[simp] theorem baseLines_reverse (h : PatchHunk) : h.reverse.baseLines = h.headLines := by
  simp only [baseLines, headLines, reverse, List.filter_map, List.map_map, Function.comp_def]
  congr 2
  funext l
  cases l.mark <;> rfl

@[simp] theorem headLines_reverse (h : PatchHunk) : h.reverse.headLines = h.baseLines := by
  simp only [baseLines, headLines, reverse, List.filter_map, List.map_map, Function.comp_def]
  congr 2
  funext l
  cases l.mark <;> rfl

@[simp] theorem baseFirst_reverse (h : PatchHunk) :
    h.reverse.header.baseFirst = h.header.headFirst := rfl

end PatchHunk

private theorem linesFrom_append_append (before ls after : List String) :
    linesFrom (before ++ (ls ++ after)) (1 + before.length) (1 + before.length + ls.length) =
      ls := by
  rw [linesFrom, show (1 + (before.length : Int) - 1).toNat = before.length by omega,
    show (1 + (before.length : Int) + ls.length - (1 + before.length)).toNat = ls.length by omega,
    List.drop_left, List.take_left]

namespace Turns

variable {least : Nat} {i j : Int} {as bs : List String} {hs : List PatchHunk}

/-- Reversed hunks turn the lines back. -/
theorem reverse (h : Turns least i j as bs hs) : Turns least j i bs as (reversePatch hs) := by
  induction h with
  | nil => exact .nil
  | @cons least i j ls as bs h hs hleast hbase hhead hbaseCount hheadCount _ ih =>
    rw [← h.headLines_reverse, ← h.baseLines_reverse]
    refine .cons hleast hhead hbase ?_ ?_ ih
    · rw [h.baseLines_reverse]
      exact hheadCount
    · rw [h.headLines_reverse]
      exact hbaseCount

/-- Hunks that turn some lines into others give these when they are applied. -/
theorem applyFrom_eq (h : Turns least i j as bs hs) : applyFrom i as hs = some bs := by
  induction h with
  | nil => rfl
  | @cons least i j ls as bs h hs hleast hbase hhead hbaseCount hheadCount _ ih =>
    have hbefore : (h.header.baseFirst - i).toNat = ls.length := by omega
    rw [applyFrom, hbefore, List.take_left, List.drop_left, if_pos ⟨hbase, hbaseCount, by simp⟩,
      List.drop_left, ih]
    rfl

/-- The numbers of lines that a header gives are those of the lines that follow. -/
theorem counts (h : Turns least i j as bs hs) {k : PatchHunk} (hk : k ∈ hs) :
    k.header.baseCount = k.baseLines.length ∧ k.header.headCount = k.headLines.length := by
  induction h with
  | nil => exact absurd hk List.not_mem_nil
  | cons _ _ _ hbaseCount hheadCount _ ih =>
    rcases List.mem_cons.mp hk with rfl | hk
    · exact ⟨hbaseCount, hheadCount⟩
    · exact ih hk

/-- Every hunk begins behind the lines that are kept before the first. -/
theorem le_baseFirst (h : Turns least i j as bs hs) {k : PatchHunk} (hk : k ∈ hs) :
    i + least ≤ k.header.baseFirst := by
  induction h with
  | nil => exact absurd hk List.not_mem_nil
  | cons hleast hbase _ hbaseCount _ _ ih =>
    rcases List.mem_cons.mp hk with rfl | hk
    · omega
    · have := ih hk
      rw [Hunk.baseNext] at this
      omega

/-- A line stands between two hunks. -/
theorem apart (h : Turns least i j as bs hs) :
    hs.Pairwise fun h k ↦ h.header.baseNext < k.header.baseFirst := by
  induction h with
  | nil => exact .nil
  | cons _ _ _ _ _ hrest ih =>
    refine .cons (fun k hk ↦ ?_) ih
    have := hrest.le_baseFirst hk
    omega

/-- The lines that a hunk is for stand where its header says. -/
theorem linesFrom_eq (before : List String) (h : Turns least i j as bs hs)
    (hi : i = 1 + before.length) {k : PatchHunk} (hk : k ∈ hs) :
    linesFrom (before ++ as) k.header.baseFirst k.header.baseNext = k.baseLines := by
  induction h generalizing before with
  | nil => exact absurd hk List.not_mem_nil
  | @cons least i j ls as bs h hs hleast hbase hhead hbaseCount _ _ ih =>
    have hfirst : h.header.baseFirst = 1 + (before ++ ls).length := by
      rw [List.length_append]
      omega
    have hnext : h.header.baseNext = 1 + (before ++ ls).length + h.baseLines.length := by
      rw [Hunk.baseNext]
      omega
    rcases List.mem_cons.mp hk with rfl | hk
    · rw [hfirst, hnext, ← List.append_assoc]
      exact linesFrom_append_append (before ++ ls) _ as
    · have hall : before ++ (ls ++ (h.baseLines ++ as)) = before ++ ls ++ h.baseLines ++ as := by
        simp only [List.append_assoc]
      rw [hall]
      refine ih _ ?_ hk
      rw [hnext, List.length_append, List.length_append]
      omega

end Turns

private theorem start_lt {start count next nextCount : Int} (hcount : 0 ≤ count)
    (hlt : firstLine start count + count < firstLine next nextCount) : start < next := by
  unfold firstLine at hlt
  split at hlt <;> split at hlt <;> omega

/-- Hunks that turn all lines of one revision into those of the other are a patch. -/
theorem Turns.isPatch {least context : Nat} {base head : List String} {hs : List PatchHunk}
    (h : Turns least 1 1 base head hs) (hleading : ∀ h ∈ hs, leadingKept h.body ≤ context)
    (htrailing : ∀ h ∈ hs, leadingKept h.body.reverse ≤ context)
    (hchanges : ∀ h ∈ hs, ∃ l ∈ h.body, l.mark ≠ .keep) : IsPatch context base head hs := by
  have hback := h.reverse
  have hmem {k : PatchHunk} (hk : k ∈ hs) : k.reverse ∈ reversePatch hs :=
    List.mem_map_of_mem hk
  have happart : hs.Pairwise fun h k ↦
      h.header.baseNext < k.header.baseFirst ∧ h.header.headNext < k.header.headFirst :=
    h.apart.and (List.pairwise_map.mp hback.apart)
  refine ⟨fun k hk ↦ (h.counts hk).1, fun k hk ↦ (h.counts hk).2, ?_, ?_, ?_, ?_, ?_, happart,
    hleading, htrailing, hchanges, h.applyFrom_eq, hback.applyFrom_eq⟩
  · intro k hk
    have := h.le_baseFirst hk
    omega
  · intro k hk
    have := hback.le_baseFirst (hmem hk)
    rw [k.baseFirst_reverse] at this
    omega
  · intro k hk
    exact h.linesFrom_eq [] rfl hk
  · intro k hk
    rw [← k.baseLines_reverse]
    exact hback.linesFrom_eq [] rfl (hmem hk)
  · refine happart.imp_of_mem fun {l k} hl _ hlt ↦ ⟨start_lt ?_ hlt.1, start_lt ?_ hlt.2⟩
    · rw [(h.counts hl).1]
      exact Int.natCast_nonneg _
    · rw [(h.counts hl).2]
      exact Int.natCast_nonneg _

end RouteWatch.Diff
