import RouteWatch.Text.Lines

/-!
# Lines and their line ends

The two ways of cutting a text into lines agree: the lines with their line ends are the lines
without them, each with a line end added, also where the text has none after its last line. And
lines that are closed and put together are cut apart as they were. `linesFrom` and `IsLine` speak
of lines by their numbers.
-/

namespace RouteWatch.Text

private theorem piecesFrom_append {sep : Char} {p : List Char} (held cs : List Char)
    (h : sep ∉ p) :
    piecesFrom sep held (p ++ sep :: cs) = (held.reverse ++ p) :: pieces sep cs := by
  induction p generalizing held with
  | nil => simp [piecesFrom, pieces]
  | cons c p ih =>
    rw [List.mem_cons, not_or] at h
    rw [List.cons_append, piecesFrom, if_neg (Ne.symm h.1), ih (c :: held) h.2]
    simp

private theorem piecesFrom_of_notMem {sep : Char} {cs : List Char} (held : List Char)
    (h : sep ∉ cs) : piecesFrom sep held cs = [held.reverse ++ cs] := by
  induction cs generalizing held with
  | nil => simp [piecesFrom]
  | cons c cs ih =>
    rw [List.mem_cons, not_or] at h
    rw [piecesFrom, if_neg (Ne.symm h.1), ih (c :: held) h.2]
    simp

/-- A text without a line end is one piece. -/
theorem split_of_notMem {text : String} (h : '\n' ∉ text.toList) : split text = [text] := by
  rw [split, pieces, piecesFrom_of_notMem [] h]
  simp

/-- A piece ends at the first separator. -/
theorem pieces_append {sep : Char} {p : List Char} (cs : List Char) (h : sep ∉ p) :
    pieces sep (p ++ sep :: cs) = p :: pieces sep cs :=
  piecesFrom_append [] cs h

private theorem length_piecesFrom (sep : Char) (held cs : List Char) :
    (piecesFrom sep held cs).length = cs.count sep + 1 := by
  induction cs generalizing held with
  | nil => rfl
  | cons c cs ih =>
    rw [piecesFrom, List.count_cons]
    by_cases hc : c = sep
    · rw [if_pos hc, if_pos (beq_iff_eq.mpr hc), List.length_cons, ih]
    · rw [if_neg hc, if_neg (by simpa using hc), ih, Nat.add_zero]

/-- There is one piece more than there are separators. -/
theorem length_pieces (sep : Char) (cs : List Char) :
    (pieces sep cs).length = cs.count sep + 1 :=
  length_piecesFrom sep [] cs

private theorem prefix_dropLast_piecesFrom (sep : Char) (held cs more : List Char) :
    (piecesFrom sep held cs).dropLast <+: piecesFrom sep held (cs ++ more) := by
  induction cs generalizing held with
  | nil => exact List.nil_prefix
  | cons c cs ih =>
    rw [List.cons_append, piecesFrom, piecesFrom]
    split
    · rw [List.dropLast_cons_of_ne_nil (piecesFrom_ne_nil _ _ _)]
      exact List.cons_prefix_cons.mpr ⟨rfl, ih []⟩
    · exact ih (c :: held)

/-- All pieces but the last are complete, whatever comes behind them. -/
theorem prefix_dropLast_pieces (sep : Char) (cs more : List Char) :
    (pieces sep cs).dropLast <+: pieces sep (cs ++ more) :=
  prefix_dropLast_piecesFrom sep [] cs more

/-- No line holds a line end. -/
theorem lineEnd_notMem_of_mem_split {text p : String} (h : p ∈ split text) :
    '\n' ∉ p.toList := by
  obtain ⟨cs, hcs, rfl⟩ := List.mem_map.mp h
  rw [String.toList_ofList]
  exact sep_notMem_of_mem_pieces hcs

private theorem mem_of_mem_dropFinalEmpty {p : String} {ps : List String}
    (h : p ∈ dropFinalEmpty ps) : p ∈ ps := by
  unfold dropFinalEmpty at h
  split at h
  · exact (List.dropLast_subset _) h
  · exact h

/-- No line holds a line end. -/
theorem lineEnd_notMem_of_mem_lines {text p : String} (h : p ∈ lines text) : '\n' ∉ p.toList :=
  lineEnd_notMem_of_mem_split (mem_of_mem_dropFinalEmpty h)

/-- Closed lines that are put together are cut apart as they were. -/
theorem split_join_closed {ls : List String} (h : ∀ l ∈ ls, '\n' ∉ l.toList) :
    split (String.join (ls.map (· ++ "\n"))) = ls ++ [""] := by
  unfold split
  induction ls with
  | nil => rfl
  | cons l ls ih =>
    have hl := h l (List.mem_cons_self ..)
    have htext : (String.join ((l :: ls).map (· ++ "\n"))).toList =
        l.toList ++ '\n' :: (String.join (ls.map (· ++ "\n"))).toList := by
      rw [List.map_cons, String.join_cons, String.toList_append, String.toList_append,
        List.append_assoc]
      rfl
    rw [htext, pieces_append _ hl, List.map_cons, String.ofList_toList,
      ih fun l hm ↦ h l (List.mem_cons_of_mem _ hm)]
    rfl

private theorem dropFinalEmpty_cons (p q : String) (ps : List String) :
    dropFinalEmpty (p :: q :: ps) = p :: dropFinalEmpty (q :: ps) := by
  unfold dropFinalEmpty
  rw [List.getLast?_cons_cons]
  split
  · rfl
  · rfl

private theorem closeLast_cons_closed (p : String) (ls : List String) :
    closeLast ((p ++ "\n") :: ls) = (p ++ "\n") :: closeLast ls := by
  cases ls with
  | nil =>
    have hend : (['\n'].isSuffixOf (p ++ "\n").toList) = true := by
      rw [List.isSuffixOf_iff_suffix, String.toList_append]
      exact ⟨p.toList, rfl⟩
    simp only [closeLast, if_pos hend]
  | cons l ls => rfl

private theorem closeLast_endAllButLast {ps : List String} (h : ∀ p ∈ ps, '\n' ∉ p.toList) :
    closeLast (dropFinalEmpty (endAllButLast ps)) = (dropFinalEmpty ps).map (· ++ "\n") := by
  induction ps with
  | nil => rfl
  | cons p ps ih =>
    cases ps with
    | nil =>
      simp only [endAllButLast, dropFinalEmpty, List.getLast?_singleton, Option.some.injEq]
      split
      · rfl
      · have hopen : ¬(['\n'].isSuffixOf p.toList) = true := by
          rw [List.isSuffixOf_iff_suffix]
          intro hs
          exact h p (List.mem_cons_self ..) (hs.subset (List.mem_cons_self ..))
        simp only [closeLast, if_neg hopen, List.map_cons, List.map_nil]
    | cons q ps =>
      have ih := ih fun p hm ↦ h p (List.mem_cons_of_mem _ hm)
      have hne : ∃ l ls, endAllButLast (q :: ps) = l :: ls := by
        cases ps with
        | nil => exact ⟨q, [], rfl⟩
        | cons r ps => exact ⟨_, _, rfl⟩
      obtain ⟨l, ls, hl⟩ := hne
      rw [dropFinalEmpty_cons, List.map_cons, ← ih, endAllButLast, hl, dropFinalEmpty_cons,
        closeLast_cons_closed]
      exact fun hq ↦ nomatch hq

/-- The lines with their line ends are the lines, each with a line end. -/
theorem closedLines_eq (text : String) : closedLines text = (lines text).map (· ++ "\n") :=
  closeLast_endAllButLast fun _ hp ↦ lineEnd_notMem_of_mem_split hp

/-- Both ways of cutting a text give the same number of lines. -/
theorem length_closedLines (text : String) : (closedLines text).length = (lines text).length := by
  rw [closedLines_eq, List.length_map]

/-- Lines are equal where they are equal with their line ends. -/
theorem lines_getElem?_eq {s t : String} {i j : Nat}
    (h : (closedLines s)[i]? = (closedLines t)[j]?) : (lines s)[i]? = (lines t)[j]? := by
  rw [closedLines_eq, closedLines_eq, List.getElem?_map, List.getElem?_map] at h
  exact Option.map_injective (fun l m hlm ↦ (String.append_left_inj _).mp hlm) h

/-! ### Lines by their numbers -/

/-- The lines of a text from the number `first` on that come before the number `next`. -/
def linesFrom (ls : List String) (first next : Int) : List String :=
  (ls.drop (first - 1).toNat).take (next - first).toNat

/-- The line of a number, which counts from one. -/
def IsLine (ls : List String) (n : Int) (l : String) : Prop :=
  ∃ k : Nat, n = k + 1 ∧ ls[k]? = some l

/-- A number has at most one line. -/
theorem IsLine.unique {ls : List String} {n : Int} {l m : String} (hl : IsLine ls n l)
    (hm : IsLine ls n m) : l = m := by
  obtain ⟨i, hi, hl⟩ := hl
  obtain ⟨j, hj, hm⟩ := hm
  rw [show i = j by omega, hm] at hl
  exact (Option.some.inj hl).symm

/-- Lines have the numbers from one up to their count. -/
theorem IsLine.le {ls : List String} {n : Int} {l : String} (h : IsLine ls n l) :
    1 ≤ n ∧ n ≤ ls.length := by
  obtain ⟨k, hk, hl⟩ := h
  have := (List.getElem?_eq_some_iff.mp hl).1
  omega

/-- The first of lines that are put together have the numbers that they have alone. -/
theorem isLine_append_iff {xs ys : List String} {n : Int} {l : String} (hn : n ≤ xs.length) :
    IsLine (xs ++ ys) n l ↔ IsLine xs n l := by
  apply exists_congr
  intro k
  apply and_congr_right
  rintro rfl
  rw [List.getElem?_append_left (by omega)]

/-- The first of the lines that remain after `k` lines has the number `k + 1`. -/
theorem isLine_of_drop {ls rest : List String} {l : String} {k : Nat}
    (h : ls.drop k = l :: rest) : IsLine ls (k + 1) l := by
  refine ⟨k, rfl, ?_⟩
  rw [← List.head?_drop, h]
  rfl

/-- A stretch of lines goes on with the first of the lines that remain after it. -/
theorem linesFrom_add_one {ls rest : List String} {l : String} {a k : Nat} (hak : a ≤ k)
    (h : ls.drop k = l :: rest) :
    linesFrom ls (a + 1) (k + 1 + 1) = linesFrom ls (a + 1) (k + 1) ++ [l] := by
  unfold linesFrom
  rw [show ((a : Int) + 1 - 1).toNat = a by omega,
    show ((k : Int) + 1 + 1 - (a + 1)).toNat = k - a + 1 by omega,
    show ((k : Int) + 1 - (a + 1)).toNat = k - a by omega, List.take_add_one, List.getElem?_drop,
    show a + (k - a) = k by omega, ← List.head?_drop, h]
  rfl

/-- A stretch that ends where it begins has no line. -/
theorem linesFrom_self (ls : List String) (n : Int) : linesFrom ls n n = [] := by
  rw [linesFrom, Int.sub_self, Int.toNat_zero, List.take_zero]

end RouteWatch.Text
