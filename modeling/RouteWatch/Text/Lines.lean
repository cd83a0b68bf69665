/-!
# Lines of text

A line ends at `'\n'` and nowhere else, the way a version store numbers lines: a final line
end closes the last line and opens no further one. `pieces` cuts a list of characters at a
separator; `lines` drops the empty piece after a final line end, and `closedLines` gives the same
lines each with its line end. `universalNewlines` is the reading of a text file, in which `"\r\n"`
and `"\r"` end a line too.
-/

namespace RouteWatch.Text

/-- The pieces of a list between the separators, where `held` are the members of the first
piece that have been read, last first. -/
def piecesFrom (sep : Char) (held : List Char) : List Char → List (List Char)
  | [] => [held.reverse]
  | c :: cs =>
    if c = sep then held.reverse :: piecesFrom sep [] cs else piecesFrom sep (c :: held) cs

/-- The pieces of a list between the separators; there is at least one. -/
def pieces (sep : Char) (cs : List Char) : List (List Char) := piecesFrom sep [] cs

/-- The pieces of a text between the line ends; there is at least one. -/
def split (text : String) : List String :=
  (pieces '\n' text.toList).map String.ofList

/-- A list of pieces without an empty last one. -/
def dropFinalEmpty (ps : List String) : List String :=
  if ps.getLast? = some "" then ps.dropLast else ps

/-- The lines of a text, without their line ends. -/
def lines (text : String) : List String := dropFinalEmpty (split text)

/-- Pieces of which each but the last is followed by a line end. -/
def endAllButLast : List String → List String
  | [] => []
  | [p] => [p]
  | p :: ps => (p ++ "\n") :: endAllButLast ps

/-- The lines of a text, with their line ends; only the last may have none. -/
def linesWithEnds (text : String) : List String := dropFinalEmpty (endAllButLast (split text))

/-- Lines of which the last has its line end too. -/
def closeLast : List String → List String
  | [] => []
  | [l] => [if ['\n'].isSuffixOf l.toList then l else l ++ "\n"]
  | l :: ls => l :: closeLast ls

/-- The lines of a text, each with a line end. -/
def closedLines (text : String) : List String := closeLast (linesWithEnds text)

/-- Lines put together with a line end between each two. -/
def unlines (ls : List String) : String := "\n".intercalate ls

/-- A text in which `"\r\n"` and a lone `"\r"` have become `"\n"`; `held` are the characters
that have been read, last first. -/
def universalFrom (held : List Char) : List Char → List Char
  | [] => held.reverse
  | '\r' :: '\n' :: cs => universalFrom ('\n' :: held) cs
  | c :: cs => universalFrom ((if c = '\r' then '\n' else c) :: held) cs

/-- A text in which `"\r\n"` and a lone `"\r"` have become `"\n"`. -/
def universalNewlines (text : String) : String :=
  String.ofList (universalFrom [] text.toList)

/-- Cutting gives at least one piece. -/
theorem piecesFrom_ne_nil (sep : Char) (held cs : List Char) : piecesFrom sep held cs ≠ [] := by
  induction cs generalizing held with
  | nil => simp [piecesFrom]
  | cons c cs ih =>
    simp only [piecesFrom]
    split
    · simp
    · exact ih _

/-- No piece holds the separator. -/
theorem sep_notMem_of_mem_piecesFrom {sep : Char} {held cs p : List Char}
    (hheld : sep ∉ held) (hp : p ∈ piecesFrom sep held cs) : sep ∉ p := by
  induction cs generalizing held with
  | nil =>
    simp only [piecesFrom, List.mem_singleton] at hp
    simpa [hp] using hheld
  | cons c cs ih =>
    simp only [piecesFrom] at hp
    split at hp
    · rcases List.mem_cons.1 hp with rfl | hp
      · simpa using hheld
      · exact ih (by simp) hp
    · next h =>
      refine ih ?_ hp
      simp only [List.mem_cons, not_or]
      exact ⟨fun he ↦ h he.symm, hheld⟩

/-- No piece of a list holds the separator. -/
theorem sep_notMem_of_mem_pieces {sep : Char} {cs p : List Char} (hp : p ∈ pieces sep cs) :
    sep ∉ p :=
  sep_notMem_of_mem_piecesFrom (by simp) hp

end RouteWatch.Text
