import RouteWatch.Route.Scan
import RouteWatch.Proofs.Text.Lines

/-!
# The blocks of a scan

What a scan finds is described without its order of steps: where the router is declared, which
lines open a block, and where a block that opens at a line ends. There is exactly one list of
blocks that fits the description, and the scan gives it.
-/

namespace RouteWatch

open RouteWatch.Pattern (GroupFault)
open RouteWatch.Text (IsLine isLine_append_iff isLine_of_drop isSpace linesFrom linesFrom_add_one
  linesFrom_self unlines)

/-! ### The description -/

/-- A line opens a block: after blanks it goes on with the identifier and a point. -/
def Opens (identifier line : String) : Prop :=
  ∃ blanks rest : List Char, (∀ c ∈ blanks, isSpace c = true) ∧
    line.toList = blanks ++ (identifier.toList ++ '.' :: rest)

namespace Scanner

/-- The first line that declares an identifier has the number `d`. -/
def DeclaresFirst (s : Scanner) (ls : List String) (d : Int) (identifier : String) : Prop :=
  (∃ l, IsLine ls d l ∧ s.declares l = .ok (some identifier)) ∧
    ∀ n l, n < d → IsLine ls n l → s.declares l = .ok none

/-- The identifier that a scan goes by and the number of the line after which it does: one that
is given goes from the start, else the first line that declares one. -/
def Binds (s : Scanner) (given : Option String) (ls : List String) (d : Int)
    (identifier : String) : Prop :=
  match given.filter (· ≠ "") with
  | some name => d = 0 ∧ identifier = name
  | none => s.DeclaresFirst ls d identifier

/-- The first line after the number `n` that closes a block has the number `m`. -/
def ClosesFirst (s : Scanner) (ls : List String) (n m : Int) : Prop :=
  n < m ∧ (∃ l, IsLine ls m l ∧ s.closes l = true) ∧
    ∀ k l, n < k → k < m → IsLine ls k l → s.closes l = false

/-- A block ends where it has to: at its first line where that closes it, else at the first later
line that closes a block, else with the file. -/
def EndsRight (s : Scanner) (ls : List String) (b : Block) : Prop :=
  ∃ l, IsLine ls b.startLine l ∧
    match b.closing with
    | .singleLine => s.closesSingle l = true ∧ b.endLine = b.startLine
    | .multiLine => s.closesSingle l = false ∧ s.ClosesFirst ls b.startLine b.endLine
    | .incomplete => s.closesSingle l = false ∧ b.endLine = ls.length ∧
        ∀ n l, b.startLine < n → IsLine ls n l → s.closes l = false

/-- The blocks of the lines after the number `d`, given the identifier. -/
structure IsScan (s : Scanner) (identifier : String) (d : Int) (ls : List String)
    (bs : List Block) : Prop where
  within : ∀ b ∈ bs, d < b.startLine ∧ b.startLine ≤ b.endLine ∧ b.endLine ≤ ls.length
  ascending : bs.Pairwise fun b c ↦ b.endLine < c.startLine
  opens : ∀ b ∈ bs, ∃ l, IsLine ls b.startLine l ∧ Opens identifier l
  covered : ∀ n l, d < n → IsLine ls n l → Opens identifier l →
    ∃ b ∈ bs, b.contains n = true ∧ ∀ c ∈ bs, c.contains n = true → c = b
  ends : ∀ b ∈ bs, s.EndsRight ls b
  last : ∀ b ∈ bs, b.closing = .incomplete → bs.getLast? = some b
  body : ∀ b ∈ bs, b.body = unlines (linesFrom ls b.startLine (b.endLine + 1))

end Scanner

/-- A line opens a block where the scan says so. -/
theorem startsBlock_iff {identifier line : String} :
    startsBlock identifier.toList line.toList = true ↔ Opens identifier line := by
  unfold Opens
  induction line.toList with
  | nil => simp [startsBlock]
  | cons c cs ih =>
    rw [startsBlock, Bool.or_eq_true, Bool.and_eq_true, List.isPrefixOf_iff_prefix, ih]
    constructor
    · rintro (⟨rest, hrest⟩ | ⟨hc, blanks, rest, hblanks, rfl⟩)
      · exact ⟨[], rest, fun _ h ↦ absurd h List.not_mem_nil, by simpa using hrest.symm⟩
      · refine ⟨c :: blanks, rest, ?_, rfl⟩
        intro d hd
        rcases List.mem_cons.mp hd with rfl | hd
        · exact hc
        · exact hblanks d hd
    · rintro ⟨blanks, rest, hblanks, heq⟩
      cases blanks with
      | nil => exact .inl ⟨rest, by simpa using heq.symm⟩
      | cons d blanks =>
        obtain ⟨rfl, rfl⟩ := List.cons.inj heq
        exact .inr ⟨hblanks c (List.mem_cons_self ..), blanks, rest,
          fun e he ↦ hblanks e (List.mem_cons_of_mem _ he), rfl⟩

namespace Scanner

variable {s : Scanner} {identifier : String} {ls : List String}

/-! ### Putting a list of blocks together -/

/-- After the last line there is no block. -/
theorem isScan_nil {d : Int} (h : ls.length ≤ d) : s.IsScan identifier d ls [] where
  within := fun _ hb ↦ absurd hb List.not_mem_nil
  ascending := List.Pairwise.nil
  opens := fun _ hb ↦ absurd hb List.not_mem_nil
  covered := fun n l hn hl _ ↦ by
    have := hl.le
    omega
  ends := fun _ hb ↦ absurd hb List.not_mem_nil
  last := fun _ hb ↦ absurd hb List.not_mem_nil
  body := fun _ hb ↦ absurd hb List.not_mem_nil

/-- A line that opens no block changes nothing. -/
theorem IsScan.skip {d : Int} {bs : List Block} (h : s.IsScan identifier (d + 1) ls bs)
    (hline : ∀ l, IsLine ls (d + 1) l → ¬Opens identifier l) :
    s.IsScan identifier d ls bs where
  within := fun b hb ↦ by
    have := h.within b hb
    omega
  ascending := h.ascending
  opens := h.opens
  covered := fun n l hn hl hopens ↦ by
    have hne : n ≠ d + 1 := by
      rintro rfl
      exact hline l hl hopens
    exact h.covered n l (by omega) hl hopens
  ends := h.ends
  last := h.last
  body := h.body

/-- A block before the blocks after it, with no line that opens a block before it. -/
theorem IsScan.cons {d : Int} {b : Block} {bs : List Block}
    (h : s.IsScan identifier b.endLine ls bs)
    (hwithin : d < b.startLine ∧ b.startLine ≤ b.endLine ∧ b.endLine ≤ ls.length)
    (hfirst : ∀ n l, d < n → n < b.startLine → IsLine ls n l → ¬Opens identifier l)
    (hopens : ∃ l, IsLine ls b.startLine l ∧ Opens identifier l) (hends : s.EndsRight ls b)
    (hbody : b.body = unlines (linesFrom ls b.startLine (b.endLine + 1))) :
    s.IsScan identifier d ls (b :: bs) where
  within := fun c hc ↦ by
    rcases List.mem_cons.mp hc with rfl | hc
    · exact hwithin
    · have := h.within c hc
      omega
  ascending := List.pairwise_cons.mpr ⟨fun c hc ↦ (h.within c hc).1, h.ascending⟩
  opens := List.forall_mem_cons.mpr ⟨hopens, h.opens⟩
  covered := fun n l hn hl hopens ↦ by
    have hstart : b.startLine ≤ n := by
      rcases Int.lt_or_le n b.startLine with hlt | hle
      · exact absurd hopens (hfirst n l hn hlt hl)
      · exact hle
    by_cases hend : n ≤ b.endLine
    · refine ⟨b, List.mem_cons_self .., Block.contains_iff.mpr ⟨hstart, hend⟩, ?_⟩
      intro c hc hin
      rcases List.mem_cons.mp hc with rfl | hc
      · rfl
      · have := h.within c hc
        have := Block.contains_iff.mp hin
        omega
    · obtain ⟨c, hc, hin, honly⟩ := h.covered n l (by omega) hl hopens
      refine ⟨c, List.mem_cons_of_mem _ hc, hin, ?_⟩
      intro e he hine
      rcases List.mem_cons.mp he with rfl | he
      · have := Block.contains_iff.mp hine
        omega
      · exact honly e he hine
  ends := List.forall_mem_cons.mpr ⟨hends, h.ends⟩
  last := fun c hc hopen ↦ by
    rcases List.mem_cons.mp hc with rfl | hc
    · -- A block that goes on to the last line leaves no line for another.
      obtain ⟨l, -, hl⟩ := hends
      rw [hopen] at hl
      cases bs with
      | nil => rfl
      | cons e es =>
        have := h.within e (List.mem_cons_self ..)
        omega
    · rw [List.getLast?_cons, h.last c hc hopen]
      rfl
  body := List.forall_mem_cons.mpr ⟨hbody, h.body⟩

/-! ### Taking a list of blocks apart -/

/-- The blocks after the first one are those of the lines after it. -/
theorem IsScan.tail {d : Int} {b : Block} {bs : List Block}
    (h : s.IsScan identifier d ls (b :: bs)) : s.IsScan identifier b.endLine ls bs where
  within := fun c hc ↦
    ⟨(List.pairwise_cons.mp h.ascending).1 c hc, (h.within c (List.mem_cons_of_mem _ hc)).2⟩
  ascending := (List.pairwise_cons.mp h.ascending).2
  opens := (List.forall_mem_cons.mp h.opens).2
  covered := fun n l hn hl hopens ↦ by
    have hb := h.within b (List.mem_cons_self ..)
    obtain ⟨c, hc, hin, honly⟩ := h.covered n l (by omega) hl hopens
    rcases List.mem_cons.mp hc with rfl | hc
    · have := Block.contains_iff.mp hin
      omega
    · exact ⟨c, hc, hin, fun e he ↦ honly e (List.mem_cons_of_mem _ he)⟩
  ends := (List.forall_mem_cons.mp h.ends).2
  last := fun c hc hopen ↦ by
    have hlast := h.last c (List.mem_cons_of_mem _ hc) hopen
    cases bs with
    | nil => exact absurd hc List.not_mem_nil
    | cons e es => rwa [List.getLast?_cons_cons] at hlast
  body := (List.forall_mem_cons.mp h.body).2

/-- No line before the first block opens a block. -/
theorem IsScan.startLine_le {d n : Int} {b : Block} {bs : List Block} {l : String}
    (h : s.IsScan identifier d ls (b :: bs)) (hn : d < n) (hl : IsLine ls n l)
    (hopens : Opens identifier l) : b.startLine ≤ n := by
  obtain ⟨c, hc, hin, -⟩ := h.covered n l hn hl hopens
  rw [Block.contains_iff] at hin
  rcases List.mem_cons.mp hc with rfl | hc
  · exact hin.1
  · have := (List.pairwise_cons.mp h.ascending).1 c hc
    have := h.within b (List.mem_cons_self ..)
    omega

/-- Only one line is the first to close a block. -/
theorem ClosesFirst.unique {n m k : Int} (hm : s.ClosesFirst ls n m)
    (hk : s.ClosesFirst ls n k) : m = k := by
  obtain ⟨hnm, ⟨l, hl, hcl⟩, hbefore⟩ := hm
  obtain ⟨hnk, ⟨e, he, hce⟩, hbefore'⟩ := hk
  rcases Int.lt_trichotomy m k with hlt | heq | hgt
  · exact absurd (hbefore' m l hnm hlt hl) (by simp [hcl])
  · exact heq
  · exact absurd (hbefore k e hnk hgt he) (by simp [hce])

/-- The first line of a block says where and how the block ends. -/
theorem EndsRight.unique {b c : Block} (hb : s.EndsRight ls b) (hc : s.EndsRight ls c)
    (hstart : b.startLine = c.startLine) : b.endLine = c.endLine ∧ b.closing = c.closing := by
  obtain ⟨l, hl, hb⟩ := hb
  obtain ⟨m, hm, hc⟩ := hc
  rw [hstart] at hl hb
  obtain rfl := hl.unique hm
  cases hbc : b.closing <;> cases hcc : c.closing <;> rw [hbc] at hb <;> rw [hcc] at hc
  case singleLine.singleLine => exact ⟨by rw [hb.2, hc.2], rfl⟩
  case multiLine.multiLine => exact ⟨hb.2.unique hc.2, rfl⟩
  case incomplete.incomplete => exact ⟨by rw [hb.2.1, hc.2.1], rfl⟩
  case multiLine.incomplete =>
    obtain ⟨e, he, hcl⟩ := hb.2.2.1
    exact absurd (hc.2.2 _ e hb.2.1 he) (by simp [hcl])
  case incomplete.multiLine =>
    obtain ⟨e, he, hcl⟩ := hc.2.2.1
    exact absurd (hb.2.2 _ e hc.2.1 he) (by simp [hcl])
  all_goals exact absurd hb.1 (by simp [hc.1])

/-- The description leaves no choice. -/
theorem IsScan.unique {d : Int} {bs cs : List Block} (hb : s.IsScan identifier d ls bs)
    (hc : s.IsScan identifier d ls cs) : bs = cs := by
  induction bs generalizing d cs with
  | nil =>
    cases cs with
    | nil => rfl
    | cons c cs =>
      obtain ⟨l, hl, hopens⟩ := hc.opens c (List.mem_cons_self ..)
      have hd := (hc.within c (List.mem_cons_self ..)).1
      obtain ⟨b, hb, -⟩ := hb.covered _ l hd hl hopens
      exact absurd hb List.not_mem_nil
  | cons b bs ih =>
    cases cs with
    | nil =>
      obtain ⟨l, hl, hopens⟩ := hb.opens b (List.mem_cons_self ..)
      have hd := (hb.within b (List.mem_cons_self ..)).1
      obtain ⟨c, hc, -⟩ := hc.covered _ l hd hl hopens
      exact absurd hc List.not_mem_nil
    | cons c cs =>
      have hstart : b.startLine = c.startLine := by
        obtain ⟨l, hl, hopensb⟩ := hb.opens b (List.mem_cons_self ..)
        obtain ⟨m, hm, hopensc⟩ := hc.opens c (List.mem_cons_self ..)
        apply Int.le_antisymm
        · exact hb.startLine_le (hc.within c (List.mem_cons_self ..)).1 hm hopensc
        · exact hc.startLine_le (hb.within b (List.mem_cons_self ..)).1 hl hopensb
      obtain ⟨hend, hclosing⟩ :=
        (hb.ends b (List.mem_cons_self ..)).unique (hc.ends c (List.mem_cons_self ..)) hstart
      have hbody : b.body = c.body := by
        rw [hb.body b (List.mem_cons_self ..), hc.body c (List.mem_cons_self ..), hstart, hend]
      obtain rfl : b = c := by
        cases b
        cases c
        simp_all
      rw [ih hb.tail hc.tail]

/-! ### The scan -/

/-- What a scan knows within a block that began after `a` lines, when it has read `k` lines: the
lines `held` of the block so far, none of which ends it. -/
structure IsOpen (s : Scanner) (identifier : String) (ls : List String) (a k : Nat)
    (held : List String) : Prop where
  began : a < k
  read : k ≤ ls.length
  held_eq : held.reverse = linesFrom ls (a + 1) (k + 1)
  first : ∃ l, IsLine ls (a + 1) l ∧ Opens identifier l ∧ s.closesSingle l = false
  unclosed : ∀ n l, (a : Int) + 1 < n → n ≤ k → IsLine ls n l → s.closes l = false

private theorem length_of_drop {rest : List String} {l : String} {k : Nat}
    (h : ls.drop k = l :: rest) : k < ls.length := by
  have := congrArg List.length h
  rw [List.length_drop, List.length_cons] at this
  omega

/-- A block of one line, and the blocks of the lines after it. -/
theorem isScan_single {rest : List String} {l : String} {k : Nat} {bs : List Block}
    (h : ls.drop k = l :: rest) (hopens : Opens identifier l) (hsingle : s.closesSingle l = true)
    (hbs : s.IsScan identifier (k + 1) ls bs) :
    s.IsScan identifier k ls (⟨k + 1, k + 1, l, .singleLine⟩ :: bs) := by
  have hline := isLine_of_drop h
  have hlength := length_of_drop h
  apply IsScan.cons hbs
  · show (k : Int) < k + 1 ∧ (k : Int) + 1 ≤ k + 1 ∧ (k : Int) + 1 ≤ ls.length
    omega
  · intro n m hn hlt _
    replace hlt : n < (k : Int) + 1 := hlt
    omega
  · exact ⟨l, hline, hopens⟩
  · exact ⟨l, hline, hsingle, rfl⟩
  · show l = unlines (linesFrom ls (k + 1) (k + 1 + 1))
    rw [linesFrom_add_one (Nat.le_refl k) h, linesFrom_self]
    rfl

/-- A line that opens a block and does not end it begins an open block. -/
theorem isOpen_first {rest : List String} {l : String} {k : Nat} (h : ls.drop k = l :: rest)
    (hopens : Opens identifier l) (hsingle : s.closesSingle l = false) :
    s.IsOpen identifier ls k (k + 1) [l] where
  began := Nat.lt_succ_self k
  read := length_of_drop h
  held_eq := by
    rw [Int.natCast_add, Int.natCast_one, linesFrom_add_one (Nat.le_refl k) h, linesFrom_self]
    rfl
  first := ⟨l, isLine_of_drop h, hopens, hsingle⟩
  unclosed := fun n l hn hk _ ↦ by omega

/-- A block stays open at a line that does not close it. -/
theorem IsOpen.step {rest held : List String} {l : String} {a k : Nat}
    (ho : s.IsOpen identifier ls a k held) (h : ls.drop k = l :: rest)
    (hcloses : s.closes l = false) : s.IsOpen identifier ls a (k + 1) (l :: held) where
  began := Nat.lt_succ_of_lt ho.began
  read := length_of_drop h
  held_eq := by
    rw [Int.natCast_add, Int.natCast_one, linesFrom_add_one (Nat.le_of_lt ho.began) h,
      List.reverse_cons, ho.held_eq]
  first := ho.first
  unclosed := fun n m hn hk hm ↦ by
    by_cases hlast : n = k + 1
    · rw [hlast] at hm
      rw [hm.unique (isLine_of_drop h), hcloses]
    · exact ho.unclosed n m hn (by omega) hm

/-- The blocks of an open block that a line closes, and of the lines after it. -/
theorem IsOpen.closed {rest held : List String} {l : String} {a k : Nat} {bs : List Block}
    (ho : s.IsOpen identifier ls a k held) (h : ls.drop k = l :: rest)
    (hcloses : s.closes l = true) (hbs : s.IsScan identifier (k + 1) ls bs) :
    s.IsScan identifier a ls
      (⟨a + 1, k + 1, unlines (l :: held).reverse, .multiLine⟩ :: bs) := by
  obtain ⟨first, hfirst, hopens, hsingle⟩ := ho.first
  have hbegan := ho.began
  have hlength := length_of_drop h
  apply IsScan.cons hbs
  · show (a : Int) < a + 1 ∧ (a : Int) + 1 ≤ k + 1 ∧ (k : Int) + 1 ≤ ls.length
    omega
  · intro n l hn hlt _
    replace hlt : n < (a : Int) + 1 := hlt
    omega
  · exact ⟨first, hfirst, hopens⟩
  · refine ⟨first, hfirst, hsingle, ?_, ⟨l, isLine_of_drop h, hcloses⟩, ?_⟩
    · show (a : Int) + 1 < k + 1
      omega
    · intro n m hn hlt hm
      replace hlt : n < (k : Int) + 1 := hlt
      exact ho.unclosed n m hn (by omega) hm
  · show unlines _ = unlines (linesFrom ls (a + 1) (k + 1 + 1))
    rw [linesFrom_add_one (Nat.le_of_lt hbegan) h, List.reverse_cons, ho.held_eq]

/-- A block that is open after the last line is incomplete, and the last block. -/
theorem IsOpen.incomplete {held : List String} {a k : Nat}
    (ho : s.IsOpen identifier ls a k held) (h : ls.drop k = []) :
    s.IsScan identifier a ls [⟨a + 1, k, unlines held.reverse, .incomplete⟩] := by
  obtain ⟨first, hfirst, hopens, hsingle⟩ := ho.first
  have hbegan := ho.began
  have hread : k = ls.length := Nat.le_antisymm ho.read (List.drop_eq_nil_iff.mp h)
  apply IsScan.cons
  · apply isScan_nil
    show (ls.length : Int) ≤ k
    omega
  · show (a : Int) < a + 1 ∧ (a : Int) + 1 ≤ k ∧ (k : Int) ≤ ls.length
    omega
  · intro n l hn hlt _
    replace hlt : n < (a : Int) + 1 := hlt
    omega
  · exact ⟨first, hfirst, hopens⟩
  · refine ⟨first, hfirst, hsingle, congrArg Nat.cast hread, ?_⟩
    intro n m hn hm
    exact ho.unclosed n m hn (by have := hm.le; omega) hm
  · show unlines held.reverse = unlines (linesFrom ls (a + 1) (k + 1))
    rw [ho.held_eq]

/-- The scan of the lines that remain after `k` lines gives their blocks, outside of a block and
within one. -/
private theorem isScan_rest (rest : List String) (k : Nat) (h : ls.drop k = rest) :
    s.IsScan identifier k ls (s.blocksFrom identifier.toList (k + 1) rest) ∧
      ∀ a held, s.IsOpen identifier ls a k held →
        s.IsScan identifier a ls
          (s.openFrom identifier.toList (a + 1) held (k + 1) rest) := by
  induction rest generalizing k with
  | nil =>
    constructor
    · apply isScan_nil
      have := List.drop_eq_nil_iff.mp h
      omega
    · intro a held ho
      have := ho.incomplete h
      rw [openFrom]
      simpa using this
  | cons l rest ih =>
    have hnext : ls.drop (k + 1) = rest := by
      rw [← List.tail_drop, h, List.tail_cons]
    obtain ⟨ihout, ihin⟩ := ih (k + 1) hnext
    rw [Int.natCast_add] at ihout
    constructor
    · rw [blocksFrom]
      by_cases hopens : Opens identifier l
      · rw [if_neg (by simp [startsBlock_iff.mpr hopens])]
        cases hsingle : s.closesSingle l with
        | false => exact ihin k [l] (isOpen_first h hopens hsingle)
        | true => exact isScan_single h hopens hsingle ihout
      · rw [if_pos (by simpa [← startsBlock_iff] using hopens)]
        apply ihout.skip
        intro m hm
        rwa [hm.unique (isLine_of_drop h)]
    · intro a held ho
      rw [openFrom]
      cases hcloses : s.closes l with
      | false => exact ihin a (l :: held) (ho.step h hcloses)
      | true => exact ho.closed h hcloses ihout

/-- Only one line is the first to declare an identifier. -/
theorem DeclaresFirst.unique {d e : Int} {identifier name : String}
    (hd : s.DeclaresFirst ls d identifier) (he : s.DeclaresFirst ls e name) :
    d = e ∧ identifier = name := by
  obtain ⟨⟨l, hl, hdl⟩, hbefore⟩ := hd
  obtain ⟨⟨m, hm, hem⟩, hbefore'⟩ := he
  rcases Int.lt_trichotomy d e with hlt | heq | hgt
  · exact absurd (hbefore' d l hlt hl) (by simp [hdl])
  · rw [heq] at hl
    rw [hl.unique hm, hem] at hdl
    simp_all
  · exact absurd (hbefore e m hgt hm) (by simp [hem])

/-- A scan goes by one identifier at most. -/
theorem Binds.unique {given : Option String} {d e : Int} {identifier name : String}
    (hd : s.Binds given ls d identifier) (he : s.Binds given ls e name) :
    d = e ∧ identifier = name := by
  unfold Binds at hd he
  split at hd
  next given hgiven =>
    simp only [hgiven] at he
    rw [hd.1, hd.2, he.1, he.2]
    exact ⟨rfl, rfl⟩
  next hgiven =>
    simp only [hgiven] at he
    exact hd.unique he

/-- What a scan goes by stands before the first line or in a line. -/
theorem Binds.nonneg {given : Option String} {d : Int} {identifier : String}
    (h : s.Binds given ls d identifier) : 0 ≤ d := by
  unfold Binds at h
  split at h
  next => exact Int.le_of_eq h.1.symm
  next =>
    obtain ⟨⟨l, hl, -⟩, -⟩ := h
    have := hl.le
    omega

/-- The scan of the lines that remain after `k` lines that declare nothing. -/
private theorem declaredFrom_cases {bs : List Block} (rest : List String) (k : Nat)
    (h : ls.drop k = rest) (hnone : ∀ n l, n ≤ (k : Int) → IsLine ls n l → s.declares l = .ok none)
    (hbs : s.declaredFrom (k + 1) rest = .ok bs) :
    (∃ d identifier, s.DeclaresFirst ls d identifier ∧ s.IsScan identifier d ls bs) ∨
      (∀ d identifier, ¬s.DeclaresFirst ls d identifier) ∧ bs = [] := by
  induction rest generalizing k with
  | nil =>
    refine .inr ⟨?_, (Except.ok.inj hbs).symm⟩
    rintro d identifier ⟨⟨l, hl, hdl⟩, -⟩
    have hk := List.drop_eq_nil_iff.mp h
    have := hnone d l (by have := hl.le; omega) hl
    simp [hdl] at this
  | cons l rest ih =>
    have hline := isLine_of_drop h
    have hnext : ls.drop (k + 1) = rest := by
      rw [← List.tail_drop, h, List.tail_cons]
    rw [declaredFrom] at hbs
    split at hbs
    next => nomatch hbs
    next hdl =>
      apply ih (k + 1) hnext _ hbs
      intro n m hn hm
      by_cases hlast : n = k + 1
      · rw [hlast] at hm
        rw [hm.unique hline, hdl]
      · exact hnone n m (by omega) hm
    next identifier hdl =>
      refine .inl ⟨k + 1, identifier, ⟨⟨l, hline, hdl⟩, ?_⟩, ?_⟩
      · intro n m hn hm
        exact hnone n m (by omega) hm
      · rw [← Except.ok.inj hbs]
        exact (isScan_rest rest (k + 1) hnext).1

/-- A scan gives blocks as described, or none where nothing declares an identifier. -/
theorem scan_cases {given : Option String} {bs : List Block} (h : s.scan given ls = .ok bs) :
    (∃ d identifier, s.Binds given ls d identifier ∧ s.IsScan identifier d ls bs) ∨
      (∀ d identifier, ¬s.Binds given ls d identifier) ∧ bs = [] := by
  have hdeclared (h : s.declaredFrom 1 ls = .ok bs) := by
    refine declaredFrom_cases ls 0 List.drop_zero ?_ h
    intro n l hn hl
    have := hl.le
    omega
  cases given with
  | none => exact hdeclared h
  | some name =>
    rw [scan] at h
    split at h
    next hname =>
      subst hname
      exact hdeclared h
    next hname =>
      refine .inl ⟨0, name, ?_, ?_⟩
      · rw [Binds, Option.filter_some_pos (by simpa using hname)]
        exact ⟨rfl, rfl⟩
      · rw [← Except.ok.inj h]
        exact (isScan_rest ls 0 List.drop_zero).1

private theorem exists_declaredFrom (h : ∀ l ∈ ls, ∃ found, s.declares l = .ok found) (n : Nat) :
    ∃ bs, s.declaredFrom n ls = .ok bs := by
  induction ls generalizing n with
  | nil => exact ⟨[], rfl⟩
  | cons l ls ih =>
    obtain ⟨⟨found, hfound⟩, hrest⟩ := List.forall_mem_cons.mp h
    rw [declaredFrom, hfound]
    cases found with
    | none => exact ih hrest (n + 1)
    | some identifier => exact ⟨_, rfl⟩

/-- A scan fails only where looking for a declaration does. -/
theorem exists_scan (h : ∀ l ∈ ls, ∃ found, s.declares l = .ok found) (given : Option String) :
    ∃ bs, s.scan given ls = .ok bs := by
  unfold scan
  split
  next name =>
    split
    next => exact exists_declaredFrom h 1
    next => exact ⟨_, rfl⟩
  next => exact exists_declaredFrom h 1

/-- Lines after the declaration of an identifier do not bear on it. -/
theorem declaresFirst_append_iff {xs ys : List String} {d : Int}
    (hd : d ≤ xs.length) :
    s.DeclaresFirst (xs ++ ys) d identifier ↔ s.DeclaresFirst xs d identifier := by
  refine and_congr (exists_congr fun l ↦ and_congr_left' (isLine_append_iff hd)) ?_
  refine forall_congr' fun n ↦ forall_congr' fun l ↦ imp_congr_right fun hn ↦ ?_
  rw [isLine_append_iff (by omega)]

/-- A scan goes by the first line that declares an identifier. -/
theorem scan_eq_of_declaresFirst {d : Nat} (h : s.DeclaresFirst ls d identifier) :
    s.scan none ls = .ok (s.blocksFrom identifier.toList (d + 1) (ls.drop d)) := by
  obtain ⟨⟨l, ⟨k, hk, hl⟩, hdl⟩, hbefore⟩ := h
  obtain rfl : d = k + 1 := by omega
  replace hbefore (j : Nat) (m : String) (hj : j < k) (hm : ls[j]? = some m) :
      s.declares m = .ok none := hbefore (j + 1) m (by omega) ⟨j, rfl, hm⟩
  suffices hdeclared : ∀ n, s.declaredFrom n ls =
      .ok (s.blocksFrom identifier.toList (n + k + 1) (ls.drop (k + 1))) by
    rw [scan, hdeclared 1, Nat.add_comm 1 k]
  clear hk
  induction ls generalizing k with
  | nil => cases hl
  | cons m rest ih =>
    intro n
    rw [declaredFrom]
    cases k with
    | zero =>
      obtain rfl : m = l := Option.some.inj hl
      rw [hdl]
      rfl
    | succ k =>
      rw [hbefore 0 m (Nat.succ_pos k) rfl]
      have := ih k hl (fun j e hj he ↦ hbefore (j + 1) e (Nat.succ_lt_succ hj) he) (n + 1)
      rw [List.drop_succ_cons, show n + (k + 1) + 1 = n + 1 + k + 1 by omega]
      exact this

/-- A scan succeeds where a line declares an identifier and those before it declare nothing. -/
theorem exists_scan_of_declaresFirst {d : Int} (h : s.DeclaresFirst ls d identifier) :
    ∃ bs, s.scan none ls = .ok bs := by
  obtain ⟨l, ⟨k, hk, -⟩, -⟩ := h.1
  have hd : d = ((k + 1 : Nat) : Int) := by omega
  rw [hd] at h
  exact ⟨_, scan_eq_of_declaresFirst h⟩

/-- The scan of a file gives the blocks that fit the description, and nothing else fits it. Where
no line declares an identifier there are no blocks. -/
theorem scan_exact (s : Scanner) (given : Option String) (ls : List String)
    (h : ∀ l ∈ ls, ∃ found, s.declares l = .ok found) :
    (∀ d identifier, s.Binds given ls d identifier →
      ∃ bs, s.scan given ls = .ok bs ∧ ∀ cs, s.IsScan identifier d ls cs ↔ cs = bs) ∧
    ((∀ d identifier, ¬s.Binds given ls d identifier) → s.scan given ls = .ok []) := by
  obtain ⟨bs, hbs⟩ := exists_scan h given
  rcases scan_cases hbs with ⟨e, name, hbinds, hscan⟩ | ⟨hnone, hempty⟩
  · constructor
    · intro d identifier hd
      obtain ⟨rfl, rfl⟩ := hd.unique hbinds
      refine ⟨bs, hbs, fun cs ↦ ⟨fun hcs ↦ hcs.unique hscan, ?_⟩⟩
      rintro rfl
      exact hscan
    · intro hnone
      exact absurd hbinds (hnone e name)
  · constructor
    · intro d identifier hd
      exact absurd hd (hnone d identifier)
    · intro _
      rw [hbs, hempty]

/-- A scanner that takes the line `"use r"` for the declaration of `r`. -/
def useScanner : Scanner :=
  ⟨fun l ↦ .ok (if l = "use r" then some "r" else none), closesBlock, closesSingleLine⟩

/-- A declaration after a line that would open a block, and a last block that is left open. -/
theorem scan_exact_open :
    (∀ l ∈ ["r.x(", "use r", " r.get(a);", "r.put("],
      ∃ found, useScanner.declares l = .ok found) ∧
    useScanner.scan none ["r.x(", "use r", " r.get(a);", "r.put("] =
      .ok [⟨3, 3, " r.get(a);", .singleLine⟩, ⟨4, 4, "r.put(", .incomplete⟩] ∧
    ∀ cs, useScanner.IsScan "r" 2 ["r.x(", "use r", " r.get(a);", "r.put("] cs ↔
      cs = [⟨3, 3, " r.get(a);", .singleLine⟩, ⟨4, 4, "r.put(", .incomplete⟩] := by
  have hbinds : useScanner.Binds none ["r.x(", "use r", " r.get(a);", "r.put("] 2 "r" := by
    refine ⟨⟨"use r", ⟨1, rfl, rfl⟩, rfl⟩, ?_⟩
    rintro n l hn ⟨k, rfl, hl⟩
    obtain rfl : k = 0 := by omega
    rw [← Option.some.inj hl]
    rfl
  obtain ⟨bs, hbs, honly⟩ :=
    (scan_exact useScanner none _ fun l _ ↦ ⟨_, rfl⟩).1 2 "r" hbinds
  obtain rfl : _ = bs := Except.ok.inj hbs
  exact ⟨fun l _ ↦ ⟨_, rfl⟩, rfl, honly⟩

end Scanner

end RouteWatch
