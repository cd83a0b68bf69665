import RouteWatch.Proofs.Route.ChosenLines

/-!
# Scans of lines that are put together

A scan that is outside of a block after some lines goes on as if it began there, with the numbers
of lines moved by as many. So lines that are complete blocks by themselves may be put between two
lines of a file where no block is open, and nothing else changes but the numbers of later lines.
Whatever lines are put behind others, the blocks that are closed before them stay as they are.
-/

namespace RouteWatch

/-- The block with its lines moved on by some lines. -/
def Block.shift (k : Int) (b : Block) : Block :=
  { b with startLine := b.startLine + k, endLine := b.endLine + k }

@[simp] theorem Block.shift_startLine (k : Int) (b : Block) :
    (b.shift k).startLine = b.startLine + k := rfl

@[simp] theorem Block.shift_endLine (k : Int) (b : Block) :
    (b.shift k).endLine = b.endLine + k := rfl

/-- All blocks are closed. -/
def AllClosed (bs : List Block) : Prop := ∀ b ∈ bs, b.closing ≠ .incomplete

/-- The blocks that are closed. -/
def closedOf (bs : List Block) : List Block := bs.filter fun b ↦ b.closing ≠ .incomplete

theorem closedOf_cons {b : Block} (h : b.closing ≠ .incomplete) (bs : List Block) :
    closedOf (b :: bs) = b :: closedOf bs :=
  List.filter_cons_of_pos (decide_eq_true h)

namespace Scanner

variable {s : Scanner} {id : List Char} {identifier : String} {ls xs ys : List String}
  {bs : List Block}

/-! ### Numbers of lines -/

/-- The numbers of the lines are counted on from the first one. -/
theorem blocksFrom_add (s : Scanner) (id : List Char) (n k : Nat) (ls : List String) :
    s.blocksFrom id (n + k) ls = (s.blocksFrom id n ls).map (Block.shift k) := by
  suffices hboth : s.blocksFrom id (n + k) ls = (s.blocksFrom id n ls).map (Block.shift k) ∧
      ∀ start held, s.openFrom id (start + k) held (n + k) ls =
        (s.openFrom id start held n ls).map (Block.shift k) from hboth.1
  induction ls generalizing n with
  | nil =>
    refine ⟨rfl, fun start held ↦ ?_⟩
    simp only [openFrom, List.map_cons, List.map_nil, Block.shift, Int.natCast_add]
    rw [show (n : Int) + k - 1 = n - 1 + k by omega]
  | cons l ls ih =>
    obtain ⟨ihout, ihin⟩ := ih (n + 1)
    rw [Nat.add_right_comm] at ihout ihin
    constructor
    · simp only [blocksFrom]
      split
      · exact ihout
      · split
        · rw [List.map_cons, ihout, Block.shift, Int.natCast_add]
        · exact ihin n [l]
    · intro start held
      simp only [openFrom]
      split
      · rw [List.map_cons, ihout, Block.shift, Int.natCast_add, Int.natCast_add]
      · exact ihin start (l :: held)

/-! ### Lines put together -/

/-- After lines whose blocks are all closed a scan goes on as it begins. -/
theorem blocksFrom_append {n : Nat} (h : AllClosed (s.blocksFrom id n xs)) :
    s.blocksFrom id n (xs ++ ys) =
      s.blocksFrom id n xs ++ s.blocksFrom id (n + xs.length) ys := by
  suffices hboth : (AllClosed (s.blocksFrom id n xs) → s.blocksFrom id n (xs ++ ys) =
        s.blocksFrom id n xs ++ s.blocksFrom id (n + xs.length) ys) ∧
      ∀ start held, AllClosed (s.openFrom id start held n xs) →
        s.openFrom id start held n (xs ++ ys) =
          s.openFrom id start held n xs ++ s.blocksFrom id (n + xs.length) ys from hboth.1 h
  clear h
  induction xs generalizing n with
  | nil =>
    refine ⟨fun _ ↦ rfl, fun start held h ↦ ?_⟩
    exact absurd rfl (h _ (List.mem_singleton_self _))
  | cons l xs ih =>
    obtain ⟨ihout, ihin⟩ := @ih (n + 1)
    rw [List.cons_append, List.length_cons, Nat.add_comm xs.length 1, ← Nat.add_assoc]
    constructor
    · simp only [blocksFrom]
      split
      · exact ihout
      · split
        · intro h
          rw [ihout (List.forall_mem_cons.mp h).2, List.cons_append]
        · exact ihin n [l]
    · intro start held
      simp only [openFrom]
      split
      · intro h
        rw [ihout (List.forall_mem_cons.mp h).2, List.cons_append]
      · exact ihin start (l :: held)

/-- The blocks that some lines close come first, whatever lines are behind them. -/
theorem closedOf_blocksFrom_prefix (n : Nat) (xs ys : List String) :
    closedOf (s.blocksFrom id n xs) <+: s.blocksFrom id n (xs ++ ys) := by
  suffices hboth : closedOf (s.blocksFrom id n xs) <+: s.blocksFrom id n (xs ++ ys) ∧
      ∀ start held, closedOf (s.openFrom id start held n xs) <+:
        s.openFrom id start held n (xs ++ ys) from hboth.1
  induction xs generalizing n with
  | nil => exact ⟨List.nil_prefix, fun start held ↦ List.nil_prefix⟩
  | cons l xs ih =>
    obtain ⟨ihout, ihin⟩ := ih (n + 1)
    rw [List.cons_append]
    constructor
    · simp only [blocksFrom]
      split
      · exact ihout
      · split
        · rw [closedOf_cons (by rintro ⟨⟩)]
          exact List.cons_prefix_cons.mpr ⟨rfl, ihout⟩
        · exact ihin n [l]
    · intro start held
      simp only [openFrom]
      split
      · rw [closedOf_cons (by rintro ⟨⟩)]
        exact List.cons_prefix_cons.mpr ⟨rfl, ihout⟩
      · exact ihin start (l :: held)

/-- The first block within an open block is this one. It goes on at least to the next line. -/
private theorem exists_openFrom_cons (start : Nat) (held : List String) (n : Nat) (l : String)
    (ls : List String) : ∃ b bs, s.openFrom id start held n (l :: ls) = b :: bs ∧
      b.startLine = start ∧ (n : Int) ≤ b.endLine := by
  induction ls generalizing held n l with
  | nil =>
    rw [openFrom]
    split
    · exact ⟨_, _, rfl, rfl, Int.le_refl _⟩
    · rw [openFrom]
      exact ⟨_, _, rfl, rfl, by dsimp only; omega⟩
  | cons m ls ih =>
    rw [openFrom]
    split
    · exact ⟨_, _, rfl, rfl, Int.le_refl _⟩
    · obtain ⟨b, bs, heq, hstart, hend⟩ := ih (l :: held) (n + 1) m
      exact ⟨b, bs, heq, hstart, by omega⟩

/-- A block that is not closed by some lines goes on to the lines after them. -/
theorem exists_block_across {n : Nat} (hys : ys ≠ []) (h : ¬AllClosed (s.blocksFrom id n xs)) :
    ∃ b ∈ s.blocksFrom id n (xs ++ ys),
      b.startLine < (n + xs.length : Nat) ∧ (n + xs.length : Nat) ≤ b.endLine := by
  suffices hboth : (¬AllClosed (s.blocksFrom id n xs) → ∃ b ∈ s.blocksFrom id n (xs ++ ys),
        b.startLine < (n + xs.length : Nat) ∧ (n + xs.length : Nat) ≤ b.endLine) ∧
      ∀ start held, start < n → ¬AllClosed (s.openFrom id start held n xs) →
        ∃ b ∈ s.openFrom id start held n (xs ++ ys),
          b.startLine < (n + xs.length : Nat) ∧ (n + xs.length : Nat) ≤ b.endLine from hboth.1 h
  clear h
  -- A block that stands before the open one is none that is looked for.
  have hlater {b : Block} {bs cs : List Block} {m : Int} (hb : b.closing ≠ .incomplete)
      (h : ¬AllClosed (b :: bs))
      (hcs : ¬AllClosed bs → ∃ c ∈ cs, c.startLine < m ∧ m ≤ c.endLine) :
      ∃ c ∈ b :: cs, c.startLine < m ∧ m ≤ c.endLine := by
    obtain ⟨c, hc, hin⟩ := hcs fun hbs ↦ h (List.forall_mem_cons.mpr ⟨hb, hbs⟩)
    exact ⟨c, List.mem_cons_of_mem _ hc, hin⟩
  induction xs generalizing n with
  | nil =>
    refine ⟨fun h ↦ absurd (fun _ hb ↦ absurd hb List.not_mem_nil) h, fun start held hn _ ↦ ?_⟩
    obtain ⟨l, ls, rfl⟩ := List.exists_cons_of_ne_nil hys
    obtain ⟨b, bs, heq, hstart, hend⟩ := @exists_openFrom_cons s id start held n l ls
    rw [List.nil_append, heq]
    exact ⟨b, List.mem_cons_self .., by rw [List.length_nil]; omega, by rwa [List.length_nil]⟩
  | cons l xs ih =>
    obtain ⟨ihout, ihin⟩ := @ih (n + 1)
    rw [List.cons_append, List.length_cons, Nat.add_comm xs.length 1, ← Nat.add_assoc]
    constructor
    · simp only [blocksFrom]
      split
      · exact ihout
      · split
        · exact fun h ↦ hlater (by rintro ⟨⟩) h ihout
        · exact ihin n [l] (Nat.lt_succ_self n)
    · intro start held hn
      simp only [openFrom]
      split
      · exact fun h ↦ hlater (by rintro ⟨⟩) h ihout
      · exact ihin start (l :: held) (Nat.lt_succ_of_lt hn)

/-! ### Scans -/

/-- A scan that is given an identifier begins outside of a block. -/
theorem scan_some (hid : identifier ≠ "") (ls : List String) :
    s.scan (some identifier) ls = .ok (s.blocksFrom identifier.toList 1 ls) :=
  if_neg hid

/-- Blocks lie within the lines that they are found in. -/
theorem within_blocksFrom {k : Nat} {b : Block} (hid : identifier ≠ "")
    (hb : b ∈ s.blocksFrom identifier.toList (k + 1) ls) :
    (k : Int) < b.startLine ∧ b.startLine ≤ b.endLine ∧ b.endLine ≤ k + ls.length := by
  rw [Nat.add_comm k 1, blocksFrom_add] at hb
  obtain ⟨c, hc, rfl⟩ := List.mem_map.mp hb
  have := within_of_scan (scan_some hid ls) hc
  simp only [Block.shift_startLine, Block.shift_endLine]
  omega

/-- Lines with closed blocks are put into a file behind its declaration, where no block is open:
their blocks come between those before and those after them. -/
theorem scan_insert {first added last : List String} {blocks : List Block} {d : Nat}
    (hid : identifier ≠ "") (hdeclares : s.DeclaresFirst (first ++ last) d identifier)
    (hd : d ≤ first.length) (hscan : s.scan none (first ++ last) = .ok blocks)
    (hclosed : AllClosed blocks)
    (hbetween : ∀ b ∈ blocks, ¬(b.startLine ≤ first.length ∧ first.length < b.endLine))
    (hadded : s.scan (some identifier) added = .ok bs) (hbs : AllClosed bs) :
    ∃ before after, blocks = before ++ after ∧ (∀ b ∈ before, b.endLine ≤ first.length) ∧
      (∀ b ∈ after, first.length < b.startLine) ∧
      s.scan none (first ++ (added ++ last)) =
        .ok (before ++ bs.map (Block.shift first.length) ++
          after.map (Block.shift added.length)) := by
  have hfirst : (first.drop d).length = first.length - d := List.length_drop
  have hdeclares' : s.DeclaresFirst (first ++ (added ++ last)) d identifier := by
    rw [declaresFirst_append_iff (by omega)] at hdeclares ⊢
    exact hdeclares
  rw [scan_eq_of_declaresFirst hdeclares, List.drop_append_of_le_length hd] at hscan
  obtain rfl := Except.ok.inj hscan
  rw [scan_some hid] at hadded
  obtain rfl := Except.ok.inj hadded
  -- A block that is open after the first lines would go on to the line after them.
  have hopen : AllClosed (s.blocksFrom identifier.toList (d + 1) (first.drop d)) := by
    refine Classical.byContradiction fun hnot ↦ ?_
    by_cases hlast : last = []
    · rw [hlast, List.append_nil] at hclosed
      exact hnot hclosed
    · obtain ⟨b, hb, hstart, hend⟩ := exists_block_across hlast hnot
      exact hbetween b hb (by omega)
  have hcount : d + 1 + (first.drop d).length = first.length + 1 := by omega
  refine ⟨_, _, blocksFrom_append hopen, fun b hb ↦ ?_, fun b hb ↦ ?_, ?_⟩
  · have := (within_blocksFrom hid hb).2.2
    omega
  · rw [hcount] at hb
    exact (within_blocksFrom hid hb).1
  · have hmiddle : AllClosed (s.blocksFrom identifier.toList (first.length + 1) added) := by
      rw [Nat.add_comm, blocksFrom_add]
      exact List.forall_mem_map.mpr hbs
    rw [scan_eq_of_declaresFirst hdeclares', List.drop_append_of_le_length hd,
      blocksFrom_append hopen, hcount, blocksFrom_append hmiddle,
      Nat.add_comm first.length 1, blocksFrom_add s _ 1 first.length added,
      blocksFrom_add s _ (1 + first.length) added.length last, List.append_assoc]

/-! ### Lines behind others -/

/-- A scan goes by the identifier that it is bound to, from the line that binds it on. -/
theorem Binds.scan_eq {given : Option String} {d : Int} (h : s.Binds given ls d identifier) :
    ∃ k : Nat, d = k ∧ k ≤ ls.length ∧
      s.scan given ls = .ok (s.blocksFrom identifier.toList (k + 1) (ls.drop k)) := by
  have hdeclared (h : s.DeclaresFirst ls d identifier) : ∃ k : Nat, d = k ∧ k ≤ ls.length ∧
      s.scan none ls = .ok (s.blocksFrom identifier.toList (k + 1) (ls.drop k)) := by
    obtain ⟨l, hl, -⟩ := h.1
    have hle := hl.le
    obtain ⟨k, rfl⟩ := Int.eq_ofNat_of_zero_le (show 0 ≤ d by omega)
    exact ⟨k, rfl, by omega, scan_eq_of_declaresFirst h⟩
  cases given with
  | none => exact hdeclared h
  | some name =>
    by_cases hname : name = ""
    · subst hname
      exact hdeclared h
    · rw [Binds, Option.filter_some_pos (by simpa using hname)] at h
      obtain ⟨rfl, rfl⟩ := h
      exact ⟨0, rfl, Nat.zero_le _, scan_some hname ls⟩

/-- Lines behind others do not bear on what these bind. -/
theorem Binds.append {given : Option String} {d : Int} (h : s.Binds given xs d identifier)
    (ys : List String) : s.Binds given (xs ++ ys) d identifier := by
  obtain ⟨k, rfl, hk, -⟩ := h.scan_eq
  unfold Binds at h ⊢
  split at h
  next => exact h
  next => exact (declaresFirst_append_iff (by omega)).mpr h

/-- Lines that bind an identifier are scanned by it, alone and with others behind them. -/
theorem Binds.scan_append_eq {given : Option String} {d : Int} (h : s.Binds given xs d identifier)
    (ys : List String) : ∃ k ≤ xs.length,
      s.scan given xs = .ok (s.blocksFrom identifier.toList (k + 1) (xs.drop k)) ∧
      s.scan given (xs ++ ys) = .ok (s.blocksFrom identifier.toList (k + 1) (xs.drop k ++ ys)) := by
  obtain ⟨k, rfl, hk, hscan⟩ := h.scan_eq
  obtain ⟨k', heq, -, hscan'⟩ := (h.append ys).scan_eq
  obtain rfl : k = k' := Int.ofNat.inj heq
  rw [List.drop_append_of_le_length hk] at hscan'
  exact ⟨k, hk, hscan, hscan'⟩

/-- An identifier that is bound is not empty where no line declares an empty one. -/
theorem Binds.ne_empty {given : Option String} {d : Int} (h : s.Binds given ls d identifier)
    (hne : ∀ l ∈ ls, s.declares l ≠ .ok (some "")) : identifier ≠ "" := by
  rintro rfl
  unfold Binds at h
  split at h
  next name hgiven =>
    obtain ⟨-, rfl⟩ := h
    simpa using (Option.filter_eq_some_iff.mp hgiven).2
  next =>
    obtain ⟨⟨l, ⟨k, -, hl⟩, hdl⟩, -⟩ := h
    exact hne l (List.mem_of_getElem? hl) hdl

/-- Where nothing is declared yet, too, the numbers of the lines are counted on. -/
theorem declaredFrom_add (s : Scanner) (n k : Nat) (ls : List String) :
    s.declaredFrom (n + k) ls = (s.declaredFrom n ls).map (List.map (Block.shift k)) := by
  induction ls generalizing n with
  | nil => rfl
  | cons l ls ih =>
    rw [declaredFrom, declaredFrom, Nat.add_right_comm]
    cases s.declares l with
    | error e => rfl
    | ok found =>
      cases found with
      | none => exact ih (n + 1)
      | some identifier =>
        exact congrArg Except.ok (blocksFrom_add s identifier.toList (n + 1) k ls)

/-- Lines that declare nothing are passed over. -/
theorem declaredFrom_append {n : Nat} (h : ∀ l ∈ xs, s.declares l = .ok none) :
    s.declaredFrom n (xs ++ ys) = s.declaredFrom (n + xs.length) ys := by
  induction xs generalizing n with
  | nil => rfl
  | cons l xs ih =>
    rw [List.forall_mem_cons] at h
    rw [List.cons_append, declaredFrom, h.1, List.length_cons, Nat.add_comm xs.length 1,
      ← Nat.add_assoc]
    exact ih h.2

/-- How a scan of lines with others behind them goes together with scans of the two. -/
structure ScansLocally (s : Scanner) (given : Option String) (xs ys : List String) : Prop where
  /-- The blocks that are closed in the first lines come first, as they are. -/
  keeps : ∃ bs cs, s.scan given xs = .ok bs ∧ s.scan given (xs ++ ys) = .ok cs ∧
    closedOf bs <+: cs
  /-- Behind lines that bind an identifier and leave no block open, the others are scanned by this
  identifier. -/
  goesOn : ∀ d identifier bs, s.Binds given xs d identifier → s.scan given xs = .ok bs →
    AllClosed bs → ∃ cs, s.scan (some identifier) ys = .ok cs ∧
      s.scan given (xs ++ ys) = .ok (bs ++ cs.map (Block.shift xs.length))
  /-- Behind lines that declare nothing, where no identifier is given, the others are scanned as if
  they stood alone. -/
  movesOn : given.filter (· ≠ "") = none → (∀ l ∈ xs, s.declares l = .ok none) →
    ∃ cs, s.scan given ys = .ok cs ∧
      s.scan given (xs ++ ys) = .ok (cs.map (Block.shift xs.length))

/-- A scan is local: lines behind others, and lines before them that declare nothing, do not disturb
the blocks of these. -/
theorem scan_local (s : Scanner) (given : Option String) (xs ys : List String)
    (h : ∀ l ∈ xs ++ ys, ∃ found, s.declares l = .ok found ∧ found ≠ some "") :
    s.ScansLocally given xs ys := by
  have hfound (l : String) (hl : l ∈ xs ++ ys) : ∃ found, s.declares l = .ok found :=
    (h l hl).imp fun _ hfound ↦ hfound.1
  have hne (l : String) (hl : l ∈ xs ++ ys) : s.declares l ≠ .ok (some "") := by
    obtain ⟨found, hdl, hfound⟩ := h l hl
    rw [hdl]
    exact fun heq ↦ hfound (Except.ok.inj heq)
  have hxs (l : String) (hl : l ∈ xs) : l ∈ xs ++ ys := List.mem_append_left ys hl
  refine ⟨?_, fun d identifier bs hbinds hbs hclosed ↦ ?_, fun hgiven hnone ↦ ?_⟩
  · obtain ⟨bs, hbs⟩ := exists_scan (fun l hl ↦ hfound l (hxs l hl)) given
    obtain ⟨cs, hcs⟩ := exists_scan hfound given
    refine ⟨bs, cs, hbs, hcs, ?_⟩
    rcases scan_cases hbs with ⟨d, identifier, hbinds, -⟩ | ⟨-, rfl⟩
    · obtain ⟨k, -, hscan, hscan'⟩ := hbinds.scan_append_eq ys
      obtain rfl := Except.ok.inj (hbs.symm.trans hscan)
      obtain rfl := Except.ok.inj (hcs.symm.trans hscan')
      exact closedOf_blocksFrom_prefix _ _ _
    · exact List.nil_prefix
  · have hid := hbinds.ne_empty fun l hl ↦ hne l (hxs l hl)
    obtain ⟨k, hk, hscan, hscan'⟩ := hbinds.scan_append_eq ys
    obtain rfl := Except.ok.inj (hbs.symm.trans hscan)
    refine ⟨_, scan_some hid ys, ?_⟩
    have hcount : k + 1 + (xs.drop k).length = 1 + xs.length := by
      rw [List.length_drop]
      omega
    rw [hscan', blocksFrom_append hclosed, hcount,
      blocksFrom_add s identifier.toList 1 xs.length ys]
  · have hscan (ls : List String) : s.scan given ls = s.declaredFrom 1 ls := by
      cases given with
      | none => rfl
      | some name =>
        refine if_pos (Classical.byContradiction fun hname ↦ ?_)
        rw [Option.filter_some_pos (by simpa using hname)] at hgiven
        exact nomatch hgiven
    obtain ⟨cs, hcs⟩ := exists_scan (fun l hl ↦ hfound l (List.mem_append_right xs hl)) given
    refine ⟨cs, hcs, ?_⟩
    rw [hscan, declaredFrom_append hnone, declaredFrom_add, ← hscan, hcs]
    rfl

/-- A block that is left open takes up the lines behind it, and the block that is closed before it
stays. -/
theorem scan_local_open :
    (∀ l ∈ ["use r", "r.a();", "r.b("] ++ ["r.c", ");", "use q", "r.d();"],
      ∃ found, useScanner.declares l = .ok found ∧ found ≠ some "") ∧
    useScanner.ScansLocally none ["use r", "r.a();", "r.b("] ["r.c", ");", "use q", "r.d();"] ∧
    useScanner.scan none ["use r", "r.a();", "r.b(", "r.c", ");", "use q", "r.d();"] =
      .ok [⟨2, 2, "r.a();", .singleLine⟩, ⟨3, 5, "r.b(\nr.c\n);", .multiLine⟩,
        ⟨7, 7, "r.d();", .singleLine⟩] := by
  have h : ∀ l ∈ ["use r", "r.a();", "r.b("] ++ ["r.c", ");", "use q", "r.d();"],
      ∃ found, useScanner.declares l = .ok found ∧ found ≠ some "" := by
    intro l _
    refine ⟨_, rfl, ?_⟩
    split
    · decide
    · exact nofun
  exact ⟨h, scan_local _ _ _ _ h, rfl⟩

end Scanner

end RouteWatch
