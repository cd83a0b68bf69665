import RouteWatch.Json.Reader
import RouteWatch.Number.Shortest
import RouteWatch.Proofs.Except
import RouteWatch.Proofs.Text.Digit

/-!
# Numbers in JSON text

A number ends where a character follows that no number holds, and what follows does not change
how it is read. So an integer that is written is read as itself wherever it stands, and so is a
floating-point number whose text alone reads back.
-/

namespace RouteWatch

namespace Binary64

theorem isNaN_of_isFinite {x : Binary64} (h : x.isFinite = true) : x.isNaN = false := by
  simp only [isFinite, decide_eq_true_eq] at h
  exact decide_eq_false (by omega)

theorem isInfinite_of_isFinite {x : Binary64} (h : x.isFinite = true) :
    x.isInfinite = false := by
  simp only [isFinite, decide_eq_true_eq] at h
  exact beq_eq_false_iff_ne.mpr (by omega)

end Binary64

namespace Json

open RouteWatch.Text (isAsciiDigit readNat showNat showInt digitLimit)

/-- A character that numbers hold. -/
def isNumberChar (c : Char) : Bool :=
  isAsciiDigit c || c == '.' || c == 'e' || c == 'E' || c == '+' || c == '-'

/-- No number holds a blank. -/
theorem isNumberChar_of_isGap {c : Char} (h : isGap c = true) : isNumberChar c = false := by
  simp only [isGap, Bool.or_eq_true, beq_iff_eq] at h
  rcases h with ((rfl | rfl) | rfl) | rfl <;> rfl

/-- A character that a number holds is no blank. -/
theorem isGap_of_isNumberChar {c : Char} (h : isNumberChar c = true) : isGap c = false :=
  Bool.eq_false_iff.mpr fun hgap ↦ Bool.noConfusion (h.symm.trans (isNumberChar_of_isGap hgap))

/-- Digits stand in numbers. -/
theorem isNumberChar_of_isAsciiDigit {c : Char} (h : isAsciiDigit c = true) :
    isNumberChar c = true := by
  simp only [isNumberChar, h, Bool.true_or]

/-- A number that stands before the text ends there. -/
def EndsNumber (rest : List Char) : Prop := ∀ c ∈ rest.head?, isNumberChar c = false

/-- Blanks in front are skipped. -/
theorem Cursor.skipGaps_append {gaps cs : List Char} (hgaps : ∀ c ∈ gaps, isGap c = true)
    (hcs : ∀ c ∈ cs.head?, isGap c = false) (pos : Nat) :
    (⟨gaps ++ cs, pos⟩ : Cursor).skipGaps = ⟨cs, pos + gaps.length⟩ := by
  have htake : (gaps ++ cs).takeWhile isGap = gaps := by
    rw [List.takeWhile_append_of_pos hgaps]
    cases cs with
    | nil => exact List.append_nil _
    | cons c cs =>
      rw [List.takeWhile_cons_of_neg (Bool.not_eq_true _ ▸ hcs c rfl), List.append_nil]
  simp only [skipGaps, skip, htake, List.drop_left]

variable {rest : List Char}

private theorem EndsNumber.ne {c d : Char} {cs : List Char} (h : EndsNumber (c :: cs))
    (hd : isNumberChar d = true) : c ≠ d := by
  rintro rfl
  exact Bool.noConfusion ((h c rfl).symm.trans hd)

private theorem EndsNumber.not_digit {c : Char} {cs : List Char} (h : EndsNumber (c :: cs)) :
    isAsciiDigit c = false := by
  have := h c rfl
  simp only [isNumberChar, Bool.or_eq_false_iff] at this
  exact this.1.1.1.1.1

private theorem EndsNumber.takeWhile_append (h : EndsNumber rest) (cs : List Char) :
    (cs ++ rest).takeWhile isAsciiDigit = cs.takeWhile isAsciiDigit := by
  have hrest : rest.takeWhile isAsciiDigit = [] := by
    cases rest with
    | nil => rfl
    | cons c rest => exact List.takeWhile_cons_of_neg (by simp [h.not_digit])
  rw [List.takeWhile_append, hrest, List.append_nil]
  split
  · next hall => exact ((List.takeWhile_prefix _).eq_of_length hall).symm
  · rfl

namespace Numeral

private theorem wholeOf_of_ne {c : Char} {cs : List Char} (h : c ≠ '0') :
    wholeOf (c :: cs) = (c :: cs).takeWhile isAsciiDigit := by
  unfold wholeOf
  split
  · next heq => exact absurd (List.cons.inj heq).1 h
  · rfl

private theorem wholeOf_append (h : EndsNumber rest) (cs : List Char) :
    wholeOf (cs ++ rest) = wholeOf cs := by
  cases cs with
  | nil =>
    cases rest with
    | nil => rfl
    | cons c rest =>
      rw [List.nil_append, wholeOf_of_ne (h.ne rfl)]
      exact h.takeWhile_append []
  | cons c cs =>
    by_cases hc : c = '0'
    · subst hc
      rfl
    · rw [List.cons_append, wholeOf_of_ne hc, wholeOf_of_ne hc, ← List.cons_append,
        h.takeWhile_append]

private theorem decimalsOf_append (h : EndsNumber rest) (cs : List Char) :
    decimalsOf (cs ++ rest) = decimalsOf cs := by
  match cs with
  | [] =>
    cases rest with
    | nil => rfl
    | cons c rest =>
      unfold decimalsOf
      split
      · next heq => exact absurd (List.cons.inj heq).1 (h.ne rfl)
      · rfl
  | [c] =>
    by_cases hc : c = '.'
    · subst hc
      cases rest with
      | nil => rfl
      | cons d rest => simp [decimalsOf, h.not_digit]
    · simp [decimalsOf, hc]
  | c :: d :: cs =>
    by_cases hc : c = '.'
    · subst hc
      simp only [List.cons_append, decimalsOf, h.takeWhile_append]
    · simp [decimalsOf, hc]

private theorem exponentOf_append (h : EndsNumber rest) (cs : List Char) :
    exponentOf (cs ++ rest) = exponentOf cs := by
  match cs with
  | [] =>
    cases rest with
    | nil => rfl
    | cons c rest =>
      have he : c ≠ 'e' := h.ne rfl
      have hE : c ≠ 'E' := h.ne rfl
      simp [exponentOf, he, hE]
  | [c] =>
    cases rest with
    | nil => rfl
    | cons d rest =>
      have hminus : d ≠ '-' := h.ne rfl
      have hplus : d ≠ '+' := h.ne rfl
      simp [exponentOf, hminus, hplus, h.not_digit]
  | c :: d :: cs =>
    by_cases hminus : d = '-'
    · subst hminus
      simp only [List.cons_append, exponentOf, h.takeWhile_append]
    · by_cases hplus : d = '+'
      · subst hplus
        simp only [List.cons_append, exponentOf, h.takeWhile_append]
      · have := h.takeWhile_append (d :: cs)
        simp only [List.cons_append] at this
        simp [exponentOf, hminus, hplus, this]

private theorem length_takeWhile_le (cs : List Char) :
    (cs.takeWhile isAsciiDigit).length ≤ cs.length :=
  (List.takeWhile_prefix _).length_le

private theorem length_wholeOf_le (cs : List Char) : (wholeOf cs).length ≤ cs.length := by
  unfold wholeOf
  split
  · simp
  · exact length_takeWhile_le _

private theorem decimalSize_le (cs : List Char) : decimalSize (decimalsOf cs) ≤ cs.length := by
  unfold decimalsOf
  split
  · next d cs =>
    split
    · have := length_takeWhile_le cs
      simp only [decimalSize, List.length_cons]
      omega
    · exact Nat.zero_le _
  · exact Nat.zero_le _

private theorem exponentSize_le (cs : List Char) : exponentSize (exponentOf cs) ≤ cs.length := by
  unfold exponentOf
  split
  · next c cs =>
    split
    · split
      next negative digits signs hsigns =>
      have hle : signs + digits.length ≤ cs.length := by
        split at hsigns
        · next ds =>
          cases hsigns
          have := length_takeWhile_le ds
          rw [List.length_cons]
          omega
        · next ds =>
          cases hsigns
          have := length_takeWhile_le ds
          rw [List.length_cons]
          omega
        · cases hsigns
          have := length_takeWhile_le cs
          omega
      split
      · exact Nat.zero_le _
      · simp only [exponentSize, List.length_cons]
        omega
    · exact Nat.zero_le _
  · exact Nat.zero_le _

private theorem afterSign_append (h : EndsNumber rest) (negative : Bool) (cs : List Char) :
    afterSign negative (cs ++ rest) = afterSign negative cs := by
  unfold afterSign
  simp only [wholeOf_append h, List.drop_append_of_le_length (length_wholeOf_le cs),
    decimalsOf_append h, List.drop_append_of_le_length (decimalSize_le _), exponentOf_append h]

private theorem at?_of_ne {c : Char} {cs : List Char} (h : c ≠ '-') :
    at? (c :: cs) = afterSign false (c :: cs) := by
  unfold at?
  split
  · next heq => exact absurd (List.cons.inj heq).1 h
  · rfl

/-- What follows a number does not change how it is read. -/
theorem at?_append (h : EndsNumber rest) (cs : List Char) : at? (cs ++ rest) = at? cs := by
  cases cs with
  | nil =>
    cases rest with
    | nil => rfl
    | cons c rest =>
      rw [List.nil_append, at?_of_ne (h.ne rfl)]
      exact afterSign_append h false []
  | cons c cs =>
    by_cases hc : c = '-'
    · subst hc
      simp only [List.cons_append, at?, afterSign_append h]
    · rw [List.cons_append, at?_of_ne hc, at?_of_ne hc]
      exact afterSign_append h false (c :: cs)

private theorem wholeOf_ne_nil_of_afterSign {negative : Bool} {cs : List Char} {n : Numeral}
    {size : Nat} (h : afterSign negative cs = some (n, size)) :
    wholeOf cs ≠ [] ∧ size ≤ cs.length := by
  simp only [afterSign, Option.ite_none_left_eq_some, Option.some.injEq, Prod.mk.injEq] at h
  obtain ⟨hne, rfl, rfl⟩ := h
  refine ⟨by simpa using hne, ?_⟩
  have hwhole := length_wholeOf_le cs
  have hdecimals := decimalSize_le (cs.drop (wholeOf cs).length)
  have hexponent := exponentSize_le ((cs.drop (wholeOf cs).length).drop
    (decimalSize (decimalsOf (cs.drop (wholeOf cs).length))))
  simp only [List.length_drop] at hdecimals hexponent
  omega

private theorem isAsciiDigit_of_wholeOf_ne_nil {c : Char} {cs : List Char}
    (h : wholeOf (c :: cs) ≠ []) : isAsciiDigit c = true := by
  by_cases hc : c = '0'
  · rw [hc]
    rfl
  · rw [wholeOf_of_ne hc] at h
    exact Decidable.of_not_not fun hd ↦ h (List.takeWhile_cons_of_neg hd)

/-- The text opens as a number does: with a digit, or with a minus sign and a digit. -/
def Opens : List Char → Prop
  | '-' :: c :: _ => isAsciiDigit c = true
  | c :: _ => isAsciiDigit c = true
  | [] => False

private theorem opens_of_isAsciiDigit {c : Char} {cs : List Char} (h : isAsciiDigit c = true) :
    Opens (c :: cs) := by
  unfold Opens
  split
  · next heq =>
    rw [(List.cons.inj heq).1] at h
    exact absurd h (by decide)
  · next heq => rwa [← (List.cons.inj heq).1]
  · next heq => exact nomatch heq

/-- A number stands where one opens, and takes no more characters than there are. -/
theorem opens_of_at? {cs : List Char} {n : Numeral} {size : Nat} (h : at? cs = some (n, size)) :
    Opens cs ∧ size ≤ cs.length := by
  match cs with
  | [] => exact nomatch h
  | c :: cs =>
    by_cases hc : c = '-'
    · subst hc
      simp only [at?, Option.map_eq_some_iff, Prod.mk.injEq] at h
      obtain ⟨⟨n, size⟩, h, rfl, rfl⟩ := h
      obtain ⟨hne, hsize⟩ := wholeOf_ne_nil_of_afterSign h
      refine ⟨?_, Nat.succ_le_succ hsize⟩
      cases cs with
      | nil => exact absurd rfl hne
      | cons d cs => exact isAsciiDigit_of_wholeOf_ne_nil hne
    · rw [at?_of_ne hc] at h
      obtain ⟨hne, hsize⟩ := wholeOf_ne_nil_of_afterSign h
      exact ⟨opens_of_isAsciiDigit (isAsciiDigit_of_wholeOf_ne_nil hne), hsize⟩

private theorem wholeOf_showNat (n : Nat) : wholeOf (showNat n) = showNat n := by
  have hall : (showNat n ++ []).takeWhile isAsciiDigit = showNat n ++ [] :=
    List.takeWhile_append_of_pos fun c hc ↦ Text.isAsciiDigit_of_mem_showNat hc
  rw [List.append_nil] at hall
  cases hn : showNat n with
  | nil => rfl
  | cons c cs =>
    by_cases hc : c = '0'
    · have hzero : n = 0 := Decidable.of_not_not fun hne ↦
        Text.head?_showNat_ne_zero hne (by rw [hn, hc]; rfl)
      rw [← hn, hzero]
      rfl
    · rw [wholeOf_of_ne hc, ← hn, hall]

private theorem afterSign_showNat (negative : Bool) (n : Nat) :
    afterSign negative (showNat n) =
      some (⟨negative, showNat n, none, none⟩, (showNat n).length) := by
  simp only [afterSign, wholeOf_showNat, List.isEmpty_iff, Text.showNat_ne_nil, if_false,
    List.drop_length, List.drop_nil]
  rfl

/-- An integer that is written stands there as a number. -/
theorem at?_showInt (n : Int) :
    at? (showInt n).toList =
      some (⟨n < 0, showNat n.natAbs, none, none⟩, (showInt n).toList.length) := by
  unfold showInt
  rw [String.toList_ofList]
  split
  · next hn =>
    rw [at?, afterSign_showNat, Option.map_some, List.length_cons, decide_eq_true hn]
  · next hn =>
    rw [decide_eq_false hn, ← afterSign_showNat]
    have hd := Text.showNat_ne_nil n.natAbs
    cases hs : showNat n.natAbs with
    | nil => exact absurd hs hd
    | cons c cs =>
      apply at?_of_ne
      rintro rfl
      have := Text.isAsciiDigit_of_mem_showNat (hs ▸ List.mem_cons_self .. : '-' ∈ showNat n.natAbs)
      exact absurd this (by decide)

end Numeral

/-! ### Reading a number -/

/-- What opens as a number does has a digit in front, or behind a minus sign. -/
theorem Numeral.Opens.cases {cs : List Char} (h : Numeral.Opens cs) :
    ∃ d ds, isAsciiDigit d = true ∧ (cs = d :: ds ∨ cs = '-' :: d :: ds) := by
  unfold Numeral.Opens at h
  split at h
  · next d ds => exact ⟨d, ds, h, .inr rfl⟩
  · next d ds _ => exact ⟨d, ds, h, .inl rfl⟩
  · exact h.elim

private theorem words_hold_no_number {w : List Char × Json} (h : w ∈ words) :
    ∃ c e cs, w.1 = c :: e :: cs ∧ isAsciiDigit c = false ∧ isAsciiDigit e = false ∧
      (isNumberChar c && isNumberChar e) = false := by
  simp only [words, List.mem_cons, List.not_mem_nil, or_false] at h
  rcases h with rfl | rfl | rfl | rfl | rfl | rfl
  all_goals exact ⟨_, _, _, rfl, rfl, rfl, rfl⟩

/-- No word opens as a number does. -/
theorem word?_of_opens {cs : List Char} (h : Numeral.Opens cs) : word? cs = none := by
  obtain ⟨d, ds, hd, hcs⟩ := h.cases
  rw [word?, List.find?_eq_none]
  intro w hw hpre
  obtain ⟨c, e, more, heq, hc, he, -⟩ := words_hold_no_number hw
  rw [heq, List.isPrefixOf_iff_prefix] at hpre
  rcases hcs with rfl | rfl
  · have := (List.cons_prefix_cons.mp hpre).1
    exact Bool.noConfusion (hc.symm.trans (this ▸ hd))
  · have := (List.cons_prefix_cons.mp (List.cons_prefix_cons.mp hpre).2).1
    exact Bool.noConfusion (he.symm.trans (this ▸ hd))

private theorem value_of_opens {cs : List Char} (h : Numeral.Opens cs)
    (fuel room pos : Nat) : value (fuel + 1) room ⟨cs, pos⟩ = number ⟨cs, pos⟩ := by
  obtain ⟨d, ds, hd, hcs⟩ := h.cases
  have hhead : ∃ c cs', cs = c :: cs' ∧ c ≠ '"' ∧ c ≠ '\x7b' ∧ c ≠ '[' := by
    rcases hcs with rfl | rfl
    · refine ⟨d, ds, rfl, ?_, ?_, ?_⟩
      all_goals
        rintro rfl
        exact absurd hd (by decide)
    · exact ⟨'-', d :: ds, rfl, by decide, by decide, by decide⟩
  obtain ⟨c, cs, rfl, hquote, hbrace, hbracket⟩ := hhead
  rw [value]
  simp only [word?_of_opens h]
  split
  · next heq => exact absurd (List.cons.inj heq).1 hquote
  · next heq => exact absurd (List.cons.inj heq).1 hbrace
  · next heq => exact absurd (List.cons.inj heq).1 hbracket
  · rfl

/-- A number that takes all of a text is read as it is, whatever follows that ends it. -/
theorem value_of_at? {cs : List Char} {n : Numeral} {v : Json}
    (h : Numeral.at? cs = some (n, cs.length)) (hv : n.value = .ok v) (hrest : EndsNumber rest)
    (fuel room pos : Nat) :
    value (fuel + 1) room ⟨cs ++ rest, pos⟩ = .ok (v, ⟨rest, pos + cs.length⟩) := by
  have hat : Numeral.at? (cs ++ rest) = some (n, cs.length) := by
    rw [Numeral.at?_append hrest, h]
  rw [value_of_opens (Numeral.opens_of_at? hat).1, number]
  simp only [hat, hv, Except.map, Cursor.skip, List.drop_left]

/-- An integer that is written stands there as its number, if its digits are not too many. -/
theorem exists_at?_showInt {n : Int} (h : (showNat n.natAbs).length ≤ digitLimit) :
    ∃ m, Numeral.at? (showInt n).toList = some (m, (showInt n).toList.length) ∧
      m.value = .ok (.int n) := by
  refine ⟨_, Numeral.at?_showInt n, ?_⟩
  simp only [Numeral.value, Option.isNone_none, Bool.and_self, if_true,
    if_neg (Nat.not_lt.mpr h), Text.readNat_showNat, decide_eq_true_eq]
  split
  · rw [show -(n.natAbs : Int) = n by omega]
  · rw [show (n.natAbs : Int) = n by omega]

/-! ### Floating-point numbers -/

private theorem isNumberChar_exponentText (e : Int) :
    ∀ c ∈ Binary64.exponentText e, isNumberChar c = true := by
  have hdigits : ∀ c ∈ showNat e.natAbs, isNumberChar c = true := fun c hc ↦
    isNumberChar_of_isAsciiDigit (Text.isAsciiDigit_of_mem_showNat hc)
  unfold Binary64.exponentText
  simp only [List.mem_cons]
  rintro c (rfl | hc)
  · split <;> rfl
  · split at hc
    · rcases List.mem_cons.mp hc with rfl | hc
      · rfl
      · exact hdigits c hc
    · exact hdigits c hc

private theorem isNumberChar_positional {ds : List Char} (point : Int)
    (h : ∀ c ∈ ds, isNumberChar c = true) :
    ∀ c ∈ Binary64.positional ds point, isNumberChar c = true := by
  have hzeros : ∀ n, ∀ c ∈ List.replicate n '0', isNumberChar c = true := by
    intro n c hc
    rw [List.eq_of_mem_replicate hc]
    rfl
  unfold Binary64.positional
  intro c hc
  split at hc
  · rcases List.mem_cons.mp hc with rfl | hc
    · rfl
    rcases List.mem_cons.mp hc with rfl | hc
    · rfl
    exact (List.mem_append.mp hc).elim (hzeros _ c) (h c)
  · split at hc
    · rcases List.mem_append.mp hc with hc | hc
      · exact (List.mem_append.mp hc).elim (h c) (hzeros _ c)
      · simp only [List.mem_cons, List.not_mem_nil, or_false] at hc
        rcases hc with rfl | rfl <;> rfl
    · rcases List.mem_append.mp hc with hc | hc
      · exact h c (List.mem_of_mem_take hc)
      rcases List.mem_cons.mp hc with rfl | hc
      · rfl
      · exact h c (List.mem_of_mem_drop hc)

private theorem isNumberChar_scientific {ds : List Char} (e : Int)
    (h : ∀ c ∈ ds, isNumberChar c = true) :
    ∀ c ∈ Binary64.scientific ds e, isNumberChar c = true := by
  unfold Binary64.scientific
  intro c hc
  rcases List.mem_append.mp hc with hc | hc
  · split at hc
    · exact nomatch hc
    · exact h c hc
    · next d ds =>
      simp only [List.mem_cons] at hc h
      rcases hc with rfl | rfl | hc
      · exact h c (.inl rfl)
      · rfl
      · exact h c (.inr hc)
  · rcases List.mem_cons.mp hc with rfl | hc
    · rfl
    · exact isNumberChar_exponentText e c hc

/-- The text of a finite number holds nothing but characters of numbers. -/
theorem isNumberChar_of_mem_text {x : Binary64} (hx : x.isFinite = true) {c : Char}
    (hc : c ∈ x.text.toList) : isNumberChar c = true := by
  have hdigits : ∀ c ∈ (if x.isZero then "0.0".toList else x.positiveText),
      isNumberChar c = true := by
    split
    · exact List.all_eq_true.mp (rfl : "0.0".toList.all isNumberChar = true)
    · have hshow (n : Nat) : ∀ c ∈ showNat n, isNumberChar c = true := fun c hc ↦
        isNumberChar_of_isAsciiDigit (Text.isAsciiDigit_of_mem_showNat hc)
      unfold Binary64.positiveText
      simp only
      split
      · exact isNumberChar_positional _ (hshow _)
      · exact isNumberChar_scientific _ (hshow _)
  simp only [Binary64.text, Binary64.isNaN_of_isFinite hx, Binary64.isInfinite_of_isFinite hx,
    Bool.false_eq_true, if_false, String.toList_ofList] at hc
  split at hc
  · rcases List.mem_cons.mp hc with rfl | hc
    · rfl
    · exact hdigits c hc
  · exact hdigits c hc

/-- A word is read as its value. -/
theorem value_word {w : List Char × Json} (h : w ∈ words) (rest : List Char)
    (fuel room pos : Nat) :
    value (fuel + 1) room ⟨w.1 ++ rest, pos⟩ = .ok (w.2, ⟨rest, pos + w.1.length⟩) := by
  simp only [words, List.mem_cons, List.not_mem_nil, or_false] at h
  rcases h with rfl | rfl | rfl | rfl | rfl | rfl
  all_goals rfl

/-- The text of the number reads back as the number. -/
def ReadsBack (x : Binary64) : Prop := read x.text = .ok (.real x)

private theorem value_of_numberChars {cs : List Char} (h : ∀ c ∈ cs, isNumberChar c = true)
    (fuel room pos : Nat) : value (fuel + 1) room ⟨cs, pos⟩ = number ⟨cs, pos⟩ := by
  have hword : word? cs = none := by
    rw [word?, List.find?_eq_none]
    intro w hw hpre
    obtain ⟨c, e, more, heq, -, -, hce⟩ := words_hold_no_number hw
    have hsub := (List.isPrefixOf_iff_prefix.mp hpre).subset
    rw [heq] at hsub
    rw [h c (hsub (by simp)), h e (hsub (by simp))] at hce
    exact Bool.noConfusion hce
  rw [value]
  simp only [hword]
  split
  · exact absurd (h '"' (List.mem_cons_self ..)) (by decide)
  · exact absurd (h '\x7b' (List.mem_cons_self ..)) (by decide)
  · exact absurd (h '[' (List.mem_cons_self ..)) (by decide)
  · rfl

private theorem skipGaps_of_numberChars {cs : List Char} (h : ∀ c ∈ cs, isNumberChar c = true)
    (pos : Nat) : (⟨cs, pos⟩ : Cursor).skipGaps = ⟨cs, pos⟩ :=
  Cursor.skipGaps_append (List.forall_mem_nil _)
    (fun c hc ↦ isGap_of_isNumberChar (h c (List.mem_of_mem_head? hc))) pos

/-- A finite number whose text reads back stands there as a number. -/
theorem ReadsBack.exists_at? {x : Binary64} (h : ReadsBack x) (hx : x.isFinite = true) :
    ∃ n, Numeral.at? x.text.toList = some (n, x.text.toList.length) ∧ n.value = .ok (.real x) := by
  have hchars := fun c ↦ isNumberChar_of_mem_text (c := c) hx
  unfold ReadsBack read at h
  simp only [skipGaps_of_numberChars hchars, value_of_numberChars hchars] at h
  split at h
  · exact nomatch h
  split at h
  · exact nomatch h
  next v c hv =>
  split at h
  · next hrest =>
    cases h
    unfold number at hv
    split at hv
    · exact nomatch hv
    next n size hat =>
    obtain ⟨v, hvalue, heq⟩ := except_map_eq_ok_iff.mp hv
    cases heq
    have hall : ∀ c ∈ x.text.toList.drop size, isNumberChar c = true := fun c hc ↦
      hchars c (List.mem_of_mem_drop hc)
    simp only [Cursor.skip, skipGaps_of_numberChars hall] at hrest
    have hle := List.drop_eq_nil_iff.mp hrest
    have hsize : size = x.text.toList.length :=
      Nat.le_antisymm (Numeral.opens_of_at? hat).2 hle
    exact ⟨n, hsize ▸ hat, hvalue⟩
  · exact nomatch h

end Json

end RouteWatch
