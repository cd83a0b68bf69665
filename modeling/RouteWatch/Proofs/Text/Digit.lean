import RouteWatch.Text.Digit

/-!
# Numbers written and read

A number that is written in decimal is read as the same number, without a zero in front, and it
has few digits when it is small.
-/

namespace RouteWatch.Text

private theorem digit?_of_isDigit {c : Char} (h : c.isDigit = true) :
    digit? c = some (c.toNat - 48) := by
  rw [Char.isDigit_iff_toNat] at h
  change 48 ≤ c.toNat ∧ c.toNat ≤ 57 at h
  unfold digit?
  rw [if_pos (by omega), if_pos (by simp only [Bool.and_eq_true, decide_eq_true_eq]; omega)]

private theorem isDigit_of_mem_toDigits {n : Nat} {c : Char} (h : c ∈ Nat.toDigits 10 n) :
    c.isDigit = true :=
  Nat.isDigit_of_mem_toDigits (by decide) (by decide) h

/-- The digits of a number are digits. -/
theorem isDigit_of_mem_showNat {n : Nat} {c : Char} (h : c ∈ showNat n) : isDigit c = true := by
  rw [isDigit, digit?_of_isDigit (isDigit_of_mem_toDigits h)]
  rfl

theorem isAsciiDigit_of_mem_showNat {n : Nat} {c : Char} (h : c ∈ showNat n) :
    isAsciiDigit c = true := by
  have := isDigit_of_mem_toDigits h
  rw [Char.isDigit_iff_toNat] at this
  simpa [isAsciiDigit] using this

/-- A number has at least one digit. -/
theorem showNat_ne_nil (n : Nat) : showNat n ≠ [] := Nat.toDigits_ne_nil

private theorem foldl_digits {cs : List Char} (n : Nat) (h : ∀ c ∈ cs, c.isDigit = true) :
    cs.foldl (fun n c ↦ 10 * n + (digit? c).getD 0) n = Nat.ofDigitChars 10 cs n := by
  induction cs generalizing n with
  | nil => rfl
  | cons c cs ih =>
    rw [List.foldl_cons, Nat.ofDigitChars_cons, digit?_of_isDigit (h c (List.mem_cons_self ..)),
      ih _ fun d hd ↦ h d (List.mem_cons_of_mem _ hd)]
    rfl

/-- A number that is written is read as itself. -/
theorem readNat_showNat (n : Nat) : readNat (showNat n) = n := by
  rw [readNat, showNat, foldl_digits 0 fun c hc ↦ isDigit_of_mem_toDigits hc]
  exact Nat.ofDigitChars_ten_toDigits

/-- A number below a power of ten has at most as many digits as the exponent says. -/
theorem length_showNat_le {n k : Nat} (hk : 0 < k) (h : n < Nat.pow 10 k) :
    (showNat n).length ≤ k :=
  (Nat.length_toDigits_le_iff (by decide) hk).mpr h

/-- Only zero is written with a zero in front. -/
theorem head?_showNat_ne_zero {n : Nat} (hn : n ≠ 0) : (showNat n).head? ≠ some '0' := by
  induction n using Nat.strongRecOn with
  | ind n ih =>
    unfold showNat at ih ⊢
    by_cases hlt : n < 10
    · have hdigit : ∀ n < 10, n ≠ 0 → [n.digitChar].head? ≠ some '0' := by decide
      rw [Nat.toDigits_of_lt_base hlt]
      exact hdigit n hlt hn
    · have hrest := ih (n / 10) (by omega) (by omega)
      rw [Nat.toDigits_of_base_le (by decide) (by omega), List.head?_append]
      cases hhead : (Nat.toDigits 10 (n / 10)).head? with
      | none => exact absurd (List.head?_eq_none_iff.mp hhead) Nat.toDigits_ne_nil
      | some c => rwa [Option.some_or, ← hhead]

private theorem digit?_getD_lt (c : Char) : (digit? c).getD 0 < 10 := by
  unfold digit?
  simp only
  split
  · split
    · next h =>
      simp only [Bool.and_eq_true, decide_eq_true_eq] at h
      rw [Option.getD_some]
      omega
    · decide
  · cases hz : zeroDigits.find? fun z ↦ z ≤ c.toNat && c.toNat < z + 10 with
    | none => exact Nat.zero_lt_succ 9
    | some z =>
      have := List.find?_some hz
      simp only [Bool.and_eq_true, decide_eq_true_eq] at this
      rw [Option.map_some, Option.getD_some]
      omega

private theorem foldl_digits_lt (cs : List Char) (n : Nat) :
    cs.foldl (fun n c ↦ 10 * n + (digit? c).getD 0) n < (n + 1) * Nat.pow 10 cs.length := by
  induction cs generalizing n with
  | nil => exact Nat.lt_of_lt_of_eq (Nat.lt_succ_self n) (Nat.mul_one _).symm
  | cons c cs ih =>
    have hc := digit?_getD_lt c
    calc
      _ < (10 * n + (digit? c).getD 0 + 1) * Nat.pow 10 cs.length := ih _
      _ ≤ (10 * (n + 1)) * Nat.pow 10 cs.length := Nat.mul_le_mul_right _ (by omega)
      _ = (n + 1) * Nat.pow 10 (cs.length + 1) := by
        rw [Nat.pow_eq, Nat.pow_eq, Nat.pow_succ, Nat.mul_comm 10, Nat.mul_assoc, Nat.mul_comm 10]

/-- A number that is read is below the power of ten that its digits count. -/
theorem readNat_lt (cs : List Char) : readNat cs < Nat.pow 10 cs.length := by
  have := foldl_digits_lt cs 0
  rwa [Nat.zero_add, Nat.one_mul] at this

/-- A number that is read from few digits has few digits. -/
theorem length_showNat_readNat_le {cs : List Char} {k : Nat} (hk : 0 < k) (h : cs.length ≤ k) :
    (showNat (readNat cs)).length ≤ k :=
  length_showNat_le hk
    (Nat.lt_of_lt_of_le (readNat_lt cs) (Nat.pow_le_pow_right (Nat.zero_lt_succ 9) h))

end RouteWatch.Text
