import Mathlib.Tactic.SplitIfs
import RouteWatch.Json.Reader
import RouteWatch.Json.Writer

/-!
# Strings in JSON text

A string that is written, in whichever style, is read as itself: each character is written as one
escape, as a pair of escapes or as it is, and the reader takes exactly that for the character.
-/

namespace RouteWatch.Json

open RouteWatch.Text (hex hexDigit hexValue?)

private theorem hexValue?_hexDigit : ∀ n < 16, hexValue? (hexDigit n) = some n := by decide

private theorem length_unitEscape (n : Nat) : (unitEscape n).length = 6 := rfl

private theorem drop_unitEscape (n : Nat) (more : List Char) :
    (unitEscape n ++ more).drop 6 = more := rfl

/-- The digits of a UTF-16 unit are read as the unit. -/
private theorem nextEscape?_unitEscape {n : Nat} (hn : n < 0x10000) {tail : List Char}
    (htail : tail ≠ []) : nextEscape? (unitEscape n ++ tail) = some (some n) := by
  obtain ⟨c, tail, rfl⟩ := List.exists_cons_of_ne_nil htail
  have hdigits : hex 4 n = [hexDigit (n / 16 / 16 / 16 % 16), hexDigit (n / 16 / 16 % 16),
    hexDigit (n / 16 % 16), hexDigit (n % 16)] := rfl
  simp only [unitEscape, hdigits, List.cons_append, List.nil_append, nextEscape?, hex4?,
    hexValue?_hexDigit _ (Nat.mod_lt _ (by decide : 0 < 16))]
  show some (some _) = _
  rw [show ((n / 16 / 16 / 16 % 16 * 16 + n / 16 / 16 % 16) * 16 + n / 16 % 16) * 16 + n % 16 = n
    by omega]

private theorem toNat_lt (c : Char) :
    c.toNat < 0xD800 ∨ 0xDFFF < c.toNat ∧ c.toNat < 0x110000 := c.valid

private theorem unitChar_toNat {c : Char} : unitChar c.toNat = .ok c := by
  have hc := toNat_lt c
  have hhigh : isHighSurrogate c.toNat = false := by
    simp only [isHighSurrogate, Bool.and_eq_false_iff, decide_eq_false_iff_not]
    omega
  have hlow : isLowSurrogate c.toNat = false := by
    simp only [isLowSurrogate, Bool.and_eq_false_iff, decide_eq_false_iff_not]
    omega
  simp only [unitChar, hhigh, hlow, Bool.or_self, Bool.false_eq_true, if_false, Char.ofNat_toNat]

private theorem unicodeEscape_pair {pos high low : Nat} {more : List Char}
    (hnext : nextEscape? (unitEscape high ++ more) = some (some high))
    (hhigh : isHighSurrogate high = true) (hmore : nextEscape? more = some (some low))
    (hlow : isLowSurrogate low = true) :
    unicodeEscape pos (unitEscape high ++ more) = .ok (joinSurrogates high low, 12) := by
  simp only [unicodeEscape, hnext, hhigh, if_true, drop_unitEscape, hmore, hlow]

/-- The escape of a character is read as the character. -/
private theorem unicodeEscape_charEscape (pos : Nat) (c : Char) {tail : List Char}
    (htail : tail ≠ []) :
    unicodeEscape pos (charEscape c ++ tail) = .ok (c, (charEscape c).length) := by
  have hc := toNat_lt c
  unfold charEscape
  simp only
  split
  · next hn =>
    have hhigh : isHighSurrogate c.toNat = false := by
      simp only [isHighSurrogate, Bool.and_eq_false_iff, decide_eq_false_iff_not]
      omega
    simp only [unicodeEscape, nextEscape?_unitEscape hn htail, hhigh, unitChar_toNat, Except.map,
      length_unitEscape, Bool.false_eq_true, if_false]
  · next hn =>
    have hpair (n : Nat) : unitEscape n ++ tail ≠ [] := List.append_ne_nil_of_right_ne_nil _ htail
    have hhigh : isHighSurrogate (0xD800 + (c.toNat - 0x10000) / 0x400) = true := by
      simp only [isHighSurrogate, Bool.and_eq_true, decide_eq_true_eq]
      omega
    have hlow : isLowSurrogate (0xDC00 + (c.toNat - 0x10000) % 0x400) = true := by
      simp only [isLowSurrogate, Bool.and_eq_true, decide_eq_true_eq]
      omega
    have hjoin : joinSurrogates (0xD800 + (c.toNat - 0x10000) / 0x400)
        (0xDC00 + (c.toNat - 0x10000) % 0x400) = c := by
      unfold joinSurrogates
      rw [show 0x10000 + (0xD800 + (c.toNat - 0x10000) / 0x400 - 0xD800) * 0x400 +
        (0xDC00 + (c.toNat - 0x10000) % 0x400 - 0xDC00) = c.toNat by omega, Char.ofNat_toNat]
    have hfirst := nextEscape?_unitEscape (n := 0xD800 + (c.toNat - 0x10000) / 0x400) (by omega)
      (hpair (0xDC00 + (c.toNat - 0x10000) % 0x400))
    have hsecond := nextEscape?_unitEscape (n := 0xDC00 + (c.toNat - 0x10000) % 0x400) (by omega)
      htail
    rw [List.append_assoc, unicodeEscape_pair hfirst hhigh hsecond hlow, hjoin]
    rfl

private theorem charEscape_eq (c : Char) : ∃ more, charEscape c = '\\' :: 'u' :: more := by
  unfold charEscape
  simp only
  split
  · exact ⟨_, rfl⟩
  · exact ⟨_, rfl⟩

private theorem stringFrom_escape {more tail : List Char} {start pos : Nat} {c : Char}
    (held : List Char)
    (h : escape start pos ('\\' :: more ++ tail) = .ok (c, ('\\' :: more).length)) :
    stringFrom start held pos ('\\' :: more ++ tail) =
      stringFrom start (c :: held) (pos + ('\\' :: more).length) tail := by
  rw [List.cons_append] at h ⊢
  rw [stringFrom, if_neg (by decide), if_pos rfl, h]
  simp only [List.length_cons, Nat.add_sub_cancel, List.drop_left]

/-- What is written for a character is read as the character. -/
private theorem stringFrom_stringChar (asciiOnly : Bool) (start : Nat) (held : List Char)
    (pos : Nat) (c : Char) {tail : List Char} (htail : tail ≠ []) :
    stringFrom start held pos (stringChar asciiOnly c ++ tail) =
      stringFrom start (c :: held) (pos + (stringChar asciiOnly c).length) tail := by
  unfold stringChar
  split_ifs with hquote hslash hn hr ht hb hf hescape
  · exact stringFrom_escape held (by rw [hquote]; rfl)
  · exact stringFrom_escape held (by rw [hslash]; rfl)
  · exact stringFrom_escape held (by rw [hn]; rfl)
  · exact stringFrom_escape held (by rw [hr]; rfl)
  · exact stringFrom_escape held (by rw [ht]; rfl)
  · exact stringFrom_escape held (by rw [hb]; rfl)
  · exact stringFrom_escape held (by rw [hf]; rfl)
  · have hread := unicodeEscape_charEscape pos c htail
    obtain ⟨more, heq⟩ := charEscape_eq c
    rw [heq] at hread ⊢
    exact stringFrom_escape held hread
  · have hplain : ¬c.toNat < 0x20 := fun hlt ↦ hescape (by simp [hlt])
    rw [List.singleton_append, stringFrom, if_neg hquote, if_neg hslash, if_neg hplain]
    rfl

private theorem stringFrom_flatMap (asciiOnly : Bool) (start : Nat) (held : List Char)
    (pos : Nat) (cs rest : List Char) :
    stringFrom start held pos (cs.flatMap (stringChar asciiOnly) ++ '"' :: rest) =
      .ok (String.ofList (held.reverse ++ cs),
        ⟨rest, pos + (cs.flatMap (stringChar asciiOnly)).length + 1⟩) := by
  induction cs generalizing held pos with
  | nil =>
    rw [List.flatMap_nil, List.nil_append, stringFrom, if_pos rfl, List.append_nil]
    rfl
  | cons c cs ih =>
    rw [List.flatMap_cons, List.append_assoc,
      stringFrom_stringChar asciiOnly start held pos c (by simp), ih, List.reverse_cons,
      List.append_assoc, List.length_append, Nat.add_assoc pos]
    rfl

theorem toList_stringText (asciiOnly : Bool) (s : String) :
    (stringText asciiOnly s).toList = '"' :: s.toList.flatMap (stringChar asciiOnly) ++ ['"'] := by
  rw [stringText, String.toList_ofList]

/-- A string that is written is read as itself, whatever follows. -/
theorem string_stringText (asciiOnly : Bool) (s : String) (rest : List Char) (pos : Nat) :
    string ((⟨(stringText asciiOnly s).toList ++ rest, pos⟩ : Cursor).skip 1) =
      .ok (s, ⟨rest, pos + (stringText asciiOnly s).toList.length⟩) := by
  rw [toList_stringText, List.append_assoc, List.cons_append]
  have hread := stringFrom_flatMap asciiOnly (pos + 1 - 1) [] (pos + 1) s.toList rest
  rw [List.reverse_nil, List.nil_append, String.ofList_toList] at hread
  refine hread.trans ?_
  rw [List.length_append, List.length_cons, List.length_singleton]
  simp only [Nat.add_assoc, Nat.add_comm 1]

end RouteWatch.Json
