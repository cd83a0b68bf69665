import RouteWatch.Proofs.Text.Utf8
import RouteWatch.Text.Percent

/-!
# Texts in a part of a URL

A text that is written in a part of a URL is read back from it, and so two texts never look the same
there. What is written holds only characters that stand for themselves and escapes.
-/

namespace RouteWatch.Text

/-- A character stands for itself in a part of a URL. -/
def UrlPart.IsPlain (part : UrlPart) (c : Char) : Prop :=
  c.isAlphanum = true ∨ c ∈ ['_', '.', '-', '~'] ∨ part = .path ∧ c = '/'

/-- An upper-case hexadecimal digit. -/
def IsUpperHex (c : Char) : Prop := c ∈ "0123456789ABCDEF".toList

/-- Characters that stand for themselves in a part of a URL, and escapes. -/
inductive UrlPart.Spells (part : UrlPart) : List Char → Prop
  | nil : Spells part []
  | plain {c : Char} {cs : List Char} : part.IsPlain c → Spells part cs → Spells part (c :: cs)
  | escape {high low : Char} {cs : List Char} : IsUpperHex high → IsUpperHex low →
    Spells part cs → Spells part ('%' :: high :: low :: cs)

/-- What stands in a part of a URL is the name of a text: it is decoded to this text, and spelled
without any character that has a meaning of its own there. -/
structure UrlPart.Names (part : UrlPart) (t s : String) : Prop where
  decoded : ∃ bytes, percentDecode t.toList = some bytes ∧ Utf8.decode bytes = .ok s
  spelled : part.Spells t.toList

variable {part : UrlPart} {n : Nat} {b : UInt8} {cs : List Char}

/-! ### One byte -/

private theorem hexValue?_upperHexDigit : ∀ n < 16, hexValue? (upperHexDigit n) = some n := by
  decide

private theorem isUpperHex_upperHexDigit : ∀ n < 16, IsUpperHex (upperHexDigit n) := by
  unfold IsUpperHex
  decide

private theorem toNat_ofNat_of_ascii : ∀ n < 128, (Char.ofNat n).toNat = n := by decide

private theorem isPlain_of_isUnreserved :
    ∀ n < 128, isUnreserved n = true → (Char.ofNat n).isAlphanum = true ∨
      Char.ofNat n ∈ ['_', '.', '-', '~'] := by
  decide

/-- A byte that a part keeps is one of a few that ASCII has, and no percent sign. -/
theorem UrlPart.lt_of_keeps (h : part.keeps n = true) : n < 128 ∧ n ≠ 0x25 := by
  simp only [keeps, isUnreserved, Bool.or_eq_true, Bool.and_eq_true, decide_eq_true_eq,
    beq_iff_eq] at h
  omega

theorem UrlPart.isPlain_of_keeps (h : part.keeps n = true) : part.IsPlain (Char.ofNat n) := by
  have hn := (lt_of_keeps h).1
  rw [keeps, Bool.or_eq_true, Bool.and_eq_true, decide_eq_true_eq, beq_iff_eq] at h
  rcases h with h | ⟨hpath, rfl⟩
  · exact (isPlain_of_isUnreserved n hn h).imp_right .inl
  · exact .inr (.inr ⟨hpath, rfl⟩)

theorem percentByte_of_keeps (h : part.keeps b.toNat = true) :
    percentByte part b = [Char.ofNat b.toNat] := if_pos h

theorem percentByte_of_not_keeps (h : part.keeps b.toNat = false) :
    percentByte part b =
      ['%', upperHexDigit (b.toNat / 16), upperHexDigit (b.toNat % 16)] :=
  if_neg (Bool.not_eq_true _ ▸ h)

private theorem percentDecode_cons {c : Char} (hc : c ≠ '%') (hascii : c.toNat < 128) :
    percentDecode (c :: cs) = (percentDecode cs).map (UInt8.ofNat c.toNat :: ·) := by
  rw [percentDecode, if_neg]
  · simpa [hc] using hascii
  · exact fun _ _ _ heq _ ↦ absurd heq hc

private theorem percentDecode_escape {high low : Nat} (hhigh : high < 16) (hlow : low < 16) :
    percentDecode ('%' :: upperHexDigit high :: upperHexDigit low :: cs) =
      (percentDecode cs).map (UInt8.ofNat (16 * high + low) :: ·) := by
  rw [percentDecode, hexValue?_upperHexDigit high hhigh, hexValue?_upperHexDigit low hlow]
  cases percentDecode cs <;> rfl

/-- A byte is read back, whatever is behind it. -/
theorem percentDecode_percentByte (part : UrlPart) (b : UInt8) (cs : List Char) :
    percentDecode (percentByte part b ++ cs) = (percentDecode cs).map (b :: ·) := by
  have hb : b.toNat < 256 := b.toNat_lt
  cases hkeeps : part.keeps b.toNat with
  | true =>
    obtain ⟨hascii, hmark⟩ := UrlPart.lt_of_keeps hkeeps
    have hchar : (Char.ofNat b.toNat).toNat = b.toNat := toNat_ofNat_of_ascii _ hascii
    have hne : Char.ofNat b.toNat ≠ '%' := fun heq ↦ hmark (by rw [← hchar, heq]; rfl)
    rw [percentByte_of_keeps hkeeps, List.singleton_append,
      percentDecode_cons hne (by rwa [hchar]), hchar, UInt8.ofNat_toNat]
  | false =>
    rw [percentByte_of_not_keeps hkeeps, List.cons_append, List.cons_append, List.singleton_append,
      percentDecode_escape (by omega) (Nat.mod_lt _ (by decide)), Nat.div_add_mod,
      UInt8.ofNat_toNat]

theorem spells_percentByte (b : UInt8) (h : part.Spells cs) :
    part.Spells (percentByte part b ++ cs) := by
  have hb : b.toNat < 256 := b.toNat_lt
  cases hkeeps : part.keeps b.toNat with
  | true =>
    rw [percentByte_of_keeps hkeeps]
    exact .plain (UrlPart.isPlain_of_keeps hkeeps) h
  | false =>
    rw [percentByte_of_not_keeps hkeeps]
    exact .escape (isUpperHex_upperHexDigit _ (by omega))
      (isUpperHex_upperHexDigit _ (Nat.mod_lt _ (by decide))) h

/-! ### A text -/

/-- The bytes of a part of a URL are those that were written there. -/
theorem percentDecode_flatMap (part : UrlPart) (bs : List UInt8) :
    percentDecode (bs.flatMap (percentByte part)) = some bs := by
  induction bs with
  | nil => rfl
  | cons b bs ih =>
    rw [List.flatMap_cons, percentDecode_percentByte, ih]
    rfl

theorem spells_flatMap (part : UrlPart) (bs : List UInt8) :
    part.Spells (bs.flatMap (percentByte part)) := by
  induction bs with
  | nil => exact .nil
  | cons b bs ih =>
    rw [List.flatMap_cons]
    exact spells_percentByte b ih

/-- What is written for a text names it. -/
theorem names_percentEncode (part : UrlPart) (s : String) :
    part.Names (percentEncode part s) s := by
  constructor
  · refine ⟨Utf8.encode s, ?_, Utf8.decode_encode s⟩
    rw [percentEncode, String.toList_ofList, percentDecode_flatMap]
  · rw [percentEncode, String.toList_ofList]
    exact spells_flatMap part _

/-- One text has one meaning in a part of a URL. -/
theorem UrlPart.Names.unique {t s s' : String} (h : part.Names t s) (h' : part.Names t s') :
    s = s' := by
  obtain ⟨bytes, hbytes, hs⟩ := h.decoded
  obtain ⟨bytes', hbytes', hs'⟩ := h'.decoded
  obtain rfl := Option.some.inj (hbytes.symm.trans hbytes')
  exact Except.ok.inj (hs.symm.trans hs')

/-- Two texts are never written the same. -/
theorem percentEncode_inj {s s' : String} :
    percentEncode part s = percentEncode part s' ↔ s = s' := by
  refine ⟨fun h ↦ (names_percentEncode part s).unique (h ▸ names_percentEncode part s'), ?_⟩
  rintro rfl
  rfl

/-- A character that neither stands for itself in a part of a URL nor belongs to an escape is not
there. -/
theorem UrlPart.Spells.notMem (h : part.Spells cs) {c : Char} (hplain : ¬part.IsPlain c)
    (hmark : c ≠ '%') (hhex : ¬IsUpperHex c) : c ∉ cs := by
  induction h with
  | nil => exact List.not_mem_nil
  | plain hc _ ih =>
    rw [List.mem_cons, not_or]
    exact ⟨fun heq ↦ hplain (heq ▸ hc), ih⟩
  | escape hhigh hlow _ ih =>
    rw [List.mem_cons, List.mem_cons, List.mem_cons, not_or, not_or, not_or]
    exact ⟨hmark, fun heq ↦ hhex (heq ▸ hhigh), fun heq ↦ hhex (heq ▸ hlow), ih⟩

/-- No query begins within a part of a URL. -/
theorem UrlPart.Spells.question_notMem (h : part.Spells cs) : '?' ∉ cs :=
  h.notMem (by simp [IsPlain]) (by decide) (by unfold IsUpperHex; decide)

/-- No fragment begins within a part of a URL. -/
theorem UrlPart.Spells.number_notMem (h : part.Spells cs) : '#' ∉ cs :=
  h.notMem (by simp [IsPlain]) (by decide) (by unfold IsUpperHex; decide)

/-- No segment ends within what is written in one. -/
theorem UrlPart.Spells.slash_notMem (h : UrlPart.segment.Spells cs) : '/' ∉ cs :=
  h.notMem (by simp [IsPlain]) (by decide) (by unfold IsUpperHex; decide)

end RouteWatch.Text
