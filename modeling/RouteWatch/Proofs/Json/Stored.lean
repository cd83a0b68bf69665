import RouteWatch.Files.Reading
import RouteWatch.Proofs.Files.Tree
import RouteWatch.Proofs.Json.RoundTrip
import RouteWatch.Proofs.Text.Utf8

/-!
# JSON that is stored in a file

No text of a value holds a carriage return, so the line ends of the file are those that were
written, and a legible value that does not nest too deep is read back from the file in which it is
stored.
-/

namespace RouteWatch

/-- A text without carriage returns is read back from the file that holds it. -/
theorem Tree.readText_of_at? {t : Tree} {p : Path} {text : String} (shown : String)
    (h : t.at? p = some (.file (Text.Utf8.encode text))) (hreturn : '\r' ∉ text.toList) :
    t.readText p shown = .ok text := by
  simp only [readText, read_of_at? shown h, Text.Utf8.decode_encode,
    Text.universalNewlines_of_notMem hreturn]

/-- A text is read from what stands at the path. -/
theorem Tree.has_of_readText {t : Tree} {p : Path} {text shown : String}
    (h : t.readText p shown = .ok text) : t.has p = true := by
  unfold readText at h
  split at h
  · exact nomatch h
  · next hread => exact has_of_read hread

namespace Json

open RouteWatch.Text (hex hexDigit showInt showNat)

/-! ### Carriage returns -/

private theorem hexDigit_ne : ∀ n < 16, hexDigit n ≠ '\r' := by decide

private theorem notMem_hex (width n : Nat) : '\r' ∉ hex width n := by
  induction width generalizing n with
  | zero => exact List.not_mem_nil
  | succ width ih =>
    rw [hex, List.mem_append, List.mem_singleton, not_or]
    exact ⟨ih _, Ne.symm (hexDigit_ne _ (Nat.mod_lt _ (by decide)))⟩

private theorem notMem_unitEscape (n : Nat) : '\r' ∉ unitEscape n := by
  simp [unitEscape, notMem_hex]

private theorem notMem_stringChar (asciiOnly : Bool) (c : Char) :
    '\r' ∉ stringChar asciiOnly c := by
  unfold stringChar
  split_ifs with _ _ _ hreturn
  all_goals try decide
  · unfold charEscape
    simp only
    split
    · exact notMem_unitEscape _
    · simp [notMem_unitEscape]
  · rw [List.mem_singleton]
    exact Ne.symm hreturn

private theorem notMem_stringText (asciiOnly : Bool) (s : String) :
    '\r' ∉ (stringText asciiOnly s).toList := by
  simp [toList_stringText, notMem_stringChar]

private theorem notMem_showInt (n : Int) : '\r' ∉ (showInt n).toList := by
  have hdigits : '\r' ∉ showNat n.natAbs := fun h ↦
    absurd (Text.isAsciiDigit_of_mem_showNat h) (by decide)
  unfold showInt
  split
  · simpa using hdigits
  · simpa using hdigits

private theorem notMem_realText {x : Binary64} (h : x.IsLegible) : '\r' ∉ (realText x).toList := by
  rcases h with h | rfl | rfl | rfl
  · rw [realText_of_isFinite h]
    exact fun hmem ↦ absurd (isNumberChar_of_mem_text h hmem) (by decide)
  all_goals decide

variable {style : Style} {depth : Nat}

private theorem notMem_lineBreak (style : Style) (depth : Nat) :
    '\r' ∉ (style.lineBreak depth).toList := by
  unfold Style.lineBreak
  split
  · exact List.not_mem_nil
  · rw [String.toList_append, List.mem_append, String.toList_ofList, String.toList_ofList, not_or]
    exact ⟨by decide, fun h ↦ absurd (List.eq_of_mem_replicate h) (by decide)⟩

private theorem notMem_between (style : Style) (depth : Nat) :
    '\r' ∉ (style.between depth).toList := by
  unfold Style.between
  split
  · decide
  · rw [String.toList_append, List.mem_append, not_or]
    exact ⟨by decide, notMem_lineBreak style depth⟩

private theorem notMem_writeItems {vs : List Json}
    (h : ∀ v ∈ vs, '\r' ∉ (writeAt style depth v).toList) :
    '\r' ∉ (writeItems style depth vs).toList := by
  induction vs with
  | nil => exact List.not_mem_nil
  | cons v vs ih =>
    rw [List.forall_mem_cons] at h
    simp only [writeItems, String.toList_append, List.mem_append, not_or]
    exact ⟨⟨notMem_between style depth, h.1⟩, ih h.2⟩

private theorem notMem_writeFields {fields : Fields}
    (h : ∀ field ∈ fields, '\r' ∉ (writeAt style depth field.2).toList) :
    '\r' ∉ (writeFields style depth fields).toList := by
  induction fields with
  | nil => exact List.not_mem_nil
  | cons field fields ih =>
    rw [List.forall_mem_cons] at h
    simp only [writeFields, String.toList_append, List.mem_append, not_or]
    exact ⟨⟨⟨⟨notMem_between style depth, notMem_stringText _ _⟩, by decide⟩, h.1⟩, ih h.2⟩

private theorem notMem_writeAt {v : Json} (h : v.Legible) (style : Style) (depth : Nat) :
    '\r' ∉ (writeAt style depth v).toList := by
  induction h generalizing depth with
  | null => exact (by decide : '\r' ∉ "null".toList)
  | bool b =>
    cases b with
    | false => exact (by decide : '\r' ∉ "false".toList)
    | true => exact (by decide : '\r' ∉ "true".toList)
  | int _ => exact notMem_showInt _
  | real hx => exact notMem_realText hx
  | text s => exact notMem_stringText _ s
  | @list vs _ ih =>
    cases vs with
    | nil => exact (by decide : '\r' ∉ "[]".toList)
    | cons v vs =>
      rw [List.forall_mem_cons] at ih
      simp only [writeAt, String.toList_append, List.mem_append, not_or]
      exact ⟨⟨⟨⟨⟨by decide, notMem_lineBreak style _⟩, ih.1 _⟩,
        notMem_writeItems fun v hv ↦ ih.2 v hv _⟩, notMem_lineBreak style _⟩, by decide⟩
  | @object fields _ _ ih =>
    cases fields with
    | nil => exact (by decide : '\r' ∉ "\x7b\x7d".toList)
    | cons field fields =>
      rw [List.forall_mem_cons] at ih
      simp only [writeAt, String.toList_append, List.mem_append, not_or]
      exact ⟨⟨⟨⟨⟨⟨⟨by decide, notMem_lineBreak style _⟩, notMem_stringText _ _⟩, by decide⟩,
        ih.1 _⟩, notMem_writeFields fun f hf ↦ ih.2 f hf _⟩, notMem_lineBreak style _⟩, by decide⟩

/-- A legible value that does not nest too deep is read back from the file in which it is stored. -/
theorem read_stored {t : Tree} {p : Path} {v : Json} {style : Style}
    (h : t.at? p = some (.file (Text.Utf8.encode (write style v)))) (hv : v.Legible)
    (hreals : v.Reals fun x ↦ x.isFinite = true → ReadsBack x) (hnests : v.Nests nestingLimit)
    (shown : String) : ∃ text, t.readText p shown = .ok text ∧ read text = .ok v :=
  ⟨write style v, Tree.readText_of_at? shown h (notMem_writeAt hv style 0),
    read_write hv hreals hnests style⟩

end Json

end RouteWatch
