import RouteWatch.Proofs.Except
import RouteWatch.Text.Lines
import RouteWatch.Text.Utf8

/-!
# Texts as bytes and back

The bytes of a text spell that text and nothing else, and a text without carriage returns is read
from a file as it was written.
-/

namespace RouteWatch.Text

namespace Utf8

variable {held : List Piece} {pos b : Nat} {bs : List UInt8} {next : Nat × Nat}
  {later : List (Nat × Nat)}

private theorem piecesFrom_whole (hb : b ≤ 0x7F) :
    piecesFrom held pos none (UInt8.ofNat b :: bs) =
      piecesFrom (.ok (Char.ofNat b) :: held) (pos + 1) none bs := by
  have hn : (UInt8.ofNat b).toNat = b := by
    rw [UInt8.toNat_ofNat']
    omega
  simp only [piecesFrom, step, openAt, followers, hn, if_pos hb]
  rfl

private theorem piecesFrom_open (hb : b < 256) (h : followers b = some (next :: later)) :
    piecesFrom held pos none (UInt8.ofNat b :: bs) =
      piecesFrom held (pos + 1) (some ⟨b, pos, leadBits b, next, later⟩) bs := by
  have hn : (UInt8.ofNat b).toNat = b := by
    rw [UInt8.toNat_ofNat']
    omega
  simp only [piecesFrom, step, openAt, hn, h]
  rfl

private theorem piecesFrom_next {first start value : Nat} {after : Nat × Nat} (hb : b < 256)
    (h : next.1 ≤ b ∧ b ≤ next.2) :
    piecesFrom held pos (some ⟨first, start, value, next, after :: later⟩)
        (UInt8.ofNat b :: bs) =
      piecesFrom held (pos + 1) (some ⟨first, start, value * 64 + b % 64, after, later⟩) bs := by
  have hn : (UInt8.ofNat b).toNat = b := by
    rw [UInt8.toNat_ofNat']
    omega
  simp only [piecesFrom, step, hn, if_pos h]
  rfl

private theorem piecesFrom_last {first start value : Nat} (hb : b < 256)
    (h : next.1 ≤ b ∧ b ≤ next.2) :
    piecesFrom held pos (some ⟨first, start, value, next, []⟩) (UInt8.ofNat b :: bs) =
      piecesFrom (.ok (Char.ofNat (value * 64 + b % 64)) :: held) (pos + 1) none bs := by
  have hn : (UInt8.ofNat b).toNat = b := by
    rw [UInt8.toNat_ofNat']
    omega
  simp only [piecesFrom, step, hn, if_pos h]
  rfl

/-! ### The first byte -/

variable {v : Nat}

private theorem followers_two (h : 0x7F < v ∧ v ≤ 0x7FF) :
    followers (v / 64 % 32 + 192) = some [tail] := by
  unfold followers
  rw [if_neg (by omega), if_neg (by omega), if_pos (by omega)]

private theorem leadBits_two (h : v ≤ 0x7FF) : leadBits (v / 64 % 32 + 192) = v / 64 := by
  unfold leadBits
  rw [if_neg (by omega), if_pos (by omega)]
  omega

private theorem followers_three (h : 0x7FF < v ∧ v ≤ 0xFFFF)
    (hvalid : v < 0xD800 ∨ 0xDFFF < v) :
    ∃ next, followers (v / 4096 % 16 + 224) = some [next, tail] ∧
      next.1 ≤ v / 64 % 64 + 128 ∧ v / 64 % 64 + 128 ≤ next.2 := by
  unfold followers
  rw [if_neg (by omega), if_neg (by omega), if_neg (by omega)]
  split
  · exact ⟨_, rfl, by omega, by omega⟩
  split
  · exact ⟨_, rfl, by omega, by omega⟩
  · rw [if_pos (by omega)]
    exact ⟨_, rfl, by unfold tail; omega, by unfold tail; omega⟩

private theorem leadBits_three (h : v ≤ 0xFFFF) :
    leadBits (v / 4096 % 16 + 224) = v / 4096 := by
  unfold leadBits
  rw [if_neg (by omega), if_neg (by omega), if_pos (by omega)]
  omega

private theorem followers_four (h : 0xFFFF < v ∧ v < 0x110000) :
    ∃ next, followers (v / 262144 % 8 + 240) = some [next, tail, tail] ∧
      next.1 ≤ v / 4096 % 64 + 128 ∧ v / 4096 % 64 + 128 ≤ next.2 := by
  unfold followers
  rw [if_neg (by omega), if_neg (by omega), if_neg (by omega), if_neg (by omega),
    if_neg (by omega), if_neg (by omega)]
  split
  · exact ⟨_, rfl, by omega, by omega⟩
  split
  · exact ⟨_, rfl, by unfold tail; omega, by unfold tail; omega⟩
  · rw [if_pos (by omega)]
    exact ⟨_, rfl, by omega, by omega⟩

private theorem leadBits_four (h : v < 0x110000) :
    leadBits (v / 262144 % 8 + 240) = v / 262144 := by
  unfold leadBits
  rw [if_neg (by omega), if_neg (by omega), if_neg (by omega)]
  omega

/-! ### A character, and a text -/

private theorem toNat_lt_of_char (c : Char) :
    c.toNat < 0xD800 ∨ 0xDFFF < c.toNat ∧ c.toNat < 0x110000 := by
  have h := c.valid
  rwa [UInt32.isValidChar, Nat.isValidChar] at h

/-- The bytes of a character spell it, whatever comes after them. -/
private theorem piecesFrom_encodeChar (held : List Piece) (pos : Nat) (c : Char)
    (bs : List UInt8) :
    piecesFrom held pos none (encodeChar c ++ bs) =
      piecesFrom (.ok c :: held) (pos + (encodeChar c).length) none bs := by
  obtain ⟨v, hv⟩ : ∃ v, v = c.toNat := ⟨_, rfl⟩
  have hc : Char.ofNat v = c := by rw [hv, Char.ofNat_toNat]
  have hval : c.val.toNat = v := hv.symm
  have hvalid : v < 0xD800 ∨ 0xDFFF < v ∧ v < 0x110000 := hv ▸ toNat_lt_of_char c
  unfold encodeChar String.utf8EncodeChar
  simp only [hval]
  split
  · next h => rw [List.singleton_append, piecesFrom_whole h, hc]; rfl
  split
  · next h₁ h₂ =>
    rw [List.cons_append, List.singleton_append,
      piecesFrom_open (by omega) (followers_two ⟨by omega, h₂⟩), leadBits_two h₂,
      piecesFrom_last (by omega) (by unfold tail; omega),
      show v / 64 * 64 + (v % 64 + 128) % 64 = v by omega, hc]
    rfl
  split
  · next h₁ h₂ h₃ =>
    obtain ⟨next, hfollow, hnext⟩ := followers_three (v := v) (by omega) (by omega)
    rw [List.cons_append, List.cons_append, List.singleton_append,
      piecesFrom_open (by omega) hfollow, leadBits_three h₃, piecesFrom_next (by omega) hnext,
      piecesFrom_last (by omega) (by unfold tail; omega),
      show (v / 4096 * 64 + (v / 64 % 64 + 128) % 64) * 64 + (v % 64 + 128) % 64 = v by omega, hc]
    rfl
  · next h₁ h₂ h₃ =>
    obtain ⟨next, hfollow, hnext⟩ := followers_four (v := v) (by omega)
    rw [List.cons_append, List.cons_append, List.cons_append, List.singleton_append,
      piecesFrom_open (by omega) hfollow, leadBits_four (by omega),
      piecesFrom_next (by omega) hnext, piecesFrom_next (by omega) (by unfold tail; omega),
      piecesFrom_last (by omega) (by unfold tail; omega),
      show ((v / 262144 * 64 + (v / 4096 % 64 + 128) % 64) * 64 + (v / 64 % 64 + 128) % 64) * 64 +
        (v % 64 + 128) % 64 = v by omega, hc]
    rfl

private theorem piecesFrom_encode (held : List Piece) (pos : Nat) (cs : List Char) :
    piecesFrom held pos none (cs.flatMap encodeChar) = held.reverse ++ cs.map .ok := by
  induction cs generalizing held pos with
  | nil => rw [List.flatMap_nil, piecesFrom, List.map_nil, List.append_nil]
  | cons c cs ih =>
    rw [List.flatMap_cons, piecesFrom_encodeChar, ih, List.reverse_cons, List.append_assoc]
    rfl

/-- The bytes of a text spell it. -/
theorem decode_encode (s : String) : decode (encode s) = .ok s := by
  rw [decode, pieces, encode, piecesFrom_encode, List.reverse_nil, List.nil_append]
  have hall : (s.toList.map Except.ok : List Piece).mapM id = .ok (s.toList.map id) := by
    rw [List.mapM_map]
    exact mapM_eq_ok_of_forall fun _ _ ↦ rfl
  rw [hall, List.map_id]
  exact congrArg Except.ok String.ofList_toList

end Utf8

private theorem universalFrom_of_notMem (held : List Char) {cs : List Char} (h : '\r' ∉ cs) :
    universalFrom held cs = held.reverse ++ cs := by
  induction cs generalizing held with
  | nil => rw [universalFrom, List.append_nil]
  | cons c cs ih =>
    rw [List.mem_cons, not_or] at h
    have hc : c ≠ '\r' := Ne.symm h.1
    rw [universalFrom, if_neg hc, ih _ h.2, List.reverse_cons, List.append_assoc]
    · rfl
    · exact fun _ hr ↦ absurd hr hc

/-- A text without carriage returns has the line ends that it is read with. -/
theorem universalNewlines_of_notMem {text : String} (h : '\r' ∉ text.toList) :
    universalNewlines text = text := by
  rw [universalNewlines, universalFrom_of_notMem [] h, List.reverse_nil, List.nil_append,
    String.ofList_toList]

end RouteWatch.Text
