import AgentFlow.Text.Encoding
import Mathlib.Tactic.SplitIfs

/-!
# Bytes read back

The bytes of a row of characters are read as that row, character by character: the first byte of
each tells how many there are, and each of the others gives six bits. Without a mark in front and
without zeros, nothing about them is taken for another encoding.

* `Encoding.octets?_utf8EncodeChar`, `Encoding.octets?_utf8Bytes`: one character, and a row of them.
* `decodeDocument?_utf8Bytes`: a document.
-/

namespace AgentFlow

namespace Encoding

theorem sextet?_ofNat (n : Nat) : sextet? (UInt8.ofNat (n % 64 + 128)) = some (n % 64) := by
  have hbyte : (UInt8.ofNat (n % 64 + 128)).toNat = n % 64 + 128 := by
    rw [UInt8.toNat_ofNat']
    omega
  rw [sextet?, hbyte, if_pos (by omega), Option.some.injEq]
  omega

theorem toNat_lt_of_char (c : Char) : c.val.toNat < 0x110000 := by
  have hvalid : c.toNat.isValidChar := c.valid
  exact hvalid.elim (fun h => Nat.lt_trans h (by decide)) And.right

/-- The bytes of a character are read as that character. -/
theorem octets?_utf8EncodeChar (c : Char) (bs : List UInt8) :
    octets? (String.utf8EncodeChar c ++ bs) = (octets? bs).map (.char c :: ·) := by
  have hsize := toNat_lt_of_char c
  have hpoint {least n : Nat} (hn : n = c.val.toNat) (hleast : least ≤ n) :
      pointAbove? least n (octets? bs) = (octets? bs).map (.char c :: ·) := by
    have hc : CodePoint.ofNat? n = some (.char c) := hn ▸ CodePoint.ofNat?_toNat (.char c)
    rw [pointAbove?, if_neg (Nat.not_lt.2 hleast), hc]
    cases octets? bs <;> rfl
  have hlead {n : Nat} (hn : n < 256) : (UInt8.ofNat n).toNat = n := by
    rw [UInt8.toNat_ofNat']
    exact Nat.mod_eq_of_lt hn
  rw [String.utf8EncodeChar]
  generalize c.val.toNat = v at hsize hpoint
  split_ifs with hone htwo hthree
  · have ha : (UInt8.ofNat v).toNat = v := hlead (by omega)
    rw [List.cons_append, List.nil_append, octets?.eq_def]
    simp only [ha]
    rw [if_pos (by omega)]
    exact hpoint rfl (Nat.zero_le _)
  · have ha : (UInt8.ofNat (v / 64 % 32 + 192)).toNat = v / 64 % 32 + 192 := hlead (by omega)
    simp only [List.cons_append, List.nil_append, octets?, ha, sextet?_ofNat, Option.bind_eq_bind,
      Option.bind_some]
    rw [if_neg (by omega), if_pos (by omega)]
    exact hpoint (by omega) (by omega)
  · have ha : (UInt8.ofNat (v / 4096 % 16 + 224)).toNat = v / 4096 % 16 + 224 := hlead (by omega)
    simp only [List.cons_append, List.nil_append, octets?, ha, sextet?_ofNat, Option.bind_eq_bind,
      Option.bind_some]
    rw [if_neg (by omega), if_neg (by omega), if_pos (by omega)]
    exact hpoint (by omega) (by omega)
  · have ha : (UInt8.ofNat (v / 262144 % 8 + 240)).toNat = v / 262144 % 8 + 240 := hlead (by omega)
    simp only [List.cons_append, List.nil_append, octets?, ha, sextet?_ofNat, Option.bind_eq_bind,
      Option.bind_some]
    rw [if_neg (by omega), if_neg (by omega), if_neg (by omega), if_pos (by omega)]
    exact hpoint (by omega) (by omega)

theorem utf8Bytes_eq_flatMap (cs : List Char) :
    utf8Bytes cs = cs.flatMap String.utf8EncodeChar := by
  simp [utf8Bytes, String.toUTF8, String.toByteArray_ofList, List.utf8Encode]

/-- The bytes of a row of characters are read as that row. -/
theorem octets?_utf8Bytes (cs : List Char) : octets? (utf8Bytes cs) = some (Text.ofChars cs) := by
  rw [utf8Bytes_eq_flatMap]
  induction cs with
  | nil => rfl
  | cons c cs ih =>
    rw [List.flatMap_cons, octets?_utf8EncodeChar, ih]
    rfl

/-- No byte of a character is one of a byte order mark of wider units. -/
theorem toNat_of_mem_utf8EncodeChar {c : Char} (hc : c ≠ '\x00') {b : UInt8}
    (hb : b ∈ String.utf8EncodeChar c) : 0 < b.toNat ∧ b.toNat < 0xF8 := by
  have hpos : 0 < c.val.toNat := by
    refine Nat.pos_of_ne_zero fun h => hc (Char.ext ?_)
    exact UInt32.toNat_inj.1 h
  rw [String.utf8EncodeChar] at hb
  have hsize := toNat_lt_of_char c
  generalize c.val.toNat = v at hsize hpos hb
  split_ifs at hb <;> simp only [List.mem_cons, List.not_mem_nil, or_false] at hb
  all_goals rcases hb with rfl | rfl | rfl | rfl
  all_goals
    rw [UInt8.toNat_ofNat']
    omega

theorem ofZeros_of_forall_pos {bytes : List UInt8} (h : ∀ b ∈ bytes, 0 < b.toNat) :
    ofZeros bytes = .utf8 := by
  have hne {b : UInt8} (hb : b ∈ bytes) : b ≠ 0 := fun hzero => by simpa [hzero] using h b hb
  unfold ofZeros
  split
  · rw [if_neg (hne (by simp)), if_neg (hne (by simp))]
  · rw [if_neg (hne (by simp)), if_neg (hne (by simp))]
  · rfl

/-- The bytes of a row without zeros are those of UTF-8, unless a mark stands in front. -/
theorem detect_utf8Bytes {cs : List Char} (hzero : '\x00' ∉ cs)
    (hmark : cs.head? ≠ some '\uFEFF') : detect (utf8Bytes cs) = (.utf8, utf8Bytes cs) := by
  have hbytes : ∀ b ∈ utf8Bytes cs, 0 < b.toNat ∧ b.toNat < 0xF8 := by
    intro b hb
    rw [utf8Bytes_eq_flatMap] at hb
    obtain ⟨c, hc, hb⟩ := List.mem_flatMap.1 hb
    exact toNat_of_mem_utf8EncodeChar (fun h => hzero (h ▸ hc)) hb
  have hread := octets?_utf8Bytes cs
  generalize utf8Bytes cs = bytes at hbytes hread
  have hnone : (marks.find? fun m => m.1.isPrefixOf bytes) = none := by
    refine List.find?_eq_none.2 fun m hm hprefix => ?_
    obtain ⟨rest, rfl⟩ := List.isPrefixOf_iff_prefix.1 hprefix
    simp only [marks, List.mem_cons, List.not_mem_nil, or_false] at hm
    rcases hm with rfl | rfl | rfl | rfl | rfl
    · exact absurd (hbytes 0x00 (by simp)).1 (by decide)
    · exact absurd (hbytes 0x00 (by simp)).1 (by decide)
    · exact absurd (hbytes 0xFE (by simp)).2 (by decide)
    · exact absurd (hbytes 0xFF (by simp)).2 (by decide)
    · -- these bytes are read as the mark
      have hpoint : octets? ([0xEF, 0xBB, 0xBF] ++ rest)
          = (octets? rest).map (.char '\uFEFF' :: ·) := octets?_utf8EncodeChar '\uFEFF' rest
      rw [hpoint] at hread
      obtain ⟨t, -, ht⟩ := Option.map_eq_some_iff.1 hread
      cases cs with
      | nil => cases ht
      | cons c cs =>
        cases ht
        exact hmark rfl
  rw [detect, hnone]
  exact congrArg (·, bytes) (ofZeros_of_forall_pos fun b hb => (hbytes b hb).1)

end Encoding

/-- The bytes of a row of characters without zeros and without a mark in front are read as that
row. -/
theorem decodeDocument?_utf8Bytes {cs : List Char} (hzero : '\x00' ∉ cs)
    (hmark : cs.head? ≠ some '\uFEFF') :
    decodeDocument? (utf8Bytes cs) = some (Text.ofChars cs) := by
  rw [decodeDocument?, Encoding.detect_utf8Bytes hzero hmark]
  exact Encoding.octets?_utf8Bytes cs

end AgentFlow
