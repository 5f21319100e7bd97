import AgentFlow.Proofs.Decimal.Numeral
import AgentFlow.Proofs.Outcome
import AgentFlow.Proofs.Script.Layout
import AgentFlow.Script.Literal.Escape
import Mathlib.Data.List.TakeWhile

/-!
# Escape sequences that stand for nothing

The grammar bounds the digits of an escape sequence unless they stand between braces. So the only
escape sequences of a script that stand for nothing are those whose digits between braces spell a
number beyond the last code point.

* `decodeEscape_braced`: what digits between braces stand for.
* `fails_decodeEscape_iff`: which escape sequences of the grammar stand for nothing.
-/

namespace AgentFlow

/-- Numbers up to the last code point have one. -/
theorem CodePoint.ofNat?_eq_none_iff {n : Nat} : ofNat? n = none ↔ 0x110000 ≤ n := by
  rw [ofNat?]
  by_cases hsurrogate : 0xD800 ≤ n ∧ n < 0xE000
  · rw [dif_pos hsurrogate]
    exact iff_of_false (by rintro ⟨⟩) (by omega)
  · rw [dif_neg hsurrogate]
    by_cases hvalid : n.isValidChar
    · rw [dif_pos hvalid]
      exact iff_of_false (by rintro ⟨⟩) (by unfold Nat.isValidChar at hvalid; omega)
    · rw [dif_neg hvalid]
      exact iff_of_true rfl (by unfold Nat.isValidChar at hvalid; omega)

namespace Script

/-! ## Escape sequences -/

/-- An escape sequence with hexadecimal digits between braces. -/
def bracedEscape (ds : List Char) : List Char := '\\' :: 'u' :: '\x7b' :: (ds ++ ['\x7d'])

/-- Whether a text is an escape sequence for a number that no code point has. -/
def NamesNoCodePoint (text : List Char) : Prop :=
  ∃ ds, IsHexadecimal ds ∧ 0x110000 ≤ ofDigits 16 ds ∧ text = bracedEscape ds

theorem hexPoint_of_isHexadecimal {ds : List Char} (h : IsHexadecimal ds) :
    hexPoint (Text.ofChars ds) =
      (CodePoint.ofNat? (ofDigits 16 ds)).elim (.error (.noCodePoint (ofDigits 16 ds))) .ok := by
  have hneg : ¬ (ofDigits 16 ds : Int) < 0 := by omega
  simp only [hexPoint, Numeral.readInt?_of_isHexadecimal h, hneg, if_false, Int.toNat_natCast]
  cases CodePoint.ofNat? (ofDigits 16 ds) <;> rfl

/-- Numbers below the last code point are numbers of code points. -/
theorem exists_hexPoint {ds : List Char} (h : IsHexadecimal ds) (hlt : ofDigits 16 ds < 0x110000) :
    ∃ p, hexPoint (Text.ofChars ds) = .ok p := by
  rw [hexPoint_of_isHexadecimal h]
  cases hp : CodePoint.ofNat? (ofDigits 16 ds) with
  | some p => exact ⟨p, rfl⟩
  | none => exact absurd (CodePoint.ofNat?_eq_none_iff.1 hp) (by omega)

theorem decodeEscape_braced (ds : List Char) :
    decodeEscape (Text.ofChars (bracedEscape ds)) = (hexPoint (Text.ofChars ds)).map ([·]) := by
  simp only [decodeEscape, bracedEscape, Text.ofChars, List.map_cons, List.map_append,
    List.map_nil, List.drop_succ_cons, List.drop_zero, decodeBody, List.dropLast_concat]
  cases hexPoint (List.map CodePoint.char ds) <;> rfl

theorem decodeBody_cons_cons {c d : Char} (h : c = 'u' → d ≠ '\x7b') (cs : List Char) :
    decodeBody (Text.ofChars (c :: d :: cs)) =
      if c = 'x' ∨ c = 'u' then do
        let p ← hexPoint (Text.ofChars (d :: cs))
        .ok [p]
      else if continuesLine c then .ok []
      else .ok (Text.ofChars (c :: d :: cs)) := by
  unfold decodeBody
  split
  case h_1 heq =>
    simp only [Text.ofChars, List.map_cons, List.cons.injEq, CodePoint.char.injEq] at heq
    exact absurd heq.2.1 (h heq.1)
  case h_2 heq =>
    cases heq
    simp only [CodePoint.char.injEq]
    rfl
  all_goals simp_all [Text.ofChars]

/-- What follows a backslash and names no number stands for something. -/
theorem exists_decodeBody {c : Char} {cs : List Char} (h : cs = [] ∨ (c ≠ 'x' ∧ c ≠ 'u')) :
    ∃ t, decodeBody (Text.ofChars (c :: cs)) = .ok t := by
  cases cs with
  | nil =>
    simp only [Text.ofChars, List.map_cons, List.map_nil, decodeBody]
    split
    · exact ⟨_, rfl⟩
    · split <;> exact ⟨_, rfl⟩
  | cons d cs =>
    obtain ⟨hx, hu⟩ := h.resolve_left (by simp)
    rw [decodeBody_cons_cons fun hc => absurd hc hu]
    simp only [hx, hu, or_self, if_false]
    split <;> exact ⟨_, rfl⟩

/-- Few digits name a number that stands for something. -/
theorem exists_decodeBody_of_digits {c : Char} (hc : c = 'x' ∨ c = 'u') {ds : List Char}
    (h : IsHexadecimal ds) (hlength : ds.length ≤ 4) :
    ∃ t, decodeBody (Text.ofChars (c :: ds)) = .ok t := by
  have hlt : ofDigits 16 ds < 0x110000 :=
    Nat.lt_of_lt_of_le (ofDigits_lt h.digits)
      (Nat.le_trans (Nat.pow_le_pow_right (by decide) hlength) (by decide))
  obtain ⟨p, hp⟩ := exists_hexPoint h hlt
  obtain ⟨d, ds, rfl⟩ := List.exists_cons_of_ne_nil h.ne_nil
  have hbrace := (isPlainDigit (h.digits d (by simp))).not_brace
  rw [decodeBody_cons_cons fun _ => hbrace, if_pos hc, hp]
  exact ⟨_, rfl⟩

theorem isHexadecimal_take {n : Nat} {cs : List Char}
    (h : ((cs.take (n + 1)).all (isDigitOf 16) && decide (n + 1 ≤ cs.length)) = true) :
    IsHexadecimal (cs.take (n + 1)) := by
  rw [Bool.and_eq_true, List.all_eq_true, decide_eq_true_eq] at h
  refine ⟨fun hnil => ?_, h.1⟩
  have hlength := congrArg List.length hnil
  rw [List.length_take, Nat.min_eq_left h.2] at hlength
  cases hlength

/-- The digits of an escape sequence with braces reach to the closing one. -/
theorem take_eq_bracedEscape {cs : List Char}
    (h : (!(cs.takeWhile (isDigitOf 16)).isEmpty
      && cs[(cs.takeWhile (isDigitOf 16)).length]? == some '\x7d') = true) :
    IsHexadecimal (cs.takeWhile (isDigitOf 16)) ∧
      '\\' :: ('u' :: '\x7b' :: cs).take ((cs.takeWhile (isDigitOf 16)).length + 3)
        = bracedEscape (cs.takeWhile (isDigitOf 16)) := by
  have hprefix := List.prefix_iff_eq_take.1 (List.takeWhile_prefix (isDigitOf 16) (l := cs))
  simp only [Bool.and_eq_true, Bool.not_eq_true', List.isEmpty_eq_false_iff, beq_iff_eq] at h
  refine ⟨⟨h.1, fun d hd => List.mem_takeWhile_imp hd⟩, ?_⟩
  rw [List.take_succ_cons, List.take_succ_cons, List.take_add_one, h.2, ← hprefix]
  rfl

/-- An escape sequence of the grammar stands for something, or has its digits between braces. -/
theorem decodes_or_braced {text : List Char} (h : IsEscape text) :
    (∃ t, decodeEscape (Text.ofChars text) = .ok t) ∨
      ∃ ds, IsHexadecimal ds ∧ text = bracedEscape ds := by
  obtain ⟨cs, rfl⟩ := h
  have hbody {c : Char} {ds : List Char} (h : ∃ t, decodeBody (Text.ofChars (c :: ds)) = .ok t) :
      ∃ t, decodeEscape (Text.ofChars ('\\' :: c :: ds)) = .ok t := h
  have hplain {c : Char} (hx : c ≠ 'x') (hu : c ≠ 'u') (n : Nat) (cs : List Char) :
      ∃ t, decodeEscape (Text.ofChars ('\\' :: (c :: cs).take n)) = .ok t := by
    cases n with
    | zero => exact ⟨_, rfl⟩
    | succ n => exact hbody (exists_decodeBody (.inr ⟨hx, hu⟩))
  fun_cases escapeLength cs
  case case1 => exact .inl ⟨_, rfl⟩
  case case2 rest h =>
    exact .inl (hbody (exists_decodeBody_of_digits (.inl rfl) (isHexadecimal_take h)
      (Nat.le_trans (List.length_take_le _ _) (by decide))))
  case case4 rest ds h => exact .inr ⟨ds, take_eq_bracedEscape h⟩
  case case6 rest _ h =>
    exact .inl (hbody (exists_decodeBody_of_digits (.inr rfl) (isHexadecimal_take h)
      (List.length_take_le _ _)))
  case case3 | case5 | case7 => exact .inl (hbody (exists_decodeBody (.inl rfl)))
  case case8 c rest hx _ hu _ => exact .inl (hplain hx hu _ rest)
  case case9 c rest hx _ hu _ _ => exact .inl (hplain hx hu _ rest)
  case case10 c rest hx _ hu _ _ => exact .inl (hplain hx hu _ rest)

/-- **The escape sequences that stand for nothing.** Of those that the grammar lets through, they
are the ones for numbers that no code point has. -/
theorem fails_decodeEscape_iff {text : List Char} (h : IsEscape text) :
    Fails (decodeEscape (Text.ofChars text)) ↔ NamesNoCodePoint text := by
  constructor
  · rintro ⟨e, he⟩
    rcases decodes_or_braced h with ⟨t, ht⟩ | ⟨ds, hds, rfl⟩
    · rw [ht] at he
      cases he
    · refine ⟨ds, hds, Nat.le_of_not_lt fun hlt => ?_, rfl⟩
      obtain ⟨p, hp⟩ := exists_hexPoint hds hlt
      rw [decodeEscape_braced, hp] at he
      cases he
  · rintro ⟨ds, hds, hbeyond, rfl⟩
    rw [decodeEscape_braced, hexPoint_of_isHexadecimal hds, CodePoint.ofNat?_eq_none_iff.2 hbeyond]
    exact ⟨_, rfl⟩

end Script

end AgentFlow
