import AgentFlow.Proofs.Script.Escape
import AgentFlow.Proofs.Text.Units

/-!
# Elements of string literals

A string literal of strict code is a row of elements: characters that stand for themselves, escape
sequences, and ends of lines behind a backslash. Each element has a row of sixteen-bit units.

The grammar cuts an escape sequence off at the length that its first characters call for. This is
the element, but where a separator of lines or paragraphs stands behind a backslash and a carriage
return, or a question mark, it belongs to the sequence.

* `StringElement`: the elements, with their spelling and their units. `AreStrict`: where they may
  stand.
* `escapeLength_of_isStrict`, `decodes_of_isStrict`: the escape sequence of an element, and what it
  stands for. `takesSeparator`: the elements to which a separator is added.
-/

namespace AgentFlow.Script

/-! ## Elements -/

/-- An element of a string literal. -/
inductive StringElement where
  /-- A character that stands for itself. -/
  | plain (c : Char)
  /-- A character behind a backslash, without digits. -/
  | escaped (c : Char)
  /-- Two hexadecimal digits of a unit. -/
  | byte (ds : List Char)
  /-- Four hexadecimal digits of a unit. -/
  | unit (ds : List Char)
  /-- The hexadecimal digits of a code point, between braces. -/
  | point (ds : List Char)
  /-- The end of a line behind a backslash. -/
  | continued (ending : List Char)
  deriving DecidableEq

/-- The unit of a character behind a backslash, if it has one of its own. -/
def escapedUnit? : Char → Option Nat
  | '0' => some 0x00
  | 'b' => some 0x08
  | 't' => some 0x09
  | 'n' => some 0x0A
  | 'v' => some 0x0B
  | 'f' => some 0x0C
  | 'r' => some 0x0D
  | _ => none

/-- Whether a character separates lines or paragraphs. -/
def isSeparator (c : Char) : Bool := c == '\u2028' || c == '\u2029'

namespace StringElement

/-- How an element is written. -/
def spelling : StringElement → List Char
  | plain c => [c]
  | escaped c => ['\\', c]
  | byte ds => '\\' :: 'x' :: ds
  | unit ds => '\\' :: 'u' :: ds
  | point ds => bracedEscape ds
  | continued ending => '\\' :: ending

/-- The sixteen-bit units that an element stands for. -/
def units : StringElement → List Nat
  | plain c => pointUnits c.toNat
  | escaped c => (escapedUnit? c).elim (pointUnits c.toNat) ([·])
  | byte ds => [ofDigits 16 ds]
  | unit ds => [ofDigits 16 ds]
  | point ds => pointUnits (ofDigits 16 ds)
  | continued _ => []

/-- Whether an element may stand in front of a character in a literal of strict code. -/
def IsStrict (quote next : Char) : StringElement → Prop
  | plain c => c ≠ quote ∧ c ≠ '\\' ∧ c ≠ '\n' ∧ c ≠ '\r'
  | escaped c => (c = '0' ∧ ¬ next.isDigit) ∨
      (¬ c.isDigit ∧ c ≠ 'x' ∧ c ≠ 'u' ∧ ¬ isLineEnd c)
  | byte ds => IsHexadecimal ds ∧ ds.length = 2
  | unit ds => IsHexadecimal ds ∧ ds.length = 4
  | point ds => IsHexadecimal ds ∧ ofDigits 16 ds ≤ 0x10FFFF
  | continued ending => ending ∈ [['\n'], ['\r', '\n'], ['\u2028'], ['\u2029']] ∨
      (ending = ['\r'] ∧ next ≠ '\n')

instance (ds : List Char) : Decidable (IsHexadecimal ds) :=
  decidable_of_iff (ds ≠ [] ∧ ds.all (isDigitOf 16) = true)
    ⟨fun h => ⟨h.1, List.all_eq_true.1 h.2⟩, fun h => ⟨h.1, List.all_eq_true.2 h.2⟩⟩

instance (quote next : Char) : (e : StringElement) → Decidable (e.IsStrict quote next)
  | plain _ | byte _ | unit _ | point _ => inferInstanceAs (Decidable (_ ∧ _))
  | escaped _ | continued _ => inferInstanceAs (Decidable (_ ∨ _))

end StringElement

open StringElement

/-- How a row of elements is written. -/
def spell (es : List StringElement) : List Char := es.flatMap spelling

/-- The units that a row of elements stands for. -/
def unitsOf (es : List StringElement) : List Nat := es.flatMap StringElement.units

theorem spell_cons (e : StringElement) (es : List StringElement) :
    spell (e :: es) = e.spelling ++ spell es := rfl

theorem unitsOf_cons (e : StringElement) (es : List StringElement) :
    unitsOf (e :: es) = e.units ++ unitsOf es := rfl

/-- Whether a row of elements, with a quotation mark around it, is a literal of strict code. -/
def AreStrict (quote : Char) : List StringElement → Prop
  | [] => True
  | e :: es => e.IsStrict quote ((spell es).headD quote) ∧ AreStrict quote es

instance decidableAreStrict (quote : Char) :
    (es : List StringElement) → Decidable (AreStrict quote es)
  | [] => isTrue trivial
  | _ :: es =>
    have := decidableAreStrict quote es
    inferInstanceAs (Decidable (_ ∧ _))

/-! ## Escape sequences of elements -/

section

variable {c next : Char} {rest cs ds : List Char}

theorem isDigit_of_isDigitOf_eight (h : isDigitOf 8 c = true) : c.isDigit = true := by
  unfold isDigitOf at h
  split_ifs at h with hd hl hu
  · exact hd
  all_goals
    simp [Char.le_def, UInt32.le_iff_toNat_le] at *
    omega

theorem escapeLength_cons (hx : c ≠ 'x') (hu : c ≠ 'u') :
    escapeLength (c :: cs) =
      if isDigitOf 8 c then octalLength (c :: cs)
      else if (c == '\r' || c == '?') && cs.head?.any (fun d => isLineEnd d && d != '\r') then 2
      else 1 := by
  unfold escapeLength
  split <;> simp_all

/-- A zero without digits behind it. -/
theorem escapeLength_zero (h : ¬ next.isDigit) : escapeLength ('0' :: next :: rest) = 1 := by
  have hnext : isDigitOf 8 next = false :=
    Bool.eq_false_iff.2 fun hdigit => h (isDigit_of_isDigitOf_eight hdigit)
  have hzero : isDigitOf 8 '0' = true := by decide
  rw [escapeLength_cons (by decide) (by decide), if_pos hzero, octalLength, List.take_succ_cons,
    List.take_succ_cons, List.takeWhile_cons_of_pos hzero,
    List.takeWhile_cons_of_neg (Bool.eq_false_iff.1 hnext)]
  rfl

/-- Digits whose number the first character of the sequence tells. -/
theorem escapeLength_byte (h : IsHexadecimal ds) (hlength : ds.length = 2) :
    escapeLength ('x' :: (ds ++ rest)) = 3 := by
  have htake : (ds ++ rest).take 2 = ds := List.take_left' hlength
  rw [escapeLength, htake, if_pos]
  simp [List.all_eq_true.2 h.digits, hlength]

theorem escapeLength_unit (h : IsHexadecimal ds) (hlength : ds.length = 4) :
    escapeLength ('u' :: (ds ++ rest)) = 5 := by
  have htake : (ds ++ rest).take 4 = ds := List.take_left' hlength
  obtain ⟨d, es, rfl⟩ := List.exists_cons_of_length_eq_add_one hlength
  have hbrace := (isPlainDigit (h.digits d (by simp))).not_brace
  unfold escapeLength
  split
  case h_1 heq => cases heq
  case h_2 heq => exact absurd (List.cons.inj heq).1 (by decide)
  case h_3 heq => exact absurd (List.cons.inj (List.cons.inj heq).2).1 hbrace
  case h_4 heq =>
    obtain rfl := (List.cons.inj heq).2
    have hlong : 4 ≤ (d :: es ++ rest).length := by rw [List.length_append, hlength]; omega
    have hdigits := List.all_eq_true.2 h.digits
    rw [htake, if_pos (by simp only [hdigits, hlong, decide_true, Bool.and_self])]
  case h_5 hu heq => exact absurd (List.cons.inj heq).1.symm hu

/-- Digits up to a closing brace. -/
theorem escapeLength_point (h : IsHexadecimal ds) :
    escapeLength ('u' :: '\x7b' :: (ds ++ '\x7d' :: rest)) = ds.length + 3 := by
  have htake : (ds ++ '\x7d' :: rest).takeWhile (isDigitOf 16) = ds := by
    rw [List.takeWhile_append_of_pos h.digits, List.takeWhile_cons_of_neg (by decide),
      List.append_nil]
  rw [escapeLength, htake, if_pos]
  simp [h.ne_nil]

end

/-- The elements to which the grammar adds a separator of lines or paragraphs behind them. -/
def takesSeparator (e : StringElement) : Bool := e = .continued ['\r'] ∨ e = .escaped '?'

section

variable {quote next : Char} {e : StringElement} {rest : List Char}

/-- **The escape sequence of an element.** It ends with the element, if that takes no separator. -/
theorem escapeLength_of_isStrict (h : e.IsStrict quote next) (hplain : ∀ c, e ≠ .plain c)
    (hline : next ≠ '\n') (htakes : ¬ (takesSeparator e ∧ isSeparator next)) (rest : List Char) :
    ∃ body, e.spelling = '\\' :: body ∧ escapeLength (body ++ next :: rest) = body.length := by
  have hlines (hend : isLineEnd next = true) (hreturn : next ≠ '\r') : isSeparator next = true := by
    simpa [isLineEnd, isSeparator, hline, hreturn] using hend
  cases e with
  | plain c => exact absurd rfl (hplain c)
  | escaped c =>
    refine ⟨[c], rfl, ?_⟩
    rcases h with ⟨rfl, hdigit⟩ | ⟨hdigit, hx, hu, hend⟩
    · exact escapeLength_zero hdigit
    · have hoctal : ¬ isDigitOf 8 c := fun hc => hdigit (isDigit_of_isDigitOf_eight hc)
      rw [List.singleton_append, escapeLength_cons hx hu, if_neg hoctal, if_neg]
      · rfl
      · simp only [Bool.and_eq_true, Bool.or_eq_true, beq_iff_eq, List.head?_cons,
          Option.any_some, bne_iff_ne]
        rintro ⟨rfl | rfl, hnext⟩
        · exact hend (by decide)
        · exact htakes ⟨by decide, hlines hnext.1 hnext.2⟩
  | byte ds =>
    refine ⟨'x' :: ds, rfl, ?_⟩
    rw [List.cons_append, escapeLength_byte h.1 h.2, List.length_cons, h.2]
  | unit ds =>
    refine ⟨'u' :: ds, rfl, ?_⟩
    rw [List.cons_append, escapeLength_unit h.1 h.2, List.length_cons, h.2]
  | point ds =>
    refine ⟨'u' :: '\x7b' :: (ds ++ ['\x7d']), rfl, ?_⟩
    rw [List.cons_append, List.cons_append, List.append_assoc]
    exact (escapeLength_point h.1).trans (by simp)
  | continued ending =>
    refine ⟨ending, rfl, ?_⟩
    rcases h with h | ⟨rfl, -⟩
    · simp only [List.mem_cons, List.not_mem_nil, or_false] at h
      rcases h with rfl | rfl | rfl | rfl <;> rfl
    · rw [List.singleton_append, escapeLength_cons (by decide) (by decide), if_neg (by decide),
        if_neg]
      · rfl
      · simp only [Bool.and_eq_true, Bool.or_eq_true, beq_iff_eq, List.head?_cons,
          Option.any_some, bne_iff_ne]
        rintro ⟨-, hnext⟩
        exact htakes ⟨by decide, hlines hnext.1 hnext.2⟩

/-- Hexadecimal digits stand for the units of the code point with their number. -/
theorem exists_hexPoint_units {ds : List Char} (h : IsHexadecimal ds)
    (hle : ofDigits 16 ds ≤ 0x10FFFF) :
    ∃ p, hexPoint (Text.ofChars ds) = .ok p ∧ Text.units [p] = pointUnits (ofDigits 16 ds) := by
  rw [hexPoint_of_isHexadecimal h]
  cases hp : CodePoint.ofNat? (ofDigits 16 ds) with
  | none => exact absurd (CodePoint.ofNat?_eq_none_iff.1 hp) (by omega)
  | some p =>
    refine ⟨p, rfl, ?_⟩
    rw [Text.units_cons, CodePoint.toNat_of_ofNat? hp]
    exact List.append_nil _

/-- Up to four digits behind a letter stand for one unit. -/
theorem decodes_digits {c : Char} (hc : c = 'x' ∨ c = 'u') {ds : List Char}
    (h : IsHexadecimal ds) (hlength : ds.length ≤ 4) :
    ∃ t, decodeEscape (Text.ofChars ('\\' :: c :: ds)) = .ok t ∧ t.units = [ofDigits 16 ds] := by
  have hlt : ofDigits 16 ds < 0x10000 :=
    Nat.lt_of_lt_of_le (ofDigits_lt h.digits) (Nat.pow_le_pow_right (by decide) hlength)
  obtain ⟨p, hp, hunits⟩ := exists_hexPoint_units h (by omega)
  refine ⟨[p], ?_, by rw [hunits, pointUnits, if_neg (by omega)]⟩
  obtain ⟨d, ds, rfl⟩ := List.exists_cons_of_ne_nil h.ne_nil
  have hbrace := (isPlainDigit (h.digits d (by simp))).not_brace
  have hbody := decodeBody_cons_cons (c := c) (fun _ => hbrace) ds
  rw [if_pos hc, hp] at hbody
  exact hbody

/-- A single character behind a backslash. -/
theorem decodes_escaped {c : Char} (hend : ¬ isLineEnd c) :
    ∃ t, decodeEscape (Text.ofChars ['\\', c]) = .ok t ∧ t.units = (escaped c).units := by
  have hline : continuesLine (.char c) = false := by
    simpa [continuesLine, CodePoint.isChar, isLineEnd] using hend
  by_cases hletter : c ∈ letterEscapes.map Prod.fst
  · simp only [letterEscapes, List.map_cons, List.map_nil, List.mem_cons, List.not_mem_nil,
      or_false] at hletter
    rcases hletter with rfl | rfl | rfl | rfl | rfl | rfl | rfl <;> exact ⟨_, rfl, rfl⟩
  · have hfind : letterEscapes.find? (fun e => CodePoint.char e.1 == .char c) = none := by
      rw [List.find?_eq_none]
      intro e he heq
      rw [beq_iff_eq, CodePoint.char.injEq] at heq
      exact hletter (List.mem_map.2 ⟨e, he, heq⟩)
    refine ⟨[.char c], ?_, ?_⟩
    · simp only [decodeEscape, Text.ofChars, List.map_cons, List.map_nil, List.drop_succ_cons,
        List.drop_zero, decodeBody, hline, hfind]
      rfl
    · have hnone : escapedUnit? c = none := by
        unfold escapedUnit?
        split
        case h_8 => rfl
        all_goals exact absurd (by decide) hletter
      rw [units, hnone, Text.units_cons]
      exact List.append_nil _

/-- **What the escape sequence of an element stands for.** -/
theorem decodes_of_isStrict (h : e.IsStrict quote next) (hplain : ∀ c, e ≠ .plain c) :
    ∃ t, decodeEscape (Text.ofChars e.spelling) = .ok t ∧ t.units = e.units := by
  cases e with
  | plain c => exact absurd rfl (hplain c)
  | escaped c =>
    rcases h with ⟨rfl, -⟩ | ⟨-, -, -, hend⟩
    · exact decodes_escaped (by decide)
    · exact decodes_escaped hend
  | byte ds =>
    obtain ⟨hds, hlength⟩ := h
    exact decodes_digits (.inl rfl) hds (by omega)
  | unit ds =>
    obtain ⟨hds, hlength⟩ := h
    exact decodes_digits (.inr rfl) hds (by omega)
  | point ds =>
    obtain ⟨p, hp, hunits⟩ := exists_hexPoint_units h.1 h.2
    refine ⟨[p], ?_, hunits⟩
    rw [spelling, decodeEscape_braced, hp]
    rfl
  | continued ending =>
    rcases h with h | ⟨rfl, -⟩
    · simp only [List.mem_cons, List.not_mem_nil, or_false] at h
      rcases h with rfl | rfl | rfl | rfl <;> exact ⟨[], rfl, rfl⟩
    · exact ⟨[], rfl, rfl⟩

end

end AgentFlow.Script
