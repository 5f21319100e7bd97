import AgentFlow.Decimal.Numeral
import AgentFlow.Proofs.Decimal.Digits
import Mathlib.Data.List.Induction
import Mathlib.Data.List.TakeWhile
import Mathlib.Tactic.SplitIfs

/-!
# Reading rows of digits

A row of ASCII digits, without signs, blanks and low lines, is read as the number that it spells in
its base. The mark of the base may stand in front of the row.

* `isPlainDigit`: what readers of numerals ask of a digit of a base up to sixteen.
* `Numeral.normalize?_ofChars`, `Numeral.splitSign_cons`, `Numeral.groupedDigits?_of_digits`: the
  steps of a reader.
* `Numeral.readInt?_of_isHexadecimal`, `Numeral.readInt?_marked`, `Numeral.readDouble?_of_digits`:
  what the readers make of a row of digits.
-/

namespace AgentFlow

/-! ## Digits -/

/-- Whether a row of characters is a hexadecimal numeral. -/
structure IsHexadecimal (ds : List Char) : Prop where
  ne_nil : ds ≠ []
  digits : ∀ d ∈ ds, isDigitOf 16 d = true

theorem toNat_lt_of_isDigitOf_sixteen {c : Char} (h : isDigitOf 16 c = true) : c.toNat < 103 := by
  unfold isDigitOf at h
  split_ifs at h with hd hl hu
  all_goals simp [Char.isDigit, Char.le_def, UInt32.le_iff_toNat_le] at *
  all_goals omega

/-- The digits of a base are digits of every greater one. -/
theorem isDigitOf_mono {base base' : Nat} (hb : base ≤ base') {c : Char}
    (h : isDigitOf base c = true) : isDigitOf base' c = true := by
  unfold isDigitOf at h ⊢
  split_ifs at h ⊢ <;> rw [decide_eq_true_eq] at h ⊢ <;> omega

theorem isDigitOf_ten (c : Char) : isDigitOf 10 c = c.isDigit := by
  rw [Bool.eq_iff_iff]
  unfold isDigitOf
  split_ifs with hd hl hu
  · simp [Char.isDigit, UInt32.le_iff_toNat_le] at hd ⊢
    omega
  · simp [Char.le_def, UInt32.le_iff_toNat_le] at hl
    simp [hd]
    omega
  · simp [Char.le_def, UInt32.le_iff_toNat_le] at hu
    simp [hd]
    omega
  · simp [hd]

/-- The digits of a base are the hexadecimal digits of a value below it. -/
theorem isDigitOf_eq {base : Nat} (hb : base ≤ 16) (c : Char) :
    isDigitOf base c = (isDigitOf 16 c && decide (digitValue c < base)) := by
  rw [Bool.eq_iff_iff, Bool.and_eq_true, decide_eq_true_eq]
  unfold isDigitOf digitValue
  split_ifs with hd hl hz hu hZ
  all_goals simp [Char.le_def, UInt32.le_iff_toNat_le] at *
  all_goals omega

theorem digitValue_lt_of_isDigitOf {base : Nat} (hb : base ≤ 16) {c : Char}
    (h : isDigitOf base c = true) : digitValue c < base := by
  rw [isDigitOf_eq hb, Bool.and_eq_true, decide_eq_true_eq] at h
  exact h.2

/-- Capital digits become small digits of the same value, and other digits stay as they are. -/
theorem toLower_of_isDigitOf {base : Nat} (hb : base ≤ 16) {c : Char}
    (h : isDigitOf base c = true) :
    isDigitOf base c.toLower = true ∧ digitValue c.toLower = digitValue c ∧
      (c.isDigit = true → c.toLower = c) := by
  have hlower : ∀ n < 103, isDigitOf 16 (Char.ofNat n) = true →
      isDigitOf 16 (Char.ofNat n).toLower = true ∧
        digitValue (Char.ofNat n).toLower = digitValue (Char.ofNat n) ∧
        ((Char.ofNat n).isDigit = true → (Char.ofNat n).toLower = Char.ofNat n) := by decide
  have hc := hlower c.toNat (toNat_lt_of_isDigitOf_sixteen (isDigitOf_mono hb h))
  rw [Char.ofNat_toNat] at hc
  obtain ⟨hdigit, hvalue, hsame⟩ := hc (isDigitOf_mono hb h)
  refine ⟨?_, hvalue, hsame⟩
  rw [isDigitOf_eq hb, hdigit, hvalue]
  exact decide_eq_true (digitValue_lt_of_isDigitOf hb h)

/-- Small letters spell the same number. -/
theorem ofDigits_map_toLower {base : Nat} (hb : base ≤ 16) {ds : List Char}
    (h : ∀ d ∈ ds, isDigitOf base d = true) :
    ofDigits base (ds.map Char.toLower) = ofDigits base ds := by
  induction ds using List.reverseRecOn with
  | nil => rfl
  | append_singleton ds d ih =>
    have hd := (toLower_of_isDigitOf hb (h d (by simp))).2.1
    rw [List.map_append, ofDigits_append, ofDigits_append, ih fun e he => h e (by simp [he])]
    simp [hd]

/-- What readers of numerals ask of a hexadecimal digit. -/
structure IsPlainDigit (c : Char) : Prop where
  ascii : c.toNat < 128
  not_space : isSpaceChar c = false
  base : Numeral.isBaseDigit 16 c = true
  value_lt : digitValue c < 16
  not_sign : c ≠ '-' ∧ c ≠ '+'
  not_line : c ≠ '_'
  not_mark : c ≠ 'x' ∧ c ≠ 'X'
  not_brace : c ≠ '\x7b'

theorem isPlainDigit {c : Char} (h : isDigitOf 16 c = true) : IsPlainDigit c := by
  have hlt := toNat_lt_of_isDigitOf_sixteen h
  have hreaders : ∀ n < 103, isDigitOf 16 (Char.ofNat n) = true →
      isSpaceChar (Char.ofNat n) = false ∧ Numeral.isBaseDigit 16 (Char.ofNat n) = true ∧
        digitValue (Char.ofNat n) < 16 := by decide
  have hne (d : Char) (hd : isDigitOf 16 d = false) : c ≠ d := by
    rintro rfl
    rw [h] at hd
    cases hd
  have hc := hreaders c.toNat hlt
  rw [Char.ofNat_toNat] at hc
  obtain ⟨hspace, hbase, hvalue⟩ := hc h
  exact
    { ascii := by omega
      not_space := hspace
      base := hbase
      value_lt := hvalue
      not_sign := ⟨hne _ rfl, hne _ rfl⟩
      not_line := hne _ rfl
      not_mark := ⟨hne _ rfl, hne _ rfl⟩
      not_brace := hne _ rfl }

theorem ofDigits_lt {ds : List Char} (h : ∀ d ∈ ds, isDigitOf 16 d = true) :
    ofDigits 16 ds < 16 ^ ds.length := by
  induction ds using List.reverseRecOn with
  | nil => simp [ofDigits_nil]
  | append_singleton ds d ih =>
    have hds := ih fun e he => h e (by simp [he])
    have hd := (isPlainDigit (h d (by simp))).value_lt
    rw [ofDigits_append, List.length_append, List.length_singleton, Nat.pow_succ]
    simp only [List.foldl_cons, List.foldl_nil]
    omega

theorem Text.trim_of_not_space {t : Text} (h : ∀ p ∈ t, p.isSpace = false) : t.trim = t := by
  have hstart (u : Text) (hu : ∀ p ∈ u, p.isSpace = false) : u.trimStart = u := by
    rw [trimStart, List.dropWhile_eq_self_iff]
    intro hpos
    simp [hu _ (List.getElem_mem hpos)]
  rw [trim, hstart t h, hstart _ fun p hp => h p (List.mem_reverse.1 hp), List.reverse_reverse]

namespace Numeral

variable {base : Nat} {c : Char} {cs ds : List Char}

/-! ## The steps of a reader -/

theorem normalize?_ofChars (h : ∀ c ∈ cs, c.toNat < 128 ∧ isSpaceChar c = false) :
    normalize? (Text.ofChars cs) = some cs := by
  have htrim : (Text.ofChars cs).trim = Text.ofChars cs := by
    refine Text.trim_of_not_space fun p hp => ?_
    obtain ⟨c, hc, rfl⟩ := List.mem_map.1 hp
    exact (h c hc).2
  rw [normalize?, htrim, Text.ofChars]
  clear htrim
  induction cs with
  | nil => rfl
  | cons c cs ih =>
    have hc := (h c (by simp)).1
    rw [List.map_cons, List.mapM_cons, ih fun d hd => h d (by simp [hd])]
    simp [hc]

theorem splitSign_cons (h : c ≠ '-' ∧ c ≠ '+') (cs : List Char) :
    splitSign (c :: cs) = (false, c :: cs) := by
  unfold splitSign
  split <;> simp_all

theorem dropBaseMark_of_isHexadecimal (h : IsHexadecimal ds) : dropBaseMark 16 ds = ds := by
  unfold dropBaseMark
  split
  case h_1 m rest =>
    obtain ⟨hx, hX⟩ := (isPlainDigit (h.digits m (by simp))).not_mark
    simp [hx, hX]
  case h_2 => rfl

/-- Digits without low lines between them are all of the row. -/
theorem groupedDigits?_of_digits {p : Char → Bool} (hline : p '_' = false) (hne : ds ≠ [])
    (h : ∀ d ∈ ds, p d = true) : groupedDigits? p ds = some ds := by
  have hnot (d : Char) (hd : d ∈ ds) : d ≠ '_' := by
    rintro rfl
    exact absurd (h '_' hd) (by simp [hline])
  fun_induction groupedDigits? p ds with
  | case1 => exact absurd rfl hne
  | case2 c hc => rfl
  | case3 c hc => exact absurd (h c (by simp)) hc
  | case4 c rest | case5 c rest => exact absurd rfl (hnot '_' (by simp))
  | case6 c rest hrest _ _ ih =>
    have htail := ih hrest (fun d hd => h d (by simp [hd])) fun d hd => hnot d (by simp [hd])
    rw [htail]
    rfl
  | case7 c rest _ _ hc => exact absurd (h c (by simp)) hc

/-- The digits of a base are among the digits that its readers know. -/
theorem isBaseDigit_of_isDigitOf (hb : base ≤ 16) (h : isDigitOf base c = true) :
    isBaseDigit base c = true := by
  have hplain := (isPlainDigit (isDigitOf_mono hb h)).base
  rw [isBaseDigit, Bool.and_eq_true] at hplain ⊢
  exact ⟨hplain.1, decide_eq_true (digitValue_lt_of_isDigitOf hb h)⟩

theorem readNat?_of_digits (hb : base ≤ 16) (hne : ds ≠ [])
    (h : ∀ d ∈ ds, isDigitOf base d = true) : readNat? base ds = some (ofDigits base ds) := by
  have hline : isBaseDigit base '_' = false := rfl
  rw [readNat?, groupedDigits?_of_digits hline hne fun d hd => isBaseDigit_of_isDigitOf hb (h d hd)]
  rfl

/-! ## Rows of digits -/

/-- Hexadecimal digits are read as the number that they spell. -/
theorem readInt?_of_isHexadecimal (h : IsHexadecimal ds) :
    readInt? 16 (Text.ofChars ds) = some (ofDigits 16 ds : Int) := by
  have hplain (d : Char) (hd : d ∈ ds) := isPlainDigit (h.digits d hd)
  have hsign : splitSign ds = (false, ds) := by
    obtain ⟨d, ds, rfl⟩ := List.exists_cons_of_ne_nil h.ne_nil
    exact splitSign_cons (hplain d (by simp)).not_sign ds
  have hchars := normalize?_ofChars fun d hd => ⟨(hplain d hd).ascii, (hplain d hd).not_space⟩
  simp [readInt?, hchars, hsign, dropBaseMark_of_isHexadecimal h,
    readNat?_of_digits (Nat.le_refl 16) h.ne_nil h.digits]

/-- The bases that a numeral may be marked with, and the letters that mark them. -/
def markedBases : List (Nat × Char) := [(16, 'x'), (8, 'o'), (2, 'b')]

/-- A mark is dropped if no low line stands behind it. -/
theorem dropBaseMark_marked (hmark : (base, c) ∈ markedBases) (hline : ds.head? ≠ some '_') :
    dropBaseMark base ('0' :: c :: ds) = ds := by
  have hmarks : ((base = 16 && (c == 'x' || c == 'X')) || (base = 8 && (c == 'o' || c == 'O'))
      || (base = 2 && (c == 'b' || c == 'B'))) = true := by
    simp only [markedBases, List.mem_cons, Prod.mk.injEq, List.not_mem_nil, or_false] at hmark
    rcases hmark with ⟨rfl, rfl⟩ | ⟨rfl, rfl⟩ | ⟨rfl, rfl⟩ <;> rfl
  simp only [dropBaseMark, hmarks, if_true]
  split
  · exact absurd rfl hline
  · rfl

/-- Digits behind the mark of their base are read as the number that they spell. -/
theorem readInt?_marked (hmark : (base, c) ∈ markedBases) (hne : ds ≠ [])
    (h : ∀ d ∈ ds, isDigitOf base d = true) :
    readInt? base (Text.ofChars ('0' :: c :: ds)) = some (ofDigits base ds : Int) := by
  have hmarks : ∀ m ∈ markedBases, m.1 ≤ 16 ∧ m.2.toNat < 128 ∧ isSpaceChar m.2 = false := by
    decide
  obtain ⟨hb, hc⟩ := hmarks _ hmark
  have hplain (d : Char) (hd : d ∈ ds) := isPlainDigit (isDigitOf_mono hb (h d hd))
  have hascii : ∀ d ∈ '0' :: c :: ds, d.toNat < 128 ∧ isSpaceChar d = false := by
    simp only [List.forall_mem_cons]
    exact ⟨by decide, hc, fun d hd => ⟨(hplain d hd).ascii, (hplain d hd).not_space⟩⟩
  have hline : ds.head? ≠ some '_' := fun hd => (hplain '_' (List.mem_of_mem_head? hd)).not_line rfl
  simp [readInt?, normalize?_ofChars hascii, splitSign_cons (c := '0') (by decide),
    dropBaseMark_marked hmark hline, readNat?_of_digits hb hne h]

theorem cutAt_of_forall {p : Char → Bool} (h : ∀ d ∈ ds, p d = false) :
    cutAt p ds = (ds, none) := by
  have hdrop : ds.dropWhile (!p ·) = [] := by
    rw [List.dropWhile_eq_nil_iff]
    intro d hd
    rw [h d hd]
    rfl
  rw [cutAt, hdrop]

/-- A row of decimal digits is read as the double nearest to the number that it spells. -/
theorem readDouble?_of_digits (hne : ds ≠ []) (h : ∀ d ∈ ds, d.isDigit = true) :
    readDouble? (Text.ofChars ds) = some (Double.ofDecimal false (ofDigits 10 ds) 0) := by
  have hplain (d : Char) (hd : d ∈ ds) : IsPlainDigit d :=
    isPlainDigit (isDigitOf_mono (by decide) ((isDigitOf_ten d).trans (h d hd)))
  have hchars := normalize?_ofChars fun d hd => ⟨(hplain d hd).ascii, (hplain d hd).not_space⟩
  have hnot (e : Char) (he : e.isDigit = false) (d : Char) (hd : d ∈ ds) : (d == e) = false := by
    rw [beq_eq_false_iff_ne]
    rintro rfl
    rw [h d hd] at he
    cases he
  have hexponent : cutAt (fun c => c == 'e' || c == 'E') ds = (ds, none) :=
    cutAt_of_forall fun d hd => by rw [hnot 'e' rfl d hd, hnot 'E' rfl d hd, Bool.or_self]
  have hpoint : cutAt (· == '.') ds = (ds, none) := cutAt_of_forall (hnot '.' rfl)
  have hwhole : optionalDigits? ds = some ds := by
    have hempty : ds.isEmpty = false := by rwa [List.isEmpty_eq_false_iff]
    rw [optionalDigits?, hempty]
    exact groupedDigits?_of_digits rfl hne h
  have hlower : ds.map Char.toLower = ds := by
    refine (List.map_congr_left fun d hd => ?_).trans (List.map_id ds)
    have hten : isDigitOf 10 d = true := (isDigitOf_ten d).trans (h d hd)
    exact (toLower_of_isDigitOf (by decide) hten).2.2 (h d hd)
  have hword (w : String) (c : Char) (hc : c ∈ w.toList) (hd : c.isDigit = false) :
      (String.ofList ds == w) = false := by
    rw [beq_eq_false_iff_ne]
    rintro rfl
    rw [String.toList_ofList] at hc
    exact absurd (h c hc) (by simp [hd])
  have hsign : splitSign ds = (false, ds) := by
    obtain ⟨d, ds, rfl⟩ := List.exists_cons_of_ne_nil hne
    exact splitSign_cons (hplain d (by simp)).not_sign ds
  simp only [readDouble?, hchars, hsign, hlower, Option.bind_eq_bind, Option.bind_some,
    hword "inf" 'i' (by decide) rfl, hword "infinity" 'i' (by decide) rfl,
    hword "nan" 'n' (by decide) rfl, readDecimal?, hexponent, hpoint, hwhole]
  simp [optionalDigits?, readExponent?, hne]

end Numeral

end AgentFlow
