import AgentFlow.Proofs.Decimal.Nearest
import AgentFlow.Proofs.Decimal.Numeral
import AgentFlow.Proofs.Script.Layout.Cursor
import AgentFlow.Script.Conversion

/-!
# Values of integer literals

In a script every number is a double, so an integer literal stands for the double nearest to its
number, however it is spelled. Decimal literals have this value. A literal whose base is marked
keeps its integer, also where no double is equal to it and where doubles end.

* `IsGrouped`, `IntegerLiteral`: the literals, with their spelling and their number.
* `numeralLength_spelling`: a literal is read up to its end.
* `doubleValue_ofInt`: the value of the double nearest to an integer. `integerValue?`: the value
  of an integer in a script.
* `numberValue?_spelling`: the value of a literal.
* `integerLiterals_agree_iff`: which literals have the value of their number, and which literals of
  one number have the same value.
-/

namespace AgentFlow.Script

/-! ## Literals -/

/-- The bases that an integer may be written in. -/
inductive NumberBase where
  | decimal
  | hexadecimal
  | octal
  | binary
  deriving DecidableEq

namespace NumberBase

def radix : NumberBase → Nat
  | decimal => 10
  | hexadecimal => 16
  | octal => 8
  | binary => 2

/-- The small letter that marks a base behind a zero; decimals are not marked. -/
def mark? : NumberBase → Option Char
  | decimal => none
  | hexadecimal => some 'x'
  | octal => some 'o'
  | binary => some 'b'

/-- The letter that marks a base, as it is written. -/
def letter (capital : Bool) (m : Char) : Char := if capital then m.toUpper else m

theorem letter_of_mark? {b : NumberBase} {m : Char} (h : b.mark? = some m) (capital : Bool) :
    letter capital m ≠ '_' ∧ (letter capital m).toLower = m := by
  cases b <;> cases h <;> cases capital <;> decide

theorem radix_le (b : NumberBase) : b.radix ≤ 16 := by cases b <;> decide

theorem mark?_eq_none_iff {b : NumberBase} : b.mark? = none ↔ b = decimal := by
  cases b <;> decide

theorem mem_markedBases {b : NumberBase} {m : Char} (h : b.mark? = some m) :
    (b.radix, m) ∈ Numeral.markedBases := by
  cases b <;> cases h <;> decide

end NumberBase

/-- Digits with at most one low line between neighbours. -/
inductive IsGrouped (p : Char → Bool) : List Char → Prop
  | single {d : Char} (hd : p d = true) : IsGrouped p [d]
  | next {d : Char} {cs : List Char} (hd : p d = true) (hcs : IsGrouped p cs) :
      IsGrouped p (d :: cs)
  | apart {d : Char} {cs : List Char} (hd : p d = true) (hcs : IsGrouped p cs) :
      IsGrouped p (d :: '_' :: cs)

/-- An integer literal. Its letters may be capital ones. Decimal digits may begin with zeros, which
strict code has no literals for. -/
structure IntegerLiteral where
  base : NumberBase
  capitalMark : Bool
  digits : List Char
  grouped : IsGrouped (isDigitOf base.radix) digits

namespace IntegerLiteral

/-- How a literal is written. -/
def spelling (l : IntegerLiteral) : List Char :=
  match l.base.mark? with
  | none => l.digits
  | some m => '0' :: NumberBase.letter l.capitalMark m :: l.digits

/-- The number that the digits of a literal spell in its base. -/
def number (l : IntegerLiteral) : Nat := ofDigits l.base.radix (l.digits.filter (· ≠ '_'))

end IntegerLiteral

/-! ## Reading a literal -/

section

variable {p : Char → Bool} {d e : Char} {cs rest : List Char}

theorem IsGrouped.exists_cons (h : IsGrouped p cs) : ∃ d ds, cs = d :: ds ∧ p d = true := by
  cases h with
  | single hd => exact ⟨_, _, rfl, hd⟩
  | next hd => exact ⟨_, _, rfl, hd⟩
  | apart hd => exact ⟨_, _, rfl, hd⟩

theorem IsGrouped.digit_or_line (h : IsGrouped p cs) : ∀ c ∈ cs, p c = true ∨ c = '_' := by
  induction h with
  | single hd => simp [hd]
  | next hd _ ih => simpa [hd] using ih
  | apart hd _ ih => simpa [hd] using ih

/-- Without its low lines a row of digits is a row of digits. -/
theorem IsGrouped.filter (hline : p '_' = false) (h : IsGrouped p cs) :
    cs.filter (· ≠ '_') ≠ [] ∧ ∀ d ∈ cs.filter (· ≠ '_'), p d = true := by
  have hne {d : Char} (hd : p d = true) : d ≠ '_' := by
    rintro rfl
    rw [hline] at hd
    cases hd
  induction h with
  | single hd => simp [hne hd, hd]
  | next hd _ ih => simpa [hne hd, hd] using ih.2
  | apart hd _ ih => simpa [hne hd, hd] using ih.2

theorem groupedLength_of_not (h : ∀ c ∈ rest.head?, p c = false) : groupedLength p rest = 0 := by
  cases rest with
  | nil => rfl
  | cons c rest =>
    have hc : p c = false := h c rfl
    unfold groupedLength
    split <;> simp_all

theorem groupedLength_cons (hd : p d = true) (hcs : cs.head? ≠ some '_') :
    groupedLength p (d :: cs) = groupedLength p cs + 1 := by
  cases cs with
  | nil => simp [groupedLength, hd]
  | cons c cs =>
    have hc : c ≠ '_' := fun hc => hcs (congrArg some hc)
    rw [groupedLength]
    · simp [hd]
    · simp
    · simp [hc]

theorem groupedLength_apart (hd : p d = true) (he : p e = true) (cs : List Char) :
    groupedLength p (d :: '_' :: e :: cs) = groupedLength p (e :: cs) + 2 := by
  simp [groupedLength, hd, he]

/-- Digits are read up to what is neither a digit nor a low line. -/
theorem IsGrouped.groupedLength_append (hline : p '_' = false) (h : IsGrouped p cs)
    (hrest : ∀ c ∈ rest.head?, p c = false ∧ c ≠ '_') :
    groupedLength p (cs ++ rest) = cs.length := by
  have hstop : groupedLength p rest = 0 := groupedLength_of_not fun c hc => (hrest c hc).1
  induction h with
  | single hd =>
    have hhead : rest.head? ≠ some '_' := fun hc => (hrest '_' hc).2 rfl
    rw [List.singleton_append, groupedLength_cons hd hhead, hstop]
    rfl
  | @next d cs hd hcs ih =>
    obtain ⟨e, es, rfl, he⟩ := hcs.exists_cons
    have hhead : (e :: es ++ rest).head? ≠ some '_' := by
      rw [List.cons_append, List.head?_cons, ne_eq, Option.some.injEq]
      rintro rfl
      rw [hline] at he
      cases he
    rw [List.cons_append, groupedLength_cons hd hhead, ih]
    rfl
  | @apart d cs hd hcs ih =>
    obtain ⟨e, es, rfl, he⟩ := hcs.exists_cons
    rw [List.cons_append] at ih
    rw [List.cons_append, List.cons_append, List.cons_append, groupedLength_apart hd he, ih]
    rfl

/-- The rows of grouped digits are those that are read up to their end. -/
theorem isGrouped_iff (hline : p '_' = false) :
    IsGrouped p cs ↔ cs ≠ [] ∧ groupedLength p cs = cs.length := by
  constructor
  · intro h
    obtain ⟨d, ds, rfl, -⟩ := h.exists_cons
    have hlength : groupedLength p (d :: ds ++ []) = (d :: ds).length :=
      h.groupedLength_append hline (by simp)
    rw [List.append_nil] at hlength
    exact ⟨List.cons_ne_nil d ds, hlength⟩
  · rintro ⟨hne, hlength⟩
    fun_induction groupedLength p cs with
    | case1 => exact absurd rfl hne
    | case2 c hc => exact .single hc
    | case4 c d rest hc hd ih => exact .apart hc (ih (by simp) (by simpa using hlength))
    | case5 c d rest hc hd => simp at hlength
    | case7 c rest hrest _ hc ih =>
      have hnil : rest ≠ [] := by
        rintro rfl
        exact hrest rfl
      exact .next hc (ih hnil (by simpa using hlength))
    | case3 | case6 | case8 => simp at hlength

instance (base : Nat) (cs : List Char) : Decidable (IsGrouped (isDigitOf base) cs) :=
  decidable_of_iff _ (isGrouped_iff rfl).symm

/-- Whether a number ends in front of a row of characters, however it is spelled. -/
def EndsNumber (rest : List Char) : Prop :=
  ∀ c ∈ rest.head?, (c.isAlphanum || c == '_' || c == '.') = false

theorem EndsNumber.head?_ne (h : EndsNumber rest)
    (hd : (d.isAlphanum || d == '_' || d == '.') = true) : rest.head? ≠ some d := by
  intro hc
  rw [h d hc] at hd
  cases hd

theorem EndsNumber.not_isDigitOf (h : EndsNumber rest) {base : Nat} (hb : base ≤ 16) :
    ∀ c ∈ rest.head?, isDigitOf base c = false ∧ c ≠ '_' := by
  have halphanum : ∀ n < 103, isDigitOf 16 (Char.ofNat n) = true →
      (Char.ofNat n).isAlphanum = true := by decide
  intro c hc
  constructor
  · by_contra hdigit
    rw [Bool.not_eq_false] at hdigit
    have hsixteen := isDigitOf_mono hb hdigit
    have hletter := halphanum c.toNat (toNat_lt_of_isDigitOf_sixteen hsixteen)
    rw [Char.ofNat_toNat] at hletter
    exact h.head?_ne (by rw [hletter hsixteen]; rfl) hc
  · rintro rfl
    exact h.head?_ne rfl hc

/-- Decimals are read as such if no mark stands behind their first digit. -/
theorem numeralLength_of_not_marked
    (h : ∀ c ∈ (cs.drop 1).head?, c ∉ ['x', 'X', 'o', 'O', 'b', 'B']) :
    numeralLength cs = decimalLength cs := by
  unfold numeralLength
  split
  case h_1 m rest =>
    have hm := h m rfl
    simp only [List.mem_cons, List.not_mem_nil, or_false, not_or] at hm
    simp [hm]
  case h_2 => rfl

theorem decimalLength_append (h : IsGrouped (isDigitOf 10) cs) (hrest : EndsNumber rest) :
    decimalLength (cs ++ rest) = cs.length := by
  have hten : isDigitOf 10 = Char.isDigit := funext isDigitOf_ten
  have hwhole : groupedLength Char.isDigit (cs ++ rest) = cs.length :=
    hten ▸ h.groupedLength_append rfl (hrest.not_isDigitOf (by decide))
  have hexponent : exponentLength rest = 0 := by
    cases rest with
    | nil => rfl
    | cons c rest =>
      have he : c ≠ 'e' := fun hc => hrest.head?_ne rfl (congrArg some hc)
      have hE : c ≠ 'E' := fun hc => hrest.head?_ne rfl (congrArg some hc)
      simp [exponentLength, he, hE]
  have hpos : cs.length ≠ 0 := by
    obtain ⟨d, ds, rfl, -⟩ := h.exists_cons
    simp
  have hn : (rest.head? == some 'n') = false := beq_eq_false_iff_ne.2 (hrest.head?_ne rfl)
  unfold decimalLength
  simp only [hwhole, List.drop_left, hn, Bool.and_false, Bool.false_eq_true, if_false]
  split
  case h_1 more => exact absurd rfl (hrest.head?_ne rfl)
  case h_2 => simp [hexponent, hpos]

theorem markedLength_append {base : Nat} (hb : base ≤ 16) (h : IsGrouped (isDigitOf base) cs)
    (hrest : EndsNumber rest) (c d : Char) :
    markedLength base (c :: d :: (cs ++ rest)) = cs.length + 2 := by
  have hline : isDigitOf base '_' = false := rfl
  have hdigits : groupedLength (isDigitOf base) (cs ++ rest) = cs.length :=
    h.groupedLength_append hline (hrest.not_isDigitOf hb)
  have hpos : cs.length ≠ 0 := by
    obtain ⟨d, ds, rfl, -⟩ := h.exists_cons
    simp
  have hn : (rest.head? == some 'n') = false := beq_eq_false_iff_ne.2 (hrest.head?_ne rfl)
  simp [markedLength, hdigits, hpos, hn]

theorem numeralLength_decimal (h : IsGrouped (isDigitOf 10) cs) (hrest : EndsNumber rest) :
    numeralLength (cs ++ rest) = cs.length := by
  refine (numeralLength_of_not_marked fun c hc hmark => ?_).trans (decimalLength_append h hrest)
  have hmarks : (['x', 'X', 'o', 'O', 'b', 'B'].all fun m =>
      (!isDigitOf 10 m && m != '_') && (m.isAlphanum || m == '_' || m == '.')) = true := by decide
  obtain ⟨hother, hletter⟩ := Bool.and_eq_true_iff.1 (List.all_eq_true.1 hmarks c hmark)
  obtain ⟨hdigit, hline⟩ : isDigitOf 10 c = false ∧ c ≠ '_' := by simpa using hother
  obtain ⟨d, ds, rfl, -⟩ := h.exists_cons
  rw [List.cons_append, List.drop_succ_cons, List.drop_zero, List.head?_append] at hc
  cases ds with
  | nil => exact hrest.head?_ne hletter hc
  | cons e es =>
    obtain rfl : e = c := Option.some.inj hc
    rcases h.digit_or_line e (by simp) with hd | hd
    · rw [hdigit] at hd
      cases hd
    · exact hline hd

theorem numeralLength_spelling (l : IntegerLiteral) (hrest : EndsNumber rest) :
    numeralLength (l.spelling ++ rest) = l.spelling.length := by
  obtain ⟨base, capitalMark, cs, h⟩ := l
  have hmarked {b : Nat} (hb : b ≤ 16) (h : IsGrouped (isDigitOf b) cs) (m : Char) :=
    markedLength_append hb h hrest '0' m
  cases base with
  | decimal => exact numeralLength_decimal h hrest
  | hexadecimal => cases capitalMark <;> exact hmarked (by decide) h _
  | octal => cases capitalMark <;> exact hmarked (by decide) h _
  | binary => cases capitalMark <;> exact hmarked (by decide) h _

/-- A literal is read as a number up to its end. -/
theorem exists_number?_of_spelling (l : IntegerLiteral) {c : Cursor}
    (htext : c.skip.rest = l.spelling ++ rest) (hrest : EndsNumber rest) :
    ∃ t d, number? c = some (t, d) ∧ t.kind = .number ∧ t.text = l.spelling ∧ d.rest = rest := by
  have hlength : numeralLength c.skip.rest = l.spelling.length := by
    rw [htext, numeralLength_spelling l hrest]
  have hpos : 0 < l.spelling.length := by
    obtain ⟨d, ds, hds, -⟩ := l.grouped.exists_cons
    rw [IntegerLiteral.spelling]
    split <;> simp [hds]
  obtain ⟨n, hn⟩ := Nat.exists_eq_succ_of_ne_zero hpos.ne'
  have hnumber : number? c = some
      (c.skip.node (c.skip.drop l.spelling.length) .number [], c.skip.drop l.spelling.length) := by
    simp only [number?, hlength, hn]
  refine ⟨_, _, hnumber, rfl, ?_, ?_⟩
  · have hnode := Cursor.textTo_drop c.skip l.spelling.length
    rw [htext, List.take_left] at hnode
    exact hnode
  · rw [Cursor.drop_rest, htext, List.drop_left]

end

/-! ## The value of a literal -/

/-- The value of an integer in a script: the integer if it is below the limit, else the nearest
double if this is finite. -/
def integerValue? (n : Nat) : Option Value :=
  if n < exactLimit then some (.int n)
  else if (Double.ofInt n).isFinite then some (.float (Double.ofInt n))
  else none

theorem exactLimit_eq : exactLimit = 2 ^ 53 := rfl

/-- An integer below the limit is a finite double and has itself as its value. -/
theorem doubleValue_of_lt {n : Nat} (hn : n < exactLimit) :
    (Double.ofInt n).isFinite = true ∧ doubleValue (Double.ofInt n) = .int n := by
  have hnearest := Double.isNearest_ofInt n
  have hfinite : (Double.ofInt n).isFinite = true := by
    by_contra hinfinite
    have hmagnitude := hnearest.magnitude_eq hn
    rw [Double.magnitude_of_rank_eq (Double.rank_eq_of_not_isFinite hnearest.rank_le hinfinite)]
      at hmagnitude
    have hlimit : (2 : ℚ) ^ 53 ≤ 2 ^ 1024 := pow_le_pow_right₀ one_le_two (by decide)
    have hcast : (n : ℚ) < 2 ^ 53 := by exact_mod_cast exactLimit_eq ▸ hn
    rw [hmagnitude] at hlimit
    exact absurd hcast (not_lt.2 hlimit)
  have hint : (Double.ofInt n).toInt? = some n := by
    rw [Double.toInt?_of_magnitude hfinite (hnearest.magnitude_eq hn),
      Double.ofInt_natCast]
    rfl
  refine ⟨hfinite, ?_⟩
  rw [doubleValue, hint]
  exact if_pos hn

/-- No integer from the limit on is rounded to a double that has an integer as its value. -/
theorem doubleValue_of_le {n : Nat} (hn : exactLimit ≤ n) :
    doubleValue (Double.ofInt n) = .float (Double.ofInt n) := by
  rw [doubleValue]
  split
  case h_1 k hk =>
    have hle : (2 : ℚ) ^ 53 ≤ (Double.ofInt n).magnitude :=
      (Double.isNearest_ofInt n).le_magnitude (by exact_mod_cast exactLimit_eq ▸ hn)
    rw [← Double.natAbs_of_toInt? hk] at hle
    have hk : ¬ k.natAbs < exactLimit := by
      rw [exactLimit_eq, not_lt]
      exact_mod_cast hle
    rw [if_neg hk]
  case h_2 => rfl

/-- The value of the double nearest to an integer is that of the integer. -/
theorem doubleValue_ofInt (n : Nat) :
    (if (Double.ofInt n).isFinite then some (doubleValue (Double.ofInt n)) else none)
      = integerValue? n := by
  rw [integerValue?]
  by_cases hn : n < exactLimit
  · obtain ⟨hfinite, hvalue⟩ := doubleValue_of_lt hn
    rw [if_pos hfinite, if_pos hn, hvalue]
  · rw [if_neg hn, doubleValue_of_le (Nat.le_of_not_lt hn)]

section

variable {cs ds : List Char}

theorem numberValue?_ofChars (cs : List Char) :
    numberValue? (Text.ofChars cs) =
      cleanNumber? (Text.ofChars ((cs.filter (· ≠ '_')).map Char.toLower)) := by
  have hfilter : (Text.ofChars cs).filter (· ≠ .char '_') =
      Text.ofChars (cs.filter (· ≠ '_')) := by
    rw [Text.ofChars, Text.ofChars, List.filter_map]
    congr 1
    exact List.filter_congr fun c _ => by simp
  rw [numberValue?, hfilter]
  congr 1
  simp [Text.asciiLower, Text.ofChars, Function.comp_def]

theorem startsWith_eq_false {s : String} {m : Char} (hm : m ∈ s.toList) (h : m ∉ cs) :
    startsWith (Text.ofChars cs) s = false := by
  rw [startsWith, Bool.eq_false_iff, ne_eq, List.isPrefixOf_iff_prefix]
  intro hstart
  obtain ⟨c, hc, heq⟩ := List.mem_map.1 (hstart.subset (List.mem_map_of_mem hm))
  cases heq
  exact h hc

/-- No numeral of digits has the mark of an integer of any size. -/
theorem getLast?_ne_n {base : Nat} (hb : base ≤ 16) (hne : ds ≠ [])
    (h : ∀ d ∈ ds, isDigitOf base d = true) (cs : List Char) :
    (Text.ofChars (cs ++ ds)).getLast? ≠ some (.char 'n') := by
  intro hlast
  rw [Text.ofChars, List.getLast?_map] at hlast
  obtain ⟨c, hc, heq⟩ := Option.map_eq_some_iff.1 hlast
  cases heq
  rw [List.getLast?_append_of_ne_nil cs hne] at hc
  have hn := isDigitOf_mono hb (h 'n' (List.mem_of_getLast? hc))
  cases hn

/-- What is left of the digits of a literal without their low lines and in small letters. -/
def IntegerLiteral.bare (l : IntegerLiteral) : List Char :=
  (l.digits.filter (· ≠ '_')).map Char.toLower

theorem IntegerLiteral.bare_ne_nil (l : IntegerLiteral) : l.bare ≠ [] := by
  rw [bare, ne_eq, List.map_eq_nil_iff]
  exact (l.grouped.filter rfl).1

theorem IntegerLiteral.isDigitOf_bare (l : IntegerLiteral) :
    ∀ d ∈ l.bare, isDigitOf l.base.radix d = true := by
  intro d hd
  obtain ⟨c, hc, rfl⟩ := List.mem_map.1 hd
  exact (toLower_of_isDigitOf l.base.radix_le ((l.grouped.filter rfl).2 c hc)).1

theorem IntegerLiteral.ofDigits_bare (l : IntegerLiteral) :
    ofDigits l.base.radix l.bare = l.number :=
  ofDigits_map_toLower l.base.radix_le (l.grouped.filter rfl).2

/-- A row of decimal digits has the value of its number. -/
theorem cleanNumber?_decimal (hne : ds ≠ []) (h : ∀ d ∈ ds, isDigitOf 10 d = true) :
    cleanNumber? (Text.ofChars ds) = integerValue? (ofDigits 10 ds) := by
  have hnot (s : String) (m : Char) (hm : m ∈ s.toList) (hdigit : isDigitOf 10 m = false) :
      startsWith (Text.ofChars ds) s = false := by
    refine startsWith_eq_false hm fun hmem => ?_
    rw [h m hmem] at hdigit
    cases hdigit
  have hread : Numeral.readDouble? (Text.ofChars ds) = some (Double.ofInt (ofDigits 10 ds)) := by
    rw [Numeral.readDouble?_of_digits hne fun d hd => isDigitOf_ten d ▸ h d hd,
      Double.ofDecimal_zero_exponent]
  have hn : (Text.ofChars ds).getLast? ≠ some (.char 'n') := getLast?_ne_n (by decide) hne h []
  rw [cleanNumber?, if_neg hn,
    if_neg (by rw [hnot "0x" 'x' (by decide) rfl]; decide),
    if_neg (by rw [hnot "0o" 'o' (by decide) rfl]; decide),
    if_neg (by rw [hnot "0b" 'b' (by decide) rfl]; decide), hread]
  exact doubleValue_ofInt (ofDigits 10 ds)

/-- Digits behind the mark of their base have their number as their value. -/
theorem cleanNumber?_marked {base : Nat} {m : Char} (hmark : (base, m) ∈ Numeral.markedBases)
    (hne : ds ≠ []) (h : ∀ d ∈ ds, isDigitOf base d = true) :
    cleanNumber? (Text.ofChars ('0' :: m :: ds)) = some (.int (ofDigits base ds)) := by
  have hread := Numeral.readInt?_marked hmark hne h
  have hb : base ≤ 16 := by
    have hbases : ∀ m ∈ Numeral.markedBases, m.1 ≤ 16 := by decide
    exact hbases _ hmark
  have hn : (Text.ofChars ('0' :: m :: ds)).getLast? ≠ some (.char 'n') :=
    getLast?_ne_n hb hne h ['0', m]
  rw [cleanNumber?, if_neg hn]
  simp only [Numeral.markedBases, List.mem_cons, Prod.mk.injEq, List.not_mem_nil, or_false] at hmark
  rcases hmark with ⟨rfl, rfl⟩ | ⟨rfl, rfl⟩ | ⟨rfl, rfl⟩
  · have hx : startsWith (Text.ofChars ('0' :: 'x' :: ds)) "0x" = true := rfl
    rw [if_pos hx, hread]
    rfl
  · have hx : startsWith (Text.ofChars ('0' :: 'o' :: ds)) "0x" = false := rfl
    have ho : startsWith (Text.ofChars ('0' :: 'o' :: ds)) "0o" = true := rfl
    rw [if_neg (by simp [hx]), if_pos ho, hread]
    rfl
  · have hx : startsWith (Text.ofChars ('0' :: 'b' :: ds)) "0x" = false := rfl
    have ho : startsWith (Text.ofChars ('0' :: 'b' :: ds)) "0o" = false := rfl
    have hb : startsWith (Text.ofChars ('0' :: 'b' :: ds)) "0b" = true := rfl
    rw [if_neg (by simp [hx]), if_neg (by simp [ho]), if_pos hb, hread]
    rfl

end

/-- **The value of an integer literal.** A decimal has the value of its number; a literal whose base
is marked keeps its integer. -/
theorem numberValue?_spelling (l : IntegerLiteral) :
    numberValue? (Text.ofChars l.spelling) =
      if l.base = .decimal then integerValue? l.number else some (.int l.number) := by
  rw [numberValue?_ofChars, ← l.ofDigits_bare]
  have hbare := l.isDigitOf_bare
  have hne := l.bare_ne_nil
  cases hmark : l.base.mark? with
  | none =>
    have hbase := NumberBase.mark?_eq_none_iff.1 hmark
    have hspelling : l.spelling = l.digits := by rw [IntegerLiteral.spelling, hmark]
    rw [hbase] at hbare ⊢
    rw [hspelling, if_pos rfl]
    exact cleanNumber?_decimal hne hbare
  | some m =>
    have hbase : l.base ≠ .decimal := fun h => by simp [h, NumberBase.mark?] at hmark
    have hspelling : (l.spelling.filter (· ≠ '_')).map Char.toLower = '0' :: m :: l.bare := by
      obtain ⟨hline, hlower⟩ := NumberBase.letter_of_mark? hmark l.capitalMark
      rw [IntegerLiteral.spelling, hmark]
      simp [hline, hlower, IntegerLiteral.bare]
    rw [hspelling, if_neg hbase]
    exact cleanNumber?_marked (NumberBase.mem_markedBases hmark) hne hbare

theorem integerValue?_eq_int_iff {n : Nat} : integerValue? n = some (.int n) ↔ n < exactLimit := by
  rw [integerValue?]
  by_cases hn : n < exactLimit
  · simp [hn]
  · rw [if_neg hn]
    split <;> simp [hn]

/-- **Which integer literals have the value of their number.** Beyond the limit only the decimals
do: literals whose base is marked keep their integer, which no double is read as there, and keep it
where doubles end. So two literals of a number beyond the limit have the same value just if both or
neither of them is a decimal. -/
theorem integerLiterals_agree_iff {l m : IntegerLiteral} {n : Nat} (hl : l.number = n)
    (hm : m.number = n) :
    ((Double.ofInt n).IsNearest n ∧ (Double.ofInt n).negative = false ∧
      ((Double.ofInt n).isFinite = true ↔ (n : ℚ) < 2 ^ 1024 - 2 ^ 970)) ∧
    numberValue? (Text.ofChars l.spelling) =
      (if n < 2 ^ 53 ∨ l.base ≠ .decimal then some (.int n)
      else if (Double.ofInt n).isFinite then some (.float (Double.ofInt n))
      else none) ∧
    (numberValue? (Text.ofChars l.spelling) = numberValue? (Text.ofChars m.spelling) ↔
      n < 2 ^ 53 ∨ (l.base = .decimal ↔ m.base = .decimal)) ∧
    ∀ (root : Option Tree) (active : List Name) (c : Cursor) (rest : List Char),
      c.skip.rest = l.spelling ++ rest → EndsNumber rest →
      ∃ t d, number? c = some (t, d) ∧ t.text = l.spelling ∧ d.rest = rest ∧
        convert root active t =
          .ok ((numberValue? (Text.ofChars l.spelling)).getD (marker l.spelling)) := by
  subst hl
  have hnearest := Double.isNearest_ofInt l.number
  have hvalue := numberValue?_spelling l
  have hvalue' := numberValue?_spelling m
  rw [hm] at hvalue'
  refine ⟨⟨hnearest, by rw [Double.ofInt_natCast]; rfl, hnearest.isFinite_iff⟩, ?_, ?_, ?_⟩
  · rw [hvalue, integerValue?, exactLimit_eq]
    by_cases hbase : l.base = .decimal
    · simp only [hbase, if_true, ne_eq, not_true_eq_false, or_false]
    · simp only [hbase, if_false, ne_eq, not_false_eq_true, or_true, if_true]
  · rw [hvalue, hvalue', ← exactLimit_eq, ← integerValue?_eq_int_iff]
    by_cases hbase : l.base = .decimal <;> by_cases hbase' : m.base = .decimal <;>
      simp [hbase, hbase', eq_comm]
  · intro root active c rest htext hrest
    obtain ⟨t, d, hnumber, hkind, hspelling, hbehind⟩ := exists_number?_of_spelling l htext hrest
    refine ⟨t, d, hnumber, hspelling, hbehind, ?_⟩
    rw [convert, hkind, hspelling]

/-- The first number that no double is equal to. -/
def gapNumber : Nat := 9007199254740993

def hexadecimalGap : IntegerLiteral where
  base := .hexadecimal
  capitalMark := true
  digits := "20_0000_0000_0001".toList
  grouped := by decide

def decimalGap : IntegerLiteral where
  base := .decimal
  capitalMark := false
  digits := "9_007_199_254_740_993".toList
  grouped := by decide

theorem gapLiterals_differ :
    hexadecimalGap.number = gapNumber ∧ decimalGap.number = gapNumber ∧
    numberValue? (Text.ofChars hexadecimalGap.spelling) ≠
      numberValue? (Text.ofChars decimalGap.spelling) := by
  have hl : hexadecimalGap.number = gapNumber := by decide
  have hm : decimalGap.number = gapNumber := by decide
  obtain ⟨-, -, hagree, -⟩ := integerLiterals_agree_iff hl hm
  refine ⟨hl, hm, ?_⟩
  rw [ne_eq, hagree]
  decide

/-- The number `2 ^ 53 + 1` in hexadecimal digits keeps its integer. The nearest double is `2 ^ 53`,
and this is the value of the decimal literal. -/
theorem hexadecimalGap_keeps_integer :
    2 ^ 53 ≤ gapNumber ∧ hexadecimalGap.number = gapNumber ∧ decimalGap.number = gapNumber ∧
    (Double.ofInt gapNumber).IsNearest gapNumber ∧
    (Double.ofInt gapNumber).toInt? = some 9007199254740992 ∧
    numberValue? (Text.ofChars hexadecimalGap.spelling) = some (.int 9007199254740993) ∧
    numberValue? (Text.ofChars decimalGap.spelling) = some (.float (Double.ofInt gapNumber)) := by
  have hl : hexadecimalGap.number = gapNumber := by decide
  have hm : decimalGap.number = gapNumber := by decide
  refine ⟨by decide, hl, hm, Double.isNearest_ofInt gapNumber, by decide +kernel, ?_, ?_⟩
  · rw [numberValue?_spelling, hl]
    rfl
  · have hfinite : (Double.ofInt gapNumber).isFinite = true := by decide +kernel
    have hlimit : ¬ gapNumber < exactLimit := by decide
    rw [numberValue?_spelling, hm, integerValue?, if_pos hfinite, if_neg hlimit]
    rfl

end AgentFlow.Script
