import AgentFlow.Decimal.Layout
import AgentFlow.Json.Reader
import AgentFlow.Proofs.Decimal.Shortest
import AgentFlow.Value.Display

/-!
# Reading numbers back

What the writer sets out for an integer or a finite double is read as that integer or double, up
to where it ends. The numerals here are those that a writer makes: digits without needless zeros
in front, perhaps a point with digits behind it, perhaps an exponent.

* `magnitude?_digitsText`: the digits of a decimal in any layout read as that decimal.
* `scalar_render`: a finite double reads back.
* `scalar_ofInt`: an integer that is short enough reads back.
-/

namespace AgentFlow.Json

/-- What may stand right behind a value: nothing, or a mark that ends it. -/
def EndsValue (rest : Text) : Prop :=
  ∀ p ∈ rest.head?, p ∈ ([.char ',', .char ']', .char '\x7d', .char '\n'] : Text)

theorem endsValue_nil : EndsValue [] := by simp [EndsValue]

theorem EndsValue.eq_nil_or_cons {rest : Text} (h : EndsValue rest) : rest = [] ∨ ∃ more,
    rest = .char ',' :: more ∨ rest = .char ']' :: more ∨ rest = .char '\x7d' :: more ∨
      rest = .char '\n' :: more := by
  cases rest with
  | nil => exact .inl rfl
  | cons p more =>
    have hp := h p rfl
    simp only [List.mem_cons, List.not_mem_nil, or_false] at hp
    exact .inr ⟨more, by simpa using hp⟩

/-! ## Digits -/

/-- Whether a text starts with a digit. -/
def startsDigit : Text → Bool
  | .char c :: _ => c.isDigit
  | _ => false

theorem digits_of_startsDigit {t : Text} (h : startsDigit t = false) : digits t = ([], t) := by
  cases t with
  | nil => rfl
  | cons p rest =>
    cases p with
    | char c =>
      simp only [startsDigit] at h
      simp [digits, h]
    | surrogate u => rfl

theorem digits_append {ds : List Char} {rest : Text} (h : ∀ c ∈ ds, c.isDigit)
    (hr : startsDigit rest = false) : digits (Text.ofChars ds ++ rest) = (ds, rest) := by
  induction ds with
  | nil => exact digits_of_startsDigit hr
  | cons c ds ih =>
    have hc := h c List.mem_cons_self
    have ih := ih fun d hd => h d (List.mem_cons_of_mem _ hd)
    simp only [Text.ofChars, List.map_cons, List.cons_append] at ih ⊢
    rw [digits, if_pos hc, ih]

/-- Digits that may be the whole part of a number: at least one, and no zero in front of others. -/
structure IsWhole (ds : List Char) : Prop where
  digits : ∀ c ∈ ds, c.isDigit
  nonempty : ds ≠ []
  zero : ds.head? = some '0' → ds = ['0']

theorem isWhole_zero : IsWhole ['0'] := ⟨List.forall_mem_singleton.2 rfl, by simp, fun _ => rfl⟩

theorem isWhole_toDigits (n : Nat) : IsWhole (Nat.toDigits 10 n) := by
  refine ⟨fun _ => isDigit_of_mem_toDigits, Nat.toDigits_ne_nil, fun h => ?_⟩
  rcases Nat.eq_zero_or_pos n with rfl | hn
  · exact Nat.toDigits_zero 10
  · exact absurd h (head?_toDigits_ne_zero hn)

theorem wholePart?_append {ds : List Char} {rest : Text} (h : IsWhole ds)
    (hr : startsDigit rest = false) :
    wholePart? (Text.ofChars ds ++ rest) = some (ds, rest) := by
  obtain ⟨c, cs, rfl⟩ := List.exists_cons_of_ne_nil h.nonempty
  have hd := digits_append h.digits hr
  simp only [Text.ofChars, List.map_cons, List.cons_append] at hd ⊢
  by_cases hc : c = '0'
  · subst hc
    obtain rfl : cs = [] := by simpa using h.zero rfl
    rfl
  · unfold wholePart?
    split
    case h_1 t heq => simp_all
    case h_2 => rw [hd]

/-! ## Points and exponents -/

theorem startsDigit_of_endsValue {rest : Text} (h : EndsValue rest) :
    startsDigit rest = false := by
  rcases h.eq_nil_or_cons with rfl | ⟨more, rfl | rfl | rfl | rfl⟩ <;> rfl

theorem fraction_of_endsValue {rest : Text} (h : EndsValue rest) :
    fraction rest = ([], rest) := by
  rcases h.eq_nil_or_cons with rfl | ⟨more, rfl | rfl | rfl | rfl⟩ <;> rfl

theorem exponent?_of_endsValue {rest : Text} (h : EndsValue rest) : exponent? rest = none := by
  rcases h.eq_nil_or_cons with rfl | ⟨more, rfl | rfl | rfl | rfl⟩ <;> rfl

theorem fraction_append {ds : List Char} {rest : Text} (h : ∀ c ∈ ds, c.isDigit) (hne : ds ≠ [])
    (hr : startsDigit rest = false) :
    fraction (.char '.' :: (Text.ofChars ds ++ rest)) = (ds, rest) := by
  obtain ⟨c, cs, rfl⟩ := List.exists_cons_of_ne_nil hne
  simp only [fraction, digits_append h hr]

/-- An exponent as it is written reads as its number. -/
theorem exponent?_exponentText (layout : DecimalLayout) (k : Int) {rest : Text}
    (hr : startsDigit rest = false) :
    exponent? (layout.exponentText k ++ rest) = some (k, rest) := by
  have hds : ∀ c ∈ List.replicate (layout.exponentWidth - (Nat.toDigits 10 k.natAbs).length) '0'
      ++ Nat.toDigits 10 k.natAbs, c.isDigit := by
    intro c hc
    rcases List.mem_append.1 hc with hc | hc
    · rw [List.eq_of_mem_replicate hc]
      rfl
    · exact isDigit_of_mem_toDigits hc
  have hread := digits_append hds hr
  have hne : List.replicate (layout.exponentWidth - (Nat.toDigits 10 k.natAbs).length) '0'
      ++ Nat.toDigits 10 k.natAbs ≠ [] := by simp
  have hval := ofDigits_zeros_append 10
    (layout.exponentWidth - (Nat.toDigits 10 k.natAbs).length) (Nat.toDigits 10 k.natAbs)
  rw [ofDigits_toDigits] at hval
  simp only [DecimalLayout.exponentText, List.cons_append]
  generalize List.replicate (layout.exponentWidth - (Nat.toDigits 10 k.natAbs).length) '0'
    ++ Nat.toDigits 10 k.natAbs = ds at *
  obtain ⟨c, cs, rfl⟩ := List.exists_cons_of_ne_nil hne
  by_cases hk : k < 0
  · simp [exponent?, hk, hread, hval, -Nat.cast_natAbs]
    omega
  · simp [exponent?, hk, hread, hval, -Nat.cast_natAbs]
    omega

/-! ## Magnitudes -/

theorem magnitude?_of_point {t r₁ r₂ : Text} {whole part : List Char} (negative : Bool)
    (hw : wholePart? t = some (whole, r₁)) (hf : fraction r₁ = (part, r₂)) (hp : part ≠ [])
    (he : exponent? r₂ = none) :
    magnitude? negative t = some (.ok (.float
      (Double.ofDecimal negative (ofDigits 10 (whole ++ part)) (-(part.length : Int))), r₂)) := by
  simp [magnitude?, hw, hf, hp, he]

theorem magnitude?_of_exponent {t r₁ r₂ r₃ : Text} {whole part : List Char} {k : Int}
    (negative : Bool) (hw : wholePart? t = some (whole, r₁)) (hf : fraction r₁ = (part, r₂))
    (he : exponent? r₂ = some (k, r₃)) :
    magnitude? negative t = some (.ok (.float
      (Double.ofDecimal negative (ofDigits 10 (whole ++ part)) (k - part.length)), r₃)) := by
  simp [magnitude?, hw, hf, he]

theorem magnitude?_of_whole {t rest : Text} {whole : List Char} (negative : Bool)
    (hw : wholePart? t = some (whole, rest)) (hr : EndsValue rest)
    (hlen : whole.length ≤ integerDigitLimit) :
    magnitude? negative t = some (.ok (.int
      (if negative then -(ofDigits 10 whole : Int) else ofDigits 10 whole), rest)) := by
  simp [magnitude?, hw, fraction_of_endsValue hr, exponent?_of_endsValue hr, Nat.not_lt.2 hlen]

/-- A magnitude starts with a digit. -/
theorem startsDigit_of_magnitude? {t : Text} {negative : Bool}
    {r : Except Failure (Value × Text)} (h : magnitude? negative t = some r) :
    startsDigit t = true := by
  by_contra hs
  rw [Bool.not_eq_true] at hs
  have hw : wholePart? t = none := by
    unfold wholePart?
    split
    case h_1 => simp [startsDigit] at hs
    case h_2 => rw [digits_of_startsDigit hs]
  simp [magnitude?, hw] at h

/-! ## Layouts -/

theorem IsWhole.singleton {d : Char} {ds : List Char} (h : IsWhole (d :: ds)) : IsWhole [d] := by
  refine ⟨fun c hc => ?_, by simp, fun hd => ?_⟩
  · obtain rfl := List.mem_singleton.1 hc
    exact h.digits c List.mem_cons_self
  · rw [Option.some.inj hd]

/-- Digits behind a zero and a point. -/
theorem magnitude?_behindPoint (negative : Bool) {ds : List Char} (h : IsWhole ds) (zeros : Nat)
    {rest : Text} (hr : EndsValue rest) :
    magnitude? negative (Text.ofChars ('0' :: '.' :: List.replicate zeros '0' ++ ds) ++ rest)
      = some (.ok (.float (Double.ofDecimal negative (ofDigits 10 ds)
          (-((zeros + ds.length : Nat) : Int))), rest)) := by
  have hpart : ∀ c ∈ List.replicate zeros '0' ++ ds, c.isDigit := by
    intro c hc
    rcases List.mem_append.1 hc with hc | hc
    · rw [List.eq_of_mem_replicate hc]
      rfl
    · exact h.digits c hc
  have hne : List.replicate zeros '0' ++ ds ≠ [] := by simp [h.nonempty]
  have hwhole := wholePart?_append isWhole_zero
    (show startsDigit (.char '.' :: (Text.ofChars (List.replicate zeros '0' ++ ds) ++ rest))
      = false from rfl)
  have hread := magnitude?_of_point negative hwhole
    (fraction_append hpart hne (startsDigit_of_endsValue hr)) hne (exponent?_of_endsValue hr)
  rw [← List.append_assoc, List.singleton_append, ← List.replicate_succ, ofDigits_zeros_append,
    List.length_append, List.length_replicate] at hread
  rw [← hread]
  simp [Text.ofChars]

/-- The digits in front of a point that stands behind the digit `n`, with zeros for those that are
missing. -/
def wholeDigits (ds : List Char) (n : Nat) : List Char :=
  ds.take (n + 1) ++ List.replicate (n + 1 - (ds.take (n + 1)).length) '0'

/-- The digits behind that point, at least one. -/
def pointDigits (ds : List Char) (n : Nat) : List Char :=
  if (ds.drop (n + 1)).isEmpty then ['0'] else ds.drop (n + 1)

theorem isWhole_wholeDigits {ds : List Char} (h : IsWhole ds) {n : Nat}
    (hz : ds.head? = some '0' → n = 0) : IsWhole (wholeDigits ds n) := by
  obtain ⟨c, cs, rfl⟩ := List.exists_cons_of_ne_nil h.nonempty
  refine ⟨fun d hd => ?_, by simp [wholeDigits], fun hd => ?_⟩
  · rcases List.mem_append.1 hd with hd | hd
    · exact h.digits d (List.mem_of_mem_take hd)
    · rw [List.eq_of_mem_replicate hd]
      rfl
  · obtain rfl : c = '0' := by simpa [wholeDigits] using hd
    simp [wholeDigits, hz rfl]

theorem isDigit_of_mem_pointDigits {ds : List Char} (h : ∀ c ∈ ds, c.isDigit) (n : Nat) :
    ∀ c ∈ pointDigits ds n, c.isDigit := by
  unfold pointDigits
  split
  · exact List.forall_mem_singleton.2 rfl
  · exact fun c hc => h c (List.mem_of_mem_drop hc)

theorem pointDigits_ne_nil (ds : List Char) (n : Nat) : pointDigits ds n ≠ [] := by
  unfold pointDigits
  split
  case isTrue => simp
  case isFalse hne => simpa using hne

/-- Either the point divides the digits, or they end before it and zeros are added. -/
theorem ofDecimal_pointed (negative : Bool) (ds : List Char) (n : Nat) :
    Double.ofDecimal negative (ofDigits 10 (wholeDigits ds n ++ pointDigits ds n))
        (-((pointDigits ds n).length : Int))
      = Double.ofDecimal negative (ofDigits 10 ds) (n - ((ds.length : Int) - 1)) := by
  unfold wholeDigits pointDigits
  rcases Nat.lt_or_ge (n + 1) ds.length with hlt | hle
  · have hpart : (ds.drop (n + 1)).isEmpty = false := by simpa using hlt
    have hexp : -((ds.drop (n + 1)).length : Int) = n - ((ds.length : Int) - 1) := by
      rw [List.length_drop]
      omega
    rw [hpart, if_neg Bool.false_ne_true, List.length_take_of_le hlt.le, Nat.sub_self,
      List.replicate_zero, List.append_nil, List.take_append_drop, hexp]
  · have hzeros : n + 1 - ds.length + 1 = n + 2 - ds.length := by omega
    have hexp : (n : Int) - ((ds.length : Int) - 1) - (n + 2 - ds.length : Nat) = -1 := by omega
    have hshift := Double.ofDecimal_mul_pow negative (ofDigits 10 ds)
      (n - ((ds.length : Int) - 1)) (n + 2 - ds.length)
    rw [hexp, ← ofDigits_append_zeros, ← hzeros, List.replicate_succ'] at hshift
    rw [List.take_of_length_le hle, List.drop_of_length_le hle, List.append_assoc]
    exact hshift

/-- Digits with a point among them or behind them. -/
theorem magnitude?_pointed (negative : Bool) {ds : List Char} (h : IsWhole ds) {n : Nat}
    (hz : ds.head? = some '0' → n = 0) {rest : Text} (hr : EndsValue rest) :
    magnitude? negative (Text.ofChars (wholeDigits ds n ++ '.' :: pointDigits ds n) ++ rest)
      = some (.ok (.float
          (Double.ofDecimal negative (ofDigits 10 ds) (n - ((ds.length : Int) - 1))), rest)) := by
  have hwhole := wholePart?_append (isWhole_wholeDigits h hz)
    (show startsDigit (.char '.' :: (Text.ofChars (pointDigits ds n) ++ rest)) = false from rfl)
  have hread := magnitude?_of_point negative hwhole
    (fraction_append (isDigit_of_mem_pointDigits h.digits n) (pointDigits_ne_nil ds n)
      (startsDigit_of_endsValue hr))
    (pointDigits_ne_nil ds n) (exponent?_of_endsValue hr)
  rw [ofDecimal_pointed] at hread
  rw [← hread]
  simp [Text.ofChars]

/-- One digit, a point before the other digits if there are any, and an exponent. -/
theorem magnitude?_withExponent (layout : DecimalLayout) (negative : Bool) {d : Char}
    {part : List Char} (h : IsWhole (d :: part)) (k : Int) {rest : Text} (hr : EndsValue rest) :
    magnitude? negative ((if part = [] then .char d :: layout.exponentText k
        else .char d :: .char '.' :: Text.ofChars part ++ layout.exponentText k) ++ rest)
      = some (.ok (.float (Double.ofDecimal negative (ofDigits 10 (d :: part))
          (k - part.length)), rest)) := by
  have hstart : startsDigit (layout.exponentText k ++ rest) = false := rfl
  have hexp := exponent?_exponentText layout k (startsDigit_of_endsValue hr)
  by_cases hpart : part = []
  · subst hpart
    have hread := magnitude?_of_exponent negative (wholePart?_append h hstart)
      (show fraction (layout.exponentText k ++ rest) = ([], _) from rfl) hexp
    simpa [Text.ofChars] using hread
  · have hdigits : ∀ c ∈ part, c.isDigit := fun c hc => h.digits c (List.mem_cons_of_mem d hc)
    have hwhole := wholePart?_append h.singleton
      (show startsDigit (.char '.' :: (Text.ofChars part ++ (layout.exponentText k ++ rest)))
        = false from rfl)
    have hread := magnitude?_of_exponent negative hwhole
      (fraction_append hdigits hpart hstart) hexp
    simpa [Text.ofChars, hpart] using hread

/-- **The digits of a decimal in any layout read as that decimal.** -/
theorem magnitude?_digitsText (layout : DecimalLayout) (negative : Bool) {ds : List Char} {k : Int}
    {rest : Text} (h : IsWhole ds) (hz : ds.head? = some '0' → k = 0) (hr : EndsValue rest) :
    magnitude? negative (layout.digitsText ds k ++ rest) = some (.ok (.float
      (Double.ofDecimal negative (ofDigits 10 ds) (k - ((ds.length : Int) - 1))), rest)) := by
  unfold DecimalLayout.digitsText
  split
  · split
    case isTrue hk =>
      have hread := magnitude?_behindPoint negative h (k.natAbs - 1) hr
      have hexp : k - ((ds.length : Int) - 1) = -((k.natAbs - 1 + ds.length : Nat) : Int) := by
        omega
      rw [hexp]
      exact hread
    case isFalse hk =>
      obtain ⟨n, rfl⟩ := Int.eq_ofNat_of_zero_le (Int.not_lt.1 hk)
      exact magnitude?_pointed negative h (fun hd => by simpa using hz hd) hr
  · obtain ⟨d, part, rfl⟩ := List.exists_cons_of_ne_nil h.nonempty
    have hread := magnitude?_withExponent layout negative h k hr
    rw [List.length_cons, Nat.cast_succ, add_sub_cancel_right]
    cases part with
    | nil => exact hread
    | cons c cs => exact hread

/-! ## Doubles and integers -/

/-- The magnitude of a finite double reads as that double. -/
theorem magnitude?_magnitudeText (layout : DecimalLayout) {x : Double} (hx : x.isFinite)
    {rest : Text} (hr : EndsValue rest) :
    magnitude? x.negative (layout.magnitudeText x ++ rest) = some (.ok (.float x, rest)) := by
  unfold DecimalLayout.magnitudeText
  split
  case isTrue h0 =>
    have hzero : ofDigits 10 ['0'] = 0 := by decide
    rw [magnitude?_digitsText layout _ isWhole_zero (fun _ => rfl) hr, hzero,
      Double.ofDecimal_zero, ← h0]
  case isFalse h0 =>
    have hpos := Nat.pos_of_ne_zero h0
    obtain ⟨⟨c, e⟩, hd⟩ := Double.exists_shortest hx hpos
    have hc := Double.dropZeros_pos (Double.shortest_pos hpos hd) 17 e
    have hback := (Double.ofDecimal_dropZeros x.negative 17 c e).trans
      (Double.shortest_reads_back hd)
    simp only [hd]
    rw [magnitude?_digitsText layout _ (isWhole_toDigits _)
      (fun h => absurd h (head?_toDigits_ne_zero hc)) hr, ofDigits_toDigits]
    rw [show (dropZeros 17 c e).2 + ((Nat.toDigits 10 (dropZeros 17 c e).1).length : Int) - 1
      - (((Nat.toDigits 10 (dropZeros 17 c e).1).length : Int) - 1) = (dropZeros 17 c e).2 by omega,
      hback]

/-- What starts with a digit is no word. -/
theorem words_find?_of_startsDigit {t : Text} (h : startsDigit t = true) :
    words.find? (fun w => w.1.isPrefixOf t) = none ∧
      words.find? (fun w => w.1.isPrefixOf (.char '-' :: t)) = none := by
  cases t with
  | nil => simp [startsDigit] at h
  | cons p rest =>
    cases p with
    | surrogate u => simp [startsDigit] at h
    | char c =>
      have hne (d : Char) (hd : d.isDigit = false) : (CodePoint.char d == .char c) = false := by
        rw [beq_eq_false_iff_ne]
        rintro hdc
        rw [CodePoint.char.inj hdc] at hd
        simp [startsDigit, hd] at h
      simp [words, Text.ofString, Text.ofChars, List.isPrefixOf, hne]

theorem scalar_of_magnitude? {t rest : Text} {v : Value}
    (h : magnitude? false t = some (.ok (v, rest))) : scalar t = .ok (v, rest) := by
  have hs := startsDigit_of_magnitude? h
  rw [scalar, (words_find?_of_startsDigit hs).1]
  · simp only [h]
  · rintro r rfl
    simp [startsDigit] at hs

theorem scalar_of_negative {t rest : Text} {v : Value}
    (h : magnitude? true t = some (.ok (v, rest))) : scalar (.char '-' :: t) = .ok (v, rest) := by
  rw [scalar, (words_find?_of_startsDigit (startsDigit_of_magnitude? h)).2]
  simp only [h]

/-- **A finite double reads back.** -/
theorem scalar_render (layout : DecimalLayout) {x : Double} (hx : x.isFinite) {rest : Text}
    (hr : EndsValue rest) : scalar (layout.render x ++ rest) = .ok (.float x, rest) := by
  have hread := magnitude?_magnitudeText layout hx hr
  have hfin : x.isNaN = false ∧ x.isInfinite = false := by
    simp only [Double.isFinite, decide_eq_true_eq] at hx
    simp only [Double.isNaN, Double.isInfinite, decide_eq_false_iff_not, beq_eq_false_iff_ne]
    omega
  cases hneg : x.negative with
  | false =>
    rw [hneg] at hread
    simpa [DecimalLayout.render, hfin, hneg] using scalar_of_magnitude? hread
  | true =>
    rw [hneg] at hread
    simpa [DecimalLayout.render, hfin, hneg] using scalar_of_negative hread

private theorem length_toDigits_le {n k : Nat} (hk : 0 < k) (h : n < Nat.pow 10 k) :
    (Nat.toDigits 10 n).length ≤ k :=
  (Nat.length_toDigits_le_iff (by decide) hk).2 h

/-- **An integer that is short enough reads back.** -/
theorem scalar_ofInt {n : Int} (hn : n.natAbs < Value.unshowableFrom) {rest : Text}
    (hr : EndsValue rest) : scalar (Text.ofInt n ++ rest) = .ok (.int n, rest) := by
  have hlen : (Nat.toDigits 10 n.natAbs).length ≤ integerDigitLimit := by
    unfold Value.unshowableFrom at hn
    exact length_toDigits_le (k := Value.digitLimit) (by decide) hn
  have hread (negative : Bool) := magnitude?_of_whole negative
    (wholePart?_append (isWhole_toDigits n.natAbs) (startsDigit_of_endsValue hr)) hr hlen
  unfold Text.ofInt Text.ofNat
  rw [ofDigits_toDigits] at hread
  split
  case isTrue hneg =>
    have hval : -(n.natAbs : Int) = n := by omega
    simpa [hval, -Nat.cast_natAbs] using scalar_of_negative (hread true)
  case isFalse hpos =>
    have hval : (n.natAbs : Int) = n := by omega
    simpa [hval, -Nat.cast_natAbs] using scalar_of_magnitude? (hread false)

theorem scalar_null (rest : Text) : scalar (("null" : Text) ++ rest) = .ok (.null, rest) := by
  simp [scalar, words, Text.ofString, Text.ofChars, List.isPrefixOf]

theorem scalar_bool (b : Bool) (rest : Text) :
    scalar ((if b then "true" else "false" : Text) ++ rest) = .ok (.bool b, rest) := by
  cases b <;> simp [scalar, words, Text.ofString, Text.ofChars, List.isPrefixOf]

end AgentFlow.Json
