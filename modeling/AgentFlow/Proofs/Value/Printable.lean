import AgentFlow.Proofs.Text.Split
import AgentFlow.Value.Display

/-!
# Displays are printable

What a value is shown as inside another holds printable characters only: texts stand between quotes
there, with escapes for everything else, and all other values are shown by signs, digits and words.

* `Text.isPrintable_quoted`: a text between quotes.
* `Value.isPrintable_literal`: the text of a value inside another.
* `Value.all_shown`: what printable characters are like is the text of a value on its own, unless
  the value is a text that is not.
-/

namespace AgentFlow

/-- Whether a text holds only printable code points. -/
def Text.isPrintable (t : Text) : Bool := t.all CodePoint.isPrintable

/-- Digits of a base up to sixteen are printable. -/
theorem isPrintable_of_mem_toDigits {base n : Nat} {c : Char} (h2 : 1 < base) (h16 : base ≤ 16)
    (h : c ∈ Nat.toDigits base n) : (CodePoint.char c).isPrintable = true := by
  have hdigit : ∀ d < 16, (CodePoint.char (Nat.digitChar d)).isPrintable = true := by decide
  induction n using Nat.strongRecOn with
  | ind n ih =>
    rw [Nat.toDigits_eq_if h2] at h
    split at h
    case isTrue hn =>
      rw [List.mem_singleton.1 h]
      exact hdigit n (by omega)
    case isFalse hn =>
      rcases List.mem_append.1 h with h | h
      · exact ih _ (Nat.div_lt_self (by omega) h2) h
      · rw [List.mem_singleton.1 h]
        exact hdigit _ (Nat.lt_of_lt_of_le (Nat.mod_lt n (by omega)) h16)

namespace Text

@[simp] theorem isPrintable_nil : isPrintable [] = true := rfl

@[simp] theorem isPrintable_cons (p : CodePoint) (t : Text) :
    isPrintable (p :: t) = (p.isPrintable && isPrintable t) := List.all_cons

@[simp] theorem isPrintable_append (t u : Text) :
    (t ++ u).isPrintable = (t.isPrintable && u.isPrintable) := List.all_append

theorem isPrintable_ofChars {cs : List Char} (h : ∀ c ∈ cs, (CodePoint.char c).isPrintable = true) :
    (ofChars cs).isPrintable = true := by
  rw [isPrintable, ofChars, List.all_map]
  exact List.all_eq_true.2 h

/-- Digits with zeros in front. -/
theorem isPrintable_zeros_append (k : Nat) {ds : List Char}
    (h : ∀ c ∈ ds, (CodePoint.char c).isPrintable = true) :
    (ofChars (List.replicate k '0' ++ ds)).isPrintable = true := by
  refine isPrintable_ofChars fun c hc => ?_
  rcases List.mem_append.1 hc with hc | hc
  · rw [(List.mem_replicate.1 hc).2]
    decide
  · exact h c hc

@[simp] theorem isPrintable_ofNat (n : Nat) : (ofNat n).isPrintable = true :=
  isPrintable_ofChars fun _ => isPrintable_of_mem_toDigits (by decide) (by decide)

@[simp] theorem isPrintable_ofInt (n : Int) : (ofInt n).isPrintable = true := by
  rw [ofInt]
  split
  · rw [isPrintable_cons, isPrintable_ofNat]
    decide
  · exact isPrintable_ofNat _

theorem isPrintable_flatMap {α : Type} {xs : List α} {f : α → Text}
    (h : ∀ x ∈ xs, (f x).isPrintable = true) : isPrintable (xs.flatMap f) = true := by
  rw [isPrintable, List.all_flatMap]
  exact List.all_eq_true.2 h

@[simp] theorem isPrintable_join {sep : Text} (h : sep.isPrintable = true) (ts : List Text) :
    (join sep ts).isPrintable = ts.all isPrintable := all_join h ts

/-! ## Quoted texts -/

@[simp] theorem isPrintable_hexText (width n : Nat) : (hexText width n).isPrintable = true :=
  isPrintable_zeros_append _ fun _ => isPrintable_of_mem_toDigits (by decide) (by decide)

theorem isPrintable_escaped (p : CodePoint) : p.escaped.isPrintable = true := by
  unfold CodePoint.escaped
  dsimp only
  split
  · rw [isPrintable_append, isPrintable_hexText]
    decide
  · split <;> rw [isPrintable_append, isPrintable_hexText] <;> decide

theorem isPrintable_quoteFor (t : Text) : (CodePoint.char t.quoteFor).isPrintable = true := by
  rw [quoteFor]
  split <;> decide

/-- What is not printable is written as an escape between quotes. -/
theorem isPrintable_quotedPoint {quote : Char}
    (hquote : (CodePoint.char quote).isPrintable = true) (p : CodePoint) :
    (quotedPoint quote p).isPrintable = true := by
  unfold quotedPoint
  split
  case isTrue h =>
    have hp : p.isPrintable = true := by
      rcases h with rfl | rfl
      · exact hquote
      · decide
    rw [isPrintable_cons, isPrintable_cons, hp]
    decide
  case isFalse =>
    repeat' split
    · decide
    · decide
    · decide
    case isTrue h => simp [h]
    case isFalse => exact isPrintable_escaped p

/-- **A text between quotes is printable.** -/
@[simp] theorem isPrintable_quoted (t : Text) : t.quoted.isPrintable = true := by
  have hquote := isPrintable_quoteFor t
  have hpoints : isPrintable (t.flatMap (quotedPoint t.quoteFor)) = true :=
    isPrintable_flatMap fun p _ => isPrintable_quotedPoint hquote p
  simp [quoted, hpoints, hquote]

end Text

/-! ## Numbers, times and bytes -/

section

variable {layout : DecimalLayout} {ds : List Char}

theorem isPrintable_exponentText (k : Int) : (layout.exponentText k).isPrintable = true := by
  have hdigits : (Text.ofChars (List.replicate (layout.exponentWidth
      - (Nat.toDigits 10 k.natAbs).length) '0' ++ Nat.toDigits 10 k.natAbs)).isPrintable = true :=
    Text.isPrintable_zeros_append _ fun _ => isPrintable_of_mem_toDigits (by decide) (by decide)
  rw [DecimalLayout.exponentText, Text.isPrintable_cons, Text.isPrintable_cons, hdigits]
  split <;> decide

theorem isPrintable_digitsText (h : ∀ c ∈ ds, (CodePoint.char c).isPrintable = true) (k : Int) :
    (layout.digitsText ds k).isPrintable = true := by
  have hzero : (CodePoint.char '0').isPrintable = true := by decide
  have hpoint : (CodePoint.char '.').isPrintable = true := by decide
  unfold DecimalLayout.digitsText
  split
  · split
    · refine Text.isPrintable_ofChars fun c hc => ?_
      simp only [List.cons_append, List.mem_cons, List.mem_append, List.mem_replicate] at hc
      obtain rfl | rfl | ⟨-, rfl⟩ | hc := hc
      · exact hzero
      · exact hpoint
      · exact hzero
      · exact h c hc
    · refine Text.isPrintable_ofChars fun c hc => ?_
      simp only [List.mem_cons, List.mem_append, List.mem_replicate] at hc
      obtain (hc | ⟨-, rfl⟩) | rfl | hc := hc
      · exact h c (List.mem_of_mem_take hc)
      · exact hzero
      · exact hpoint
      · split at hc
        · rw [List.mem_singleton.1 hc]
          exact hzero
        · exact h c (List.mem_of_mem_drop hc)
  · split
    · rfl
    · rw [Text.isPrintable_cons, h _ List.mem_cons_self, isPrintable_exponentText]
      rfl
    · have hpart := Text.isPrintable_ofChars fun c hc => h c (List.mem_cons_of_mem _ hc)
      simp [h _ List.mem_cons_self, hpoint, hpart, isPrintable_exponentText]

theorem isPrintable_render (hinf : layout.infinity.isPrintable = true)
    (hnan : layout.nan.isPrintable = true) (x : Double) :
    (layout.render x).isPrintable = true := by
  have hmagnitude : (layout.magnitudeText x).isPrintable = true := by
    unfold DecimalLayout.magnitudeText
    split
    · refine isPrintable_digitsText (fun c hc => ?_) 0
      rw [List.mem_singleton.1 hc]
      decide
    · split
      · rfl
      · exact isPrintable_digitsText
          (fun _ => isPrintable_of_mem_toDigits (by decide) (by decide)) _
  have hsign : (CodePoint.char '-').isPrintable = true := by decide
  unfold DecimalLayout.render
  split
  · exact hnan
  · rw [Text.isPrintable_append]
    split <;> split <;> simp [hsign, hinf, hmagnitude]

end

theorem isPrintable_paddedNat (width n : Nat) : (paddedNat width n).isPrintable = true :=
  Text.isPrintable_zeros_append _ fun _ => isPrintable_of_mem_toDigits (by decide) (by decide)

/-- Visible ASCII characters are printable. -/
theorem isPrintable_of_ascii {n : Nat} (h : 32 ≤ n) (h' : n < 127) :
    (CodePoint.char (Char.ofNat n)).isPrintable = true := by
  have hn : (Char.ofNat n).toNat = n := by
    rw [Char.ofNat, dif_pos (Or.inl (by omega))]
    rfl
  simp [CodePoint.isPrintable, hn, h, h']

theorem isPrintable_quotedBytes (bs : List UInt8) : (quotedBytes bs).isPrintable = true := by
  have hquote : (CodePoint.char (Char.ofNat
      (if bs.contains 39 && !bs.contains 34 then 34 else 39 : UInt8).toNat)).isPrintable
        = true := by
    split <;> decide
  unfold quotedBytes
  dsimp only
  rw [List.cons_append, Text.isPrintable_cons, List.cons_append, Text.isPrintable_cons, hquote,
    Text.isPrintable_append, Text.isPrintable_cons, hquote, Text.isPrintable_flatMap fun b _ => ?_]
  · decide
  · generalize (if bs.contains 39 && !bs.contains 34 then 34 else 39 : UInt8) = quote at hquote
    split
    case isTrue h =>
      have hb : (CodePoint.char (Char.ofNat b.toNat)).isPrintable = true := by
        rcases Bool.or_eq_true _ _ ▸ h with h | h
        · rw [beq_iff_eq.1 h]
          exact hquote
        · rw [beq_iff_eq.1 h]
          decide
      rw [Text.isPrintable_cons, Text.isPrintable_cons, hb]
      decide
    case isFalse =>
      repeat' split
      · decide
      · decide
      · decide
      · rw [Text.isPrintable_append, Text.isPrintable_hexText]
        decide
      case isFalse h =>
        simp only [Bool.or_eq_true, decide_eq_true_eq, not_or, UInt8.le_iff_toNat_le,
          UInt8.lt_iff_toNat_lt, Nat.not_lt, Nat.not_le] at h
        rw [Text.isPrintable_cons, isPrintable_of_ascii h.1 h.2]
        rfl

theorem Date.isPrintable_render (d : Date) : d.render.isPrintable = true := by
  simp +decide [Date.render, isPrintable_paddedNat]

theorem Date.isPrintable_literal (d : Date) : d.literal.isPrintable = true := by
  simp +decide [Date.literal]

theorem ZoneOffset.isPrintable_render (z : ZoneOffset) : z.render.isPrintable = true := by
  unfold ZoneOffset.render
  dsimp only
  split <;> simp +decide [isPrintable_paddedNat]

theorem DateTime.isPrintable_render (t : DateTime) : t.render.isPrintable = true := by
  unfold DateTime.render
  cases t.zone <;> by_cases h : t.microsecond = 0 <;>
    simp +decide [h, Date.isPrintable_render, ZoneOffset.isPrintable_render, isPrintable_paddedNat]

theorem ZoneOffset.isPrintable_literal (z : ZoneOffset) : z.literal.isPrintable = true := by
  unfold ZoneOffset.literal ZoneOffset.lengthLiteral
  dsimp only
  repeat' split
  all_goals simp +decide

theorem DateTime.isPrintable_literal (t : DateTime) : t.literal.isPrintable = true := by
  unfold DateTime.literal
  dsimp only
  cases t.zone <;> simp +decide [ZoneOffset.isPrintable_literal]

/-! ## Values -/

namespace Value

mutual

/-- **The text of a value inside another is printable.** -/
theorem isPrintable_literal : ∀ v : Value, v.literal.isPrintable = true
  | .null => by decide
  | .bool b => by cases b <;> decide
  | .int n => by simp [literal]
  | .float x => by
    rw [literal]
    exact isPrintable_render (by decide) (by decide) x
  | .str t => by simp [literal]
  | .list items => by simp +decide [literal, isPrintable_literals items]
  | .map es => by simp +decide [literal, isPrintable_entryLiterals es]
  | .orderedMap es => by
    rw [literal]
    split <;> simp +decide [isPrintable_pairLiterals es]
  | .tuple items => by
    have h := isPrintable_literals items
    rw [literal]
    split
    case h_1 hone => simpa +decide [hone] using h
    case h_2 => simpa +decide using h
  | .bytes bs => by
    rw [literal]
    exact isPrintable_quotedBytes bs
  | .set items => by
    rw [literal]
    split <;> simp +decide [isPrintable_literals items]
  | .date d => by
    rw [literal]
    exact d.isPrintable_literal
  | .dateTime t => by
    rw [literal]
    exact t.isPrintable_literal

theorem isPrintable_literals : ∀ vs : List Value, (literals vs).all Text.isPrintable = true
  | [] => rfl
  | v :: vs => by simp [literals, isPrintable_literal v, isPrintable_literals vs]

theorem isPrintable_entryLiterals :
    ∀ es : List (Value × Value), (entryLiterals es).all Text.isPrintable = true
  | [] => rfl
  | (k, v) :: es => by
    simp +decide [entryLiterals, isPrintable_literal k, isPrintable_literal v,
      isPrintable_entryLiterals es]

theorem isPrintable_pairLiterals :
    ∀ es : List (Value × Value), (pairLiterals es).all Text.isPrintable = true
  | [] => rfl
  | (k, v) :: es => by
    simp +decide [pairLiterals, isPrintable_literal k, isPrintable_literal v,
      isPrintable_pairLiterals es]

end

/-- What all printable code points are like is every code point of the text of a value on its own,
unless the value is a text with one that is not. -/
theorem all_shown {f : CodePoint → Bool} (hf : ∀ p, p.isPrintable = true → f p = true) (v : Value) :
    v.shown.all f = v.text?.all fun t => t.all f := by
  have hall {t : Text} (h : t.isPrintable = true) : t.all f = true :=
    List.all_eq_true.2 fun p hp => hf p (List.all_eq_true.1 h p hp)
  cases v with
  | str t => rfl
  | date d => exact hall d.isPrintable_render
  | dateTime t => exact hall t.isPrintable_render
  | _ => exact hall (isPrintable_literal _)

end Value

end AgentFlow
