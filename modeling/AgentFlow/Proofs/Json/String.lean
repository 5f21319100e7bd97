import AgentFlow.Json.Reader
import AgentFlow.Json.Writer

/-!
# Reading strings back

Every text that is written as a string reads back, also one with control characters or lone
surrogates in it: an escape is read as the one code point it was made for, and everything else
stands for itself.

* `stringBody_escapedPoint`: one code point reads back.
* `string_writeString`: a string reads back, whatever follows it.
-/

namespace AgentFlow

namespace Json

theorem unitPoint_toNat (p : CodePoint) : unitPoint p.toNat = p := by
  rw [unitPoint, CodePoint.ofNat?_toNat]
  rfl

/-! ## Escapes -/

/-- The four digits of a control character spell its number. -/
private theorem hexText_control : ∀ n < 0x20, (hexText 4 n).length = 4 ∧
    (hexText 4 n).foldlM (fun n p => (hexDigit? p).map (n * 16 + ·)) 0 = some n := by
  decide

theorem fourHex?_hexText {n : Nat} (hn : n < 0x20) (p : CodePoint) (rest : Text) :
    fourHex? (hexText 4 n ++ p :: rest) = some (n, p :: rest) := by
  have hdigits := hexText_control n hn
  generalize hexText 4 n = ds at hdigits ⊢
  match ds, hdigits with
  | [a, b, c, d], ⟨_, hval⟩ =>
    simp only [List.cons_append, List.nil_append, fourHex?, hval]
    rfl

theorem escape_control (quoteToEnd : Text) {c : Char} (hc : c.toNat < 0x20) (p : CodePoint)
    (rest : Text) :
    escape quoteToEnd (.char 'u' :: (hexText 4 c.toNat ++ p :: rest))
      = .ok (.char c, p :: rest) := by
  have hunit : unitPoint c.toNat = .char c := unitPoint_toNat (.char c)
  simp only [escape, unicodeEscape, fourHex?_hexText hc, hunit]

/-- **One code point of a string reads back.** -/
theorem stringBody_escapedPoint (quoteToEnd : Text) (fuel : Nat) (p q : CodePoint) (rest : Text) :
    stringBody quoteToEnd (fuel + 1) (escapedPoint p ++ q :: rest)
      = (stringBody quoteToEnd fuel (q :: rest)).map fun r => (p :: r.1, r.2) := by
  have hescape (mark : Text) {after : Text}
      (h : escape quoteToEnd (mark ++ q :: rest) = .ok (p, q :: rest))
      (hafter : after = .char '\\' :: (mark ++ q :: rest)) :
      stringBody quoteToEnd (fuel + 1) after
        = (stringBody quoteToEnd fuel (q :: rest)).map fun r => (p :: r.1, r.2) := by
    rw [hafter, stringBody, if_neg (by decide), if_pos rfl, h]
    simp only [Bind.bind, Except.bind]
    cases stringBody quoteToEnd fuel (q :: rest) <;> rfl
  unfold escapedPoint
  split
  case isTrue hp => exact hescape [.char '"'] (by rw [hp]; rfl) rfl
  split
  case isTrue hp => exact hescape [.char '\\'] (by rw [hp]; rfl) rfl
  split
  case isTrue hp => exact hescape [.char 'n'] (by rw [hp]; rfl) rfl
  split
  case isTrue hp => exact hescape [.char 'r'] (by rw [hp]; rfl) rfl
  split
  case isTrue hp => exact hescape [.char 't'] (by rw [hp]; rfl) rfl
  split
  case isTrue hp => exact hescape [.char 'f'] (by rw [hp]; rfl) rfl
  split
  case isTrue hp => exact hescape [.char 'b'] (by rw [hp]; rfl) rfl
  split
  case isTrue hp =>
    cases p with
    | surrogate u => simp [CodePoint.toNat] at hp; omega
    | char c => exact hescape (.char 'u' :: hexText 4 c.toNat) (escape_control _ hp _ _) rfl
  case isFalse hq hb _ _ _ _ _ hp =>
    rw [List.singleton_append, stringBody, if_neg hq, if_neg hb, if_neg hp]
    simp only [Bind.bind, Except.bind]
    cases stringBody quoteToEnd fuel (q :: rest) <;> rfl

/-! ## Strings -/

theorem escapedPoint_ne_nil (p : CodePoint) : escapedPoint p ≠ [] := by
  unfold escapedPoint
  repeat' split
  all_goals simp [Text.ofString, Text.ofChars]

theorem length_le_flatMap_escapedPoint (t : Text) : t.length ≤ (t.flatMap escapedPoint).length := by
  induction t with
  | nil => exact Nat.le_refl _
  | cons p t ih =>
    have := List.length_pos_iff.2 (escapedPoint_ne_nil p)
    rw [List.flatMap_cons, List.length_append, List.length_cons]
    omega

theorem stringBody_flatMap (quoteToEnd t rest : Text) {fuel : Nat} (h : t.length < fuel) :
    stringBody quoteToEnd fuel (t.flatMap escapedPoint ++ .char '"' :: rest) = .ok (t, rest) := by
  induction t generalizing fuel with
  | nil =>
    obtain ⟨fuel, rfl⟩ := Nat.exists_eq_add_one.2 h
    rfl
  | cons p t ih =>
    obtain ⟨fuel, rfl⟩ := Nat.exists_eq_add_one.2 (Nat.lt_of_le_of_lt (Nat.zero_le _) h)
    have ih := ih (Nat.lt_of_succ_lt_succ h)
    rw [List.flatMap_cons, List.append_assoc]
    obtain ⟨q, more, hq⟩ := List.exists_cons_of_ne_nil
      (show t.flatMap escapedPoint ++ .char '"' :: rest ≠ [] by simp)
    rw [hq] at ih ⊢
    rw [stringBody_escapedPoint, ih]
    rfl

/-- **A string reads back, whatever follows it.** -/
theorem string_writeString (t rest : Text) :
    string (t.flatMap escapedPoint ++ .char '"' :: rest) = .ok (t, rest) := by
  refine stringBody_flatMap _ t rest ?_
  have := length_le_flatMap_escapedPoint t
  rw [List.length_append]
  omega

end Json

end AgentFlow
