import AgentFlow.Proofs.Script.Layout.Cursor
import AgentFlow.Proofs.Script.StringElement
import AgentFlow.Script.Conversion

/-!
# Values of string literals

The value of a string literal is what the units of all its elements are read as. A separator of
lines or paragraphs is lost on the way if it stands right behind a line that is continued with a
carriage return: it is read as a part of the escape sequence, and this stands for nothing.

* `StandsFor`: what is left of a literal is read, and stands for some units. `StandsFor.closing`,
  `StandsFor.plain`, `StandsFor.escape`: one step of the reader each.
* `kept`: the elements that are left of a row. `isRead_of_areStrict`: the fragments and escape
  sequences of a literal stand for the units of what is left.
* `readUnits_kept_eq_iff`: nothing is lost just if there is no such separator.
* `stringValue_of_areStrict`: the value of a literal.
-/

namespace AgentFlow.Script

open StringElement

/-! ## Reading a literal -/

/-- The characters that were passed since a fragment began, if one is open. -/
def Passed (fragment : Option Cursor) (c : Cursor) (cs : List Char) : Prop :=
  match fragment with
  | none => cs = []
  | some b => b.rest = cs ++ c.rest ∧ c = b.drop cs.length

/-- Whether what is left of a literal is read, up to a number of characters behind the cursor, and
stands for some units. -/
def StandsFor (quote : Char) (fuel : Nat) (fragment : Option Cursor) (c : Cursor) (n : Nat)
    (us : List Nat) : Prop :=
  ∃ ts t, stringParts quote fuel fragment c = some (ts, c.drop n) ∧ stringParts? ts = .ok t ∧
    t.units = us

section

variable {quote ch : Char} {fuel n : Nat} {fragment : Option Cursor} {c : Cursor}
  {cs rest body : List Char} {us : List Nat} {t : Text}

theorem Passed.extend (h : Passed fragment c cs) (hrest : c.rest = ch :: rest) :
    Passed (some (fragment.getD c)) (c.drop 1) (cs ++ [ch]) := by
  have hdrop : (c.drop 1).rest = rest := by rw [Cursor.drop_rest, hrest]; rfl
  cases fragment with
  | none =>
    obtain rfl : cs = [] := h
    exact ⟨by rw [hdrop]; exact hrest, rfl⟩
  | some b =>
    obtain ⟨hb, hc⟩ := h
    refine ⟨?_, ?_⟩
    · rw [Option.getD_some, hdrop, hb, hrest, List.append_assoc]
      rfl
    · rw [Option.getD_some, List.length_append, List.length_singleton, Cursor.drop_add, ← hc]

/-- A fragment stands for the characters that were passed. -/
theorem stringParts?_fragmentTo (h : Passed fragment c cs) {ts : List Tree}
    (hts : stringParts? ts = .ok t) :
    stringParts? (fragmentTo fragment c ++ ts) = .ok (Text.ofChars cs ++ t) := by
  cases fragment with
  | none =>
    obtain rfl : cs = [] := h
    exact hts
  | some b =>
    obtain ⟨hb, rfl⟩ := h
    have htext : (b.node (b.drop cs.length) .fragment []).text = cs := by
      have hnode := Cursor.textTo_drop b cs.length
      rw [hb, List.take_left] at hnode
      exact hnode
    rw [fragmentTo, List.singleton_append, stringParts?]
    simp only [hts, htext]
    rfl

theorem stringParts?_escape {d : Cursor} {ts : List Tree} {u : Text}
    (htext : decodeEscape (Text.ofChars (c.textTo d)) = .ok t) (hts : stringParts? ts = .ok u) :
    stringParts? (c.node d .escape [] :: ts) = .ok (t ++ u) := by
  have hnode : (c.node d .escape []).text = c.textTo d := rfl
  rw [stringParts?]
  simp only [hnode, htext, hts]
  rfl

/-- The quotation mark ends the literal. -/
theorem StandsFor.closing (hrest : c.rest = quote :: rest) (h : Passed fragment c cs) :
    StandsFor quote (fuel + 1) fragment c 1 (Text.ofChars cs).units := by
  refine ⟨fragmentTo fragment c, _, ?_, ?_, rfl⟩
  · simp only [stringParts, hrest, beq_self_eq_true, if_true]
    cases fragment <;> rfl
  · have hnil : stringParts? [] = .ok [] := rfl
    have hparts := stringParts?_fragmentTo h hnil
    rwa [List.append_nil, List.append_nil] at hparts

/-- A character that stands for itself goes on with the fragment. -/
theorem StandsFor.plain (hrest : c.rest = ch :: rest)
    (hch : ch ≠ quote ∧ ch ≠ '\\' ∧ ch ≠ '\n' ∧ ch ≠ '\r')
    (h : StandsFor quote fuel (some (fragment.getD c)) (c.drop 1) n us) :
    StandsFor quote (fuel + 1) fragment c (n + 1) us := by
  obtain ⟨ts, t, hts, hstands⟩ := h
  refine ⟨ts, t, ?_, hstands⟩
  obtain ⟨hquote, hslash, hfeed, hreturn⟩ := hch
  simp only [stringParts, hrest, beq_iff_eq, hquote, hslash, hfeed, hreturn, if_false,
    Bool.or_eq_true, or_self]
  rw [hts, Nat.add_comm n, Cursor.drop_add]

/-- An escape sequence ends the fragment. -/
theorem StandsFor.escape (hquote : quote ≠ '\\') (hrest : c.rest = '\\' :: (body ++ rest))
    (hlength : escapeLength (body ++ rest) = body.length) (hpassed : Passed fragment c cs)
    (ht : decodeEscape (Text.ofChars ('\\' :: body)) = .ok t)
    (h : StandsFor quote fuel none (c.drop (body.length + 1)) n us) :
    StandsFor quote (fuel + 1) fragment c (body.length + 1 + n)
      ((Text.ofChars cs).units ++ (t.units ++ us)) := by
  obtain ⟨ts, u, hts, hu, rfl⟩ := h
  have htext : c.textTo (c.drop (body.length + 1)) = '\\' :: body := by
    rw [Cursor.textTo_drop, hrest, List.take_succ_cons, List.take_left]
  refine ⟨fragmentTo fragment c ++ c.node (c.drop (body.length + 1)) .escape [] :: ts, _, ?_,
    stringParts?_fragmentTo hpassed (stringParts?_escape (by rw [htext, ht]) hu), ?_⟩
  · have hne : ('\\' == quote) = false := beq_false_of_ne hquote.symm
    rw [Cursor.drop_add c (body.length + 1) n]
    simp only [stringParts, hrest, hne, hlength, hts, beq_self_eq_true, if_true, Bool.false_eq_true,
      if_false]
    cases fragment <;> rfl
  · rw [Text.units_append, Text.units_append]

end

/-! ## What is left of a literal -/

/-- Whether an element is a separator of lines or paragraphs. -/
def isPlainSeparator : StringElement → Bool
  | .plain c => isSeparator c
  | _ => false

/-- The elements that are left if each separator right behind a backslash and a carriage return is
left out. `behindReturn` tells whether these two are in front. -/
def keptBehind (behindReturn : Bool) : List StringElement → List StringElement
  | [] => []
  | e :: es =>
    if behindReturn && isPlainSeparator e then keptBehind false es
    else e :: keptBehind (e = .continued ['\r']) es

/-- The elements of a literal that its value is made of. -/
def kept (es : List StringElement) : List StringElement := keptBehind false es

section

variable {quote : Char} {es : List StringElement}

/-- A separator can only be an element of its own. -/
theorem exists_plain_of_isSeparator (hquote : quote = '"' ∨ quote = '\'')
    (h : isSeparator ((spell es).headD quote)) :
    ∃ c fs, es = .plain c :: fs ∧ isSeparator c := by
  have hslash : isSeparator '\\' = false := rfl
  cases es with
  | nil => rcases hquote with rfl | rfl <;> cases h
  | cons e es =>
    cases e with
    | plain c => exact ⟨c, es, rfl, h⟩
    | _ => exact absurd h (by simp [spell, spelling, bracedEscape, hslash])

theorem keptBehind_of_not_isSeparator (h : ¬ isSeparator ((spell es).headD quote)) (b : Bool) :
    keptBehind b es = keptBehind false es := by
  cases es with
  | nil => rfl
  | cons e es =>
    have hplain : isPlainSeparator e = false := by
      cases e with
      | plain c => exact Bool.eq_false_iff.2 h
      | _ => rfl
    simp only [keptBehind, hplain, Bool.and_false]

/-- An element that takes no separator leaves what is behind it as it is. -/
theorem kept_cons {e : StringElement}
    (htakes : ¬ (takesSeparator e ∧ isSeparator ((spell es).headD quote))) :
    kept (e :: es) = e :: kept es := by
  have hbehind : keptBehind (e = .continued ['\r']) es = kept es := by
    by_cases hreturn : e = .continued ['\r']
    · have he : takesSeparator e := by simp [takesSeparator, hreturn]
      exact keptBehind_of_not_isSeparator (fun hsep => htakes ⟨he, hsep⟩) _
    · rw [decide_eq_false hreturn, kept]
  rw [kept, keptBehind, Bool.false_and, if_neg Bool.false_ne_true, hbehind]

theorem headD_spell_ne_lineFeed (hquote : quote = '"' ∨ quote = '\'') (h : AreStrict quote es) :
    (spell es).headD quote ≠ '\n' := by
  cases es with
  | nil => rcases hquote with rfl | rfl <;> decide
  | cons e es =>
    cases e with
    | plain c => exact h.1.2.2.1
    | _ => simp [spell, spelling, bracedEscape]

theorem exists_eq_headD_cons (cs rest : List Char) (d : Char) :
    ∃ tail, cs ++ d :: rest = cs.headD d :: tail := by
  cases cs with
  | nil => exact ⟨rest, rfl⟩
  | cons c cs => exact ⟨cs ++ d :: rest, rfl⟩

/-- Whether a row of elements is read up to the quotation mark behind it, whatever fragment is open
in front, and stands for the units of what is left of it. -/
def IsRead (quote : Char) (es : List StringElement) : Prop :=
  ∀ ⦃rest : List Char⦄ ⦃fuel : Nat⦄ ⦃fragment : Option Cursor⦄ ⦃c : Cursor⦄ ⦃cs : List Char⦄,
    c.rest = spell es ++ quote :: rest → (spell es).length < fuel → Passed fragment c cs →
    StandsFor quote fuel fragment c ((spell es).length + 1)
      ((Text.ofChars cs).units ++ unitsOf (kept es))

theorem isRead_nil : IsRead quote [] := by
  intro rest fuel fragment c cs hrest hfuel hpassed
  obtain ⟨fuel, rfl⟩ := Nat.exists_eq_add_one_of_ne_zero (Nat.ne_zero_of_lt hfuel)
  rw [kept, keptBehind, unitsOf, List.flatMap_nil, List.append_nil]
  exact .closing hrest hpassed

theorem isRead_plain {ch : Char} (hch : ch ≠ quote ∧ ch ≠ '\\' ∧ ch ≠ '\n' ∧ ch ≠ '\r')
    (h : IsRead quote es) : IsRead quote (.plain ch :: es) := by
  intro rest fuel fragment c cs hrest hfuel hpassed
  obtain ⟨fuel, rfl⟩ := Nat.exists_eq_add_one_of_ne_zero (Nat.ne_zero_of_lt hfuel)
  have hbehind : (c.drop 1).rest = spell es ++ quote :: rest := by
    rw [Cursor.drop_rest, hrest]
    rfl
  have hstands := h hbehind (Nat.lt_of_succ_lt_succ hfuel) (hpassed.extend hrest)
  -- The units of the character move from what was passed to what is left.
  have hunits : (Text.ofChars (cs ++ [ch])).units ++ unitsOf (kept es) =
      (Text.ofChars cs).units ++ unitsOf (kept (.plain ch :: es)) := by
    rw [Text.ofChars, List.map_append, Text.units_append, List.append_assoc]
    rfl
  rw [hunits] at hstands
  exact .plain hrest hch hstands

/-- What follows an escape sequence is read on its own. -/
theorem IsRead.behind_escape (hslash : quote ≠ '\\') (h : IsRead quote es) {rest body : List Char}
    {fuel : Nat} {fragment : Option Cursor} {c : Cursor} {cs : List Char} {t : Text}
    (hrest : c.rest = '\\' :: (body ++ (spell es ++ quote :: rest)))
    (hlength : escapeLength (body ++ (spell es ++ quote :: rest)) = body.length)
    (ht : decodeEscape (Text.ofChars ('\\' :: body)) = .ok t)
    (hfuel : body.length + 1 + (spell es).length < fuel) (hpassed : Passed fragment c cs) :
    StandsFor quote fuel fragment c (body.length + 1 + ((spell es).length + 1))
      ((Text.ofChars cs).units ++ (t.units ++ unitsOf (kept es))) := by
  obtain ⟨fuel, rfl⟩ := Nat.exists_eq_add_one_of_ne_zero (Nat.ne_zero_of_lt hfuel)
  have hbehind : (c.drop (body.length + 1)).rest = spell es ++ quote :: rest := by
    rw [Cursor.drop_rest, hrest, List.drop_succ_cons, List.drop_left]
  have hnone : Passed none (c.drop (body.length + 1)) [] := rfl
  exact .escape hslash hrest hlength hpassed ht (h hbehind (by omega) hnone)

theorem isRead_escape (hquote : quote = '"' ∨ quote = '\'') {e : StringElement}
    (hstrict : AreStrict quote (e :: es)) (hplain : ∀ c, e ≠ .plain c)
    (htakes : ¬ (takesSeparator e ∧ isSeparator ((spell es).headD quote)))
    (h : IsRead quote es) : IsRead quote (e :: es) := by
  intro rest fuel fragment c cs hrest hfuel hpassed
  have hslash : quote ≠ '\\' := by rcases hquote with rfl | rfl <;> decide
  obtain ⟨he, hes⟩ := hstrict
  obtain ⟨tail, htail⟩ := exists_eq_headD_cons (spell es) rest quote
  obtain ⟨body, hbody, hlength⟩ :=
    escapeLength_of_isStrict he hplain (headD_spell_ne_lineFeed hquote hes) htakes tail
  obtain ⟨t, ht, hunits⟩ := decodes_of_isStrict he hplain
  have hspell : spell (e :: es) = '\\' :: (body ++ spell es) := by
    rw [spell_cons, hbody, List.cons_append]
  rw [hspell, List.length_cons, List.length_append] at hfuel ⊢
  rw [hspell, List.cons_append, List.append_assoc] at hrest
  rw [← htail] at hlength
  rw [hbody] at ht
  have hlong : body.length + 1 + (spell es).length < fuel := by omega
  have hcount : body.length + (spell es).length + 1 + 1 =
      body.length + 1 + ((spell es).length + 1) := by omega
  rw [kept_cons htakes, unitsOf_cons, ← hunits, hcount]
  exact h.behind_escape hslash hrest hlength ht hlong hpassed

/-- The escape sequence of an element with the separator that it takes. -/
theorem decodes_taken {e : StringElement} {sep : Char} (htakes : takesSeparator e)
    (hsep : isSeparator sep) :
    ∃ b t, e.spelling = ['\\', b] ∧ (∀ rest, escapeLength (b :: sep :: rest) = 2) ∧
      decodeEscape (Text.ofChars ['\\', b, sep]) = .ok t ∧
      ∀ es, unitsOf (kept (e :: .plain sep :: es)) = t.units ++ unitsOf (kept es) := by
  simp only [isSeparator, Bool.or_eq_true, beq_iff_eq] at hsep
  rcases of_decide_eq_true htakes with rfl | rfl
  · rcases hsep with rfl | rfl <;> exact ⟨'\r', [], rfl, fun _ => rfl, rfl, fun _ => rfl⟩
  · rcases hsep with rfl | rfl <;> exact ⟨'?', _, rfl, fun _ => rfl, rfl, fun _ => rfl⟩

theorem isRead_taken (hslash : quote ≠ '\\') {e : StringElement} {sep : Char}
    (htakes : takesSeparator e) (hsep : isSeparator sep) (h : IsRead quote es) :
    IsRead quote (e :: .plain sep :: es) := by
  intro rest fuel fragment c cs hrest hfuel hpassed
  obtain ⟨b, t, hspelling, hlength, ht, hunits⟩ := decodes_taken htakes hsep
  have hspell : spell (e :: .plain sep :: es) = '\\' :: ([b, sep] ++ spell es) := by
    rw [spell_cons, spell_cons, hspelling]
    rfl
  rw [hspell, List.length_cons, List.length_append, List.length_cons, List.length_singleton]
    at hfuel ⊢
  rw [hspell, List.cons_append, List.append_assoc] at hrest
  have hlong : [b, sep].length + 1 + (spell es).length < fuel := by
    rw [List.length_cons, List.length_singleton]
    omega
  have hcount : 1 + 1 + (spell es).length + 1 + 1 =
      [b, sep].length + 1 + ((spell es).length + 1) := by
    rw [List.length_cons, List.length_singleton]
    omega
  rw [hunits, hcount]
  exact h.behind_escape hslash hrest (hlength _) ht hlong hpassed

/-- **The fragments and escape sequences of a literal stand for the units of what is left.** -/
theorem isRead_of_areStrict (hquote : quote = '"' ∨ quote = '\'') (h : AreStrict quote es) :
    IsRead quote es := by
  have hslash : quote ≠ '\\' := by rcases hquote with rfl | rfl <;> decide
  -- A separator that is taken is read with the element in front of it, two elements in one step.
  induction hlength : es.length using Nat.strong_induction_on generalizing es with
  | h n ih =>
    match es with
    | [] => exact isRead_nil
    | e :: es =>
      have hless : es.length < n := hlength ▸ Nat.lt_succ_self _
      by_cases hplain : ∃ c, e = .plain c
      · obtain ⟨ch, rfl⟩ := hplain
        exact isRead_plain h.1 (ih es.length hless h.2 rfl)
      · by_cases htakes : takesSeparator e ∧ isSeparator ((spell es).headD quote)
        · obtain ⟨sep, fs, rfl, hsep⟩ := exists_plain_of_isSeparator hquote htakes.2
          have hshort : fs.length < n := by
            rw [← hlength, List.length_cons, List.length_cons]
            omega
          have hread := ih fs.length hshort h.2.2 rfl
          exact isRead_taken hslash htakes.1 hsep hread
        · have hread := ih es.length hless h.2 rfl
          exact isRead_escape hquote h (not_exists.1 hplain) htakes hread

end

/-! ## The value of a literal -/

/-- Whether a separator of lines or paragraphs stands right behind a continued carriage return. -/
def HoldsTakenSeparator (es : List StringElement) : Prop :=
  ∃ sep, isSeparator sep ∧ [.continued ['\r'], .plain sep] <:+: es

section

variable {quote : Char} {es : List StringElement} {e : StringElement}

theorem length_keptBehind_le (b : Bool) (es : List StringElement) :
    (keptBehind b es).length ≤ es.length := by
  induction es generalizing b with
  | nil => exact Nat.le_refl _
  | cons e es ih =>
    rw [keptBehind]
    split
    · exact Nat.le_succ_of_le (ih _)
    · exact Nat.succ_le_succ (ih _)

theorem exists_plain_prefix_iff :
    (∃ sep, isSeparator sep ∧ [StringElement.plain sep] <+: e :: es) ↔ isPlainSeparator e := by
  constructor
  · rintro ⟨sep, hsep, hprefix⟩
    obtain ⟨rfl, -⟩ := List.cons_prefix_cons.1 hprefix
    exact hsep
  · intro h
    cases e with
    | plain c => exact ⟨c, h, List.cons_prefix_cons.2 ⟨rfl, List.nil_prefix⟩⟩
    | _ => cases h

theorem holdsTakenSeparator_cons : HoldsTakenSeparator (e :: es) ↔
    (e = .continued ['\r'] ∧ ∃ sep, isSeparator sep ∧ [StringElement.plain sep] <+: es) ∨
      HoldsTakenSeparator es := by
  simp only [HoldsTakenSeparator, List.infix_cons_iff, List.cons_prefix_cons]
  constructor
  · rintro ⟨sep, hsep, ⟨rfl, hprefix⟩ | hinfix⟩
    · exact .inl ⟨rfl, sep, hsep, hprefix⟩
    · exact .inr ⟨sep, hsep, hinfix⟩
  · rintro (⟨rfl, sep, hsep, hprefix⟩ | ⟨sep, hsep, hinfix⟩)
    · exact ⟨sep, hsep, .inl ⟨rfl, hprefix⟩⟩
    · exact ⟨sep, hsep, .inr hinfix⟩

theorem keptBehind_eq_self_iff (b : Bool) : keptBehind b es = es ↔
    ¬ (b = true ∧ ∃ sep, isSeparator sep ∧ [StringElement.plain sep] <+: es) ∧
      ¬ HoldsTakenSeparator es := by
  induction es generalizing b with
  | nil => simp [keptBehind, HoldsTakenSeparator]
  | cons e es ih =>
    rw [exists_plain_prefix_iff, holdsTakenSeparator_cons, ← Bool.and_eq_true, keptBehind]
    by_cases hdrop : (b && isPlainSeparator e) = true
    · rw [if_pos hdrop]
      have hle := length_keptBehind_le false es
      refine iff_of_false (fun heq => ?_) fun h => h.1 hdrop
      rw [heq, List.length_cons] at hle
      omega
    · rw [if_neg hdrop, List.cons_inj_right, ih, decide_eq_true_eq, not_or]
      exact (and_iff_right hdrop).symm

/-- How many separators of lines or paragraphs stand in a row of units. -/
def separatorCount (us : List Nat) : Nat := us.count 0x2028 + us.count 0x2029

theorem separatorCount_append (us vs : List Nat) :
    separatorCount (us ++ vs) = separatorCount us + separatorCount vs := by
  rw [separatorCount, List.count_append, List.count_append, separatorCount, separatorCount]
  omega

/-- Separators are read wherever they stand in a row of units. -/
theorem separatorCount_eq (us : List Nat) :
    (readUnits us).count '\u2028' + (readUnits us).count '\u2029' = separatorCount us := by
  have hline := count_readUnits (c := '\u2028') (by decide) (by decide) (by decide) us
  have hparagraph := count_readUnits (c := '\u2029') (by decide) (by decide) (by decide) us
  rw [hline, hparagraph]
  rfl

theorem separatorCount_units (h : isPlainSeparator e) : separatorCount e.units = 1 := by
  cases e with
  | plain c =>
    simp only [isPlainSeparator, isSeparator, Bool.or_eq_true, beq_iff_eq] at h
    rcases h with rfl | rfl <;> rfl
  | _ => cases h

/-- Every separator that is left out is missing in the units. -/
theorem separatorCount_keptBehind (b : Bool) (es : List StringElement) :
    separatorCount (unitsOf (keptBehind b es)) ≤ separatorCount (unitsOf es) ∧
      (separatorCount (unitsOf es) ≤ separatorCount (unitsOf (keptBehind b es)) →
        keptBehind b es = es) := by
  induction es generalizing b with
  | nil => exact ⟨Nat.le_refl _, fun _ => rfl⟩
  | cons e es ih =>
    rw [keptBehind, unitsOf_cons, separatorCount_append]
    split
    case isTrue h =>
      rw [Bool.and_eq_true] at h
      rw [separatorCount_units h.2]
      have hle := (ih false).1
      exact ⟨by omega, fun hcount => absurd hcount (by omega)⟩
    case isFalse h =>
      obtain ⟨hle, heq⟩ := ih (e = .continued ['\r'])
      rw [unitsOf_cons, separatorCount_append]
      exact ⟨by omega, fun hcount => by rw [heq (by omega)]⟩

/-- What is left of a literal is read as all of it just if no separator is left out. -/
theorem readUnits_kept_eq_iff :
    readUnits (unitsOf (kept es)) = readUnits (unitsOf es) ↔ ¬ HoldsTakenSeparator es := by
  have hself := @keptBehind_eq_self_iff es false
  rw [and_iff_right (by simp)] at hself
  rw [← hself]
  constructor
  · intro heq
    refine (separatorCount_keptBehind false es).2 (Nat.le_of_eq ?_)
    rw [← separatorCount_eq, ← heq, separatorCount_eq, kept]
  · intro heq
    rw [kept, heq]

/-- A literal of strict code is read as a string with the value of what is left of it. -/
theorem exists_string?_of_areStrict (hquote : quote = '"' ∨ quote = '\'')
    (hstrict : AreStrict quote es) {c : Cursor} {rest : List Char}
    (htext : c.skip.rest = quote :: (spell es ++ quote :: rest)) :
    ∃ t d, string? c = some (t, d) ∧ t.kind = .string ∧
      t.text = quote :: (spell es ++ [quote]) ∧ d.rest = rest ∧
      stringValue t = .ok (Text.ofChars (readUnits (unitsOf (kept es)))) := by
  have hbehind : (c.skip.drop 1).rest = spell es ++ quote :: rest := by
    rw [Cursor.drop_rest, htext]
    rfl
  have hfuel : (spell es).length < (spell es ++ quote :: rest).length + 1 := by
    rw [List.length_append]
    omega
  have hnone : Passed none (c.skip.drop 1) [] := rfl
  obtain ⟨ts, parts, hts, hparts, hunits⟩ :=
    isRead_of_areStrict hquote hstrict hbehind hfuel hnone
  have hmark : (quote == '"' || quote == '\'') = true := by rcases hquote with rfl | rfl <;> rfl
  have hwhole : c.skip.rest = quote :: (spell es ++ [quote]) ++ rest := by simp [htext]
  have hlength : 1 + ((spell es).length + 1) = (quote :: (spell es ++ [quote])).length := by
    simp [Nat.add_comm]
  rw [← Cursor.drop_add, hlength] at hts
  have hstring : string? c = some
      (c.skip.node (c.skip.drop (quote :: (spell es ++ [quote])).length) .string
        (ts.map fun t => (.plain, t)), c.skip.drop (quote :: (spell es ++ [quote])).length) := by
    simp only [string?, htext, hmark, if_true, hts]
    rfl
  refine ⟨_, _, hstring, rfl, ?_, ?_, ?_⟩
  · have hnode := Cursor.textTo_drop c.skip (quote :: (spell es ++ [quote])).length
    rw [hwhole, List.take_left] at hnode
    exact hnode
  · rw [Cursor.drop_rest, hwhole, List.drop_left]
  · have hchildren : (ts.map fun t => (Label.plain, t)).map (·.2) = ts := by
      rw [List.map_map]
      exact List.map_id ts
    have hvalue : parts.scalars = readUnits (unitsOf (kept es)) := by
      rw [Text.scalars_eq_readUnits, hunits]
      rfl
    rw [stringValue, Tree.children, Cursor.node, Tree.labelled, hchildren, hparts, ← hvalue]
    rfl

/-- **The value of a string literal.** It is what the units of the elements that are left are read
as, so it is what all of its units are read as just if no separator is taken. It holds no surrogate,
and if the units are those of a text without surrogates, it is this text. -/
theorem stringValue_of_areStrict (hquote : quote = '"' ∨ quote = '\'')
    (hstrict : AreStrict quote es) {c : Cursor} {rest : List Char}
    (htext : c.skip.rest = quote :: (spell es ++ quote :: rest)) :
    ∃ t d value, string? c = some (t, d) ∧ t.kind = .string ∧
      t.text = quote :: (spell es ++ [quote]) ∧ d.rest = rest ∧ stringValue t = .ok value ∧
      value = Text.ofChars (readUnits (unitsOf (kept es))) ∧
      (value = Text.ofChars (readUnits (unitsOf es)) ↔ ¬ HoldsTakenSeparator es) ∧
      (∀ p ∈ value, ∃ ch, p = .char ch) ∧
      ∀ cs, ¬ HoldsTakenSeparator es → unitsOf es = (Text.ofChars cs).units →
        value = Text.ofChars cs := by
  obtain ⟨t, d, hstring, hkind, hwhole, hrest, hvalue⟩ :=
    exists_string?_of_areStrict hquote hstrict htext
  refine ⟨t, d, _, hstring, hkind, hwhole, hrest, hvalue, rfl, ?_, fun p hp => ?_,
    fun cs htaken hcs => ?_⟩
  · rw [Text.ofChars_injective.eq_iff, readUnits_kept_eq_iff]
  · obtain ⟨ch, -, rfl⟩ := List.mem_map.1 hp
    exact ⟨ch, rfl⟩
  · rw [readUnits_kept_eq_iff.2 htaken, hcs, readUnits_units_ofChars]

end

/-- A mark of the byte order, the halves of a pair on both sides of a continued line, a half without
the other one, and characters in every form. -/
def mixedElements : List StringElement :=
  [.plain '\uFEFF', .unit "D83D".toList, .continued ['\r', '\n'], .point "0DE00".toList,
    .unit "dc00".toList, .escaped '0', .plain 'a', .byte "e9".toList, .escaped 'q', .escaped 'v',
    .plain '😀']

theorem stringValue_of_mixedElements :
    let c := Cursor.ofChars ('"' :: (spell mixedElements ++ ['"']))
    AreStrict '"' mixedElements ∧ c.skip.rest = '"' :: (spell mixedElements ++ '"' :: []) ∧
    ∃ t d, string? c = some (t, d) ∧ stringValue t = .ok (Text.ofChars
      ['\uFEFF', '😀', '\uFFFD', '\x00', 'a', '\u00E9', 'q', '\x0B', '😀']) := by
  intro c
  have hstrict : AreStrict '"' mixedElements := by decide
  have htext : c.skip.rest = '"' :: (spell mixedElements ++ '"' :: []) := rfl
  have hread : readUnits (unitsOf (kept mixedElements)) =
      ['\uFEFF', '😀', '\uFFFD', '\x00', 'a', '\u00E9', 'q', '\x0B', '😀'] := by decide +kernel
  obtain ⟨t, d, value, hstring, -, -, -, hvalue, rfl, -⟩ :=
    stringValue_of_areStrict (.inl rfl) hstrict htext
  exact ⟨hstrict, htext, t, d, hstring, hread ▸ hvalue⟩

/-- A line separator behind a line that is continued with a carriage return is a character of the
literal, but the value of the literal is empty. -/
theorem stringValue_loses_separator :
    let es : List StringElement := [.continued ['\r'], .plain '\u2028']
    AreStrict '"' es ∧ readUnits (unitsOf es) = ['\u2028'] ∧
    ∃ t d, string? (Cursor.ofChars ('"' :: (spell es ++ ['"']))) = some (t, d) ∧
      stringValue t = .ok [] ∧ stringValue t ≠ .ok (Text.ofChars (readUnits (unitsOf es))) := by
  intro es
  have hread : readUnits (unitsOf es) = ['\u2028'] := by decide
  refine ⟨by decide, hread, _, _, rfl, rfl, ?_⟩
  rw [hread]
  intro h
  cases h

end AgentFlow.Script
