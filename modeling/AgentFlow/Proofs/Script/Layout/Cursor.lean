import AgentFlow.Proofs.Script.Layout
import Mathlib.Tactic.SplitIfs

/-!
# Readings of tokens

What the readers of blanks, comments and tokens pass, and the nodes of literals. An escape sequence
of a string is cut off at the length that its first characters call for.

* `Cursor.skip_reads`, `Cursor.skipMarkup_reads`: what stands between tokens.
* `Rule.IsOrderly`: rules that read one node, from the next token on.
* `string_isOrderly`, `number_isOrderly`, `regex_isOrderly`: the literals.
-/

namespace AgentFlow.Script

namespace Cursor

variable {c d e : Cursor} {ts : List (Label × Tree)}

theorem drop_reads (c : Cursor) (n : Nat) : c.Reads [] (c.drop n) := by
  induction n generalizing c with
  | zero => exact .refl c
  | succ n ih =>
    rw [drop]
    split
    · exact .refl c
    · exact (ih _).after (.advance (Nat.le_add_right _ _) rfl)

@[simp] theorem drop_comments (c : Cursor) (n : Nat) : (c.drop n).comments = c.comments := by
  induction n generalizing c with
  | zero => rfl
  | succ n ih =>
    rw [drop]
    split
    · rfl
    · exact ih _

/-! ## Blanks and comments -/

/-- Where a comment that is being passed began. -/
def Gap.start? : Gap → Option Nat
  | .blank _ => none
  | .line start _ => some start
  | .block start _ => some start

/-- A place with the comments in front of it. -/
def place (offset : Nat) (comments : List Tree) : Cursor := { rest := [], offset, comments }

section

variable {start offset : Nat} {comments : List Tree}

theorem Reads.onward (h : c.Reads [] (place offset comments)) (n : Nat) :
    c.Reads [] (place (offset + n) comments) :=
  h.upTo (.advance (Nat.le_add_right offset n) rfl)

theorem Reads.noted (h : c.Reads [] (place offset comments)) (hstart : start ≤ offset)
    (text : List Char) :
    c.Reads [] (place offset (commentNode start offset text :: comments)) := by
  have hremark : IsRemark offset (commentNode start offset text) :=
    { kind_eq := .inl rfl
      labelled_eq := rfl
      start_le := hstart
      stop_le := Nat.le_refl offset }
  exact h.upTo (.remark (Nat.le_refl offset) hremark rfl)

/-- Comments that are being passed began in front of the offset, so each of them is a remark when
it is kept. -/
theorem skipFrom_reads {isBlank : Char → Bool} {oneLine : Bool} {gap : Gap}
    {behind : Option (List Char)} {cs : List Char}
    (hgap : ∀ s, gap.start? = some s → s ≤ offset) (h : c.Reads [] (place offset comments)) :
    c.Reads [] (skipFrom isBlank oneLine gap behind offset comments cs).1 := by
  have hblank (n : Nat) (isOpen : Bool) (s : Nat) (hs : (Gap.blank isOpen).start? = some s) :
      s ≤ n := nomatch hs
  fun_induction skipFrom isBlank oneLine gap behind offset comments cs
  case case1 | case9 | case13 => exact ⟨h.laidOut, h.tidy⟩
  case case2 text | case3 text | case4 text _ _ _ =>
    have hnoted := h.noted (hgap _ rfl) text
    exact ⟨hnoted.laidOut, hnoted.tidy⟩
  case case5 ih => exact ih (hblank _ true) ((h.noted (hgap _ rfl) _).onward _)
  case case6 ih | case8 ih =>
    exact ih (fun s hs => Nat.le_add_right_of_le (hgap s hs)) (h.onward _)
  case case7 ih =>
    exact ih (hblank _ true) ((h.onward _).noted (Nat.le_add_right_of_le (hgap _ rfl)) _)
  case case10 ih => exact ih (hblank _ _) (h.onward _)
  case case11 ih | case12 ih =>
    exact ih (fun s hs => Option.some.inj hs ▸ Nat.le_add_right _ _) (h.onward _)

end

theorem skip_reads (c : Cursor) : c.Reads [] c.skip := by
  have h : c.Reads [] (skipFrom isSpace false (.blank true) none c.offset c.comments c.rest).1 :=
    skipFrom_reads (fun _ hs => nomatch hs) (.advance (Nat.le_refl _) rfl)
  exact h.inside c.inner c.inner

theorem skipLine_reads (c : Cursor) : c.Reads [] c.skipLine := by
  have h : c.Reads [] (skipFrom isSpace true (.blank true) none c.offset c.comments c.rest).1 :=
    skipFrom_reads (fun _ hs => nomatch hs) (.advance (Nat.le_refl _) rfl)
  exact h.inside c.inner c.inner

/-- One comment in the style of markup. -/
theorem markup_reads (c : Cursor) (n : Nat) :
    c.Reads []
      { c.drop n with comments := c.node (c.drop n) .other [] :: (c.drop n).comments } := by
  have hle := (drop_reads c n).le
  have hremark : IsRemark (c.drop n).offset (c.node (c.drop n) .other []) :=
    { kind_eq := .inr rfl
      labelled_eq := rfl
      start_le := hle
      stop_le := Nat.le_refl _ }
  exact .remark hle hremark (by rw [drop_comments])

/-- Where such comments are passed nothing is lost of what is passed without them. -/
theorem skip_passMarkup_reads (fuel : Nat) (c : Cursor) :
    c.skip.Reads [] (passMarkup fuel c).skip := by
  induction fuel generalizing c with
  | zero => exact .refl _
  | succ fuel ih =>
    rw [passMarkup]
    split
    next n _ => exact (ih _).after ((skip_reads _).after (markup_reads c.skip n))
    next => exact .refl _

theorem passMarkup_reads (fuel : Nat) (c : Cursor) : c.Reads [] (passMarkup fuel c) := by
  induction fuel generalizing c with
  | zero => exact .refl c
  | succ fuel ih =>
    rw [passMarkup]
    split
    next n _ => exact (ih _).after ((markup_reads c.skip n).after c.skip_reads)
    next => exact .refl c

theorem skipMarkup_reads (c : Cursor) : c.Reads [] c.skipMarkup := passMarkup_reads _ c

theorem skip_skipMarkup_reads (c : Cursor) : c.skip.Reads [] c.skipMarkup.skip :=
  skip_passMarkup_reads _ c

/-! ## Tokens -/

theorem skip_punct?_reads {s : String} (h : c.punct? s = some d) : c.skip.Reads [] d := by
  simp only [punct?] at h
  split at h
  · exact Option.some.inj h ▸ drop_reads c.skip _
  · cases h

theorem punct?_reads {s : String} (h : c.punct? s = some d) : c.Reads [] d :=
  (skip_punct?_reads h).after c.skip_reads

theorem skip_equals?_reads (h : c.equals? = some d) : c.skip.Reads [] d := by
  simp only [equals?, Option.bind_eq_bind, Option.bind_eq_some_iff] at h
  obtain ⟨e, he, h⟩ := h
  split at h
  · cases h
  · cases h
  · exact Option.some.inj h ▸ skip_punct?_reads he

theorem equals?_reads (h : c.equals? = some d) : c.Reads [] d :=
  (skip_equals?_reads h).after c.skip_reads

theorem word?_eq {b : Cursor} {w : String} (h : c.word? = some (b, w, d)) : b = c.skip := by
  simp only [word?, Option.ite_none_right_eq_some, Option.some.injEq, Prod.mk.injEq] at h
  exact h.2.1.symm

theorem skip_word?_reads {b : Cursor} {w : String} (h : c.word? = some (b, w, d)) :
    c.skip.Reads [] d := by
  simp only [word?, Option.ite_none_right_eq_some, Option.some.injEq, Prod.mk.injEq] at h
  exact h.2.2.2 ▸ drop_reads _ _

theorem word?_reads {b : Cursor} {w : String} (h : c.word? = some (b, w, d)) : c.Reads [] d :=
  (skip_word?_reads h).after c.skip_reads

theorem skip_keyword?_reads {w : String} (h : c.keyword? w = some d) : c.skip.Reads [] d := by
  simp only [keyword?, Option.bind_eq_bind, Option.bind_eq_some_iff, Prod.exists] at h
  obtain ⟨b, v, e, hword, h⟩ := h
  split at h
  · exact Option.some.inj h ▸ skip_word?_reads hword
  · cases h

theorem keyword?_reads {w : String} (h : c.keyword? w = some d) : c.Reads [] d :=
  (skip_keyword?_reads h).after c.skip_reads

theorem skip_keywords?_reads {ws : List String} (h : c.keywords? ws = some d) :
    c.skip.Reads [] d := by
  simp only [keywords?, Option.bind_eq_bind, Option.bind_eq_some_iff, Prod.exists] at h
  obtain ⟨b, v, e, hword, h⟩ := h
  split at h
  · exact Option.some.inj h ▸ skip_word?_reads hword
  · cases h

theorem keywords?_reads {ws : List String} (h : c.keywords? ws = some d) : c.Reads [] d :=
  (skip_keywords?_reads h).after c.skip_reads

theorem skipWords_reads (ws : List String) (fuel : Nat) (c : Cursor) :
    c.Reads [] (c.skipWords ws fuel) := by
  induction fuel generalizing c with
  | zero => exact .refl c
  | succ fuel ih =>
    rw [skipWords]
    split
    next d h => exact (ih d).after (keywords?_reads h)
    next => exact .refl c

theorem semicolon?_reads {behindValue : Bool} (h : c.semicolon? behindValue = some d) :
    c.Reads [] d := by
  rw [semicolon?] at h
  split at h
  next e he => exact Option.some.inj h ▸ punct?_reads he
  next =>
    split at h
    · exact Option.some.inj h ▸ .refl c
    · cases h

/-! ## Rules -/

/-- Whether a node with a name of its own in the grammar is laid out between the next token of a
cursor and another cursor. -/
structure Yields (c : Cursor) (t : Tree) (d : Cursor) : Prop where
  isNamed : t.isNamed
  skip_reads : c.skip.Reads [(.plain, t)] d

section

variable {b : Cursor} {t : Tree} {kind : Kind}

theorem Yields.reads (h : c.Yields t d) : c.Reads [(.plain, t)] d :=
  h.skip_reads.after c.skip_reads

/-- A node with a part of its own in the node around it. -/
theorem Yields.reads_as (h : c.Yields t d) (l : Label) : c.Reads [(l, t)] d := h.reads.congr rfl

/-- What is read without the node. -/
theorem Yields.passes (h : c.Yields t d) : c.Reads [] d := ⟨h.reads.le, h.reads.tidy⟩

/-- A node that is read behind the next token. -/
theorem Yields.after (h : b.Yields t d) (hb : c.skip.Reads [] b) : c.Yields t d :=
  ⟨h.isNamed, h.reads.after hb⟩

theorem Yields.of_skip (h : c.skip.Yields t d) : c.Yields t d := h.after (.refl _)

theorem Yields.upTo (h : c.Yields t d) (h' : d.Reads [] e) : c.Yields t e :=
  ⟨h.isNamed, h.skip_reads.upTo h'⟩

theorem Yields.inside (h : c.Yields t d) (i j : Bool) :
    { c with inner := i }.Yields t { d with inner := j } :=
  ⟨h.isNamed, h.skip_reads.inside i j⟩

/-- The node of what is read from the next token on. -/
theorem Yields.node (h : c.skip.Reads ts d) (hkind : (kind != .equals) = true)
    (hparts : (c.skip.node d kind ts).HasParts) : c.Yields (c.skip.node d kind ts) d :=
  ⟨hkind, h.node hparts⟩

end

end Cursor

/-- Whether a reader without a node never goes back. -/
def IsPass (pass : Cursor → Option Cursor) : Prop := ∀ ⦃c d⦄, pass c = some d → c.Reads [] d

/-- Whether what a rule reads is always one node, which is laid out between the cursors. -/
def Rule.IsOrderly (rule : Rule) : Prop := ∀ ⦃c t d⦄, rule c = some (t, d) → c.Yields t d

/-- Whether the readers of all goals are orderly. -/
def Rules.AreOrderly (rules : Rules) : Prop := ∀ goal, (rules goal).IsOrderly

/-! ## Literals -/

open Cursor

variable {c d : Cursor}

theorem Cursor.drop_offset (c : Cursor) (n : Nat) :
    (c.drop n).offset = c.offset + byteLength (c.rest.take n) := by
  induction n generalizing c with
  | zero => simp [drop]
  | succ n ih =>
    rw [drop]
    split
    next h => simp [h]
    next ch rest h => simp [h, ih, Nat.add_assoc]

theorem Cursor.drop_rest (c : Cursor) (n : Nat) : (c.drop n).rest = c.rest.drop n := by
  induction n generalizing c with
  | zero => rfl
  | succ n ih =>
    rw [drop]
    split
    next h => rw [h, List.drop_nil]
    next ch rest h => rw [ih, h, List.drop_succ_cons]

theorem Cursor.drop_add (c : Cursor) (m n : Nat) : c.drop (m + n) = (c.drop m).drop n := by
  induction m generalizing c with
  | zero =>
    rw [Nat.zero_add]
    rfl
  | succ m ih =>
    rw [Nat.succ_add, drop, drop]
    split
    next h =>
      cases n with
      | zero => rfl
      | succ n => rw [drop, h]
    next => exact ih _

theorem Cursor.textTo_drop (c : Cursor) (n : Nat) : c.textTo (c.drop n) = c.rest.take n := by
  have h := bytePrefix_append (c.rest.take n) (c.rest.drop n)
  rw [List.take_append_drop] at h
  rwa [textTo, drop_offset, Nat.add_sub_cancel_left]

theorem hasParts_escape {cs : List Char} (h : c.rest = '\\' :: cs) :
    (c.node (c.drop (escapeLength cs + 1)) .escape []).HasParts := by
  have htext : c.textTo (c.drop (escapeLength cs + 1)) = '\\' :: cs.take (escapeLength cs) := by
    rw [textTo_drop, h, List.take_succ_cons]
  exact ⟨cs, htext⟩

/-- What is read up to a cursor of a string of which a fragment may be open. -/
def ReadsFragment (b : Cursor) (fragment : Option Cursor) (c : Cursor) : Prop :=
  match fragment with
  | none => b.Reads [] c
  | some f => b.Reads [] f ∧ f.Reads [] c

/-- A fragment that is read up to a cursor, if one is. -/
def fragmentTo (fragment : Option Cursor) (c : Cursor) : List Tree :=
  match fragment with
  | none => []
  | some b => [b.node c .fragment []]

theorem fragmentTo_reads {b : Cursor} {fragment : Option Cursor}
    (h : ReadsFragment b fragment c) : b.Reads (plain (fragmentTo fragment c)) c := by
  cases fragment with
  | none => exact h
  | some f =>
    have hnode : f.Reads [(.plain, f.node c .fragment [])] c := h.2.node trivial
    exact hnode.after h.1

theorem ReadsFragment.none (c : Cursor) : ReadsFragment c none c := Reads.refl c

theorem ReadsFragment.extend {b : Cursor} {fragment : Option Cursor}
    (h : ReadsFragment b fragment c) (hcd : c.Reads [] d) :
    ReadsFragment b (some (fragment.getD c)) d := by
  cases fragment with
  | none => exact ⟨h, hcd⟩
  | some f => exact ⟨h.1, h.2.append hcd⟩

theorem stringParts_reads {quote : Char} {fuel : Nat} {fragment : Option Cursor} {b : Cursor}
    {ts : List Tree} (hfragment : ReadsFragment b fragment c)
    (h : stringParts quote fuel fragment c = some (ts, d)) : b.Reads (plain ts) d := by
  induction fuel generalizing fragment b c ts with
  | zero => cases h
  | succ fuel ih =>
    have hread := fragmentTo_reads hfragment
    simp only [stringParts] at h
    split at h
    next => cases h
    next ch rest hrest =>
      split_ifs at h with hquote hslash hline
      · cases h
        have hend := hread.upTo (drop_reads c 1)
        cases fragment <;> exact hend
      · simp only [Option.bind_eq_bind, Option.bind_eq_some_iff, Prod.exists] at h
        obtain ⟨us, e, hus, h⟩ := h
        cases h
        have hescape : c.Reads [(.plain, c.node (c.drop (escapeLength rest + 1)) .escape [])]
            (c.drop (escapeLength rest + 1)) :=
          (drop_reads c _).node (hasParts_escape (by rw [hrest, beq_iff_eq.1 hslash]))
        have hall := hread.append (hescape.append (ih (.none _) hus))
        cases fragment <;> exact hall
      · exact ih (ReadsFragment.extend hfragment (drop_reads c 1)) h

theorem string_isOrderly : Rule.IsOrderly string? := by
  intro c t d h
  simp only [string?] at h
  split at h
  next quote rest _ =>
    split_ifs at h
    simp only [Option.bind_eq_bind, Option.bind_eq_some_iff, Prod.exists] at h
    obtain ⟨ts, e, hparts, h⟩ := h
    cases h
    have hopen : ReadsFragment c.skip none (c.skip.drop 1) := drop_reads _ 1
    exact .node (stringParts_reads hopen hparts) rfl trivial
  next => cases h

/-! ## Other literals -/

theorem number_isOrderly : Rule.IsOrderly number? := by
  intro c t d h
  simp only [number?] at h
  split at h
  · cases h
  · cases h
    exact .node (drop_reads _ _) rfl trivial

theorem regex_isOrderly : Rule.IsOrderly regex? := by
  intro c t d h
  simp only [regex?] at h
  split at h
  · simp only [Option.bind_eq_bind, Option.bind_eq_some_iff] at h
    obtain ⟨n, _, h⟩ := h
    cases h
    exact .node ((drop_reads _ _).after (drop_reads _ _)) rfl trivial
  · cases h

/-! ## Text between brackets -/

theorem passEnclosed_le {before : Char} {offset stop : Nat} {es : List Enclosure}
    {cs rest : List Char} (h : passEnclosed before offset es cs = some (rest, stop)) :
    offset ≤ stop := by
  fun_induction passEnclosed before offset es cs
  case case1 => cases h; exact Nat.le_refl _
  case case2 | case5 | case21 => cases h
  all_goals next ih => exact Nat.le_of_add_right_le (ih h)

theorem passEnclosed_reads {before : Char} {es : List Enclosure} {cs rest : List Char} {stop : Nat}
    (h : passEnclosed before (c.offset + 1) es cs = some (rest, stop)) :
    c.Reads [] { c with rest := rest, offset := stop } :=
  .advance (Nat.le_of_succ_le (passEnclosed_le h)) rfl

theorem skip_enclosed?_reads {opening : Char} (h : enclosed? c opening = some d) :
    c.skip.Reads [] d := by
  simp only [enclosed?] at h
  split at h
  · split_ifs at h
    simp only [Option.bind_eq_bind, Option.bind_eq_some_iff, Prod.exists] at h
    obtain ⟨rest, stop, hpass, h⟩ := h
    cases h
    exact passEnclosed_reads hpass
  · cases h

theorem enclosed?_reads {opening : Char} (h : enclosed? c opening = some d) : c.Reads [] d :=
  (skip_enclosed?_reads h).after c.skip_reads

theorem skip_templateText?_reads (h : templateText? c = some d) : c.skip.Reads [] d := by
  simp only [templateText?] at h
  split at h
  · simp only [Option.bind_eq_bind, Option.bind_eq_some_iff, Prod.exists] at h
    obtain ⟨rest, stop, hpass, h⟩ := h
    cases h
    exact passEnclosed_reads hpass
  · cases h

theorem templateText?_reads (h : templateText? c = some d) : c.Reads [] d :=
  (skip_templateText?_reads h).after c.skip_reads

end AgentFlow.Script
