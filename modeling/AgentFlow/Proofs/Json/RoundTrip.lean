import AgentFlow.Proofs.Json.Number
import AgentFlow.Proofs.Json.String
import AgentFlow.Proofs.Text.Split
import AgentFlow.Proofs.Value.Plain

/-!
# What is written reads back

The text that a plain value is written as is read as that very value: with the same keys in the
same order, integers as integers, and every double and every text as it was, at all depths and in
every layout.

* `ReadsBack`: a written value reads back in front of anything that may follow a value.
* `items_itemsText`, `members_membersText`: what stands in brackets reads back if its parts do.
* `readsBack_of_isPlain`: each plain value reads back, at every depth.
* `read_write`: the text of a value reads as the value.
-/

namespace AgentFlow.Json

/-! ## First characters -/

/-- Whether a code point starts no word and no number. -/
def startsNoScalar (p : CodePoint) : Bool :=
  isBlank p || ([.char '"', .char '[', .char ']', .char '\x7b', .char '\x7d', .char '\uFEFF']
    : Text).contains p

theorem exists_cons_of_scalar {t : Text} {r : Value × Text} (h : scalar t = .ok r) :
    ∃ p rest, t = p :: rest ∧ startsNoScalar p = false := by
  cases t with
  | nil => simp [scalar, words, Text.ofString, Text.ofChars, magnitude?, wholePart?, digits,
      List.isPrefixOf, fail] at h
  | cons p rest =>
    refine ⟨p, rest, rfl, ?_⟩
    by_contra hp
    simp only [startsNoScalar, isBlank, Bool.not_eq_false, Bool.or_eq_true, beq_iff_eq,
      List.contains_iff_mem, List.mem_cons, List.not_mem_nil, or_false] at hp
    have hfail : scalar (p :: rest) = fail .expectingValue (p :: rest) := by
      rcases hp with (((rfl | rfl) | rfl) | rfl) | rfl | rfl | rfl | rfl | rfl | rfl <;>
        simp [scalar, words, Text.ofString, Text.ofChars, magnitude?, wholePart?, digits,
          List.isPrefixOf]
    rw [hfail] at h
    cases h

/-- A word or a number is read as a value. -/
theorem value_of_scalar {t : Text} {r : Value × Text} (h : scalar t = .ok r) (fuel : Nat) :
    value (fuel + 1) t = .ok r := by
  obtain ⟨p, rest, rfl, hp⟩ := exists_cons_of_scalar h
  rw [value]
  · exact h
  all_goals
    rintro rest' heq
    rw [(List.cons.inj heq).1] at hp
    exact absurd hp (by decide)

/-- How the text of a value starts: with no blank, and with no bracket that closes. -/
def OpensValue (t : Text) : Prop :=
  ∃ p rest, t = p :: rest ∧ isBlank p = false ∧
    p ∉ ([.char '\uFEFF', .char ']', .char '\x7d'] : Text)

theorem opensValue_of_scalar {t : Text} {r : Value × Text} (h : scalar t = .ok r) :
    OpensValue t := by
  obtain ⟨p, rest, rfl, hp⟩ := exists_cons_of_scalar h
  simp only [startsNoScalar, Bool.or_eq_false_iff, List.contains_eq_mem,
    decide_eq_false_iff_not] at hp
  exact ⟨p, rest, rfl, hp.1, fun hmem => hp.2 (by simp_all)⟩

theorem OpensValue.append {t : Text} (h : OpensValue t) (more : Text) : OpensValue (t ++ more) := by
  obtain ⟨p, rest, rfl, hp⟩ := h
  exact ⟨p, rest ++ more, rfl, hp⟩

theorem OpensValue.skipBlank {t : Text} (h : OpensValue t) : skipBlank t = t := by
  obtain ⟨p, rest, rfl, hp, _⟩ := h
  simp [Json.skipBlank, hp]

/-! ## Layout -/

theorem skipBlank_append {blanks t : Text} (hb : ∀ p ∈ blanks, isBlank p = true)
    (ht : skipBlank t = t) : skipBlank (blanks ++ t) = t := by
  rw [skipBlank, List.dropWhile_append_of_pos hb]
  exact ht

theorem isBlank_of_mem_lineBreak {layout : Layout} {depth : Nat} {p : CodePoint}
    (h : p ∈ layout.lineBreak depth) : isBlank p = true := by
  cases layout with
  | compact => simp [Layout.lineBreak] at h
  | indented step =>
    rcases List.mem_cons.1 h with rfl | h
    · rfl
    · rw [List.eq_of_mem_replicate h]
      rfl

theorem skipBlank_lineBreak (layout : Layout) (depth : Nat) {t : Text} (ht : skipBlank t = t) :
    skipBlank (layout.lineBreak depth ++ t) = t :=
  skipBlank_append (fun _ => isBlank_of_mem_lineBreak) ht

theorem endsValue_lineBreak (layout : Layout) (depth : Nat) {t : Text} (ht : EndsValue t) :
    EndsValue (layout.lineBreak depth ++ t) := by
  cases layout with
  | compact => exact ht
  | indented step => simp [EndsValue, Layout.lineBreak]

theorem colon_eq (layout : Layout) :
    ∃ blanks, layout.colon = .char ':' :: blanks ∧ ∀ p ∈ blanks, isBlank p = true := by
  cases layout with
  | compact => exact ⟨[], rfl, by simp⟩
  | indented step => exact ⟨[.char ' '], rfl, by simp [isBlank]⟩

theorem enclose_eq (layout : Layout) (depth : Nat) (opening closing : Char) {parts : List Text}
    (h : parts ≠ []) : layout.enclose depth opening closing parts
      = .char opening :: (layout.lineBreak (depth + 1)
        ++ (Text.join (.char ',' :: layout.lineBreak (depth + 1)) parts
          ++ (layout.lineBreak depth ++ [.char closing]))) := by
  simp [Layout.enclose, h]

/-! ## Single values -/

/-- A value reads back from its text at a depth, in front of anything that may follow a value. -/
structure ReadsBack (layout : Layout) (depth : Nat) (v : Value) : Prop where
  opens : OpensValue (writeAt layout depth v)
  reads : ∀ fuel rest, EndsValue rest → 2 * (writeAt layout depth v).length ≤ fuel →
    value fuel (writeAt layout depth v ++ rest) = .ok (v, rest)

theorem OpensValue.length_pos {t : Text} (h : OpensValue t) : 0 < t.length := by
  obtain ⟨p, rest, rfl, _⟩ := h
  exact Nat.succ_pos _

theorem readsBack_of_scalar {layout : Layout} {depth : Nat} {v : Value}
    (h : ∀ rest, EndsValue rest → scalar (writeAt layout depth v ++ rest) = .ok (v, rest)) :
    ReadsBack layout depth v := by
  have hnil := h [] endsValue_nil
  rw [List.append_nil] at hnil
  have hopens := opensValue_of_scalar hnil
  refine ⟨hopens, fun fuel rest hr hf => ?_⟩
  have hlen := hopens.length_pos
  obtain ⟨fuel, rfl⟩ := Nat.exists_eq_add_one.2 (show 0 < fuel by omega)
  exact value_of_scalar (h rest hr) fuel

/-- A value reads back if the rest of its text does behind the mark that opens it. -/
theorem readsBack_of_mark {layout : Layout} {depth : Nat} {v : Value} {p : CodePoint} {more : Text}
    (htext : writeAt layout depth v = p :: more)
    (hp : p ∈ ([.char '"', .char '[', .char '\x7b'] : Text))
    (h : ∀ fuel rest, 2 * more.length < fuel →
      value (fuel + 1) (p :: (more ++ rest)) = .ok (v, rest)) : ReadsBack layout depth v := by
  refine ⟨⟨p, more, htext, ?_⟩, fun fuel rest _ hf => ?_⟩
  · simp only [List.mem_cons, List.not_mem_nil, or_false] at hp
    rcases hp with rfl | rfl | rfl <;> exact ⟨rfl, by simp⟩
  · rw [htext] at hf ⊢
    rw [List.length_cons] at hf
    obtain ⟨fuel, rfl⟩ := Nat.exists_eq_add_one.2 (show 0 < fuel by omega)
    exact h fuel rest (by omega)

theorem readsBack_str (layout : Layout) (depth : Nat) (t : Text) :
    ReadsBack layout depth (.str t) := by
  have htext : writeAt layout depth (.str t)
      = .char '"' :: (t.flatMap escapedPoint ++ [.char '"']) := by
    simp [writeAt, scalarText, writeString]
  refine readsBack_of_mark htext (by simp) fun fuel rest _ => ?_
  rw [List.append_assoc, List.singleton_append, value, string_writeString]
  rfl

/-! ## Lists -/

/-- The items of a list with what stands between them. -/
def itemsText (layout : Layout) (depth : Nat) (vs : List Value) : Text :=
  Text.join (.char ',' :: layout.lineBreak depth) (writeItems layout depth vs)

theorem itemsText_cons (layout : Layout) (depth : Nat) (v : Value) (vs : List Value) :
    itemsText layout depth (v :: vs) = writeAt layout depth v ++ if vs = [] then []
      else .char ',' :: (layout.lineBreak depth ++ itemsText layout depth vs) := by
  cases vs with
  | nil => simp [itemsText, writeItems, Text.join_singleton]
  | cons w vs => simp [itemsText, writeItems, Text.join_cons_cons]

theorem opensValue_itemsText {layout : Layout} {depth : Nat} {vs : List Value} (hne : vs ≠ [])
    (h : ∀ v ∈ vs, ReadsBack layout depth v) : OpensValue (itemsText layout depth vs) := by
  obtain ⟨v, vs, rfl⟩ := List.exists_cons_of_ne_nil hne
  rw [itemsText_cons]
  exact (h v List.mem_cons_self).opens.append _

/-- The items of a list read back up to the closing bracket, if each of them does. -/
theorem items_itemsText {layout : Layout} {depth : Nat} (outer : Nat) {vs : List Value}
    (hne : vs ≠ []) (h : ∀ v ∈ vs, ReadsBack layout depth v) {fuel : Nat}
    (hf : 2 * (itemsText layout depth vs).length < fuel) (rest : Text) :
    items fuel (itemsText layout depth vs ++ (layout.lineBreak outer ++ .char ']' :: rest))
      = .ok (vs, rest) := by
  induction vs generalizing fuel with
  | nil => exact absurd rfl hne
  | cons v vs ih =>
    have hv := h v List.mem_cons_self
    have hvs : ∀ w ∈ vs, ReadsBack layout depth w := fun w hw => h w (List.mem_cons_of_mem _ hw)
    obtain ⟨fuel, rfl⟩ := Nat.exists_eq_add_one.2 (Nat.zero_lt_of_lt hf)
    rw [itemsText_cons] at hf ⊢
    by_cases hnil : vs = []
    · subst hnil
      rw [if_pos rfl, List.append_nil] at hf ⊢
      have hend := endsValue_lineBreak layout outer (t := .char ']' :: rest) (by simp [EndsValue])
      rw [items, hv.reads fuel _ hend (by omega)]
      have hskip := skipBlank_lineBreak layout outer (t := .char ']' :: rest) rfl
      simp only [Bind.bind, Except.bind, hskip]
    · rw [if_neg hnil] at hf ⊢
      simp only [List.length_append, List.length_cons] at hf
      have hread := hv.reads fuel (.char ',' :: (layout.lineBreak depth
        ++ (itemsText layout depth vs ++ (layout.lineBreak outer ++ .char ']' :: rest))))
        (by simp [EndsValue]) (by omega)
      have hopens := (opensValue_itemsText hnil hvs).append
        (layout.lineBreak outer ++ .char ']' :: rest)
      rw [items, List.append_assoc, List.cons_append, List.append_assoc, hread]
      simp only [Bind.bind, Except.bind]
      rw [show ∀ t : Text, skipBlank (.char ',' :: t) = .char ',' :: t from fun _ => rfl]
      simp only [skipBlank_lineBreak layout depth hopens.skipBlank]
      rw [ih hnil hvs (by omega)]

theorem readsBack_list {layout : Layout} {depth : Nat} {vs : List Value}
    (h : ∀ v ∈ vs, ReadsBack layout (depth + 1) v) : ReadsBack layout depth (.list vs) := by
  by_cases hne : vs = []
  · subst hne
    have htext : writeAt layout depth (.list []) = .char '[' :: [.char ']'] := by
      simp [writeAt, writeItems, Layout.enclose]
    exact readsBack_of_mark htext (by simp) fun fuel rest _ => rfl
  · have hparts : writeItems layout (depth + 1) vs ≠ [] := by
      obtain ⟨v, vs, rfl⟩ := List.exists_cons_of_ne_nil hne
      simp [writeItems]
    have htext : writeAt layout depth (.list vs) = .char '[' :: (layout.lineBreak (depth + 1)
        ++ (itemsText layout (depth + 1) vs ++ (layout.lineBreak depth ++ [.char ']']))) := by
      rw [writeAt]
      exact enclose_eq layout depth '[' ']' hparts
    refine readsBack_of_mark htext (by simp) fun fuel rest hf => ?_
    simp only [List.append_assoc, List.singleton_append, List.length_append] at hf ⊢
    have hopens := (opensValue_itemsText hne h).append (layout.lineBreak depth ++ .char ']' :: rest)
    have hread := items_itemsText depth hne h (show 2 * _ < fuel by omega) rest
    rw [value, skipBlank_lineBreak layout _ hopens.skipBlank]
    split
    case h_1 rest' heq =>
      obtain ⟨p, more, hp, _, hno⟩ := hopens
      rw [hp] at heq
      rw [(List.cons.inj heq).1] at hno
      simp at hno
    case h_2 => rw [hread]; rfl

/-! ## Mappings -/

/-- The members of a mapping with what stands between them. -/
def membersText (layout : Layout) (depth : Nat) (es : Entries) : Text :=
  Text.join (.char ',' :: layout.lineBreak depth) (writeEntries layout depth es)

theorem membersText_cons (layout : Layout) (depth : Nat) (t : Text) (v : Value) (es : Entries) :
    membersText layout depth ((.str t, v) :: es) = .char '"' :: (t.flatMap escapedPoint
      ++ .char '"' :: (layout.colon ++ (writeAt layout depth v ++ if es = [] then []
        else .char ',' :: (layout.lineBreak depth ++ membersText layout depth es)))) := by
  cases es with
  | nil => simp [membersText, writeEntries, Text.join_singleton, nameText, writeString]
  | cons e es =>
    obtain ⟨k, w⟩ := e
    simp [membersText, writeEntries, Text.join_cons_cons, nameText, writeString]

theorem membersText_append (layout : Layout) (depth : Nat) {es : Entries} (hne : es ≠ [])
    (hk : ∀ e ∈ es, ∃ t, e.1 = .str t) (rest : Text) :
    ∃ more, membersText layout depth es ++ rest = .char '"' :: more := by
  obtain ⟨⟨k, v⟩, es, rfl⟩ := List.exists_cons_of_ne_nil hne
  obtain ⟨t, rfl⟩ := hk (k, v) List.mem_cons_self
  rw [membersText_cons]
  exact ⟨_, rfl⟩

/-- The members of a mapping read back up to the closing brace, if their values do. -/
theorem members_membersText {layout : Layout} {depth : Nat} (outer : Nat) {es : Entries}
    (hne : es ≠ []) (hk : ∀ e ∈ es, ∃ t, e.1 = .str t)
    (h : ∀ e ∈ es, ReadsBack layout depth e.2) {fuel : Nat}
    (hf : 2 * (membersText layout depth es).length < fuel) (rest : Text) :
    members fuel (membersText layout depth es ++ (layout.lineBreak outer ++ .char '\x7d' :: rest))
      = .ok (es, rest) := by
  induction es generalizing fuel with
  | nil => exact absurd rfl hne
  | cons e es ih =>
    obtain ⟨k, v⟩ := e
    obtain ⟨t, rfl⟩ := hk (k, v) List.mem_cons_self
    have hv : ReadsBack layout depth v := h _ List.mem_cons_self
    have hes : ∀ e ∈ es, ReadsBack layout depth e.2 := fun e he => h e (List.mem_cons_of_mem _ he)
    have hkes : ∀ e ∈ es, ∃ t, e.1 = .str t := fun e he => hk e (List.mem_cons_of_mem _ he)
    obtain ⟨fuel, rfl⟩ := Nat.exists_eq_add_one.2 (Nat.zero_lt_of_lt hf)
    obtain ⟨blanks, hcolon, hblanks⟩ := colon_eq layout
    rw [membersText_cons, hcolon] at hf ⊢
    have hskip (rest : Text) := skipBlank_append hblanks (hv.opens.append rest).skipBlank
    have hstep (t : Text) : skipBlank (.char ':' :: t) = .char ':' :: t := rfl
    have hcomma (t : Text) : skipBlank (.char ',' :: t) = .char ',' :: t := rfl
    simp only [List.cons_append, List.append_assoc, members, string_writeString, Bind.bind,
      Except.bind, hstep, hskip]
    by_cases hnil : es = []
    · subst hnil
      simp only [if_true, List.length_append, List.length_cons, List.nil_append] at hf ⊢
      have hend := endsValue_lineBreak layout outer (t := .char '\x7d' :: rest)
        (by simp [EndsValue])
      have hclose := skipBlank_lineBreak layout outer (t := .char '\x7d' :: rest) rfl
      rw [hv.reads fuel _ hend (by omega)]
      simp only [hclose]
    · simp only [if_neg hnil, List.length_append, List.length_cons, List.cons_append,
        List.append_assoc] at hf ⊢
      obtain ⟨more, hmore⟩ := membersText_append layout depth hnil hkes
        (layout.lineBreak outer ++ .char '\x7d' :: rest)
      have hlines := skipBlank_lineBreak layout depth (t := .char '"' :: more) rfl
      rw [hv.reads fuel _ (by simp [EndsValue]) (by omega)]
      simp only [hcomma, hmore, hlines]
      rw [← hmore, ih hnil hkes hes (by omega)]

theorem readsBack_map {layout : Layout} {depth : Nat} {es : Entries} (hk : es.HasPlainKeys)
    (h : ∀ e ∈ es, ReadsBack layout (depth + 1) e.2) : ReadsBack layout depth (.map es) := by
  by_cases hne : es = []
  · subst hne
    have htext : writeAt layout depth (.map []) = .char '\x7b' :: [.char '\x7d'] := by
      simp [writeAt, writeEntries, Layout.enclose]
    exact readsBack_of_mark htext (by simp) fun fuel rest _ => rfl
  · have htexts : ∀ e ∈ es, ∃ t, e.1 = .str t := fun e he =>
      (hk.texts e he).imp' Text.ofChars fun _ h => h
    have hparts : writeEntries layout (depth + 1) es ≠ [] := by
      obtain ⟨e, es, rfl⟩ := List.exists_cons_of_ne_nil hne
      simp [writeEntries]
    have htext : writeAt layout depth (.map es) = .char '\x7b' :: (layout.lineBreak (depth + 1)
        ++ (membersText layout (depth + 1) es ++ (layout.lineBreak depth ++ [.char '\x7d']))) := by
      rw [writeAt]
      exact enclose_eq layout depth '\x7b' '\x7d' hparts
    refine readsBack_of_mark htext (by simp) fun fuel rest hf => ?_
    simp only [List.append_assoc, List.singleton_append, List.length_append] at hf ⊢
    obtain ⟨more, hmore⟩ := membersText_append layout (depth + 1) hne htexts
      (layout.lineBreak depth ++ .char '\x7d' :: rest)
    have hlines := skipBlank_lineBreak layout (depth + 1) (t := .char '"' :: more) rfl
    have hread := members_membersText depth hne htexts h (show 2 * _ < fuel by omega) rest
    rw [hmore] at hread
    rw [value, hmore, hlines]
    split
    case h_1 heq => exact absurd (List.cons.inj heq).1 (by decide)
    case h_2 =>
      simp only [hread, Bind.bind, Except.bind, Entries.putAll_nil_of_hasPlainKeys hk]

/-! ## All values -/

/-- **Every plain value whose integers can be shown reads back at every depth.** -/
theorem readsBack_of_isPlain {v : Value} (h : v.IsPlain) (hs : v.isShowable = true)
    (layout : Layout) (depth : Nat) : ReadsBack layout depth v := by
  induction h generalizing depth with
  | null => exact readsBack_of_scalar fun rest _ => by rw [writeAt]; exact scalar_null rest
  | bool b => exact readsBack_of_scalar fun rest _ => by rw [writeAt]; exact scalar_bool b rest
  | int n =>
    refine readsBack_of_scalar fun rest hr => ?_
    rw [writeAt]
    exact scalar_ofInt (by simpa [Value.isShowable] using hs) hr
  | float hx =>
    refine readsBack_of_scalar fun rest hr => ?_
    rw [writeAt]
    exact scalar_render _ hx hr
  | str cs => exact readsBack_str layout depth _
  | list _ ih =>
    rw [Value.isShowable, Value.areShowable_iff] at hs
    exact readsBack_list fun v hv => ih v hv (hs v hv) (depth + 1)
  | map hk _ ih =>
    rw [Value.isShowable] at hs
    have hs := Value.isShowable_of_entriesShowable hs
    exact readsBack_map hk fun e he => ih e he (hs e he) (depth + 1)

/-- **The text of a plain value reads as the value.** -/
theorem read_write {layout : Layout} {v : Value} {t : Text} (h : v.IsPlain)
    (ht : write? layout v = some t) : read t = .ok v := by
  rw [write?] at ht
  split at ht
  case isFalse => cases ht
  case isTrue hs =>
    obtain rfl := Option.some.inj ht
    have hback := readsBack_of_isPlain h hs layout 0
    obtain ⟨p, rest, hp, hblank, hmark⟩ := hback.opens
    have hread := hback.reads (2 * (write layout v).length + 1) [] endsValue_nil (Nat.le_succ _)
    rw [List.append_nil] at hread
    have hbom : (write layout v).head? ≠ some (.char '\uFEFF') := by
      rw [write, hp]
      simp only [List.head?_cons, ne_eq, Option.some.injEq]
      rintro rfl
      simp at hmark
    have hskip : skipBlank (write layout v) = writeAt layout 0 v := hback.opens.skipBlank
    rw [read, readAll, if_neg hbom, hskip, hread]
    rfl

end AgentFlow.Json
