import AgentFlow.Agent.Mention
import Mathlib.Data.List.Infix
import Mathlib.Data.List.TakeWhile

/-!
# How a text is read as a mention

A mention is made of a key with its colon, blanks, the quote in front of the name, one of the known
names, and a closing: the quote behind the name and in YAML what ends the name. A text may start
with such parts in more than one way, as names may hold blanks and quotes of their own. A mention is
found where there is any, and with it the name that stands farthest from the key.

* `Reading`: a text cut into the parts of a mention and the rest. What stands in front of the name
  is its `lead`.
* `Reading.key_eq`, `Reading.isLongest_of_quoted`: of all readings of a text the key is the same,
  and a quoted name has the longest lead.
* `MentionStyle.exists_reading`: what is found at the start of a text is read there, with the
  longest lead. `MentionStyle.mentionAt?_isSome_iff`: something is found where there is a reading.
* `MentionStyle.mem_mentions`: every mention of a text is read at its own place.
-/

namespace AgentFlow

/-! ## Blanks, quotes and ends of names -/

/-- Whether a code point is a quote of either kind. -/
def IsQuote (p : CodePoint) : Prop := p = .char '"' ∨ p = .char '\''

/-- Whether a code point ends a name in YAML. -/
def IsNameEnd (p : CodePoint) : Prop :=
  p.isBlank = true ∨ p = .char ',' ∨ p = .char ']' ∨ p = .char '\x7d'

/-- Whether a text consists of blanks. -/
def AreBlanks (t : Text) : Prop := ∀ p ∈ t, p.isBlank = true

/-- Whether a text is the quote on one side of a name: nothing if the name is bare. -/
def IsQuoting (bare : Bool) (t : Text) : Prop :=
  match bare with
  | true => t = []
  | false => ∃ p, IsQuote p ∧ t = [p]

theorem IsQuote.isBlank {p : CodePoint} (h : IsQuote p) : p.isBlank = false := by
  rcases h with rfl | rfl <;> rfl

theorem dropPart?_append (part rest : Text) : dropPart? part (part ++ rest) = some rest := by
  unfold dropPart?
  rw [if_pos (List.isPrefixOf_iff_prefix.2 (List.prefix_append part rest)), List.drop_left]

theorem dropQuote?_eq_some_iff {t rest : Text} :
    dropQuote? t = some rest ↔ ∃ p, IsQuote p ∧ t = p :: rest := by
  constructor
  · intro h
    unfold dropQuote? at h
    split at h
    · exact ⟨_, .inl rfl, by rw [Option.some.inj h]⟩
    · exact ⟨_, .inr rfl, by rw [Option.some.inj h]⟩
    · cases h
  · rintro ⟨p, rfl | rfl, rfl⟩ <;> rfl

theorem dropNameEnd?_eq_some_iff {t rest : Text} :
    dropNameEnd? t = some rest ↔ (t = [] ∧ rest = []) ∨ ∃ p, IsNameEnd p ∧ t = p :: rest := by
  cases t with
  | nil => simp [dropNameEnd?, eq_comm]
  | cons p t =>
    simp only [dropNameEnd?, IsNameEnd, Bool.or_eq_true, beq_iff_eq, or_assoc]
    constructor
    · intro h
      split at h
      case isTrue hend => exact .inr ⟨p, hend, by rw [Option.some.inj h]⟩
      case isFalse => cases h
    · rintro (⟨h, -⟩ | ⟨q, hend, h⟩)
      · cases h
      · obtain ⟨rfl, rfl⟩ := List.cons.inj h
        rw [if_pos hend]

theorem dropBlanks_append {blanks rest : Text} {p : CodePoint} (h : AreBlanks blanks)
    (hp : p.isBlank = false) : dropBlanks (blanks ++ p :: rest) = p :: rest := by
  rw [dropBlanks, List.dropWhile_append_of_pos h, List.dropWhile_cons, hp,
    if_neg Bool.false_ne_true]

theorem exists_blanks (t : Text) : ∃ blanks, AreBlanks blanks ∧ t = blanks ++ dropBlanks t :=
  ⟨t.takeWhile CodePoint.isBlank, fun _ hp => List.mem_takeWhile_imp hp,
    List.takeWhile_append_dropWhile.symm⟩

/-- A start of a text that is no longer than the blanks there consists of blanks. -/
theorem areBlanks_take {t : Text} {n : Nat} (h : n ≤ (t.takeWhile CodePoint.isBlank).length) :
    AreBlanks (t.take n) := by
  intro p hp
  rw [← List.takeWhile_append_dropWhile (p := CodePoint.isBlank) (l := t),
    List.take_append_of_le_length h] at hp
  exact List.mem_takeWhile_imp (List.mem_of_mem_take hp)

theorem length_le_takeWhile {blanks rest : Text} (h : AreBlanks blanks) :
    blanks.length ≤ ((blanks ++ rest).takeWhile CodePoint.isBlank).length := by
  rw [List.takeWhile_append_of_pos h, List.length_append]
  omega

/-- No row of blanks at the start of a text goes on behind a code point that is none. -/
theorem length_blanks_le {blanks blanks' rest rest' : Text} {p : CodePoint}
    (h' : AreBlanks blanks') (hp : p.isBlank = false)
    (heq : blanks ++ p :: rest = blanks' ++ rest') : blanks'.length ≤ blanks.length := by
  by_contra hlt
  have hget := congrArg (·[blanks.length]?) heq
  simp only [List.getElem?_append_right (Nat.le_refl _), Nat.sub_self,
    List.getElem?_cons_zero] at hget
  rw [List.getElem?_append_left (by omega), List.getElem?_eq_getElem (by omega)] at hget
  have hblank := h' _ (List.getElem_mem (by omega : blanks.length < blanks'.length))
  rw [← Option.some.inj hget, hp] at hblank
  cases hblank

/-! ## Names -/

section

variable {ending : Text → Option Text} {names : List Text} {name t rest : Text}

theorem firstName?_eq_some (h : firstName? ending names t = some (name, rest)) :
    name ∈ names ∧ ∃ behind, t = name ++ behind ∧ ending behind = some rest := by
  obtain ⟨n, hn, hfound⟩ := List.exists_of_findSome?_eq_some h
  simp only [Option.bind_eq_bind, Option.bind_eq_some_iff] at hfound
  obtain ⟨behind, hdrop, rest', hending, heq⟩ := hfound
  cases heq
  exact ⟨hn, behind, dropPart?_eq_some hdrop, hending⟩

theorem firstName?_isSome (ending : Text → Option Text) (hname : name ∈ names)
    (h : ending t = some rest) : (firstName? ending names (name ++ t)).isSome = true := by
  refine List.findSome?_isSome_iff.2 ⟨name, hname, ?_⟩
  simp [dropPart?_append, h]

end

/-! ## Readings -/

namespace MentionStyle

/-- Whether a text is the key of an agent with the colon behind it. -/
def IsKey (style : MentionStyle) (key : Text) : Prop :=
  match style with
  | .json => ∃ blanks, AreBlanks blanks ∧ key = "\"agent\"" ++ (blanks ++ ":")
  | .yaml => key = "agent:"
  | .script => key = "agent:"

/-- Whether a text is what stands right in front of a name. -/
def IsOpening (style : MentionStyle) (bare : Bool) (opening : Text) : Prop :=
  match style with
  | .json => bare = false ∧ opening = "\""
  | .yaml => IsQuoting bare opening
  | .script => bare = false ∧ IsQuoting false opening

/-- Whether a text is what belongs to a mention behind its name, in front of the rest. -/
def IsClosing (style : MentionStyle) (bare : Bool) (closing rest : Text) : Prop :=
  match style with
  | .json => closing = "\""
  | .yaml => ∃ quote ending, IsQuoting bare quote ∧
      ((∃ p, IsNameEnd p ∧ ending = [p]) ∨ ending = [] ∧ rest = []) ∧ closing = quote ++ ending
  | .script => IsQuoting false closing

end MentionStyle

/-- A text cut into the parts of a mention and the rest. -/
structure Reading (style : MentionStyle) (names : List Text) (t : Text) where
  key : Text
  blanks : Text
  opening : Text
  name : Text
  bare : Bool
  closing : Text
  rest : Text
  eq_append : t = key ++ (blanks ++ (opening ++ (name ++ (closing ++ rest))))
  isKey : style.IsKey key
  areBlanks : AreBlanks blanks
  isOpening : style.IsOpening bare opening
  name_mem : name ∈ names
  isClosing : style.IsClosing bare closing rest

namespace Reading

variable {style : MentionStyle} {names : List Text} {t : Text}

/-- All that stands in front of the name. -/
def lead (r : Reading style names t) : Text := r.key ++ (r.blanks ++ r.opening)

theorem eq_lead (r : Reading style names t) :
    t = r.lead ++ (r.name ++ r.closing) ++ r.rest := by
  have h := r.eq_append
  simpa only [lead, List.append_assoc] using h

/-- What is told of a mention that is read in this way. -/
def head (r : Reading style names t) : MentionHead :=
  ⟨r.lead.length + r.name.length + r.closing.length, r.name, r.bare⟩

/-- Whether no reading of the text has a longer lead. -/
def IsLongest (r : Reading style names t) : Prop :=
  ∀ r' : Reading style names t, r'.lead.length ≤ r.lead.length

/-- The key is the same in all readings. -/
theorem key_eq (r r' : Reading style names t) : r.key = r'.key := by
  have hkey := r.isKey
  have hkey' := r'.isKey
  cases style with
  | yaml => exact Eq.trans hkey hkey'.symm
  | script => exact Eq.trans hkey hkey'.symm
  | json =>
    obtain ⟨b, hb, hr⟩ := hkey
    obtain ⟨b', hb', hr'⟩ := hkey'
    have heq := r.eq_append.symm.trans r'.eq_append
    rw [hr, hr'] at heq
    simp only [List.append_assoc, List.append_cancel_left_eq] at heq
    have hle : b'.length ≤ b.length := length_blanks_le hb' (p := .char ':') rfl heq
    have hge : b.length ≤ b'.length := length_blanks_le hb (p := .char ':') rfl heq.symm
    rw [hr, hr', (List.append_inj heq (by omega)).1]

theorem key_ne_nil (r : Reading style names t) : r.key ≠ [] := by
  have hkey := r.isKey
  cases style with
  | json =>
    obtain ⟨blanks, -, hkey⟩ := hkey
    rw [hkey]
    exact List.cons_ne_nil _ _
  | yaml => exact (show r.key = "agent:" from hkey) ▸ List.cons_ne_nil _ _
  | script => exact (show r.key = "agent:" from hkey) ▸ List.cons_ne_nil _ _

theorem length_opening (r : Reading style names t) :
    r.opening.length = if r.bare then 0 else 1 := by
  have h := r.isOpening
  cases style with
  | json => rw [h.1, h.2]; rfl
  | yaml =>
    cases hb : r.bare with
    | true =>
      rw [hb] at h
      rw [show r.opening = [] from h]
      rfl
    | false =>
      rw [hb] at h
      obtain ⟨p, -, hp⟩ := h
      rw [hp]
      rfl
  | script =>
    obtain ⟨hb, p, -, hp⟩ := h
    rw [hb, hp]
    rfl

/-- What may stand in front of a name: the letters of the key, colons, quotes and blanks. -/
theorem mem_lead {r : Reading style names t} {p : CodePoint} (h : p ∈ r.lead) :
    p.isBlank = true ∨ p ∈ ("agent:\"'" : Text) := by
  have hquoting {bare : Bool} {q : Text} (hq : IsQuoting bare q) (hp : p ∈ q) :
      p ∈ ("agent:\"'" : Text) := by
    cases bare with
    | true =>
      rw [show q = [] from hq] at hp
      cases hp
    | false =>
      obtain ⟨c, rfl | rfl, rfl⟩ := hq <;> rw [List.mem_singleton.1 hp] <;> decide
  have hletters {part : Text} (hpart : part ⊆ ("agent:\"'" : Text)) (hp : p ∈ part) :
      p.isBlank = true ∨ p ∈ ("agent:\"'" : Text) := .inr (hpart hp)
  have hkey := r.isKey
  have hopening := r.isOpening
  simp only [lead, List.mem_append] at h
  rcases h with h | h | h
  · cases style with
    | json =>
      obtain ⟨b, hb, hkey⟩ := hkey
      rw [hkey, List.mem_append, List.mem_append] at h
      rcases h with h | h | h
      · exact hletters (by decide) h
      · exact .inl (hb p h)
      · exact hletters (by decide) h
    | yaml =>
      rw [show r.key = _ from hkey] at h
      exact hletters (by decide) h
    | script =>
      rw [show r.key = _ from hkey] at h
      exact hletters (by decide) h
  · exact .inl (r.areBlanks p h)
  · cases style with
    | json =>
      rw [hopening.2] at h
      exact hletters (by decide) h
    | yaml => exact .inr (hquoting hopening h)
    | script => exact .inr (hquoting hopening.2 h)

/-- A name that is quoted stands behind all blanks that there are. -/
theorem length_blanks_le_of_quoted {r : Reading style names t} (h : r.bare = false)
    (r' : Reading style names t) : r'.blanks.length ≤ r.blanks.length := by
  obtain ⟨p, hp, hopening⟩ : ∃ p, IsQuote p ∧ r.opening = [p] := by
    have hopening := r.isOpening
    rw [h] at hopening
    cases style with
    | json => exact ⟨_, .inl rfl, hopening.2⟩
    | yaml => exact hopening
    | script => exact hopening.2
  have heq := r.eq_append.symm.trans r'.eq_append
  rw [r.key_eq r', List.append_cancel_left_eq, hopening] at heq
  exact length_blanks_le r'.areBlanks hp.isBlank heq

/-- No lead is longer than that of a quoted name. -/
theorem isLongest_of_quoted {r : Reading style names t} (h : r.bare = false) : r.IsLongest := by
  intro r'
  have hblanks := length_blanks_le_of_quoted h r'
  have hopening := r.length_opening
  have hopening' := r'.length_opening
  rw [h, if_neg Bool.false_ne_true] at hopening
  simp only [lead, List.length_append, r.key_eq r', hopening, hopening']
  split <;> omega

end Reading

namespace MentionStyle

variable {style : MentionStyle} {names : List Text} {name opening closing rest t : Text}
  {bare : Bool}

/-! ## Names in YAML -/

theorem dropNameEnd?_iff_closing :
    dropNameEnd? t = some rest
      ↔ ∃ closing, IsClosing .yaml true closing rest ∧ t = closing ++ rest := by
  rw [dropNameEnd?_eq_some_iff]
  constructor
  · rintro (⟨rfl, rfl⟩ | ⟨p, hp, rfl⟩)
    · exact ⟨[], ⟨[], [], rfl, .inr ⟨rfl, rfl⟩, rfl⟩, rfl⟩
    · exact ⟨[p], ⟨[], [p], rfl, .inl ⟨p, hp, rfl⟩, rfl⟩, rfl⟩
  · rintro ⟨_, ⟨_, _, rfl, ⟨p, hp, rfl⟩ | ⟨rfl, rfl⟩, rfl⟩, rfl⟩
    · exact .inr ⟨p, hp, rfl⟩
    · exact .inl ⟨rfl, rfl⟩

theorem dropQuote?_bind_iff_closing :
    (dropQuote? t).bind dropNameEnd? = some rest
      ↔ ∃ closing, IsClosing .yaml false closing rest ∧ t = closing ++ rest := by
  rw [Option.bind_eq_some_iff]
  constructor
  · rintro ⟨behind, hquote, hend⟩
    obtain ⟨q, hq, rfl⟩ := dropQuote?_eq_some_iff.1 hquote
    obtain ⟨closing, ⟨_, ending, rfl, hending, hclosing⟩, rfl⟩ := dropNameEnd?_iff_closing.1 hend
    exact ⟨q :: closing, ⟨[q], ending, ⟨q, hq, rfl⟩, hending, congrArg _ hclosing⟩, rfl⟩
  · rintro ⟨_, ⟨_, ending, ⟨q, hq, rfl⟩, hending, rfl⟩, rfl⟩
    exact ⟨ending ++ rest, dropQuote?_eq_some_iff.2 ⟨q, hq, rfl⟩,
      dropNameEnd?_iff_closing.2 ⟨ending, ⟨[], ending, rfl, hending, rfl⟩, rfl⟩⟩

theorem yamlName?_eq_some (h : yamlName? names t = some (name, bare, rest)) :
    name ∈ names ∧ ∃ opening closing, IsOpening .yaml bare opening ∧
      IsClosing .yaml bare closing rest ∧ t = opening ++ (name ++ (closing ++ rest)) := by
  unfold yamlName? at h
  simp only [Option.bind_eq_bind] at h
  split at h
  case h_1 name' rest' hquoted =>
    cases h
    obtain ⟨inside, hquote, hname⟩ := Option.bind_eq_some_iff.1 hquoted
    obtain ⟨q, hq, rfl⟩ := dropQuote?_eq_some_iff.1 hquote
    obtain ⟨hmem, behind, rfl, hend⟩ := firstName?_eq_some hname
    obtain ⟨closing, hclosing, rfl⟩ := dropQuote?_bind_iff_closing.1 hend
    exact ⟨hmem, [q], closing, ⟨q, hq, rfl⟩, hclosing, rfl⟩
  case h_2 =>
    obtain ⟨⟨name', rest'⟩, hname, heq⟩ := Option.map_eq_some_iff.1 h
    cases heq
    obtain ⟨hmem, behind, rfl, hend⟩ := firstName?_eq_some hname
    obtain ⟨closing, hclosing, rfl⟩ := dropNameEnd?_iff_closing.1 hend
    exact ⟨hmem, [], closing, rfl, hclosing, rfl⟩

/-- A name is found where there is one, and where one is quoted a quoted one is found. -/
theorem exists_yamlName? (hname : name ∈ names) (hopening : IsOpening .yaml bare opening)
    (hclosing : IsClosing .yaml bare closing rest) :
    ∃ name' bare' rest', yamlName? names (opening ++ (name ++ (closing ++ rest)))
      = some (name', bare', rest') ∧ (bare = false → bare' = false) := by
  unfold yamlName?
  simp only [Option.bind_eq_bind]
  split
  case h_1 name' rest' hquoted => exact ⟨name', false, rest', rfl, fun _ => rfl⟩
  case h_2 hquoted =>
    cases bare with
    | false =>
      obtain ⟨q, hq, rfl⟩ := hopening
      have hend := dropQuote?_bind_iff_closing.2 ⟨closing, hclosing, rfl⟩
      have hsome := firstName?_isSome (fun r => (dropQuote? r).bind dropNameEnd?) hname hend
      rw [List.singleton_append, dropQuote?_eq_some_iff.2 ⟨q, hq, rfl⟩, Option.bind_some] at hquoted
      rw [hquoted] at hsome
      cases hsome
    | true =>
      rw [show opening = [] from hopening, List.nil_append]
      have hend := dropNameEnd?_iff_closing.2 ⟨closing, hclosing, rfl⟩
      obtain ⟨found, hfound⟩ := Option.isSome_iff_exists.1 (firstName?_isSome _ hname hend)
      exact ⟨found.1, true, found.2, by rw [hfound]; rfl, fun h => nomatch h⟩

/-- The last number below a bound for which there is an answer. -/
theorem findSome?_reverse_range {α : Type} {f : Nat → Option α} {bound : Nat} {a : α}
    (h : (List.range bound).reverse.findSome? f = some a) :
    ∃ n < bound, f n = some a ∧ ∀ m < bound, (f m).isSome = true → m ≤ n := by
  induction bound with
  | zero => cases h
  | succ bound ih =>
    rw [List.range_succ, List.reverse_append, List.reverse_singleton, List.singleton_append,
      List.findSome?_cons] at h
    cases hf : f bound with
    | some b =>
      rw [hf] at h
      exact ⟨bound, by omega, hf.trans h, fun m hm _ => by omega⟩
    | none =>
      rw [hf] at h
      obtain ⟨n, hn, hfound, hlast⟩ := ih h
      refine ⟨n, by omega, hfound, fun m hm hsome => ?_⟩
      by_cases hm' : m = bound
      · rw [hm', hf] at hsome
        cases hsome
      · exact hlast m (by omega) hsome

/-- In YAML no reading leaves more in front of its name than the last number of blanks behind which
a name is found, if that name is bare. -/
theorem isLongest_of_bare {r : Reading .yaml names t} {afterKey : Text}
    (hkey : t = "agent:" ++ afterKey)
    (hfound : yamlName? names (afterKey.drop r.blanks.length) = some (name, true, rest))
    (hlast : ∀ m < (afterKey.takeWhile CodePoint.isBlank).length + 1,
      (yamlName? names (afterKey.drop m)).isSome = true → m ≤ r.blanks.length) : r.IsLongest := by
  intro r'
  have hkey' : r'.key = "agent:" := r'.isKey
  have hafter := hkey.symm.trans r'.eq_append
  rw [hkey', List.append_cancel_left_eq] at hafter
  have hbound : r'.blanks.length ≤ (afterKey.takeWhile CodePoint.isBlank).length := by
    rw [hafter]
    exact length_le_takeWhile r'.areBlanks
  have hdrop : afterKey.drop r'.blanks.length
      = r'.opening ++ (r'.name ++ (r'.closing ++ r'.rest)) := by
    rw [hafter, List.drop_left]
  obtain ⟨name', bare', rest', hfound', hquoted⟩ :=
    exists_yamlName? r'.name_mem r'.isOpening r'.isClosing
  rw [← hdrop] at hfound'
  have hle : r'.blanks.length ≤ r.blanks.length := hlast _ (by omega) (by rw [hfound']; rfl)
  have hopening := r'.length_opening
  have hlead : r'.blanks.length + r'.opening.length ≤ r.blanks.length := by
    cases hbare : r'.bare with
    | true =>
      rw [hbare, if_pos rfl] at hopening
      omega
    | false =>
      -- behind the same blanks the quoted name would have been found instead
      have hne : r'.blanks.length ≠ r.blanks.length := by
        intro h
        rw [h, hfound] at hfound'
        cases hfound'
        exact absurd (hquoted hbare) (by decide)
      rw [hbare, if_neg Bool.false_ne_true] at hopening
      omega
  simp only [Reading.lead, List.length_append, r.key_eq r']
  omega

/-! ## Mentions at the start of a text -/

theorem exists_reading_json (h : parts? .json names t = some (name, bare, rest)) :
    ∃ r : Reading .json names t, r.name = name ∧ r.bare = bare ∧ r.rest = rest ∧ r.IsLongest := by
  simp only [parts?, Option.bind_eq_bind, Option.bind_eq_some_iff, Option.some.injEq,
    Prod.mk.injEq] at h
  obtain ⟨afterKey, hkey, afterColon, hcolon, inside, hquote, ⟨n, behind⟩, hname, rfl, rfl,
    rfl⟩ := h
  obtain ⟨b, hb, hblanks⟩ := exists_blanks afterKey
  obtain ⟨b', hb', hblanks'⟩ := exists_blanks afterColon
  rw [dropPart?_eq_some hcolon] at hblanks
  rw [dropPart?_eq_some hquote] at hblanks'
  obtain ⟨hmem, closing, hinside, hclosing⟩ := firstName?_eq_some hname
  have hreading : t = "\"agent\"" ++ (b ++ ":") ++ (b' ++ ("\"" ++ (n ++ ("\"" ++ behind)))) := by
    rw [dropPart?_eq_some hkey, hblanks, hblanks', hinside, dropPart?_eq_some hclosing]
    simp only [List.append_assoc]
  exact ⟨⟨_, b', "\"", n, false, "\"", behind, hreading, ⟨b, hb, rfl⟩, hb', ⟨rfl, rfl⟩, hmem, rfl⟩,
    rfl, rfl, rfl, Reading.isLongest_of_quoted rfl⟩

theorem exists_reading_script (h : parts? .script names t = some (name, bare, rest)) :
    ∃ r : Reading .script names t,
      r.name = name ∧ r.bare = bare ∧ r.rest = rest ∧ r.IsLongest := by
  simp only [parts?, Option.bind_eq_bind, Option.bind_eq_some_iff, Option.some.injEq,
    Prod.mk.injEq] at h
  obtain ⟨afterKey, hkey, inside, hquote, ⟨n, behind⟩, hname, rfl, rfl, rfl⟩ := h
  obtain ⟨b, hb, hblanks⟩ := exists_blanks afterKey
  obtain ⟨q, hq, hopening⟩ := dropQuote?_eq_some_iff.1 hquote
  obtain ⟨hmem, closing, hinside, hclosing⟩ := firstName?_eq_some hname
  obtain ⟨q', hq', hend⟩ := dropQuote?_eq_some_iff.1 hclosing
  have hreading : t = "agent:" ++ (b ++ ([q] ++ (n ++ ([q'] ++ behind)))) := by
    rw [dropPart?_eq_some hkey, hblanks, hopening, hinside, hend]
    rfl
  exact ⟨⟨_, b, [q], n, false, [q'], behind, hreading, rfl, hb, ⟨rfl, q, hq, rfl⟩, hmem,
    ⟨q', hq', rfl⟩⟩, rfl, rfl, rfl, Reading.isLongest_of_quoted rfl⟩

theorem exists_reading_yaml (h : parts? .yaml names t = some (name, bare, rest)) :
    ∃ r : Reading .yaml names t, r.name = name ∧ r.bare = bare ∧ r.rest = rest ∧ r.IsLongest := by
  simp only [parts?, Option.bind_eq_bind, Option.bind_eq_some_iff] at h
  obtain ⟨afterKey, hkey, hsearch⟩ := h
  obtain ⟨n, hn, hfound, hlast⟩ := findSome?_reverse_range hsearch
  obtain ⟨hmem, opening, closing, hopening, hclosing, hname⟩ := yamlName?_eq_some hfound
  have hblanks : AreBlanks (afterKey.take n) := areBlanks_take (by omega)
  have hlength : (afterKey.take n).length = n := by
    have := (List.takeWhile_prefix CodePoint.isBlank (l := afterKey)).length_le
    rw [List.length_take]
    omega
  have hreading :
      t = "agent:" ++ (afterKey.take n ++ (opening ++ (name ++ (closing ++ rest)))) := by
    rw [dropPart?_eq_some hkey, ← hname, List.take_append_drop]
  refine ⟨⟨_, _, opening, name, bare, closing, rest, hreading, rfl, hblanks, hopening, hmem,
    hclosing⟩, rfl, rfl, rfl, ?_⟩
  cases bare with
  | false => exact Reading.isLongest_of_quoted rfl
  | true =>
    apply isLongest_of_bare (dropPart?_eq_some hkey)
    · rw [hlength]
      exact hfound
    · rw [hlength]
      exact hlast

/-- What is found is read in the text, and no reading has a longer lead. -/
theorem exists_reading_of_parts? (h : style.parts? names t = some (name, bare, rest)) :
    ∃ r : Reading style names t, r.name = name ∧ r.bare = bare ∧ r.rest = rest ∧ r.IsLongest := by
  cases style with
  | json => exact exists_reading_json h
  | yaml => exact exists_reading_yaml h
  | script => exact exists_reading_script h

/-- Where there is a reading something is found. -/
theorem parts?_isSome (r : Reading style names t) : (style.parts? names t).isSome = true := by
  obtain ⟨key, blanks, opening, name, bare, closing, rest, heq, hkey, hblanks, hopening, hname,
    hclosing⟩ := r
  cases style with
  | json =>
    obtain ⟨b, hb, rfl⟩ := hkey
    obtain ⟨-, rfl⟩ := hopening
    obtain rfl : closing = "\"" := hclosing
    have hfound := firstName?_isSome (dropPart? "\"") hname (dropPart?_append "\"" rest)
    obtain ⟨found, hfound⟩ := Option.isSome_iff_exists.1 hfound
    have hcolon (u : Text) : dropBlanks (b ++ (":" ++ u)) = ":" ++ u := dropBlanks_append hb rfl
    have hquote (u : Text) : dropBlanks (blanks ++ ("\"" ++ u)) = "\"" ++ u :=
      dropBlanks_append hblanks rfl
    rw [heq]
    simp only [parts?, List.append_assoc, dropPart?_append, hcolon, hquote, hfound,
      Option.bind_eq_bind, Option.bind_some, Option.isSome_some]
  | yaml =>
    obtain rfl : key = "agent:" := hkey
    obtain ⟨name', bare', rest', hfound, -⟩ := exists_yamlName? hname hopening hclosing
    have hcount : blanks.length ≤ ((blanks ++ (opening ++ (name ++ (closing ++ rest)))).takeWhile
        CodePoint.isBlank).length := length_le_takeWhile hblanks
    rw [heq]
    simp only [parts?, dropPart?_append, Option.bind_eq_bind, Option.bind_some]
    rw [List.findSome?_isSome_iff]
    refine ⟨blanks.length, ?_, ?_⟩
    · rw [List.mem_reverse, List.mem_range]
      omega
    · rw [List.drop_left, hfound]
      rfl
  | script =>
    obtain rfl : key = "agent:" := hkey
    obtain ⟨-, q, hq, rfl⟩ := hopening
    obtain ⟨q', hq', rfl⟩ := hclosing
    have hend : dropQuote? ([q'] ++ rest) = some rest := dropQuote?_eq_some_iff.2 ⟨q', hq', rfl⟩
    obtain ⟨found, hfound⟩ := Option.isSome_iff_exists.1 (firstName?_isSome dropQuote? hname hend)
    have hquote (u : Text) : dropQuote? (dropBlanks (blanks ++ ([q] ++ u))) = some u := by
      rw [List.singleton_append, dropBlanks_append hblanks hq.isBlank]
      exact dropQuote?_eq_some_iff.2 ⟨q, hq, rfl⟩
    rw [heq]
    simp only [parts?, dropPart?_append, hquote, hfound, Option.bind_eq_bind, Option.bind_some,
      Option.isSome_some]

/-- The mention at the start of a text is read there, with the longest lead. -/
theorem exists_reading {head : MentionHead} (hnames : names ≠ [])
    (h : style.mentionAt? names t = some head) :
    ∃ r : Reading style names t, r.head = head ∧ r.IsLongest := by
  rw [mentionAt?, alternatives, if_neg (by simpa using hnames)] at h
  obtain ⟨⟨name, bare, rest⟩, hparts, hhead⟩ := Option.map_eq_some_iff.1 h
  obtain ⟨r, rfl, rfl, rfl, hlongest⟩ := exists_reading_of_parts? hparts
  refine ⟨r, ?_, hlongest⟩
  have hlength := congrArg List.length r.eq_append
  simp only [List.length_append] at hlength
  rw [← hhead, Reading.head, Reading.lead]
  simp only [List.length_append, MentionHead.mk.injEq, and_true]
  omega

/-- There is a mention at the start of a text just if it has a reading. -/
theorem mentionAt?_isSome_iff (hnames : names ≠ []) :
    (style.mentionAt? names t).isSome = true ↔ Nonempty (Reading style names t) := by
  constructor
  · intro h
    obtain ⟨head, hhead⟩ := Option.isSome_iff_exists.1 h
    obtain ⟨r, -⟩ := exists_reading hnames hhead
    exact ⟨r⟩
  · rintro ⟨r⟩
    rw [mentionAt?, alternatives, if_neg (by simpa using hnames), Option.isSome_map]
    exact parts?_isSome r

/-! ## Mentions of a text -/

theorem mem_mentionsFrom {index covered : Nat} {m : Mention}
    (h : m ∈ style.mentionsFrom names index covered t) :
    ∃ k head, style.mentionAt? names (t.drop k) = some head ∧
      m = ⟨index + k, index + k + head.length, head.name, head.bare⟩ := by
  induction t generalizing index covered with
  | nil => cases h
  | cons p t ih =>
    have hnext {covered : Nat} (h : m ∈ style.mentionsFrom names (index + 1) covered t) :
        ∃ k head, style.mentionAt? names ((p :: t).drop k) = some head ∧
          m = ⟨index + k, index + k + head.length, head.name, head.bare⟩ := by
      obtain ⟨k, head, hhead, rfl⟩ := ih h
      exact ⟨k + 1, head, hhead, by rw [Nat.add_right_comm, Nat.add_assoc]⟩
    cases covered with
    | succ covered => exact hnext h
    | zero =>
      simp only [mentionsFrom] at h
      split at h
      case h_1 => exact hnext h
      case h_2 head hhead =>
        rcases List.mem_cons.1 h with rfl | h
        · exact ⟨0, head, hhead, rfl⟩
        · exact hnext h

end MentionStyle

/-- Whether a mention of a text is read in a certain way at its own place. -/
structure Mention.IsReadAs (m : Mention) {style : MentionStyle} {names : List Text} {t : Text}
    (r : Reading style names (t.drop m.start)) : Prop where
  name_eq : m.name = r.name
  bare_eq : m.bare = r.bare
  stop_eq : m.stop = m.start + (r.lead.length + r.name.length + r.closing.length)
  isLongest : r.IsLongest

/-- A mention lies inside its text. -/
theorem Mention.IsReadAs.stop_le {style : MentionStyle} {names : List Text} {t : Text} {m : Mention}
    {r : Reading style names (t.drop m.start)} (h : m.IsReadAs r) :
    m.start ≤ m.stop ∧ m.stop ≤ t.length := by
  have hkey := List.length_pos_iff.2 r.key_ne_nil
  have hlead : r.key.length ≤ r.lead.length := by
    rw [Reading.lead, List.length_append]
    omega
  have hlength := congrArg List.length r.eq_lead
  simp only [List.length_append, List.length_drop] at hlength
  have hstop := h.stop_eq
  omega

/-- The text of a mention. -/
theorem Mention.IsReadAs.slice_eq {style : MentionStyle} {names : List Text} {t : Text}
    {m : Mention} {r : Reading style names (t.drop m.start)} (h : m.IsReadAs r) :
    (t.drop m.start).take (m.stop - m.start) = r.lead ++ (r.name ++ r.closing) := by
  have hlength : m.stop - m.start = (r.lead ++ (r.name ++ r.closing)).length := by
    rw [h.stop_eq]
    simp only [List.length_append]
    omega
  rw [hlength]
  exact (congrArg (List.take _) r.eq_lead).trans List.take_left

/-- Every mention of a text is read at its own place. -/
theorem MentionStyle.mem_mentions {style : MentionStyle} {names : List Text} {t : Text}
    {m : Mention} (hnames : names ≠ []) (h : m ∈ style.mentions names t) :
    ∃ r : Reading style names (t.drop m.start), m.IsReadAs r := by
  obtain ⟨k, head, hhead, hm⟩ := mem_mentionsFrom h
  rw [Nat.zero_add] at hm
  subst hm
  obtain ⟨r, rfl, hlongest⟩ := exists_reading hnames hhead
  exact ⟨r, rfl, rfl, rfl, hlongest⟩

end AgentFlow
