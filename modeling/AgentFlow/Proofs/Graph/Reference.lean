import AgentFlow.Graph.Reference
import Mathlib.Data.List.Forall2
import Mathlib.Data.List.TakeWhile

/-!
# References of a value

A value refers to nodes in its leaves: a text refers to the nodes of its templates, or to one node
if it has no template and begins with a colon. What follows the colon is cut at certain dots; up to
the first of them it is the id of the node.

* `DataSource.isCut`: the dots at which a reference is cut. `segments_of_firstCut?`: the first
  segment ends at the first one, and what follows is cut in the same way.
* `Scanned`: the templates that are met in a text from left to right. `scanned_templates`: those are
  the ones that are found.
* `Value.Refers`: the references of a value. `Value.Refers.filterMap_inside`: the sources inside a
  value are those of its references, and values that stand for themselves.
-/

namespace AgentFlow

namespace DataSource

/-! ## Cuts -/

/-- Whether a text is cut at an index: there is a dot that stands neither right after an opening nor
right before a closing parenthesis. `opened` tells whether an opening parenthesis is in front of the
text. -/
def isCut (opened : Bool) (t : Text) (i : Nat) : Bool :=
  t[i]? = some (.char '.') && t[i + 1]? ≠ some (.char ')') &&
    match i with
    | 0 => !opened
    | j + 1 => t[j]? ≠ some (.char '(')

/-- The first index at which a text is cut. -/
def firstCut? (opened : Bool) (t : Text) : Option Nat :=
  (List.range t.length).find? (isCut opened t)

variable {opened : Bool} {p : CodePoint} {t : Text} {i : Nat}

theorem isCut_zero : isCut opened (p :: t) 0 = true ↔
    p = .char '.' ∧ !opened ∧ t.head? ≠ some (.char ')') := by
  simp [isCut, List.head?_eq_getElem?, and_assoc, and_comm (a := opened = false)]

theorem isCut_succ : isCut opened (p :: t) (i + 1) = isCut (p = .char '(') t i := by
  cases i <;> simp [isCut]

theorem firstCut?_cons : firstCut? opened (p :: t)
    = if isCut opened (p :: t) 0 = true then some 0
      else (firstCut? (p = .char '(') t).map (· + 1) := by
  have hshift : isCut opened (p :: t) ∘ Nat.succ = isCut (p = .char '(') t :=
    funext fun _ => isCut_succ
  rw [firstCut?, List.length_cons, List.range_succ_eq_map, List.find?_cons, List.find?_map, hshift,
    firstCut?]
  cases isCut opened (p :: t) 0 <;> rfl

/-- A text without cuts is a single segment. -/
theorem segments_of_firstCut?_eq_none (h : firstCut? opened t = none) :
    segments opened t = [t] := by
  induction t generalizing opened with
  | nil => rfl
  | cons p t ih =>
    rw [firstCut?_cons] at h
    by_cases hcut : isCut opened (p :: t) 0 = true
    · rw [if_pos hcut] at h
      cases h
    · rw [if_neg hcut, Option.map_eq_none_iff] at h
      rw [segments, if_neg (mt isCut_zero.2 hcut), ih h]

/-- The first segment ends at the first cut, and what follows is cut in the same way. -/
theorem segments_of_firstCut? (h : firstCut? opened t = some i) :
    segments opened t = t.take i :: segments false (t.drop (i + 1)) := by
  induction t generalizing opened i with
  | nil => cases h
  | cons p t ih =>
    rw [firstCut?_cons] at h
    by_cases hcut : isCut opened (p :: t) 0 = true
    · rw [if_pos hcut] at h
      cases h
      rw [segments, if_pos (isCut_zero.1 hcut)]
      rfl
    · rw [if_neg hcut] at h
      obtain ⟨j, hj, rfl⟩ := Option.map_eq_some_iff.1 h
      rw [segments, if_neg (mt isCut_zero.2 hcut), ih hj]
      rfl

/-! ## What a reference says -/

/-- The node that a reference names: what follows the colon, up to the first cut. A reference of
more than one line names none. -/
def nodeOf? : Text → Option Text
  | .char ':' :: body =>
    if .char '\n' ∈ body then none else some (body.take ((firstCut? false body).getD body.length))
  | _ => none

/-- What follows the first cut of a reference. -/
def labelOf? : Text → Option Text
  | .char ':' :: body => (firstCut? false body).map fun i => body.drop (i + 1)
  | _ => none

theorem ofValue_of_nodeOf?_eq_none (h : nodeOf? t = none) :
    ofValue (.str t) = .literal (.str t) := by
  have hbody : referenceBody? t = none := by
    unfold referenceBody?
    split
    case h_1 body =>
      rw [nodeOf?] at h
      split at h
      case isTrue hline => rw [if_pos (List.contains_iff_mem.2 hline)]
      case isFalse => cases h
    case h_2 => rfl
  rw [ofValue, hbody]

/-- A text that names a node is the source of that node, and its path tells what follows the first
cut. -/
theorem exists_ofValue_of_nodeOf? {id : Text} (h : nodeOf? t = some id) :
    ∃ path, ofValue (.str t) = .node id path ∧ (path = [] ↔ labelOf? t = none) ∧
      ∀ label, labelOf? t = some label → Text.join "." path = label := by
  unfold nodeOf? at h
  split at h
  case h_1 body =>
    split at h
    case isTrue => cases h
    case isFalse hline =>
      have hbody : referenceBody? (.char ':' :: body) = some body :=
        if_neg (mt List.contains_iff_mem.1 hline)
      rw [ofValue, hbody, labelOf?]
      cases hcut : firstCut? false body with
      | none =>
        rw [hcut, Option.getD_none, List.take_length] at h
        obtain rfl := Option.some.inj h
        refine ⟨[], ?_, by simp, fun label hlabel => nomatch hlabel⟩
        simp only [ofBody, segments_of_firstCut?_eq_none hcut]
      | some i =>
        rw [hcut, Option.getD_some] at h
        obtain rfl := Option.some.inj h
        refine ⟨segments false (body.drop (i + 1)), ?_, ?_, fun label hlabel => ?_⟩
        · simp only [ofBody, segments_of_firstCut? hcut]
        · simp [segments_ne_nil]
        · rw [← Option.some.inj hlabel]
          exact join_segments false _
  case h_2 => cases h

/-! ## Templates -/

/-- Whether a text is a reference that can stand in a template. -/
def InBraces (reference : Text) : Prop :=
  ∃ name, reference = .char ':' :: name ∧ name ≠ [] ∧ .char '\x7d' ∉ name

/-- A text that opens with the template of a reference, and what follows it. -/
def templateText (reference rest : Text) : Text :=
  .char '$' :: .char '\x7b' :: (reference ++ .char '\x7d' :: rest)

/-- Whether a text opens with a template. -/
def OpensTemplate (t : Text) : Prop :=
  ∃ reference rest, InBraces reference ∧ t = templateText reference rest

/-- The references of the templates that are met in a text from left to right: each time the first
one that opens, and then those in what follows it. -/
inductive Scanned : Text → List Text → Prop
  | none {t : Text} (h : ∀ i, ¬ OpensTemplate (t.drop i)) : Scanned t []
  | first {t reference rest : Text} {references : List Text} {i : Nat}
    (hfirst : ∀ j < i, ¬ OpensTemplate (t.drop j)) (hinside : InBraces reference)
    (h : t.drop i = templateText reference rest) (hrest : Scanned rest references) :
    Scanned t (reference :: references)

theorem takeWhile_name {name : Text} (h : .char '\x7d' ∉ name) (rest : Text) :
    (name ++ .char '\x7d' :: rest).takeWhile (· ≠ .char '\x7d') = name := by
  have hname : ∀ p ∈ name, decide (p ≠ .char '\x7d') = true := by
    intro p hp
    rw [decide_eq_true_eq]
    exact fun heq => h (heq ▸ hp)
  rw [List.takeWhile_append_of_pos hname, List.takeWhile_cons_of_neg (by simp), List.append_nil]

/-- What follows the text up to a brace, if that is not all of the text. -/
theorem exists_dropWhile_eq {t : Text}
    (h : (t.takeWhile (· ≠ .char '\x7d')).length ≠ t.length) :
    ∃ rest, t.dropWhile (· ≠ .char '\x7d') = .char '\x7d' :: rest := by
  cases hdrop : t.dropWhile (· ≠ .char '\x7d') with
  | nil =>
    have hwhole := List.takeWhile_append_dropWhile (p := (· ≠ .char '\x7d')) (l := t)
    rw [hdrop, List.append_nil] at hwhole
    exact absurd (congrArg List.length hwhole) h
  | cons p rest =>
    have hhead := List.head?_dropWhile_not (fun p => decide (p ≠ .char '\x7d')) t
    rw [hdrop] at hhead
    have hp : p = .char '\x7d' := by simpa using hhead
    exact ⟨rest, hp ▸ rfl⟩

/-- The template at the start of a text. -/
theorem templateAt?_eq_some_iff {reference : Text} : templateAt? t = some reference ↔
    InBraces reference ∧ ∃ rest, t = templateText reference rest := by
  constructor
  · intro h
    unfold templateAt? at h
    split at h
    case h_1 body =>
      simp only [Bool.or_eq_true, decide_eq_true_eq, List.isEmpty_iff] at h
      split at h
      case isTrue => cases h
      case isFalse hname =>
        rw [not_or] at hname
        obtain ⟨rest, hrest⟩ := exists_dropWhile_eq hname.2
        refine ⟨⟨_, (Option.some.inj h).symm, hname.1, fun hmem => ?_⟩, rest, ?_⟩
        · simpa using List.mem_takeWhile_imp hmem
        · rw [← Option.some.inj h, templateText, List.cons_append, ← hrest,
            List.takeWhile_append_dropWhile]
    case h_2 => cases h
  · rintro ⟨⟨name, rfl, hne, hname⟩, rest, rfl⟩
    rw [templateText, List.cons_append, templateAt?, takeWhile_name hname]
    exact if_neg (by simp [hne])

theorem templateAt?_eq_none_iff : templateAt? t = none ↔ ¬ OpensTemplate t := by
  rw [Option.eq_none_iff_forall_ne_some, OpensTemplate]
  simp only [ne_eq, templateAt?_eq_some_iff, not_exists, not_and]
  exact ⟨fun h reference rest hinside heq => h reference hinside rest heq,
    fun h reference hinside rest heq => h reference rest hinside heq⟩

/-- What opens no template may be put in front of a text. -/
theorem Scanned.cons {references : List Text} (hopen : ¬ OpensTemplate (p :: t))
    (h : Scanned t references) : Scanned (p :: t) references := by
  cases h with
  | none hnone =>
    refine .none fun i => ?_
    cases i with
    | zero => exact hopen
    | succ i => exact hnone i
  | first hfirst hinside hdrop hrest =>
    refine .first (fun j hj => ?_) hinside (i := _ + 1) hdrop hrest
    cases j with
    | zero => exact hopen
    | succ j => exact hfirst j (by omega)

/-- The template that opens a text is three code points longer than its reference. -/
theorem drop_of_eq_templateText {reference rest : Text} (h : p :: t = templateText reference rest) :
    t.drop (reference.length + 2) = rest := by
  have hlonger : t.drop (reference.length + 2) = (p :: t).drop (reference.length + 3) := rfl
  rw [hlonger, h, templateText]
  show (reference ++ .char '\x7d' :: rest).drop (reference.length + 1) = rest
  rw [List.drop_append, List.drop_of_length_le (by omega), Nat.add_sub_cancel_left]
  rfl

theorem scanned_templatesFrom (skip : Nat) (t : Text) :
    Scanned (t.drop skip) (templatesFrom skip t) := by
  induction t generalizing skip with
  | nil =>
    rw [List.drop_nil, templatesFrom]
    refine .none fun i => ?_
    rw [List.drop_nil]
    rintro ⟨reference, rest, -, h⟩
    cases h
  | cons p t ih =>
    cases skip with
    | succ skip => exact ih skip
    | zero =>
      rw [List.drop_zero, templatesFrom]
      split
      case h_1 reference hfound =>
        obtain ⟨hinside, rest, htext⟩ := templateAt?_eq_some_iff.1 hfound
        have hrest := ih (reference.length + 2)
        rw [drop_of_eq_templateText htext] at hrest
        exact .first (i := 0) (fun j hj => absurd hj (Nat.not_lt_zero j)) hinside htext hrest
      case h_2 hnone => exact (ih 0).cons (templateAt?_eq_none_iff.1 hnone)

/-- The templates of a text are those that are met from left to right. -/
theorem scanned_templates (t : Text) : Scanned t (templates t) := scanned_templatesFrom 0 t

/-- No other references are met. -/
theorem Scanned.unique {references references' : List Text} (h : Scanned t references)
    (h' : Scanned t references') : references = references' := by
  induction h generalizing references' with
  | none hnone =>
    cases h' with
    | none => rfl
    | first _ hinside hdrop => exact absurd ⟨_, _, hinside, hdrop⟩ (hnone _)
  | @first t reference rest references i hfirst hinside hdrop _ ih =>
    have hopen : OpensTemplate (t.drop i) := ⟨reference, rest, hinside, hdrop⟩
    cases h' with
    | none hnone => exact absurd hopen (hnone i)
    | @first _ reference' rest' _ j hfirst' hinside' hdrop' hrest' =>
      have hopen' : OpensTemplate (t.drop j) := ⟨reference', rest', hinside', hdrop'⟩
      obtain rfl : i = j := by
        by_contra hne
        rcases Nat.lt_or_gt_of_ne hne with hlt | hlt
        · exact hfirst' i hlt hopen
        · exact hfirst j hlt hopen'
      have hsame : some reference = some reference' :=
        (templateAt?_eq_some_iff.2 ⟨hinside, rest, hdrop⟩).symm.trans
          (templateAt?_eq_some_iff.2 ⟨hinside', rest', hdrop'⟩)
      obtain rfl := Option.some.inj hsame
      obtain rfl : rest = rest' := by
        have heq := hdrop.symm.trans hdrop'
        simpa [templateText] using heq
      rw [ih hrest']

end DataSource

/-! ## References of a value -/

mutual

/-- The leaves of a value, left to right: lists and the values of mappings are opened. -/
def Value.leaves : Value → List Value
  | .list items => itemsLeaves items
  | .map es => entriesLeaves es
  | .orderedMap es => entriesLeaves es
  | v => [v]

/-- The leaves of the items of a list. -/
def itemsLeaves : List Value → List Value
  | [] => []
  | v :: vs => v.leaves ++ itemsLeaves vs

/-- The leaves of the values of a mapping. -/
def entriesLeaves : List (Value × Value) → List Value
  | [] => []
  | (_, v) :: es => v.leaves ++ entriesLeaves es

end

namespace DataSource

/-- The references of a leaf: those of its templates, if it is a text that has any, else itself, if
it is a text that begins with a colon. -/
inductive LeafRefers : Value → List Text → Prop
  | templates {t reference : Text} {references : List Text}
    (h : Scanned t (reference :: references)) : LeafRefers (.str t) (reference :: references)
  | whole {t : Text} (h : Scanned t []) (hcolon : t.head? = some (.char ':')) :
    LeafRefers (.str t) [t]
  | plain {t : Text} (h : Scanned t []) (hcolon : t.head? ≠ some (.char ':')) :
    LeafRefers (.str t) []
  | other {v : Value} (h : v.text? = none) : LeafRefers v []

theorem LeafRefers.unique {v : Value} {references references' : List Text}
    (h : LeafRefers v references) (h' : LeafRefers v references') : references = references' := by
  cases h with
  | templates h =>
    cases h' with
    | templates h' => exact h.unique h'
    | whole h' | plain h' => cases h.unique h'
    | other h' => cases h'
  | whole h hcolon =>
    cases h' with
    | templates h' => cases h.unique h'
    | whole => rfl
    | plain _ hcolon' => exact absurd hcolon hcolon'
    | other h' => cases h'
  | plain h hcolon =>
    cases h' with
    | templates h' => cases h.unique h'
    | whole _ hcolon' => exact absurd hcolon' hcolon
    | plain | other => rfl
  | other h =>
    cases h' with
    | templates | whole => cases h
    | plain | other => rfl

/-- What a leaf stands for. -/
def insideLeaf : Value → List DataSource
  | .str t => insideText t
  | v => [ofValue v]

mutual

/-- All that a value holds is held by its leaves. -/
theorem inside_eq_leaves : ∀ v : Value, inside v = v.leaves.flatMap insideLeaf
  | .list items => by
    rw [inside, Value.leaves]
    exact insideItems_eq_leaves items
  | .map es => by
    rw [inside, Value.leaves]
    exact insideEntries_eq_leaves es
  | .orderedMap es => by
    rw [inside, Value.leaves]
    exact insideEntries_eq_leaves es
  | .str _ | .null | .bool _ | .int _ | .float _ | .tuple _ | .bytes _ | .set _ | .date _
  | .dateTime _ => by simp [inside, Value.leaves, insideLeaf]

theorem insideItems_eq_leaves :
    ∀ vs : List Value, insideItems vs = (itemsLeaves vs).flatMap insideLeaf
  | [] => rfl
  | v :: vs => by
    rw [insideItems, itemsLeaves, List.flatMap_append, inside_eq_leaves v,
      insideItems_eq_leaves vs]

theorem insideEntries_eq_leaves :
    ∀ es : List (Value × Value), insideEntries es = (entriesLeaves es).flatMap insideLeaf
  | [] => rfl
  | (_, v) :: es => by
    rw [insideEntries, entriesLeaves, List.flatMap_append, inside_eq_leaves v,
      insideEntries_eq_leaves es]

end

/-- What a value holds are sources of single values. -/
theorem exists_ofValue_of_mem_inside {v : Value} {source : DataSource} (h : source ∈ inside v) :
    ∃ w, source = ofValue w := by
  rw [inside_eq_leaves, List.mem_flatMap] at h
  obtain ⟨leaf, -, hsource⟩ := h
  cases leaf with
  | str t =>
    rw [insideLeaf, insideText] at hsource
    split at hsource
    · exact ⟨_, List.mem_singleton.1 hsource⟩
    · obtain ⟨reference, -, rfl⟩ := List.mem_map.1 hsource
      exact ⟨_, rfl⟩
  | _ => exact ⟨_, List.mem_singleton.1 hsource⟩

theorem lineFeed_not_mem_referenceBody? {t body : Text} (h : referenceBody? t = some body) :
    .char '\n' ∉ body := by
  unfold referenceBody? at h
  split at h
  case h_1 =>
    split at h
    · cases h
    case isFalse hnot =>
      cases h
      simpa using hnot
  case h_2 => cases h

theorem exists_leafRefers (v : Value) : ∃ references, LeafRefers v references := by
  cases ht : v.text? with
  | none => exact ⟨[], .other ht⟩
  | some t =>
    obtain rfl : v = .str t := by
      cases v <;> cases ht
      rfl
    have hscanned := scanned_templates t
    cases hfound : templates t with
    | cons reference references => exact ⟨_, .templates (hfound ▸ hscanned)⟩
    | nil =>
      rw [hfound] at hscanned
      by_cases hcolon : t.head? = some (.char ':')
      · exact ⟨[t], .whole hscanned hcolon⟩
      · exact ⟨[], .plain hscanned hcolon⟩

theorem ofValue_of_head?_ne {t : Text} (h : t.head? ≠ some (.char ':')) :
    ofValue (.str t) = .literal (.str t) := by
  refine ofValue_of_nodeOf?_eq_none ?_
  unfold nodeOf?
  split
  case h_1 => exact absurd rfl h
  case h_2 => rfl

section

variable {γ : Type} {f : DataSource → Option γ} {v : Value} {references : List Text}

/-- Of what a leaf stands for, the sources that are nodes come from its references. -/
theorem LeafRefers.filterMap_insideLeaf (hf : ∀ w, f (.literal w) = none)
    (h : LeafRefers v references) :
    (insideLeaf v).filterMap f = references.filterMap fun r => f (ofValue (.str r)) := by
  cases h with
  | @templates t reference references h =>
    have hfound : DataSource.templates t = reference :: references := (scanned_templates t).unique h
    simp only [insideLeaf, insideText, hfound, List.filterMap_map]
    rfl
  | @whole t h =>
    have hfound : DataSource.templates t = [] := (scanned_templates t).unique h
    simp only [insideLeaf, insideText, hfound]
    rfl
  | @plain t h hcolon =>
    have hfound : DataSource.templates t = [] := (scanned_templates t).unique h
    simp only [insideLeaf, insideText, hfound, ofValue_of_head?_ne hcolon]
    rw [List.filterMap_cons_none (hf _)]
    rfl
  | other h =>
    have hleaf : insideLeaf v = [.literal v] := by
      cases v <;> first | rfl | cases h
    rw [hleaf, List.filterMap_cons_none (hf _)]
    rfl

end

end DataSource

/-- The references of a value: those of its leaves, left to right. -/
def Value.Refers (v : Value) (references : List Text) : Prop :=
  ∃ parts, List.Forall₂ DataSource.LeafRefers v.leaves parts ∧ references = parts.flatten

namespace Value.Refers

open DataSource

variable {γ : Type} {f : DataSource → Option γ} {v : Value} {references references' : List Text}

theorem exists_refers (v : Value) : ∃ references, v.Refers references := by
  suffices ∀ vs : List Value, ∃ parts, List.Forall₂ LeafRefers vs parts by
    obtain ⟨parts, hparts⟩ := this v.leaves
    exact ⟨parts.flatten, parts, hparts, rfl⟩
  intro vs
  induction vs with
  | nil => exact ⟨[], .nil⟩
  | cons v vs ih =>
    obtain ⟨part, hpart⟩ := exists_leafRefers v
    obtain ⟨parts, hparts⟩ := ih
    exact ⟨part :: parts, .cons hpart hparts⟩

theorem unique (h : v.Refers references) (h' : v.Refers references') :
    references = references' := by
  obtain ⟨parts, hparts, rfl⟩ := h
  obtain ⟨parts', hparts', rfl⟩ := h'
  have hleaf : Relator.RightUnique LeafRefers := fun _ _ _ => LeafRefers.unique
  rw [List.right_unique_forall₂' hleaf hparts hparts']

/-- **Of what is inside a value, the sources that are nodes come from its references.** -/
theorem filterMap_inside (hf : ∀ w, f (.literal w) = none) (h : v.Refers references) :
    (inside v).filterMap f = references.filterMap fun r => f (ofValue (.str r)) := by
  obtain ⟨parts, hparts, rfl⟩ := h
  rw [inside_eq_leaves]
  generalize v.leaves = leaves at hparts
  induction hparts with
  | nil => rfl
  | cons hpart _ ih =>
    rw [List.flatMap_cons, List.flatten_cons, List.filterMap_append, List.filterMap_append,
      hpart.filterMap_insideLeaf hf, ih]

end Value.Refers

end AgentFlow
