import AgentFlow.Proofs.Graph.Reference

/-!
# Templates in texts

A text that is put together from chunks, with references in templates between them, gives these
references back, wherever dollars and braces meet at the ends of the chunks.

The sources of a value are collected by calls that lead to further calls: a list and a mapping ask
for what they hold, and a text that has templates asks for the list of their references. These are
texts again, but have no templates of their own.

* `assemble`: chunks and references put together. `scanned_assemble`: the references are met again.
* `templates_eq_nil_of_mem_templates`: a reference that was found has no templates.
* `Collects`: the calls for a value, the texts that are expanded on the way and the sources that are
  collected. `collects_iff`: for each value they end, they collect the sources inside it, and the
  texts that are expanded are its leaves that have templates, each of them once.
* `inside_assemble_and_collects`: both.
-/

namespace AgentFlow

namespace DataSource

variable {t first reference rest : Text} {parts : List (Text × Text)}

/-! ## Chunks and references -/

/-- What a template opens with. -/
def opener : Text := [.char '$', .char '\x7b', .char ':']

/-- Whether nothing in a text looks like the start of a template. -/
def IsChunk (t : Text) : Prop := ¬ opener <:+: t

instance (t : Text) : Decidable (IsChunk t) := inferInstanceAs (Decidable (¬ opener <:+: t))

/-- The text that begins with a chunk and goes on with references in templates and the chunks behind
them. -/
def assemble (first : Text) : List (Text × Text) → Text
  | [] => first
  | (reference, chunk) :: parts => first ++ templateText reference (assemble chunk parts)

theorem OpensTemplate.opener_isPrefix (h : OpensTemplate t) : opener <+: t := by
  obtain ⟨_, rest, ⟨name, rfl, -, -⟩, rfl⟩ := h
  exact ⟨name ++ .char '\x7d' :: rest, rfl⟩

/-- In a chunk no template opens. -/
theorem IsChunk.not_opensTemplate_drop (h : IsChunk t) (i : Nat) : ¬ OpensTemplate (t.drop i) :=
  fun hopen => h (hopen.opener_isPrefix.isInfix.trans (List.drop_suffix i t).isInfix)

/-- What a template opens with does not reach from the end of a chunk into a template: the second
and the third point of it are no dollars. -/
theorem opener_isPrefix_of_append {front : Text} (hne : front ≠ [])
    (h : opener <+: front ++ templateText reference rest) : opener <+: front := by
  match front with
  | [p] => simp [opener, templateText] at h
  | [p, q] => simp [opener, templateText] at h
  | p :: q :: r :: front => simpa [opener] using h

theorem IsChunk.not_opensTemplate_append (h : IsChunk t) {i : Nat} (hi : i < t.length) :
    ¬ OpensTemplate ((t ++ templateText reference rest).drop i) := by
  intro hopen
  have hprefix := hopen.opener_isPrefix
  rw [List.drop_append_of_le_length (Nat.le_of_lt hi)] at hprefix
  have hfront := opener_isPrefix_of_append (mt List.drop_eq_nil_iff.1 (Nat.not_le.2 hi)) hprefix
  exact h (hfront.isInfix.trans (List.drop_suffix i t).isInfix)

/-- **The references of a text that is put together are met again, and no others.** -/
theorem scanned_assemble (hfirst : IsChunk first)
    (hparts : ∀ part ∈ parts, InBraces part.1 ∧ IsChunk part.2) :
    Scanned (assemble first parts) (parts.map Prod.fst) := by
  induction parts generalizing first with
  | nil => exact .none hfirst.not_opensTemplate_drop
  | cons part parts ih =>
    obtain ⟨⟨hreference, hchunk⟩, hparts⟩ := List.forall_mem_cons.1 hparts
    refine .first (i := first.length) (fun j hj => hfirst.not_opensTemplate_append hj) hreference ?_
      (ih hchunk hparts)
    exact List.drop_left

/-! ## References have no templates -/

/-- A template ends with a brace. -/
theorem templates_eq_nil_of_not_mem (h : .char '\x7d' ∉ t) : templates t = [] := by
  refine (scanned_templates t).unique (.none fun i hopen => h ?_)
  obtain ⟨reference, rest, -, hdrop⟩ := hopen
  have hbrace : .char '\x7d' ∈ t.drop i := by simp [hdrop, templateText]
  exact List.mem_of_mem_drop hbrace

theorem Scanned.inBraces {references : List Text} (h : Scanned t references) :
    ∀ reference ∈ references, InBraces reference := by
  induction h with
  | none => simp
  | first _ hinside _ _ ih => exact List.forall_mem_cons.2 ⟨hinside, ih⟩

/-- **A reference that was found has no templates.** -/
theorem templates_eq_nil_of_mem_templates (h : reference ∈ templates t) :
    templates reference = [] := by
  obtain ⟨name, rfl, -, hname⟩ := (scanned_templates t).inBraces reference h
  exact templates_eq_nil_of_not_mem (by simpa using hname)

/-! ## Calls that collect sources -/

mutual

/-- The calls that collect the sources of a value, up to the last one: the texts that are expanded
to the references of their templates, in order, and the sources that are collected. Values are
finite; what holds itself has no value, and no calls that end (`Yaml.Draft.isEndless`). -/
inductive Collects : Value → List Text → List DataSource → Prop
  | list {items : List Value} {expanded : List Text} {sources : List DataSource}
    (h : CollectsAll items expanded sources) : Collects (.list items) expanded sources
  | map {es : Entries} {expanded : List Text} {sources : List DataSource}
    (h : CollectsAll (es.map Prod.snd) expanded sources) : Collects (.map es) expanded sources
  | orderedMap {es : Entries} {expanded : List Text} {sources : List DataSource}
    (h : CollectsAll (es.map Prod.snd) expanded sources) :
    Collects (.orderedMap es) expanded sources
  | templates {t : Text} {expanded : List Text} {sources : List DataSource}
    (hne : DataSource.templates t ≠ [])
    (h : Collects (.list ((DataSource.templates t).map .str)) expanded sources) :
    Collects (.str t) (t :: expanded) sources
  | text {t : Text} (h : DataSource.templates t = []) : Collects (.str t) [] [ofValue (.str t)]
  | other {v : Value} (hlist : ∀ items, v ≠ .list items) (hmap : v.entries? = none)
    (htext : v.text? = none) : Collects v [] [ofValue v]

/-- The calls for one value after another. -/
inductive CollectsAll : List Value → List Text → List DataSource → Prop
  | nil : CollectsAll [] [] []
  | cons {v : Value} {vs : List Value} {expanded expanded' : List Text}
    {sources sources' : List DataSource} (h : Collects v expanded sources)
    (hrest : CollectsAll vs expanded' sources') :
    CollectsAll (v :: vs) (expanded ++ expanded') (sources ++ sources')

end

/-- The text that a leaf is, if it has templates. -/
def templateText? : Value → Option Text
  | .str t => if templates t = [] then none else some t
  | _ => none

theorem filterMap_leaves_str (t : Text) :
    (Value.str t).leaves.filterMap templateText? = if templates t = [] then [] else [t] := by
  by_cases h : templates t = [] <;> simp [Value.leaves, templateText?, h]

theorem insideText_of_ne_nil (h : templates t ≠ []) :
    insideText t = (templates t).map fun r => ofValue (.str r) := by
  rw [insideText]
  split
  case h_1 hnil => exact absurd hnil h
  case h_2 => rfl

theorem itemsLeaves_map_snd (es : List (Value × Value)) :
    itemsLeaves (es.map Prod.snd) = entriesLeaves es := by
  induction es with
  | nil => rfl
  | cons e es ih => rw [List.map_cons, itemsLeaves, ih, entriesLeaves]

theorem insideItems_map_snd (es : List (Value × Value)) :
    insideItems (es.map Prod.snd) = insideEntries es := by
  induction es with
  | nil => rfl
  | cons e es ih => rw [List.map_cons, insideItems, ih, insideEntries]

section Other

variable {v : Value}

/-- A value that is neither opened nor a text. -/
theorem inside_of_other (hlist : ∀ items, v ≠ .list items) (hmap : v.entries? = none)
    (htext : v.text? = none) :
    v.leaves.filterMap templateText? = [] ∧ inside v = [ofValue v] := by
  cases v with
  | list items => exact absurd rfl (hlist items)
  | map | orderedMap => cases hmap
  | str => cases htext
  | _ => simp [Value.leaves, templateText?, inside]

theorem collects_other (hlist : ∀ items, v ≠ .list items) (hmap : v.entries? = none)
    (htext : v.text? = none) : Collects v (v.leaves.filterMap templateText?) (inside v) := by
  obtain ⟨hleaves, hinside⟩ := inside_of_other hlist hmap htext
  rw [hleaves, hinside]
  exact .other hlist hmap htext

end Other

section References

variable {references : List Text}

/-- References without templates stand for themselves, and none of them is expanded. -/
theorem collectsAll_references (h : ∀ reference ∈ references, templates reference = []) :
    CollectsAll (references.map .str) [] (references.map fun r => ofValue (.str r)) := by
  induction references with
  | nil => exact .nil
  | cons reference references ih =>
    obtain ⟨hreference, hrest⟩ := List.forall_mem_cons.1 h
    exact .cons (.text hreference) (ih hrest)

theorem filterMap_leaves_references (h : ∀ reference ∈ references, templates reference = []) :
    (itemsLeaves (references.map .str)).filterMap templateText? = [] := by
  induction references with
  | nil => rfl
  | cons reference references ih =>
    obtain ⟨hreference, hrest⟩ := List.forall_mem_cons.1 h
    rw [List.map_cons, itemsLeaves, List.filterMap_append, filterMap_leaves_str, if_pos hreference,
      ih hrest]
    rfl

theorem insideItems_references (h : ∀ reference ∈ references, templates reference = []) :
    insideItems (references.map .str) = references.map fun r => ofValue (.str r) := by
  induction references with
  | nil => rfl
  | cons reference references ih =>
    obtain ⟨hreference, hrest⟩ := List.forall_mem_cons.1 h
    rw [List.map_cons, insideItems, inside, insideText, hreference, ih hrest]
    rfl

end References

mutual

/-- For each value the calls end. -/
theorem collects_inside :
    ∀ v : Value, Collects v (v.leaves.filterMap templateText?) (inside v)
  | .list items => by
    rw [Value.leaves, inside]
    exact .list (collectsAll_inside items)
  | .map es => by
    rw [Value.leaves, inside]
    exact .map (collectsAll_insideEntries es)
  | .orderedMap es => by
    rw [Value.leaves, inside]
    exact .orderedMap (collectsAll_insideEntries es)
  | .str t => by
    by_cases h : templates t = []
    · rw [filterMap_leaves_str, if_pos h, inside, insideText, h]
      exact .text h
    · rw [filterMap_leaves_str, if_neg h, inside, insideText_of_ne_nil h]
      exact .templates h (.list (collectsAll_references fun _ => templates_eq_nil_of_mem_templates))
  | .null | .bool _ | .int _ | .float _ | .tuple _ | .bytes _ | .set _ | .date _ | .dateTime _ => by
    exact collects_other (fun _ h => nomatch h) rfl rfl

theorem collectsAll_inside : ∀ vs : List Value,
    CollectsAll vs ((itemsLeaves vs).filterMap templateText?) (insideItems vs)
  | [] => .nil
  | v :: vs => by
    rw [itemsLeaves, List.filterMap_append, insideItems]
    exact .cons (collects_inside v) (collectsAll_inside vs)

theorem collectsAll_insideEntries : ∀ es : List (Value × Value),
    CollectsAll (es.map Prod.snd) ((entriesLeaves es).filterMap templateText?) (insideEntries es)
  | [] => .nil
  | (_, v) :: es => by
    rw [entriesLeaves, List.filterMap_append, insideEntries]
    exact .cons (collects_inside v) (collectsAll_insideEntries es)

end

mutual

/-- What the calls for a value give is settled by the value. -/
theorem Collects.eq_inside {v : Value} {expanded : List Text} {sources : List DataSource} :
    Collects v expanded sources →
      expanded = v.leaves.filterMap templateText? ∧ sources = inside v
  | .list h => by
    rw [Value.leaves, inside]
    exact h.eq_inside
  | .map h => by
    rw [Value.leaves, inside, ← itemsLeaves_map_snd, ← insideItems_map_snd]
    exact h.eq_inside
  | .orderedMap h => by
    rw [Value.leaves, inside, ← itemsLeaves_map_snd, ← insideItems_map_snd]
    exact h.eq_inside
  | .templates (t := t) hne h => by
    have hplain : ∀ reference ∈ templates t, templates reference = [] :=
      fun _ => templates_eq_nil_of_mem_templates
    obtain ⟨rfl, rfl⟩ := h.eq_inside
    rw [Value.leaves, inside, filterMap_leaves_references hplain, insideItems_references hplain,
      filterMap_leaves_str, if_neg hne, inside, insideText_of_ne_nil hne]
    exact ⟨rfl, rfl⟩
  | .text h => by
    rw [filterMap_leaves_str, if_pos h, inside, insideText, h]
    exact ⟨rfl, rfl⟩
  | .other hlist hmap htext => by
    obtain ⟨hleaves, hinside⟩ := inside_of_other hlist hmap htext
    rw [hleaves, hinside]
    exact ⟨rfl, rfl⟩

theorem CollectsAll.eq_inside {vs : List Value} {expanded : List Text}
    {sources : List DataSource} : CollectsAll vs expanded sources →
      expanded = (itemsLeaves vs).filterMap templateText? ∧ sources = insideItems vs
  | .nil => ⟨rfl, rfl⟩
  | .cons h hrest => by
    obtain ⟨rfl, rfl⟩ := h.eq_inside
    obtain ⟨rfl, rfl⟩ := hrest.eq_inside
    rw [itemsLeaves, List.filterMap_append, insideItems]
    exact ⟨rfl, rfl⟩

end

/-- **The calls for a value end, collect the sources inside it and expand each of its leaves that
has templates once.** -/
theorem collects_iff {v : Value} {expanded : List Text} {sources : List DataSource} :
    Collects v expanded sources ↔
      expanded = v.leaves.filterMap templateText? ∧ sources = inside v :=
  ⟨Collects.eq_inside, fun ⟨hexpanded, hsources⟩ => hexpanded ▸ hsources ▸ collects_inside v⟩

/-- **Templates are found exactly.** A text that is put together from chunks and references in
templates stands for the references, or for itself if there are none. The calls that collect the
sources of a value end, in one way only, and expand no text but its leaves, each once if it has
templates. -/
theorem inside_assemble_and_collects :
    (∀ (first : Text) (parts : List (Text × Text)), IsChunk first →
      (∀ part ∈ parts, InBraces part.1 ∧ IsChunk part.2) →
      inside (.str (assemble first parts)) =
        if parts = [] then [ofValue (.str first)]
        else parts.map fun part => ofValue (.str part.1)) ∧
    ∀ v expanded sources, Collects v expanded sources ↔
      expanded = v.leaves.filterMap templateText? ∧ sources = inside v := by
  refine ⟨fun first parts hfirst hparts => ?_, fun _ _ _ => collects_iff⟩
  have hfound : templates (assemble first parts) = parts.map Prod.fst :=
    (scanned_templates _).unique (scanned_assemble hfirst hparts)
  by_cases h : parts = []
  · subst h
    rw [if_pos rfl, inside, insideText, hfound]
    rfl
  · rw [if_neg h, inside, insideText_of_ne_nil (by simp [hfound, h]), hfound, List.map_map]
    rfl

/-- A dollar in front of a template, the start of a template without a colon between two others, and
a brace behind the last one. -/
theorem inside_assemble_dollars :
    let parts := [(":a.b", "$\x7b"), (":c", "\x7d")].map (Prod.map Text.ofString Text.ofString)
    assemble (Text.ofString "$") parts = Text.ofString "$$\x7b:a.b\x7d$\x7b$\x7b:c\x7d\x7d" ∧
    IsChunk (Text.ofString "$") ∧ (∀ part ∈ parts, InBraces part.1 ∧ IsChunk part.2) ∧
    inside (.str (assemble (Text.ofString "$") parts)) =
      [.node (Text.ofString "a") [Text.ofString "b"], .node (Text.ofString "c") []] := by
  intro parts
  have hfirst : IsChunk (Text.ofString "$") := by decide
  have hparts : ∀ part ∈ parts, InBraces part.1 ∧ IsChunk part.2 := by
    have hab : InBraces (Text.ofString ":a.b") := ⟨Text.ofString "a.b", rfl, by decide, by decide⟩
    have hc : InBraces (Text.ofString ":c") := ⟨Text.ofString "c", rfl, by decide, by decide⟩
    exact List.forall_mem_cons.2
      ⟨⟨hab, by decide⟩, List.forall_mem_singleton.2 ⟨hc, by decide⟩⟩
  exact ⟨rfl, hfirst, hparts, inside_assemble_and_collects.1 _ parts hfirst hparts⟩

end DataSource

end AgentFlow
