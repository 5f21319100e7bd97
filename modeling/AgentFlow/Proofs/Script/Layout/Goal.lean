import AgentFlow.Proofs.Script.Layout.Cursor

/-!
# Readings of the rules that all rules share

The rules that put other rules together read one node if these do, and lists of them read the nodes
of the list one after the other. Types in other parts are read so, given that the readers of all
goals are orderly.

* `many_reads`, `commas_reads`: lists of parts.
* `group_isOrderly`, `bracketed_isOrderly`: parts in brackets.
* `ascription_reads`, `typeParameters_isOrderly`, `typeArguments_isOrderly`: types in other parts.
-/

namespace AgentFlow.Script

open Cursor

variable {c d : Cursor} {rule first second : Rule}

@[simp] theorem plain_nil : plain [] = [] := rfl

@[simp] theorem plain_cons (t : Tree) (ts : List Tree) :
    plain (t :: ts) = (.plain, t) :: plain ts := rfl

@[simp] theorem plain_append (ts us : List Tree) : plain (ts ++ us) = plain ts ++ plain us :=
  List.map_append

/-! ## Names -/

/-- A word, as a node of some kind. -/
theorem word_yields {b : Cursor} {w : String} {kind : Kind} (h : c.word? = some (b, w, d))
    (hkind : (kind != .equals) = true) (hparts : (b.node d kind []).HasParts) :
    c.Yields (b.node d kind []) d := by
  obtain rfl := word?_eq h
  exact .node (skip_word?_reads h) hkind hparts

theorem identifier?_isOrderly : Rule.IsOrderly identifier? := by
  intro c t d h
  simp only [identifier?, Option.bind_eq_bind, Option.bind_eq_some_iff, Prod.exists] at h
  obtain ⟨b, w, e, hword, h⟩ := h
  split at h
  · cases h
  · cases h
    split <;> exact word_yields hword rfl trivial

theorem anyName?_isOrderly : Rule.IsOrderly anyName? := by
  intro c t d h
  simp only [anyName?, Option.bind_eq_bind, Option.bind_eq_some_iff, Prod.exists] at h
  obtain ⟨b, w, e, hword, h⟩ := h
  cases h
  exact word_yields hword rfl trivial

theorem innerIdentifier?_isOrderly : Rule.IsOrderly innerIdentifier? := by
  intro c t d h
  simp only [innerIdentifier?, Option.bind_eq_bind, Option.bind_eq_some_iff, Prod.exists] at h
  obtain ⟨b, w, e, hword, h⟩ := h
  split at h
  · cases h
  · cases h
    split <;> exact word_yields hword rfl trivial

/-! ## Rules put together -/

theorem within_isOrderly {inner : Bool} (hrule : rule.IsOrderly) :
    (within inner rule).IsOrderly := by
  intro c t d h
  obtain ⟨⟨t, e⟩, he, h⟩ := Option.map_eq_some_iff.1 h
  cases h
  exact (hrule he).inside c.inner c.inner

theorem closed_isOrderly {closing : String} (hrule : rule.IsOrderly) :
    (closed rule closing).IsOrderly := by
  intro c t d h
  simp only [closed, Option.bind_eq_bind, Option.bind_eq_some_iff, Prod.exists] at h
  obtain ⟨u, e, hread, f, hclose, h⟩ := h
  cases h
  exact (hrule hread).upTo (punct?_reads hclose)

/-- A choice between two readings. -/
theorem Cursor.Yields.ite {p : Prop} [Decidable p] {found found' : Option (Tree × Cursor)}
    {t : Tree} (h : (if p then found else found') = some (t, d))
    (hfound : found = some (t, d) → c.Yields t d) (hfound' : found' = some (t, d) → c.Yields t d) :
    c.Yields t d := by
  split at h
  · exact hfound h
  · exact hfound' h

/-- A reading, or where it fails another one. -/
theorem Cursor.Yields.orElse {found found' : Option (Tree × Cursor)} {t : Tree}
    (h : (match found with | some r => some r | none => found') = some (t, d))
    (hfound : found = some (t, d) → c.Yields t d) (hfound' : found' = some (t, d) → c.Yields t d) :
    c.Yields t d := by
  split at h
  next r => exact hfound h
  next => exact hfound' h

theorem either_isOrderly (hfirst : first.IsOrderly) (hsecond : second.IsOrderly) :
    (either first second).IsOrderly := fun _ _ _ h =>
  .orElse h (fun h => hfirst h) fun h => hsecond h

/-- A rule behind a keyword and what is passed behind that. -/
theorem keyword_isOrderly (w : String) {pass : Cursor → Cursor}
    (hpass : ∀ d : Cursor, d.Reads [] (pass d)) (hrule : rule.IsOrderly) :
    Rule.IsOrderly (fun c => (c.keyword? w).bind fun d => rule (pass d)) := by
  intro c t d h
  obtain ⟨e, hword, h⟩ := Option.bind_eq_some_iff.1 h
  exact (hrule h).after ((hpass e).after (skip_keyword?_reads hword))

theorem optional_reads (hrule : rule.IsOrderly) (c : Cursor) :
    c.Reads (plain (optional rule c).1) (optional rule c).2 := by
  rw [optional]
  split
  next t d h => exact (hrule h).reads
  next => exact .refl c

theorem behind_reads {pass : Cursor → Option Cursor} (hpass : IsPass pass)
    (hrule : rule.IsOrderly) (c : Cursor) :
    c.Reads (plain (behind pass rule c).1) (behind pass rule c).2 := by
  rw [behind, optional]
  split
  next t e h =>
    obtain ⟨d, hd, ht⟩ := Option.bind_eq_some_iff.1 h
    exact (hrule ht).reads.after (hpass hd)
  next => exact .refl c

theorem orElse_reads {found found' : Option Cursor} (hfound : ∀ d, found = some d → c.Reads [] d)
    (hfound' : ∀ d, found' = some d → c.Reads [] d) (h : orElse found found' = some d) :
    c.Reads [] d := by
  cases found with
  | none => exact hfound' d h
  | some e => exact hfound d h

/-- One mark or another. -/
theorem orElse_punct?_reads {s s' : String} (h : orElse (c.punct? s) (c.punct? s') = some d) :
    c.Reads [] d :=
  orElse_reads (fun _ => punct?_reads) (fun _ => punct?_reads) h

theorem passDotted_reads (fuel : Nat) (c : Cursor) : c.Reads [] (passDotted fuel c) := by
  induction fuel generalizing c with
  | zero => exact .refl c
  | succ fuel ih =>
    rw [passDotted]
    split
    next e h =>
      simp only [Option.bind_eq_bind, Option.bind_eq_some_iff, Prod.exists] at h
      obtain ⟨d, hdot, b, w, e, hword, h⟩ := h
      cases h
      exact (ih _).after ((word?_reads hword).after (punct?_reads hdot))
    next => exact .refl c

theorem leaf_yields (h : c.skip.Reads [] d) : c.Yields (leaf c d).1 (leaf c d).2 :=
  .node h rfl trivial

theorem many_reads (hrule : rule.IsOrderly) (fuel : Nat) (c : Cursor) :
    c.Reads (plain (many rule fuel c).1) (many rule fuel c).2 := by
  induction fuel generalizing c with
  | zero => exact .refl c
  | succ fuel ih =>
    rw [many]
    split
    next => exact .refl c
    next t d h =>
      split
      · exact (hrule h).reads.cons (ih d)
      · exact .refl c

theorem commas_reads (hrule : rule.IsOrderly) (fuel : Nat) (c : Cursor) :
    c.Reads (plain (commas rule fuel c).1) (commas rule fuel c).2 := by
  induction fuel generalizing c with
  | zero => exact .refl c
  | succ fuel ih =>
    rw [commas]
    refine Reads.after ?_ c.skipMarkup_reads
    dsimp only
    split
    next d hd => exact (ih d).after (punct?_reads hd)
    next =>
      split
      next => exact .refl _
      next t d h =>
        split
        next e he => exact (hrule h).reads.cons ((ih e).after (punct?_reads he))
        next => exact (hrule h).reads

theorem group_isOrderly {opening closing : String} (hrule : rule.IsOrderly) :
    (group rule opening closing).IsOrderly := by
  refine within_isOrderly fun c t d h => ?_
  simp only [Option.bind_eq_bind, Option.bind_eq_some_iff] at h
  obtain ⟨e, hopen, f, hclose, h⟩ := h
  cases h
  have hitems := (commas_reads hrule e.fuel e).after (punct?_reads hopen)
  exact .node (hitems.upTo (punct?_reads hclose)) rfl trivial

theorem bracketed_isOrderly {opening : Char} (hrule : rule.IsOrderly) :
    (bracketed opening rule).IsOrderly := by
  intro c t d h
  simp only [bracketed, Option.bind_eq_bind, Option.bind_eq_some_iff] at h
  obtain ⟨e, hpass, h⟩ := h
  refine .orElse h (fun h => hrule (Option.filter_eq_some_iff.1 h).1) fun h => ?_
  cases h
  exact leaf_yields (skip_enclosed?_reads hpass)

/-! ## What fits no rule -/

theorem passBroken_reads (fuel : Nat) (c : Cursor) : c.Reads [] (passBroken fuel c) := by
  induction fuel generalizing c with
  | zero => exact .refl c
  | succ fuel ih =>
    rw [passBroken]
    split
    · exact .refl c
    · refine (ih _).after (Reads.after (.either (drop_reads _ _) fun d hwhole => ?_) c.skip_reads)
      split at hwhole
      · cases hwhole
      split_ifs at hwhole
      · obtain ⟨⟨t, d⟩, hstring, rfl⟩ := Option.map_eq_some_iff.1 hwhole
        exact (string_isOrderly hstring).passes
      · exact templateText?_reads hwhole
      · exact enclosed?_reads hwhole

theorem broken_reads (c : Cursor) : c.Reads (plain (broken c).1) (broken c).2 := by
  rw [broken]
  split
  · exact .refl c
  · have hbroken : c.Yields (c.skip.node (passBroken c.fuel c.skip) .broken [])
        (passBroken c.fuel c.skip) := .node (passBroken_reads _ _) rfl trivial
    exact hbroken.reads

/-! ## Types in other parts -/

section

variable {rules : Rules} (hr : rules.AreOrderly)

include hr

theorem ascription_reads (c : Cursor) :
    c.Reads (plain (ascription rules c).1) (ascription rules c).2 :=
  behind_reads (fun _ _ => punct?_reads) (hr _) c

theorem typeArguments_isOrderly : (typeArguments rules).IsOrderly := group_isOrderly (hr _)

theorem typeParameter_isOrderly : (typeParameter rules).IsOrderly := by
  intro c t d h
  simp only [typeParameter, Option.bind_eq_bind, Option.bind_eq_some_iff, Prod.exists] at h
  obtain ⟨b, w, e, hword, h⟩ := h
  cases h
  have hname := (word?_reads hword).after (skipWords_reads variance 3 c.skip)
  have hbound := behind_reads (fun _ _ => keyword?_reads (w := "extends")) (hr .type) e
  have hgiven := behind_reads (fun _ _ => equals?_reads) (hr .type)
  rw [plain_append]
  exact .node ((hbound.append (hgiven _)).after hname) rfl trivial

theorem typeParameters_isOrderly : (typeParameters rules).IsOrderly :=
  group_isOrderly (typeParameter_isOrderly hr)

/-- The types behind a word, if it is there. -/
theorem typeList_reads (word : String) (c : Cursor) :
    c.Reads (plain (typeList rules word c).1) (typeList rules word c).2 := by
  rw [typeList]
  split
  next d hd => exact (commas_reads (hr _) _ d).after (keyword?_reads hd)
  next => exact .refl c

theorem index_isOrderly : (index rules).IsOrderly := by
  refine bracketed_isOrderly (within_isOrderly fun c t d h => ?_)
  simp only [Option.bind_eq_bind, Option.bind_eq_some_iff, Prod.exists] at h
  obtain ⟨e, hopen, b, w, f, hword, g, hmark, u, i, hu, j, hclose, h⟩ := h
  cases h
  have hname := (word?_reads hword).after (punct?_reads hopen)
  have hmark : f.Reads [] g := orElse_reads (fun _ => punct?_reads) (fun _ => keyword?_reads) hmark
  have hrename := behind_reads (fun _ _ => keyword?_reads (w := "as")) (hr .type) i
  have hparts := (hr _ hu).reads.cons hrename
  exact .node ((hparts.upTo (punct?_reads hclose)).after (hmark.after hname)) rfl trivial

end

end AgentFlow.Script
