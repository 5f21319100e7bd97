import AgentFlow.Proofs.Script.Layout.Goal
import AgentFlow.Script.Grammar.Member

/-!
# Readings of members

From here on the rules of the grammar are taken one by one, given that the readers of all goals are
orderly: lists of values, names, and the members of object literals and patterns.

* `entries_reads`: lists of values.
* `object_isOrderly`, `memberHead_isOrderly`, `groupPattern_isOrderly`: members and patterns.
-/

namespace AgentFlow.Script

open Cursor

variable {c d : Cursor} {rule : Rule}

variable {rules : Rules} (hr : rules.AreOrderly)

include hr

/-! ## Lists of values -/

theorem spread_isOrderly : (spread rules).IsOrderly := by
  intro c t d h
  simp only [spread, Option.bind_eq_bind, Option.bind_eq_some_iff, Prod.exists] at h
  obtain ⟨e, hdots, v, f, hv, h⟩ := h
  cases h
  have hv := hr _ hv
  have hparts : (c.skip.node d .spread [(.plain, v)]).HasParts := by
    simp [Tree.HasParts, Cursor.node, Tree.kind, Tree.namedChildren, Tree.children, Tree.labelled,
      hv.isNamed]
  exact .node (hv.reads.after (punct?_reads hdots)) rfl hparts

theorem listItem_isOrderly : (listItem rules).IsOrderly :=
  either_isOrderly (spread_isOrderly hr) (hr _)

omit hr in
theorem entries_reads (hrule : rule.IsOrderly) (closing : String) (fuel : Nat) (c : Cursor) :
    c.Reads (plain (entries rule closing fuel c).1) (entries rule closing fuel c).2 := by
  induction fuel generalizing c with
  | zero => exact .refl c
  | succ fuel ih =>
    rw [entries]
    refine Reads.after ?_ c.skipMarkup_reads
    dsimp only
    split
    next d hd => exact punct?_reads hd
    next =>
      split
      next d hd => exact (ih d).after (punct?_reads hd)
      next =>
        split
        next t d h =>
          have hbad := broken_reads d
          generalize broken d = found at hbad ⊢
          obtain ⟨bad, e⟩ := found
          have hitem := (hrule h).reads.append hbad
          dsimp only
          split
          · simpa using hitem.append (ih e)
          · exact hitem
        next =>
          have hbad := broken_reads c.skipMarkup
          generalize broken c.skipMarkup = found at hbad ⊢
          obtain ⟨bad, d⟩ := found
          dsimp only
          split
          · exact .refl _
          · simpa using hbad.append (ih d)

theorem list_isOrderly {kind : Kind} {opening closing : String} (hkind : (kind != .equals) = true)
    (hparts : ∀ (c d : Cursor) ts, (c.node d kind ts).HasParts) :
    (list rules kind opening closing).IsOrderly := by
  refine within_isOrderly fun c t d h => ?_
  simp only [Option.bind_eq_bind, Option.bind_eq_some_iff] at h
  obtain ⟨e, hopen, h⟩ := h
  cases h
  have hentries := entries_reads (listItem_isOrderly hr) closing e.fuel e
  exact .node (hentries.after (punct?_reads hopen)) hkind (hparts _ _ _)

theorem array_isOrderly : (array rules).IsOrderly := list_isOrderly hr rfl fun _ _ _ => trivial

theorem arguments_isOrderly : (arguments rules).IsOrderly :=
  list_isOrderly hr rfl fun _ _ _ => trivial

omit hr in
theorem templateParts_reads (hrule : rule.IsOrderly) {fuel : Nat} {ts : List Tree}
    (h : templateParts rule fuel c = some (ts, d)) : c.Reads (plain ts) d := by
  induction fuel generalizing c ts with
  | zero => cases h
  | succ fuel ih =>
    rw [templateParts] at h
    split at h
    · cases h
    · cases h
      exact drop_reads c 1
    · exact (ih h).after (drop_reads c 2)
    · simp only [Option.bind_eq_bind, Option.bind_eq_some_iff, Prod.exists] at h
      obtain ⟨t, e, ht, us, f, hus, h⟩ := h
      cases h
      have ht := (closed_isOrderly hrule ht).reads.after (drop_reads c 2)
      have hpart : c.Reads [(.plain, c.node e .other [(.plain, t)])] e := ht.node trivial
      exact hpart.cons (ih hus)
    · exact (ih h).after (drop_reads c 1)

omit hr in
theorem templateOf_isOrderly {kind : Kind} (hrule : rule.IsOrderly)
    (hkind : (kind != .equals) = true)
    (hparts : ∀ (c d : Cursor) ts, (c.node d kind ts).HasParts) :
    (templateOf kind rule).IsOrderly := by
  refine within_isOrderly fun c t d h => ?_
  simp only [Option.bind_eq_bind, Option.bind_eq_some_iff, Prod.exists] at h
  obtain ⟨e, hmark, ts, f, hts, h⟩ := h
  cases h
  exact .node ((templateParts_reads hrule hts).after (punct?_reads hmark)) hkind (hparts _ _ _)

theorem template_isOrderly : (template rules).IsOrderly :=
  templateOf_isOrderly (hr _) rfl fun _ _ _ => trivial

/-! ## Names -/

theorem memberName_isOrderly : (memberName rules).IsOrderly := by
  intro c t d h
  simp only [memberName] at h
  split at h
  · exact (string_isOrderly h).of_skip
  · exact (string_isOrderly h).of_skip
  · simp only [Option.bind_eq_bind, Option.bind_eq_some_iff, Prod.exists] at h
    obtain ⟨u, e, hu, h⟩ := h
    cases h
    have hu := within_isOrderly (closed_isOrderly (hr _)) hu
    exact .node (hu.reads.after (drop_reads _ 1)) rfl trivial
  · simp only [Option.bind_eq_bind, Option.bind_eq_some_iff, Prod.exists] at h
    obtain ⟨b, w, e, hword, h⟩ := h
    cases h
    exact .node ((word?_reads hword).after (drop_reads _ 1)) rfl trivial
  · exact (either_isOrderly number_isOrderly anyName?_isOrderly h).of_skip

theorem memberHead_isOrderly (follows : Cursor → Bool) (fuel : Nat) :
    (memberHead rules follows fuel).IsOrderly := by
  induction fuel with
  | zero => exact fun c t d h => nomatch h
  | succ fuel ih =>
    intro c t d h
    rw [memberHead] at h
    split at h
    next r hname =>
      cases h
      exact memberName_isOrderly hr (Option.filter_eq_some_iff.1 hname).1
    next =>
      split at h
      next e he => exact (ih h).after (skip_punct?_reads he)
      next =>
        split at h
        next e he => exact (ih h).after (skip_keywords?_reads he)
        next => cases h

theorem signature_reads {returnType : Bool} {ts : List Tree}
    (h : signature rules returnType c = some (ts, d)) : c.Reads (plain ts) d := by
  simp only [signature, Option.bind_eq_bind, Option.bind_eq_some_iff, Prod.exists] at h
  obtain ⟨t, e, ht, h⟩ := h
  have hparams := optional_reads (typeParameters_isOrderly hr) c
  have hresult : e.Reads (plain (if returnType then ascription rules e else ([], e)).1)
      (if returnType then ascription rules e else ([], e)).2 := by
    split
    · exact ascription_reads hr e
    · exact .refl e
  cases h
  rw [plain_append]
  exact hparams.append ((hr _ ht).reads.cons hresult)

/-! ## Object literals -/

theorem method_isOrderly : (method rules).IsOrderly := by
  intro c t d h
  simp only [method, Option.bind_eq_bind, Option.bind_eq_some_iff, Prod.exists] at h
  obtain ⟨name, e, hname, ps, f, hps, body, g, hbody, h⟩ := h
  cases h
  have hname := (memberHead_isOrderly hr _ _ hname).reads_as .name
  have hps := (signature_reads hr hps).after (.getD fun _ => punct?_reads)
  rw [plain_append]
  exact .node (hname.cons (hps.append (hr _ hbody).reads)) rfl rfl

theorem pair_isOrderly : (pair rules).IsOrderly := by
  intro c t d h
  simp only [pair, Option.bind_eq_bind, Option.bind_eq_some_iff, Prod.exists] at h
  obtain ⟨name, e, hname, f, hcolon, h⟩ := h
  have hkey := ((memberName_isOrderly hr hname).reads_as .key).upTo (punct?_reads hcolon)
  split at h
  next v g hv =>
    cases h
    exact .node (hkey.append ((hr _ hv).reads_as .value)) rfl ⟨rfl, rfl⟩
  next =>
    split at h
    · cases h
      have hempty : d.Reads [(.value, d.node d .identifier [])] d := (Reads.refl d).node trivial
      exact .node (hkey.append hempty) rfl ⟨rfl, rfl⟩
    · cases h

theorem shorthand_isOrderly : (shorthand rules).IsOrderly := by
  intro c t d h
  simp only [shorthand, Option.bind_eq_bind, Option.bind_eq_some_iff, Prod.exists] at h
  obtain ⟨u, e, hname, h⟩ := h
  have hname := innerIdentifier?_isOrderly hname
  split at h
  next f hf =>
    simp only [Option.bind_eq_some_iff, Prod.exists] at h
    obtain ⟨v, g, hv, h⟩ := h
    cases h
    have hv := (hr _ hv).reads.after (equals?_reads hf)
    exact .node (hname.skip_reads.append hv) rfl trivial
  next =>
    cases h
    have hpass : c.skip.Reads [] d := ⟨hname.skip_reads.le, hname.skip_reads.tidy⟩
    exact .node hpass rfl trivial

theorem objectMember_isOrderly : (objectMember rules).IsOrderly :=
  either_isOrderly (spread_isOrderly hr) (either_isOrderly (method_isOrderly hr)
    (either_isOrderly (pair_isOrderly hr) (shorthand_isOrderly hr)))

theorem object_isOrderly : (object rules).IsOrderly := by
  refine within_isOrderly fun c t d h => ?_
  simp only [Option.bind_eq_bind, Option.bind_eq_some_iff] at h
  obtain ⟨e, hopen, h⟩ := h
  cases h
  have hmembers := entries_reads (objectMember_isOrderly hr) "\x7d" e.fuel e
  exact .node (hmembers.after (punct?_reads hopen)) rfl trivial

/-! ## Patterns -/

theorem patternItem_isOrderly : (patternItem rules).IsOrderly := by
  intro c t d h
  simp only [patternItem, Option.bind_eq_bind, Option.bind_eq_some_iff, Prod.exists] at h
  obtain ⟨u, e, hu, h⟩ := h
  have hrest : c.skip.Reads [] ((c.skip.punct? "...").getD c.skip) := .getD fun _ => punct?_reads
  have hu := hr _ hu
  split at h
  next f hf =>
    simp only [Option.bind_eq_some_iff, Prod.exists] at h
    obtain ⟨v, g, hv, h⟩ := h
    cases h
    have hv := (hr _ hv).reads.after (equals?_reads hf)
    exact .node ((hu.reads.append hv).after hrest) rfl trivial
  next =>
    cases h
    split
    · exact .node (hu.reads.after hrest) rfl trivial
    · exact hu.after hrest

theorem patternMember_isOrderly : (patternMember rules).IsOrderly := by
  intro c t d h
  simp only [patternMember, Option.bind_eq_bind] at h
  split at h
  next r hnamed =>
    cases h
    simp only [Option.bind_eq_some_iff, Prod.exists] at hnamed
    obtain ⟨name, e, hname, f, hcolon, u, g, hu, h⟩ := hnamed
    cases h
    have hname := (memberName_isOrderly hr hname).reads.upTo (punct?_reads hcolon)
    exact .node (hname.append (patternItem_isOrderly hr hu).reads) rfl trivial
  next =>
    simp only [Option.bind_eq_some_iff, Prod.exists] at h
    obtain ⟨u, e, hu, h⟩ := h
    cases h
    have hu := patternItem_isOrderly hr hu
    split
    · exact .node hu.passes rfl trivial
    · exact .node hu.reads rfl trivial

theorem groupPattern_isOrderly : (groupPattern rules).IsOrderly := by
  refine within_isOrderly fun c t d h => ?_
  simp only [Option.bind_eq_bind, Option.bind_eq_some_iff] at h
  obtain ⟨e, hopen, f, hclose, h⟩ := h
  cases h
  have hitem : (if c.skip.looksAt "\x7b" then patternMember rules else patternItem rules).IsOrderly
    := by
    split
    · exact patternMember_isOrderly hr
    · exact patternItem_isOrderly hr
  have hitems := (commas_reads hitem e.fuel e).after (orElse_punct?_reads hopen)
  exact .node (hitems.upTo (punct?_reads hclose)) rfl trivial

theorem parameterCore_isOrderly (fuel : Nat) : (parameterCore rules fuel).IsOrderly := by
  induction fuel with
  | zero => exact fun c t d h => nomatch h
  | succ fuel ih =>
    intro c t d h
    rw [parameterCore] at h
    split at h
    next u e hu =>
      have hu := hr _ (Option.filter_eq_some_iff.1 hu).1
      have hu : c.Yields u e := by
        cases hdots : c.punct? "..." with
        | none => simpa [hdots] using hu
        | some b => exact Yields.after (by simpa [hdots] using hu) (skip_punct?_reads hdots)
      have hmark : e.Reads [] ((e.punct? "?").getD e) := .getD fun _ => punct?_reads
      have hpattern := hu.skip_reads.cons ((ascription_reads hr _).after hmark)
      simp only [Option.bind_eq_bind] at h
      split at h
      next f hf =>
        simp only [Option.bind_eq_some_iff, Prod.exists] at h
        obtain ⟨v, g, hv, h⟩ := h
        cases h
        have hv := (hr _ hv).reads.after (equals?_reads hf)
        rw [plain_append]
        exact .node (hpattern.append hv) rfl trivial
      next =>
        cases h
        exact .node hpattern rfl trivial
    next =>
      split at h
      next e he => exact (ih h).after (skip_keywords?_reads he)
      next => cases h

end AgentFlow.Script
