import AgentFlow.Proofs.Script.Layout.Member
import AgentFlow.Script.Grammar.Expression

/-!
# Readings of expressions

The rules of functions, classes, operands and operators, one by one: each reads one node if the
readers of all goals do.

* `classWith_isOrderly`, `classBody_isOrderly`: classes.
* `chain_isOrderly`, `operand_isOrderly`: operands with what stands behind and in front of them.
* `assignmentRule_isOrderly`, `expressionRule_isOrderly`, `patternRule_isOrderly`,
  `parametersRule_isOrderly`: the goals.
-/

namespace AgentFlow.Script

open Cursor

variable {c d : Cursor} {t : Tree} {ts : List Tree}

/-- What is passed of a part that may be missing. -/
theorem Rule.IsOrderly.getD_reads {rule : Rule} (hrule : rule.IsOrderly) (c : Cursor) :
    c.Reads [] (((rule c).map (·.2)).getD c) := by
  refine .getD fun d hd => ?_
  obtain ⟨⟨t, d⟩, h, rfl⟩ := Option.map_eq_some_iff.1 hd
  exact (hrule h).passes

variable {rules : Rules} (hr : rules.AreOrderly) {operand : Rule} (hoperand : operand.IsOrderly)

/-! ## Functions and classes -/

section

include hr

theorem bodyOrEnd_reads (c : Cursor) :
    c.Reads (plain (bodyOrEnd rules c).1) (bodyOrEnd rules c).2 := by
  rw [bodyOrEnd]
  split
  next t d h => exact (hr _ h).reads
  next => exact .getD fun _ => semicolon?_reads

theorem functionWith_isOrderly {kind : Kind} (needsBody : Bool) (hkind : (kind != .equals) = true)
    (hparts : ∀ (c d : Cursor) cs, (c.node d kind cs).HasParts) :
    (functionWith rules kind needsBody).IsOrderly := by
  intro c t d h
  simp only [functionWith, Option.bind_eq_bind, Option.bind_eq_some_iff, Prod.exists] at h
  obtain ⟨e, hword, ps, f, hps, h⟩ := h
  have hasync : c.skip.Reads [] ((c.skip.keyword? "async").getD c.skip) :=
    .getD fun _ => keyword?_reads
  have he : c.skip.Reads [] e := (keyword?_reads hword).after hasync
  have hstar : e.Reads [] ((e.punct? "*").getD e) := .getD fun _ => punct?_reads
  have hname := (identifier?_isOrderly.getD_reads _).after (hstar.after he)
  split at h
  · cases h
  · cases h
    have hread := ((signature_reads hr hps).after hname).append (bodyOrEnd_reads hr f)
    rw [plain_append]
    exact .node hread hkind (hparts _ _ _)

end

section

include hoperand

theorem decorator_isOrderly : (decorator operand).IsOrderly := by
  intro c t d h
  simp only [decorator, Option.bind_eq_bind, Option.bind_eq_some_iff, Prod.exists] at h
  obtain ⟨e, hmark, u, f, hu, h⟩ := h
  cases h
  exact .node ((hoperand hu).reads.after (punct?_reads hmark)) rfl trivial

omit hoperand in
theorem passClassName_reads (c : Cursor) : c.Reads [] (passClassName c) := by
  rw [passClassName]
  split
  next b w d hword =>
    split
    · exact .refl c
    · exact word?_reads hword
  next => exact .refl c

include hr

theorem baseClass_reads (c : Cursor) :
    c.Reads (plain (baseClass rules operand c).1) (baseClass rules operand c).2 := by
  rw [baseClass]
  split
  next d hd =>
    have hbase := (optional_reads hoperand d).after (keyword?_reads hd)
    have hread := hbase.append (optional_reads (typeArguments_isOrderly hr) _)
    rwa [← plain_append] at hread
  next => exact .refl c

theorem classHead_reads (c : Cursor) :
    c.Reads (plain (classHead rules operand c).1) (classHead rules operand c).2 := by
  have hparams := (optional_reads (typeParameters_isOrderly hr) _).after (passClassName_reads c)
  have hbase := baseClass_reads hr hoperand
  have hread := hparams.append ((hbase _).append (typeList_reads hr "implements" _))
  rwa [← plain_append, ← plain_append] at hread

theorem classWith_isOrderly : (classWith rules operand).IsOrderly := by
  intro c t d h
  simp only [classWith, Option.bind_eq_bind, Option.bind_eq_some_iff, Prod.exists] at h
  obtain ⟨e, hclass, body, f, hbody, h⟩ := h
  cases h
  have hmarks := many_reads (decorator_isOrderly hoperand) c.skip.fuel c.skip
  have habstract (d : Cursor) : d.Reads [] ((d.keyword? "abstract").getD d) :=
    .getD fun _ => keyword?_reads
  have he := (keyword?_reads hclass).after (habstract _)
  have hhead := hmarks.append ((classHead_reads hr hoperand e).after he)
  rw [plain_append, plain_append]
  exact .node (hhead.append (hr _ hbody).reads) rfl trivial

end

section

include hr

theorem indexHead_isOrderly : (indexHead rules).IsOrderly := fun c _ _ h =>
  .ite h (fun h => (index_isOrderly hr h).after (skipWords_reads memberModifiers 4 c.skip))
    fun h => nomatch h

theorem indexMember_isOrderly : (indexMember rules).IsOrderly := by
  intro c t d h
  simp only [indexMember, Option.bind_eq_bind, Option.bind_eq_some_iff, Prod.exists] at h
  obtain ⟨u, e, hu, h⟩ := h
  cases h
  have hend (c : Cursor) : c.Reads [] ((c.semicolon? false).getD c) :=
    .getD fun _ => semicolon?_reads
  have hparts := (indexHead_isOrderly hr hu).reads.cons (ascription_reads hr e)
  exact .node (hparts.upTo (hend _)) rfl trivial

theorem staticBlock_isOrderly : (staticBlock rules).IsOrderly := keyword_isOrderly _ .refl (hr _)

theorem classField_isOrderly : (classField rules).IsOrderly := by
  intro c t d h
  simp only [classField, Option.bind_eq_bind, Option.bind_eq_some_iff, Prod.exists] at h
  obtain ⟨name, e, hname, h⟩ := h
  have hmark : e.Reads [] ((orElse (e.punct? "?") (e.punct? "!")).getD e) :=
    .getD fun _ => orElse_punct?_reads
  have hname (l : Label) := ((memberHead_isOrderly hr _ _ hname).reads_as l).upTo hmark
  split at h
  · simp only [Option.bind_eq_some_iff, Prod.exists] at h
    obtain ⟨ps, f, hps, h⟩ := h
    cases h
    rw [plain_append]
    have hbehind := (signature_reads hr hps).append (bodyOrEnd_reads hr f)
    exact .node ((hname .name).cons hbehind) rfl rfl
  · have hname := (hname .plain).cons (ascription_reads hr _)
    split at h
    next f hf =>
      simp only [Option.bind_eq_some_iff, Prod.exists] at h
      obtain ⟨v, g, hv, h⟩ := h
      cases h
      have hv := (hr _ hv).reads.after (equals?_reads hf)
      have hend : g.Reads [] ((orElse (g.semicolon? true) (g.punct? ",")).getD g) :=
        .getD fun _ => orElse_reads (fun _ => semicolon?_reads) (fun _ => punct?_reads)
      rw [plain_append]
      exact .node ((hname.append hv).upTo hend) rfl trivial
    next =>
      cases h
      exact .node (hname.upTo (.getD fun _ =>
        orElse_reads (fun _ => semicolon?_reads) (fun _ => punct?_reads))) rfl trivial

omit hr in
theorem lone_isOrderly (mark : String) : (lone mark).IsOrderly := by
  intro c t d h
  simp only [lone, Option.bind_eq_bind, Option.bind_eq_some_iff] at h
  obtain ⟨e, hmark, h⟩ := h
  cases h
  exact .node (punct?_reads hmark) rfl trivial

omit hr in
/-- A rule that may have comments in the style of markup in front of it. -/
theorem skipMarkup_isOrderly {rule : Rule} (hrule : rule.IsOrderly) :
    Rule.IsOrderly fun c => rule c.skipMarkup := fun c _ _ h =>
  ⟨(hrule h).isNamed, (hrule h).skip_reads.after c.skip_skipMarkup_reads⟩

include hoperand in
theorem classBody_isOrderly : (classBody rules operand).IsOrderly := by
  intro c t d h
  simp only [classBody, Option.bind_eq_bind, Option.bind_eq_some_iff] at h
  obtain ⟨e, hopen, f, hclose, h⟩ := h
  cases h
  have hmember := either_isOrderly (lone_isOrderly ";")
    (either_isOrderly (decorator_isOrderly hoperand) (either_isOrderly (staticBlock_isOrderly hr)
      (either_isOrderly (indexMember_isOrderly hr) (classField_isOrderly hr))))
  have hmembers := many_reads (skipMarkup_isOrderly hmember) e.fuel e
  have hend := (punct?_reads hclose).after (skipMarkup_reads _)
  exact .node ((hmembers.after (punct?_reads hopen)).upTo hend) rfl trivial

/-! ## Operands -/

omit hr in
theorem wordOperand_isOrderly : Rule.IsOrderly wordOperand := by
  intro c t d h
  simp only [wordOperand, Option.bind_eq_bind, Option.bind_eq_some_iff, Prod.exists] at h
  obtain ⟨b, w, e, hword, h⟩ := h
  split at h
  next kind hkind =>
    cases h
    split_ifs at hkind <;> cases hkind <;> exact word_yields hword rfl trivial
  next => exact innerIdentifier?_isOrderly h

theorem parenthesized_isOrderly : (parenthesized rules).IsOrderly := by
  refine within_isOrderly fun c t d h => ?_
  simp only [Option.bind_eq_bind, Option.bind_eq_some_iff, Prod.exists] at h
  obtain ⟨e, hopen, u, f, hu, h⟩ := h
  cases h
  exact .node ((closed_isOrderly (hr _) hu).reads.after (punct?_reads hopen)) rfl trivial

include hoperand in
theorem primary_isOrderly : (primary rules operand).IsOrderly := by
  intro c t d h
  have hfunction : (functionWith rules .function true).IsOrderly :=
    functionWith_isOrderly hr true rfl fun _ _ _ => trivial
  rw [primary] at h
  split at h
  · cases h
  refine .ite h (fun h => object_isOrderly hr h) fun h => ?_
  refine .ite h (fun h => array_isOrderly hr h) fun h => ?_
  refine .ite h (fun h => parenthesized_isOrderly hr h) fun h => ?_
  refine .ite h (fun h => string_isOrderly h) fun h => ?_
  refine .ite h (fun h => template_isOrderly hr h) fun h => ?_
  refine .ite h (fun h => regex_isOrderly h) fun h => ?_
  refine .ite h (fun h => classWith_isOrderly hr hoperand h) fun h => ?_
  refine .ite h (fun h => memberName_isOrderly hr h) fun h => ?_
  refine .ite h (fun h => number_isOrderly h) fun h => ?_
  refine .ite h (fun h => hfunction h) fun h => ?_
  refine .ite h (fun h => classWith_isOrderly hr hoperand h) fun h => ?_
  refine .ite h (fun h => either_isOrderly hfunction wordOperand_isOrderly h) fun h => ?_
  exact wordOperand_isOrderly h

omit hr in
theorem single_reads {found : Option (Tree × Cursor)}
    (h : found.map (fun r => ([r.1], r.2)) = some (ts, d))
    (hfound : ∀ t, found = some (t, d) → c.Reads [(.plain, t)] d) : c.Reads (plain ts) d := by
  obtain ⟨⟨t, e⟩, hr, h⟩ := Option.map_eq_some_iff.1 h
  cases h
  exact hfound t hr

theorem suffix?_reads (h : suffix? rules c = some (ts, d)) : c.Reads (plain ts) d := by
  have hindex (c : Cursor) (t : Tree) (h : ((c.punct? "[").bind fun d =>
      within true (closed (rules .expression) "]") d) = some (t, d)) :
      c.Reads [(.plain, t)] d := by
    obtain ⟨e, hopen, h⟩ := Option.bind_eq_some_iff.1 h
    exact (within_isOrderly (closed_isOrderly (hr _)) h).reads.after (punct?_reads hopen)
  have hmark (s : String) (h : ((c.punct? s).map fun d => (([] : List Tree), d)) = some (ts, d)) :
      c.Reads (plain ts) d := by
    obtain ⟨e, hmark, h⟩ := Option.map_eq_some_iff.1 h
    cases h
    exact punct?_reads hmark
  simp only [suffix?, Option.bind_eq_bind] at h
  split at h
  · split at h
    · cases h
    obtain ⟨e, hdot, h⟩ := Option.bind_eq_some_iff.1 h
    refine Reads.after ?_ (punct?_reads hdot)
    split at h
    · exact single_reads h fun _ h => (arguments_isOrderly hr h).reads
    · exact single_reads h fun t h => hindex e t h
    · exact single_reads h fun _ h => (template_isOrderly hr h).reads
    · simp only [Option.bind_eq_some_iff, Prod.exists] at h
      obtain ⟨t, f, ht, u, g, hu, h⟩ := h
      cases h
      exact (typeArguments_isOrderly hr ht).reads.append (arguments_isOrderly hr hu).reads
    · simp only [Option.bind_eq_some_iff, Prod.exists] at h
      obtain ⟨t, f, hname, h⟩ := h
      cases h
      exact (memberName_isOrderly hr hname).passes
  · split at h
    · cases h
    simp only [Option.bind_eq_some_iff, Prod.exists] at h
    obtain ⟨e, hdot, t, f, hname, h⟩ := h
    cases h
    exact (memberName_isOrderly hr hname).passes.after (punct?_reads hdot)
  · exact single_reads h fun t h => hindex c t h
  · exact single_reads h fun _ h => (arguments_isOrderly hr h).reads
  · exact single_reads h fun _ h => (template_isOrderly hr h).reads
  · simp only [Option.bind_eq_some_iff, Prod.exists] at h
    obtain ⟨t, e, ht, h⟩ := h
    split at h
    · cases h
      exact (typeArguments_isOrderly hr ht).reads
    · cases h
  · split at h
    · cases h
    · exact hmark "!" h
  · exact hmark "++" h
  · exact hmark "--" h
  · cases h

theorem suffixes_reads (fuel : Nat) (c : Cursor) :
    c.Reads (plain (suffixes rules fuel c).1) (suffixes rules fuel c).2 := by
  induction fuel generalizing c with
  | zero => exact .refl c
  | succ fuel ih =>
    rw [suffixes]
    split
    next => exact .refl c
    next ts d h =>
      split at h
      · cases h
      · rw [plain_append]
        exact (suffix?_reads hr h).append (ih d)

theorem chain_isOrderly (fuel : Nat) : (chain rules fuel).IsOrderly := by
  induction fuel with
  | zero => exact fun c t d h => nomatch h
  | succ fuel ih =>
    intro c t d h
    simp only [chain, Option.bind_eq_bind, Option.bind_eq_some_iff, Prod.exists] at h
    obtain ⟨u, e, hu, h⟩ := h
    have hu := primary_isOrderly hr ih hu
    have hts := suffixes_reads hr e.fuel e
    split at h
    · cases h
      exact hu.of_skip
    · cases h
      exact .node (hu.reads.cons hts) rfl trivial

theorem prefix?_reads (h : prefix? rules c = some (ts, d)) : c.Reads (plain ts) d := by
  rw [prefix?] at h
  split at h
  next e he =>
    cases h
    obtain ⟨m, _, hm⟩ := List.exists_of_findSome?_eq_some he
    exact punct?_reads hm
  next =>
    split at h
    next e he =>
      have htype : (closed (within true (rules .type)) ">").IsOrderly :=
        closed_isOrderly (within_isOrderly (hr _))
      exact single_reads h fun _ ht => (htype ht).reads.after (punct?_reads he)
    next =>
      obtain ⟨e, hword, h⟩ := Option.map_eq_some_iff.1 h
      cases h
      exact keywords?_reads hword

theorem operand_isOrderly (fuel : Nat) : (AgentFlow.Script.operand rules fuel).IsOrderly := by
  induction fuel with
  | zero => exact fun c t d h => nomatch h
  | succ fuel ih =>
    intro c t d h
    simp only [AgentFlow.Script.operand, Option.bind_eq_bind] at h
    split at h
    next r hprefixed =>
      cases h
      simp only [Option.bind_eq_some_iff, Prod.exists] at hprefixed
      obtain ⟨ts, e, hts, u, f, hu, h⟩ := hprefixed
      cases h
      rw [plain_append]
      exact .node ((prefix?_reads hr hts).append (ih hu).reads) rfl trivial
    next => exact (chain_isOrderly hr _ h).of_skip

/-! ## Operators -/

omit hr in
theorem operator?_isPass : IsPass operator? := by
  intro c d h
  rw [operator?] at h
  split at h
  · cases h
  split at h
  next e he =>
    cases h
    obtain ⟨m, _, hm⟩ := List.exists_of_findSome?_eq_some he
    exact punct?_reads hm
  next => exact keywords?_reads h

theorem branches_reads {returnTypes inner : Bool}
    (h : tails.branches rules returnTypes inner c = some (ts, d)) : c.Reads (plain ts) d := by
  simp only [tails.branches, Option.bind_eq_bind, Option.bind_eq_some_iff, Prod.exists] at h
  obtain ⟨t, e, ht, u, f, hu, h⟩ := h
  cases h
  exact (within_isOrderly (closed_isOrderly (hr _)) ht).reads.append (hr _ hu).reads

theorem choice_reads {outer returnTypes : Bool}
    (h : tails.choice rules outer returnTypes c = some (ts, d)) : c.Reads (plain ts) d := by
  rw [tails.choice] at h
  split at h
  next r hr' => cases h; exact branches_reads hr hr'
  next => exact branches_reads hr h

theorem tails_reads (returnTypes : Bool) (fuel : Nat) (c : Cursor) :
    c.Reads (plain (tails rules returnTypes fuel c).1) (tails rules returnTypes fuel c).2 := by
  induction fuel generalizing c with
  | zero => exact .refl c
  | succ fuel ih =>
    rw [tails]
    split
    · exact .refl c
    split
    next d hd =>
      split
      next t e ht => exact (hr _ ht).reads.after (operator?_isPass hd)
      next => exact .refl c
    next =>
      split
      next d hd =>
        split
        next t e ht =>
          have htype := (within_isOrderly (hr _) ht).reads.after (keywords?_reads hd)
          have hsuffixes := suffixes_reads hr e.fuel e
          have hrest := htype.cons (hsuffixes.append (ih _))
          rwa [← plain_append] at hrest
        next => exact .refl c
      next =>
        split
        next d hd =>
          split
          next r hchoice => exact (choice_reads hr hchoice).after (punct?_reads hd)
          next => exact .refl c
        next => exact .refl c

/-! ## Arrow functions -/

theorem arrowHead_reads {returnTypes : Bool}
    (h : arrowHead rules returnTypes c = some (ts, d)) : c.Reads (plain ts) d := by
  rw [arrowHead] at h
  split at h
  next t e he =>
    split at h
    · cases h
      exact (innerIdentifier?_isOrderly he).passes
    · cases h
  next =>
    obtain ⟨e, _, h⟩ := Option.bind_eq_some_iff.1 h
    split at h
    · exact signature_reads hr (Option.filter_eq_some_iff.1 h).1
    · cases h

theorem blockOr_isOrderly {expression : Rule} (hexpression : expression.IsOrderly) :
    (blockOr rules expression).IsOrderly := by
  intro c t d h
  refine .ite h (fun h => ?_) fun h => hexpression h
  exact either_isOrderly (hr _) hexpression h

theorem arrow_isOrderly (returnTypes : Bool) : (arrow rules returnTypes).IsOrderly := by
  intro c t d h
  have hbehind {ps : List Tree} {e : Cursor} (hps : c.skip.Reads (plain ps) e)
      (h : ((e.punct? "=>").bind fun d => (blockOr rules rules.assignment d).bind fun r =>
        some (c.skip.node r.2 .function (plain (ps ++ [r.1])), r.2)) = some (t, d)) :
      c.Yields t d := by
    simp only [Option.bind_eq_some_iff, Prod.exists] at h
    obtain ⟨f, harrow, body, g, hbody, h⟩ := h
    cases h
    have hbody := (blockOr_isOrderly hr (hr _) hbody).reads.after (punct?_reads harrow)
    rw [plain_append]
    exact .node (hps.append hbody) rfl trivial
  simp only [arrow, Option.bind_eq_bind] at h
  split at h
  next r hplain => exact hbehind (arrowHead_reads hr hplain) h
  next =>
    obtain ⟨r, hasync, h⟩ := Option.bind_eq_some_iff.1 h
    obtain ⟨e, hword, hhead⟩ := Option.bind_eq_some_iff.1 hasync
    split at hhead
    · cases hhead
    · exact hbehind ((arrowHead_reads hr hhead).after (keyword?_reads hword)) h

theorem yielded_isOrderly : (yielded rules).IsOrderly := by
  intro c t d h
  simp only [yielded, Option.bind_eq_bind, Option.bind_eq_some_iff] at h
  obtain ⟨e, hword, h⟩ := h
  split at h
  · cases h
  · simp only [Option.bind_eq_some_iff, Prod.exists] at h
    obtain ⟨u, f, hu, h⟩ := h
    cases h
    have hstar : e.Reads [] ((e.punct? "*").getD e) := .getD fun _ => punct?_reads
    exact .node ((hr _ hu).reads.after (hstar.after (keyword?_reads hword))) rfl trivial

theorem destructuring_isOrderly : (destructuring rules).IsOrderly := by
  intro c t d h
  simp only [destructuring, Option.bind_eq_bind, Option.bind_eq_some_iff, Prod.exists] at h
  obtain ⟨u, e, hu, f, hf, v, g, hv, h⟩ := h
  cases h
  have hv := (hr _ hv).reads.after (equals?_reads hf)
  exact .node ((groupPattern_isOrderly hr hu).reads.append hv) rfl trivial

/-! ## Goals -/

theorem operation_isOrderly (returnTypes : Bool) : (operation rules returnTypes).IsOrderly := by
  intro c t d h
  simp only [operation, Option.bind_eq_bind, Option.bind_eq_some_iff, Prod.exists] at h
  obtain ⟨u, e, hu, h⟩ := h
  have hu := operand_isOrderly hr _ hu
  have hts := tails_reads hr returnTypes e.fuel e
  split at h
  · cases h
    exact hu.of_skip
  · cases h
    exact .node (hu.reads.cons hts) rfl trivial

theorem assignmentRule_isOrderly (returnTypes : Bool) :
    (assignmentRule rules returnTypes).IsOrderly := by
  intro c t d h
  rw [assignmentRule] at h
  have hb : c.skipMarkup.skip.Yields t d := by
    split at h
    next r hfirst =>
      cases h
      refine .ite hfirst (fun h => ?_) fun h => .ite h (fun h => ?_) fun h => nomatch h
      · exact either_isOrderly (yielded_isOrderly hr) (arrow_isOrderly hr returnTypes) h
      · exact destructuring_isOrderly hr h
    next => exact operation_isOrderly hr returnTypes h
  exact hb.after c.skip_skipMarkup_reads

theorem expressionRule_isOrderly : (expressionRule rules).IsOrderly := by
  intro c t d h
  simp only [expressionRule, Option.bind_eq_bind, Option.bind_eq_some_iff, Prod.exists] at h
  obtain ⟨u, e, hu, h⟩ := h
  split at h
  next =>
    cases h
    exact (hr _ hu).of_skip
  next f hf =>
    simp only [Option.bind_eq_some_iff, Prod.exists] at h
    obtain ⟨v, g, hv, h⟩ := h
    cases h
    have hv := (hr _ hv).reads.after (punct?_reads hf)
    exact .node ((hr _ hu).reads.append hv) rfl trivial

theorem patternRule_isOrderly : (patternRule rules).IsOrderly := by
  intro c t d h
  rw [patternRule] at h
  split at h
  next r hgroup => cases h; exact groupPattern_isOrderly hr hgroup
  next => exact chain_isOrderly hr _ h

/-- A parameter behind its decorators. -/
theorem parameter_isOrderly : Rule.IsOrderly (fun c => do
    let b := c.skip
    let (marks, d) := many (decorator (chain rules b.fuel)) b.fuel b
    let (t, e) ← parameterCore rules 6 d
    some (if marks.isEmpty then t else b.node e .other (plain (marks ++ [t])), e)) := by
  intro c t d h
  simp only [Option.bind_eq_bind, Option.bind_eq_some_iff, Prod.exists] at h
  obtain ⟨u, e, hu, h⟩ := h
  have hmark := decorator_isOrderly (chain_isOrderly hr c.skip.fuel)
  have hmarks := many_reads hmark c.skip.fuel c.skip
  have hu := parameterCore_isOrderly hr _ hu
  cases h
  split
  next hnone =>
    rw [List.isEmpty_iff.1 hnone] at hmarks
    exact hu.after hmarks
  next =>
    rw [plain_append]
    exact .node (hmarks.append hu.reads) rfl trivial

theorem parametersRule_isOrderly : (parametersRule rules).IsOrderly := by
  intro c t d h
  simp only [parametersRule, Option.bind_eq_bind, Option.bind_eq_some_iff] at h
  obtain ⟨e, hopen, f, hclose, h⟩ := h
  cases h
  have hitems := (commas_reads (parameter_isOrderly hr) e.fuel e).after (punct?_reads hopen)
  exact .node (hitems.upTo (punct?_reads hclose)) rfl trivial

end

end AgentFlow.Script
