import AgentFlow.Proofs.Script.Layout.Type
import AgentFlow.Script.Grammar.Statement

/-!
# Readings of statements

The rules of declarations, of imports and exports, and of control flow, one by one. An export is
one node from its decorators on; the rules for what follows its keyword get the cursor at its start.

* `declaration_isOrderly`, `exportStatement_isOrderly`, `statementRule_isOrderly`,
  `blockRule_isOrderly`: the statements.
-/

namespace AgentFlow.Script

open Cursor

variable {c d : Cursor} {t : Tree} {ts : List Tree} {rule : Rule}

theorem ended_isOrderly (hrule : rule.IsOrderly) : (ended rule).IsOrderly := by
  intro c t d h
  simp only [ended, Option.bind_eq_bind, Option.bind_eq_some_iff, Prod.exists] at h
  obtain ⟨u, e, hu, f, hend, h⟩ := h
  cases h
  exact (hrule hu).upTo (semicolon?_reads hend)

variable {rules : Rules} (hr : rules.AreOrderly)

include hr

/-! ## Declarations -/

theorem interface_isOrderly : (interface rules).IsOrderly := by
  intro c t d h
  simp only [interface, Option.bind_eq_bind, Option.bind_eq_some_iff, Prod.exists] at h
  obtain ⟨e, hword, b, w, f, hname, body, g, hbody, h⟩ := h
  cases h
  have hname := (word?_reads hname).after (keyword?_reads hword)
  have hparams := (optional_reads (typeParameters_isOrderly hr) f).after hname
  have hhead := hparams.append (typeList_reads hr "extends" _)
  rw [plain_append, plain_append]
  exact .node (hhead.append (objectType_isOrderly hr hbody).reads) rfl trivial

theorem typeAlias_isOrderly : (typeAlias rules).IsOrderly := by
  intro c t d h
  simp only [typeAlias, Option.bind_eq_bind, Option.bind_eq_some_iff, Prod.exists] at h
  obtain ⟨e, hword, b, w, f, hname, g, hequals, u, i, hu, j, hend, h⟩ := h
  cases h
  have hname := (word?_reads hname).after (keyword?_reads hword)
  have hparams := (optional_reads (typeParameters_isOrderly hr) f).after hname
  have hhead := hparams.upTo (equals?_reads hequals)
  rw [plain_append]
  exact .node ((hhead.append (hr _ hu).reads).upTo (semicolon?_reads hend)) rfl trivial

theorem bindingName_isOrderly : (bindingName rules).IsOrderly := by
  refine either_isOrderly (groupPattern_isOrderly hr) fun c t d h => ?_
  simp only [Option.bind_eq_bind, Option.bind_eq_some_iff, Prod.exists] at h
  obtain ⟨b, w, e, hword, h⟩ := h
  cases h
  exact word_yields hword rfl trivial

theorem declaredValue_reads {fuel : Nat} {vs : List Tree} {v : Tree}
    (h : declaredValue rules fuel c = some (vs, v, d)) :
    c.Reads (plain vs ++ [(.value, v)]) d := by
  induction fuel generalizing c vs with
  | zero => cases h
  | succ fuel ih =>
    simp only [declaredValue, Option.bind_eq_bind, Option.bind_eq_some_iff, Prod.exists] at h
    obtain ⟨u, e, hu, h⟩ := h
    have hu := hr _ hu
    split at h
    · cases h
      exact hu.reads_as .value
    split at h
    next ws w f hrest =>
      obtain ⟨_, _, hrest⟩ := Option.bind_eq_some_iff.1 hrest
      split at h
      · cases h
        exact hu.reads.cons (ih hrest)
      · cases h
        exact hu.reads_as .value
    next =>
      cases h
      exact hu.reads_as .value

theorem declarator_isOrderly : (declarator rules).IsOrderly := by
  intro c t d h
  simp only [declarator, Option.bind_eq_bind, Option.bind_eq_some_iff, Prod.exists] at h
  obtain ⟨name, e, hname, h⟩ := h
  have hmark : e.Reads [] ((e.punct? "!").getD e) := .getD fun _ => punct?_reads
  have hname := ((bindingName_isOrderly hr hname).reads_as .name).cons
    ((ascription_reads hr _).after hmark)
  split at h
  next f hf =>
    simp only [Option.bind_eq_some_iff, Prod.exists] at h
    obtain ⟨vs, v, g, hv, h⟩ := h
    cases h
    have hread := hname.append ((declaredValue_reads hr hv).after (equals?_reads hf))
    exact .node (hread.congr (by simp)) rfl trivial
  next =>
    cases h
    exact .node hname rfl trivial

theorem declarators_reads {fuel : Nat} (h : declarators rules fuel c = some (ts, d)) :
    c.Reads (plain ts) d := by
  induction fuel generalizing c ts with
  | zero => cases h
  | succ fuel ih =>
    simp only [declarators, Option.bind_eq_bind, Option.bind_eq_some_iff, Prod.exists] at h
    obtain ⟨t, e, ht, h⟩ := h
    have ht := (declarator_isOrderly hr ht).reads
    split at h
    next f hf =>
      simp only [Option.bind_eq_some_iff, Prod.exists] at h
      obtain ⟨us, g, hus, h⟩ := h
      cases h
      exact ht.cons ((ih hus).after (punct?_reads hf))
    next =>
      cases h
      exact ht

theorem variableList_isOrderly : (variableList rules).IsOrderly := by
  intro c t d h
  simp only [variableList, Option.bind_eq_bind, Option.bind_eq_some_iff, Prod.exists] at h
  obtain ⟨e, hword, ts, f, hts, h⟩ := h
  cases h
  exact .node ((declarators_reads hr hts).after (keywords?_reads hword)) rfl trivial

theorem variableDeclaration_isOrderly : (variableDeclaration rules).IsOrderly := by
  intro c t d h
  simp only [variableDeclaration, Option.bind_eq_bind, Option.bind_eq_some_iff, Prod.exists] at h
  obtain ⟨u, e, hu, f, hend, h⟩ := h
  cases h
  exact (variableList_isOrderly hr hu).upTo (semicolon?_reads hend)

theorem enumMember_isOrderly : (enumMember rules).IsOrderly := by
  intro c t d h
  simp only [enumMember, Option.bind_eq_bind, Option.bind_eq_some_iff, Prod.exists] at h
  obtain ⟨name, e, hname, h⟩ := h
  have hname := (memberName_isOrderly hr hname).reads
  split at h
  next f hf =>
    simp only [Option.bind_eq_some_iff, Prod.exists] at h
    obtain ⟨v, g, hv, h⟩ := h
    cases h
    exact .node (hname.append ((hr _ hv).reads.after (equals?_reads hf))) rfl trivial
  next =>
    cases h
    exact .node hname rfl trivial

theorem enumeration_isOrderly : (enumeration rules).IsOrderly := by
  intro c t d h
  simp only [enumeration, Option.bind_eq_bind, Option.bind_eq_some_iff, Prod.exists] at h
  obtain ⟨e, hword, b, w, f, hname, g, hopen, i, hclose, h⟩ := h
  cases h
  have hconst : c.skip.Reads [] ((c.skip.keyword? "const").getD c.skip) :=
    .getD fun _ => keyword?_reads
  have hname := (word?_reads hname).after ((keyword?_reads hword).after hconst)
  have hmember : Rule.IsOrderly (within true (enumMember rules)) :=
    within_isOrderly (enumMember_isOrderly hr)
  have hmembers := commas_reads hmember g.fuel g
  exact .node ((hmembers.after ((punct?_reads hopen).after hname)).upTo (punct?_reads hclose)) rfl
    trivial

omit hr in
/-- The name of a module, if it has one. -/
theorem moduleName_reads (c : Cursor) : c.Reads [] (match string? c with
    | some (_, d) => d
    | none =>
      match c.word? with
      | some (_, _, d) => passDotted d.fuel d
      | none => c) := by
  split
  next t d ht => exact (string_isOrderly ht).passes
  next =>
    split
    next b w d hword => exact (passDotted_reads _ d).after (word?_reads hword)
    next => exact .refl c

theorem moduleBlock_isOrderly : (moduleBlock rules).IsOrderly := by
  intro c t d h
  simp only [moduleBlock, Option.bind_eq_bind, Option.bind_eq_some_iff] at h
  obtain ⟨e, hword, h⟩ := h
  have he := (moduleName_reads e).after (keywords?_reads hword)
  split at h
  next u f hu =>
    cases h
    exact .node ((hr _ hu).reads.after he) rfl trivial
  next =>
    obtain ⟨_, h⟩ := Option.ite_none_left_eq_some.1 h
    obtain ⟨f, hend, h⟩ := Option.map_eq_some_iff.1 h
    cases h
    exact leaf_yields ((semicolon?_reads hend).after he)

theorem declaration_isOrderly : (declaration rules).IsOrderly := by
  intro c t d h
  have hclass (fuel : Nat) : (classWith rules (chain rules fuel)).IsOrderly :=
    classWith_isOrderly hr (chain_isOrderly hr fuel)
  have hfunction : (functionWith rules .other false).IsOrderly :=
    functionWith_isOrderly hr false rfl fun _ _ _ => trivial
  have hvariable := variableDeclaration_isOrderly hr
  have hmodule := moduleBlock_isOrderly hr
  simp only [declaration, Option.bind_eq_bind] at h
  refine .ite h (fun h => (either_isOrderly (enumeration_isOrderly hr) hvariable h).of_skip)
    fun h => ?_
  refine .ite h (fun h => (hvariable h).of_skip) fun h => ?_
  refine .ite h (fun h => (hfunction h).of_skip) fun h => ?_
  refine .ite h (fun h => (hfunction h).of_skip) fun h => ?_
  refine .ite h (fun h => (hclass _ h).of_skip) fun h => ?_
  refine .ite h (fun h => (hclass _ h).of_skip) fun h => ?_
  refine .ite h (fun h => (enumeration_isOrderly hr h).of_skip) fun h => ?_
  refine .ite h (fun h => (interface_isOrderly hr h).of_skip) fun h => ?_
  refine .ite h (fun h => (typeAlias_isOrderly hr h).of_skip) fun h => ?_
  refine .ite h (fun h => (hmodule h).of_skip) fun h => ?_
  refine .ite h (fun h => ?_) fun h => .ite h (fun h => (hclass _ h).of_skip) fun h => nomatch h
  obtain ⟨e, hword, h⟩ := Option.bind_eq_some_iff.1 h
  split at h
  · cases h
  · simp only [Option.bind_eq_some_iff, Prod.exists] at h
    obtain ⟨u, f, hu, h⟩ := h
    cases h
    have hu := (either_isOrderly hmodule (hr _) hu).reads
    exact .node (hu.after (keyword?_reads hword)) rfl trivial

/-! ## Imports -/

theorem importAttributes_reads (c : Cursor) :
    c.Reads (plain (importAttributes rules c).1) (importAttributes rules c).2 := by
  rw [importAttributes]
  split
  next d hd => exact (optional_reads (hr _) d).after (keywords?_reads hd)
  next => exact .refl c

/-- A string literal with attributes behind it. -/
theorem source_reads (h : ((string? c).bind fun r =>
      some (r.1 :: (importAttributes rules r.2).1, (importAttributes rules r.2).2)) =
      some (ts, d)) : c.Reads (plain ts) d := by
  simp only [Option.bind_eq_some_iff, Prod.exists] at h
  obtain ⟨t, e, ht, h⟩ := h
  cases h
  exact (string_isOrderly ht).reads.cons (importAttributes_reads hr e)

theorem fromClause_reads (h : fromClause rules c = some (ts, d)) : c.Reads (plain ts) d := by
  obtain ⟨e, hword, h⟩ := Option.bind_eq_some_iff.1 h
  exact (source_reads hr h).after (keyword?_reads hword)

omit hr in
/-- The names that an import binds between braces or behind an asterisk, if it does. -/
theorem importNames_reads (c : Cursor) : c.Reads [] (match nameList c with
    | some d => d
    | none =>
      match (c.punct? "*").bind fun d => (d.keyword? "as").bind fun e =>
        e.word?.map (·.2.2) with
      | some d => d
      | none => c) := by
  split
  next d hd => exact enclosed?_reads hd
  next =>
    split
    next d h =>
      simp only [Option.bind_eq_some_iff, Option.map_eq_some_iff, Prod.exists] at h
      obtain ⟨e, hstar, f, hword, b, w, g, hname, rfl⟩ := h
      exact (word?_reads hname).after ((keyword?_reads hword).after (punct?_reads hstar))
    next => exact .refl c

omit hr in
/-- The name that an import binds on its own, if it does. -/
theorem importDefault_reads (c : Cursor) : c.Reads [] (match c.word? with
    | some (_, _, d) => (d.punct? ",").getD d
    | none => c) := by
  split
  next b w d hword => exact (Reads.getD fun _ => punct?_reads).after (word?_reads hword)
  next => exact .refl c

omit hr in
theorem passImportClause_reads (c : Cursor) : c.Reads [] (passImportClause c) :=
  (importNames_reads _).after (importDefault_reads c)

theorem importStatement_isOrderly : (importStatement rules).IsOrderly := by
  intro c t d h
  have hclause (d e : Cursor) (ts : List Tree)
      (h : fromClause rules (passImportClause d) = some (ts, e)) : d.Reads (plain ts) e :=
    (fromClause_reads hr h).after (passImportClause_reads d)
  have hassigned (d e : Cursor) (ts : List Tree) (h : (d.word?.bind fun r =>
      r.2.2.equals?.bind fun f => (rules.assignment f).bind fun s => some ([s.1], s.2)) =
      some (ts, e)) : d.Reads (plain ts) e := by
    simp only [Option.bind_eq_some_iff, Prod.exists] at h
    obtain ⟨b, w, f, hname, g, hg, t, i, ht, h⟩ := h
    cases h
    exact (hr _ ht).reads.after ((equals?_reads hg).after (word?_reads hname))
  simp only [importStatement, Option.bind_eq_bind] at h
  obtain ⟨e, hword, h⟩ := Option.bind_eq_some_iff.1 h
  obtain ⟨⟨ts, f⟩, hfound, h⟩ := Option.bind_eq_some_iff.1 h
  obtain ⟨g, hend, h⟩ := Option.bind_eq_some_iff.1 h
  cases h
  obtain ⟨found, hmem, hfound⟩ := List.exists_of_findSome?_eq_some hfound
  have hts : e.Reads (plain ts) f := by
    simp only [List.mem_cons, List.not_mem_nil, or_false] at hmem
    rcases hmem with rfl | rfl | rfl | rfl | rfl
    · exact source_reads hr hfound
    · exact hclause e f ts hfound
    · obtain ⟨i, htype, h⟩ := Option.bind_eq_some_iff.1 hfound
      exact (hclause i f ts h).after (keyword?_reads htype)
    · exact hassigned e f ts hfound
    · obtain ⟨i, htype, h⟩ := Option.bind_eq_some_iff.1 hfound
      exact (hassigned i f ts h).after (keyword?_reads htype)
  exact .node ((hts.upTo (semicolon?_reads hend)).after (keyword?_reads hword)) rfl trivial

/-! ## Exports -/

omit hr in
theorem exportEnd?_isPass : IsPass exportEnd? := by
  intro c d h
  rw [exportEnd?] at h
  split at h
  next e he => cases h; exact punct?_reads he
  next =>
    split at h
    · cases h
      exact c.skipLine_reads
    · cases h

/-- Whether what a rule reads behind the keyword of an export is an export from a cursor on. -/
def ReadsExport (b : Cursor) (rule : Rule) : Prop :=
  ∀ ⦃c t d⦄, rule c = some (t, d) → ∃ cs, t = b.node d .exportStatement cs ∧ c.Reads cs d

variable {b : Cursor}

omit hr in
theorem either_readsExport {first second : Rule} (hfirst : ReadsExport b first)
    (hsecond : ReadsExport b second) : ReadsExport b (either first second) := by
  intro c t d h
  rw [either] at h
  split at h
  next r hr => cases h; exact hfirst hr
  next => exact hsecond h

theorem exportAssignment_readsExport : ReadsExport b (exportAssignment rules b) := by
  intro c t d h
  simp only [exportAssignment, Option.bind_eq_bind, Option.bind_eq_some_iff, Prod.exists] at h
  obtain ⟨e, he, u, f, hu, g, hend, h⟩ := h
  cases h
  have hequals : c.skip.Reads [(.plain, c.skip.node e .equals [])] e :=
    (skip_equals?_reads he).node trivial
  have hvalue := (hr _ hu).reads.upTo (exportEnd?_isPass hend)
  exact ⟨_, rfl, (hequals.append hvalue).after c.skip_reads⟩

theorem exportDefault_readsExport : ReadsExport b (exportDefault rules b) := by
  intro c t d h
  simp only [exportDefault, Option.bind_eq_bind, Option.bind_eq_some_iff] at h
  obtain ⟨e, hword, h⟩ := h
  split at h
  next u f hdeclared =>
    cases h
    split at hdeclared
    · have hu := declaration_isOrderly hr hdeclared
      exact ⟨_, rfl, hu.reads.after (keyword?_reads hword)⟩
    · cases hdeclared
  next =>
    simp only [Option.bind_eq_some_iff, Prod.exists] at h
    obtain ⟨u, f, hu, g, hend, h⟩ := h
    cases h
    have hu := ((hr _ hu).reads_as .value).upTo (exportEnd?_isPass hend)
    exact ⟨_, rfl, hu.after (keyword?_reads hword)⟩

theorem exportNames_readsExport : ReadsExport b (exportNames rules b) := by
  intro c t d h
  have htype : c.Reads [] ((c.keyword? "type").getD c) := .getD fun _ => keyword?_reads
  have hbehind {e : Cursor} (he : ((c.keyword? "type").getD c).Reads [] e)
      (h : ((((fromClause rules e).getD ([], e)).2.semicolon? false).bind fun f =>
        some (b.node f .exportStatement (plain ((fromClause rules e).getD ([], e)).1), f)) =
        some (t, d)) : ∃ cs, t = b.node d .exportStatement cs ∧ c.Reads cs d := by
    obtain ⟨f, hend, h⟩ := Option.bind_eq_some_iff.1 h
    cases h
    refine ⟨_, rfl, (Reads.upTo ?_ (semicolon?_reads hend)).after (he.after htype)⟩
    cases hfrom : fromClause rules e with
    | none => exact .refl e
    | some r => exact fromClause_reads hr hfrom
  simp only [exportNames, Option.bind_eq_bind] at h
  split at h
  next e hstar =>
    split at h
    next f hf =>
      obtain ⟨g, hname, h⟩ := Option.bind_eq_some_iff.1 h
      obtain ⟨⟨u, g⟩, hu, rfl⟩ := Option.map_eq_some_iff.1 hname
      have hu := (either_isOrderly string_isOrderly anyName?_isOrderly hu).passes
      exact hbehind (hu.after ((keyword?_reads hf).after (punct?_reads hstar))) h
    next => exact hbehind (punct?_reads hstar) h
  next =>
    obtain ⟨e, hnames, h⟩ := Option.bind_eq_some_iff.1 h
    exact hbehind (enclosed?_reads hnames) h

omit hr in
theorem exportNamespace_readsExport : ReadsExport b (exportNamespace b) := by
  intro c t d h
  simp only [exportNamespace, Option.bind_eq_bind, Option.bind_eq_some_iff, Prod.exists] at h
  obtain ⟨e, has, f, hnamespace, _, w, g, hname, i, hend, h⟩ := h
  cases h
  have hname := (word?_reads hname).after ((keyword?_reads hnamespace).after (keyword?_reads has))
  exact ⟨[], rfl, (semicolon?_reads hend).after hname⟩

theorem exportDeclaration_readsExport : ReadsExport b (exportDeclaration rules b) := by
  intro c t d h
  simp only [exportDeclaration, Option.bind_eq_bind, Option.bind_eq_some_iff, Prod.exists] at h
  obtain ⟨u, e, hu, h⟩ := h
  cases h
  have hu := either_isOrderly (declaration_isOrderly hr) (importStatement_isOrderly hr) hu
  exact ⟨_, rfl, hu.reads⟩

theorem exportStatement_isOrderly : (exportStatement rules).IsOrderly := by
  intro c t d h
  simp only [exportStatement, Option.bind_eq_bind, Option.bind_eq_some_iff, Prod.exists] at h
  obtain ⟨e, hword, u, f, hu, h⟩ := h
  have hmark := decorator_isOrderly (chain_isOrderly hr c.skip.fuel)
  have hmarks := many_reads hmark c.skip.fuel c.skip
  have hexport : ReadsExport c.skip _ := either_readsExport (exportDefault_readsExport hr)
    (either_readsExport (exportAssignment_readsExport hr)
      (either_readsExport (exportNames_readsExport hr)
        (either_readsExport exportNamespace_readsExport (exportDeclaration_readsExport hr))))
  obtain ⟨cs, rfl, hcs⟩ := hexport hu
  have hcs := hcs.after (keyword?_reads hword)
  split at h
  next hnone =>
    cases h
    rw [List.isEmpty_iff.1 hnone] at hmarks
    exact .node (hcs.after hmarks) rfl trivial
  next =>
    cases h
    exact .node (hmarks.append hcs) rfl trivial

/-! ## Control flow -/

theorem ifStatement_isOrderly : (ifStatement rules).IsOrderly := by
  intro c t d h
  simp only [ifStatement, Option.bind_eq_bind, Option.bind_eq_some_iff, Prod.exists] at h
  obtain ⟨e, hword, u, f, hu, v, g, hv, h⟩ := h
  have htest := (parenthesized_isOrderly hr hu).reads.after (keyword?_reads hword)
  have hthen := htest.append (hr _ hv).reads
  split at h
  next i hi =>
    simp only [Option.bind_eq_some_iff, Prod.exists] at h
    obtain ⟨w, j, hw, h⟩ := h
    cases h
    exact .node (hthen.append ((hr _ hw).reads.after (keyword?_reads hi))) rfl trivial
  next =>
    cases h
    exact .node hthen rfl trivial

theorem forEachHead_isOrderly : (forEachHead rules).IsOrderly := by
  intro c t d h
  simp only [forEachHead, Option.bind_eq_bind, Option.bind_eq_some_iff, Prod.exists] at h
  obtain ⟨u, e, hu, f, hword, v, g, hv, h⟩ := h
  cases h
  have hdeclared : c.skip.Reads [] ((c.skip.keywords? variableWords).getD c.skip) :=
    .getD fun _ => keywords?_reads
  have hv := (closed_isOrderly (hr _) hv).reads.after (keywords?_reads hword)
  exact .node (((hr _ hu).reads.after hdeclared).append hv) rfl trivial

theorem forHead_isOrderly : (forHead rules).IsOrderly := by
  intro c t d h
  simp only [forHead, Option.bind_eq_bind, Option.bind_eq_some_iff] at h
  obtain ⟨e, hfirst, f, hsecond, g, hclose, h⟩ := h
  cases h
  have hvariables := either_isOrderly (variableList_isOrderly hr) (hr .expression)
  have hstart := (optional_reads hvariables c.skip).upTo (punct?_reads hfirst)
  have htest := (optional_reads (hr .expression) e).upTo (punct?_reads hsecond)
  have hstep := (optional_reads (hr .expression) f).upTo (punct?_reads hclose)
  rw [plain_append, plain_append]
  exact .node ((hstart.append htest).append hstep) rfl trivial

theorem forStatement_isOrderly : (forStatement rules).IsOrderly := by
  intro c t d h
  simp only [forStatement, Option.bind_eq_bind, Option.bind_eq_some_iff, Prod.exists] at h
  obtain ⟨e, hword, f, hopen, u, g, hu, v, i, hv, h⟩ := h
  cases h
  have hawait : e.Reads [] ((e.keyword? "await").getD e) := .getD fun _ => keyword?_reads
  have hopen := (punct?_reads hopen).after (hawait.after (keyword?_reads hword))
  have hheads := either_isOrderly (forEachHead_isOrderly hr) (forHead_isOrderly hr)
  exact .node (((within_isOrderly hheads hu).reads.after hopen).append (hr _ hv).reads) rfl trivial

theorem whileStatement_isOrderly : (whileStatement rules).IsOrderly := by
  intro c t d h
  simp only [whileStatement, Option.bind_eq_bind, Option.bind_eq_some_iff, Prod.exists] at h
  obtain ⟨e, hword, u, f, hu, v, g, hv, h⟩ := h
  cases h
  have htest := (parenthesized_isOrderly hr hu).reads.after (keywords?_reads hword)
  exact .node (htest.append (hr _ hv).reads) rfl trivial

theorem doStatement_isOrderly : (doStatement rules).IsOrderly := by
  intro c t d h
  simp only [doStatement, Option.bind_eq_bind, Option.bind_eq_some_iff, Prod.exists] at h
  obtain ⟨e, hword, u, f, hu, g, hwhile, v, i, hv, h⟩ := h
  cases h
  have hbody := (hr _ hu).reads.after (keyword?_reads hword)
  have htest := (parenthesized_isOrderly hr hv).reads.after (keyword?_reads hwhile)
  have hend : i.Reads [] ((i.punct? ";").getD i) := .getD fun _ => punct?_reads
  exact .node ((hbody.append htest).upTo hend) rfl trivial

theorem caseClause_isOrderly : (caseClause rules).IsOrderly := by
  intro c t d h
  have hbehind {test : List Tree} {e : Cursor} (htest : c.skip.Reads (plain test) e)
      (h : ((e.punct? ":").bind fun f => some
        (c.skip.node (many (rules .statement) f.fuel f).2 .other
          (plain (test ++ (many (rules .statement) f.fuel f).1)),
          (many (rules .statement) f.fuel f).2)) = some (t, d)) : c.Yields t d := by
    obtain ⟨f, hcolon, h⟩ := Option.bind_eq_some_iff.1 h
    cases h
    rw [plain_append]
    have hbody := (many_reads (hr .statement) f.fuel f).after (punct?_reads hcolon)
    exact .node (htest.append hbody) rfl trivial
  simp only [caseClause, Option.bind_eq_bind] at h
  split at h
  next e hword =>
    obtain ⟨⟨u, f⟩, hu, h⟩ := Option.bind_eq_some_iff.1 h
    have htest : c.skip.Reads (plain [u]) f := (hr _ hu).reads.after (keyword?_reads hword)
    exact hbehind htest h
  next =>
    obtain ⟨e, hword, h⟩ := Option.bind_eq_some_iff.1 h
    have htest : c.skip.Reads (plain []) e := keyword?_reads hword
    exact hbehind htest h

theorem switchStatement_isOrderly : (switchStatement rules).IsOrderly := by
  intro c t d h
  simp only [switchStatement, Option.bind_eq_bind, Option.bind_eq_some_iff, Prod.exists] at h
  obtain ⟨e, hword, u, f, hu, g, hopen, i, hclose, h⟩ := h
  cases h
  have htest := (parenthesized_isOrderly hr hu).reads.after (keyword?_reads hword)
  have hcases := many_reads (skipMarkup_isOrderly (caseClause_isOrderly hr)) g.fuel g
  have hend := (punct?_reads hclose).after (skipMarkup_reads _)
  exact .node ((htest.upTo (punct?_reads hopen)).cons (hcases.upTo hend)) rfl trivial

theorem caught_isOrderly : (caught rules).IsOrderly := by
  intro c t d h
  simp only [caught, Option.bind_eq_bind, Option.bind_eq_some_iff, Prod.exists] at h
  obtain ⟨e, hopen, u, f, hu, g, hclose, h⟩ := h
  cases h
  have hbound := ((hr _ hu).reads.cons (ascription_reads hr f)).after (punct?_reads hopen)
  exact .node (hbound.upTo (punct?_reads hclose)) rfl trivial

theorem handler_isOrderly : (handler rules).IsOrderly := by
  intro c t d h
  simp only [handler, Option.bind_eq_bind, Option.bind_eq_some_iff, Prod.exists] at h
  obtain ⟨e, hword, u, f, hu, h⟩ := h
  cases h
  have hbound := (optional_reads (caught_isOrderly hr) e).after (keyword?_reads hword)
  rw [plain_append]
  exact .node (hbound.append (hr _ hu).reads) rfl trivial

theorem tryStatement_isOrderly : (tryStatement rules).IsOrderly := by
  intro c t d h
  simp only [tryStatement, Option.bind_eq_bind, Option.bind_eq_some_iff, Prod.exists] at h
  obtain ⟨e, hword, u, f, hu, h⟩ := h
  cases h
  have hbody := (hr _ hu).reads.after (keyword?_reads hword)
  have hhandler := optional_reads (handler_isOrderly hr) f
  have hfinal := optional_reads (keyword_isOrderly "finally" .refl (hr .block))
  rw [plain_append]
  exact .node ((hbody.cons hhandler).append (hfinal _)) rfl trivial

theorem leaveStatement_isOrderly : (leaveStatement rules).IsOrderly := by
  intro c t d h
  simp only [leaveStatement, Option.bind_eq_bind, Option.bind_eq_some_iff] at h
  obtain ⟨e, hword, f, hend, h⟩ := h
  cases h
  have hvalue : e.Reads
      (plain (if e.looksAt ";" || e.endsStatement false then ([], e)
        else optional (rules .expression) e).1)
      (if e.looksAt ";" || e.endsStatement false then ([], e)
        else optional (rules .expression) e).2 := by
    split
    · exact .refl e
    · exact optional_reads (hr _) e
  exact .node ((hvalue.after (keywords?_reads hword)).upTo (semicolon?_reads hend)) rfl trivial

theorem labelled_isOrderly : (labelled rules).IsOrderly := by
  intro c t d h
  simp only [labelled, Option.bind_eq_bind, Option.bind_eq_some_iff, Prod.exists] at h
  obtain ⟨u, e, hu, f, hcolon, v, g, hv, h⟩ := h
  cases h
  have hname := (punct?_reads hcolon).after (identifier?_isOrderly hu).passes
  exact .node ((hr _ hv).reads.after hname) rfl trivial

theorem expressionStatement_isOrderly : (expressionStatement rules).IsOrderly := by
  intro c t d h
  simp only [expressionStatement, Option.bind_eq_bind, Option.bind_eq_some_iff, Prod.exists] at h
  obtain ⟨u, e, hu, h⟩ := h
  cases h
  exact .node (ended_isOrderly (hr _) hu).reads rfl trivial

theorem wordStatements_areOrderly : ∀ s ∈ wordStatements, (s.2 rules).IsOrderly := by
  have hleave := leaveStatement_isOrderly hr
  have hwhile := whileStatement_isOrderly hr
  simp only [wordStatements, List.forall_mem_cons]
  exact ⟨ifStatement_isOrderly hr, forStatement_isOrderly hr, hwhile, hwhile,
    doStatement_isOrderly hr, switchStatement_isOrderly hr, tryStatement_isOrderly hr, hleave,
    hleave, hleave, hleave, hleave, importStatement_isOrderly hr, exportStatement_isOrderly hr,
    fun _ h => nomatch h⟩

theorem statementRule_isOrderly : (statementRule rules).IsOrderly := by
  intro c t d h
  rw [statementRule] at h
  have hexpression := expressionStatement_isOrderly hr
  have hdeclaration := declaration_isOrderly hr
  have hb : c.skipMarkup.skip.Yields t d := by
    refine .ite h (fun h => lone_isOrderly ";" h) fun h => .ite h (fun h => ?_) fun h => ?_
    · have horder (p : Bool) :
          let rules := if p then (expressionStatement rules, rules .block)
            else (rules .block, expressionStatement rules)
          rules.1.IsOrderly ∧ rules.2.IsOrderly := by
        cases p
        · exact ⟨hr _, hexpression⟩
        · exact ⟨hexpression, hr _⟩
      exact either_isOrderly (horder _).1 (horder _).2 h
    · refine .orElse h (fun h => ?_) fun h => .ite h (fun h => nomatch h) fun h => hexpression h
      split at h
      next w rule hfound =>
        exact wordStatements_areOrderly hr _ (List.mem_of_find?_eq_some hfound) h
      next =>
        refine .ite h (fun h => ?_) fun h => ?_
        · exact either_isOrderly (exportStatement_isOrderly hr) hdeclaration h
        · exact either_isOrderly hdeclaration (labelled_isOrderly hr) h
  exact ⟨hb.isNamed, hb.reads.after c.skip_skipMarkup_reads⟩

theorem blockRule_isOrderly : (blockRule rules).IsOrderly := by
  intro c t d h
  simp only [blockRule, Option.bind_eq_bind, Option.bind_eq_some_iff] at h
  obtain ⟨e, hopen, f, hclose, h⟩ := h
  cases h
  have hend := (punct?_reads hclose).after (skipMarkup_reads _)
  have hstatements := (many_reads (hr .statement) e.fuel e).after (punct?_reads hopen)
  exact .node (hstatements.upTo hend) rfl trivial

end AgentFlow.Script
