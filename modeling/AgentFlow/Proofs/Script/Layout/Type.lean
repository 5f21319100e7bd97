import AgentFlow.Proofs.Script.Layout.Expression
import AgentFlow.Script.Grammar.Type

/-!
# Readings of types

The rules of types one by one, given that the readers of all goals are orderly. What a bracket of a
type is passed for is one node without parts.

* `tuple_isOrderly`, `functionType_isOrderly`, `objectType_isOrderly`: types between brackets.
* `typeName_isOrderly`, `typeOperand_isOrderly`, `typeRule_isOrderly`: the types.
-/

namespace AgentFlow.Script

open Cursor

variable {c d : Cursor} {ts : List Tree} {rule : Rule}
variable {rules : Rules} (hr : rules.AreOrderly)

section

include hr

/-! ## Brackets -/

theorem tupleItem_isOrderly : (tupleItem rules).IsOrderly := by
  intro c t d h
  simp only [tupleItem, Option.bind_eq_bind, Option.bind_eq_some_iff, Prod.exists] at h
  obtain ⟨u, e, hu, h⟩ := h
  cases h
  have hrest : c.skip.Reads [] ((c.skip.punct? "...").getD c.skip) := .getD fun _ => punct?_reads
  have hmark (d : Cursor) : d.Reads [] ((d.punct? "?").getD d) := .getD fun _ => punct?_reads
  refine ((hr _ hu).after (Reads.after (.getD fun f hf => ?_) hrest)).upTo (hmark e)
  simp only [Option.bind_eq_some_iff, Prod.exists] at hf
  obtain ⟨b, w, g, hword, hcolon⟩ := hf
  exact (punct?_reads hcolon).after ((hmark g).after (word?_reads hword))

theorem tuple_isOrderly : (tuple rules).IsOrderly :=
  bracketed_isOrderly (group_isOrderly (tupleItem_isOrderly hr))

theorem typeIndex_isOrderly : (typeIndex rules).IsOrderly := fun _ _ _ h =>
  .ite h (fun h => nomatch h) fun h => tuple_isOrderly hr h

theorem functionType_isOrderly : (functionType rules).IsOrderly := by
  intro c t d h
  simp only [functionType, Option.bind_eq_bind, Option.bind_eq_some_iff, Prod.exists] at h
  obtain ⟨ps, e, hps, f, harrow, u, g, hu, h⟩ := h
  cases h
  have hparams := optional_reads (typeParameters_isOrderly hr) c.skip
  have hps := (bracketed_isOrderly (hr _) hps).reads.upTo (punct?_reads harrow)
  rw [plain_append]
  exact .node (hparams.append (hps.cons (hr _ hu).reads)) rfl trivial

theorem parenthesizedType_isOrderly : (parenthesizedType rules).IsOrderly := by
  intro c t d h
  obtain ⟨e, _, h⟩ := Option.bind_eq_some_iff.1 h
  refine .ite h (fun h => functionType_isOrderly hr h) fun h => ?_
  exact bracketed_isOrderly (group_isOrderly (hr _)) h

omit hr in
theorem passSign_reads (c : Cursor) : c.Reads [] (passSign c) :=
  .getD fun _ => orElse_punct?_reads

omit hr in
theorem passMark_reads (c : Cursor) : c.Reads [] (passMark c) :=
  (Reads.getD fun _ => orElse_punct?_reads).after (passSign_reads c)

theorem typeMember_isOrderly : (typeMember rules).IsOrderly := by
  intro c t d h
  simp only [typeMember] at h
  cases h
  have hname := either_isOrderly (indexHead_isOrderly hr)
    (memberHead_isOrderly hr endsMemberName 10)
  have hhead := (optional_reads hname _).after (passSign_reads c.skip)
  have hbehind (e : Cursor) : e.Reads
      (plain (if startsSignature e then (signature rules true e).getD ([], e)
        else ascription rules e).1)
      (if startsSignature e then (signature rules true e).getD ([], e)
        else ascription rules e).2 := by
    split
    · cases hsignature : signature rules true e with
      | none => exact .refl e
      | some r => exact signature_reads hr hsignature
    · exact ascription_reads hr e
  rw [plain_append]
  exact .node (hhead.append ((hbehind _).after (passMark_reads _))) rfl trivial

theorem objectType_isOrderly : (objectType rules).IsOrderly := by
  refine bracketed_isOrderly (within_isOrderly fun c t d h => ?_)
  simp only [Option.bind_eq_bind, Option.bind_eq_some_iff] at h
  obtain ⟨e, hopen, f, hclose, h⟩ := h
  cases h
  have hmember := either_isOrderly (lone_isOrderly ";")
    (either_isOrderly (lone_isOrderly ",") (typeMember_isOrderly hr))
  have hmembers := (many_reads hmember e.fuel e).after (punct?_reads hopen)
  exact .node (hmembers.upTo (punct?_reads hclose)) rfl trivial

/-! ## Names -/

theorem namedType_isOrderly (isValue : Bool) : (namedType rules isValue).IsOrderly := by
  intro c t d h
  simp only [namedType, Option.bind_eq_bind, Option.bind_eq_some_iff, Prod.exists] at h
  obtain ⟨b, w, e, hword, h⟩ := h
  cases h
  have hname : c.skip.Reads (plain (if w == "object" && !isValue then [c.skip.node e .object []]
      else [])) e := by
    have hpass := skip_word?_reads hword
    split
    · exact hpass.node trivial
    · exact hpass
  have harguments := (optional_reads (typeArguments_isOrderly hr) _).after
    (passDotted_reads e.fuel e)
  rw [word?_eq hword, plain_append]
  exact .node (hname.append harguments) rfl trivial

theorem importedType_isOrderly : (importedType rules).IsOrderly := by
  intro c t d h
  simp only [importedType, Option.bind_eq_bind, Option.bind_eq_some_iff] at h
  obtain ⟨e, hword, h⟩ := h
  split at h
  next u f hu =>
    cases h
    have hu := bracketed_isOrderly (arguments_isOrderly hr) hu
    have harguments := (optional_reads (typeArguments_isOrderly hr) _).after
      (passDotted_reads f.fuel f)
    exact .node ((hu.reads.cons harguments).after (keyword?_reads hword)) rfl trivial
  next =>
    cases h
    exact .node (keyword?_reads hword) rfl trivial

theorem typeQuery_isOrderly : (typeQuery rules).IsOrderly := by
  intro c t d h
  simp only [typeQuery, Option.bind_eq_bind, Option.bind_eq_some_iff] at h
  obtain ⟨e, hword, h⟩ := h
  cases h
  have hvalue := either_isOrderly (importedType_isOrderly hr) (namedType_isOrderly hr true)
  exact .node ((optional_reads hvalue e).after (keyword?_reads hword)) rfl trivial

theorem constructorType_isOrderly : (constructorType rules).IsOrderly := by
  intro c t d h
  simp only [constructorType, Option.bind_eq_bind, Option.bind_eq_some_iff, Prod.exists] at h
  obtain ⟨e, hword, u, f, hu, h⟩ := h
  cases h
  exact .node ((functionType_isOrderly hr hu).reads.after (keyword?_reads hword)) rfl trivial

theorem inferredType_isOrderly : (inferredType rules).IsOrderly := by
  intro c t d h
  simp only [inferredType, Option.bind_eq_bind, Option.bind_eq_some_iff, Prod.exists] at h
  obtain ⟨e, hinfer, b, w, f, hname, h⟩ := h
  cases h
  have hbound := behind_reads (fun _ _ => keyword?_reads (w := "extends")) (hr .type) f
  exact .node (hbound.after ((word?_reads hname).after (keyword?_reads hinfer))) rfl trivial

omit hr in
theorem prefixedType_isOrderly (hrule : rule.IsOrderly) : (prefixedType rule).IsOrderly := by
  intro c t d h
  simp only [prefixedType, Option.bind_eq_bind, Option.bind_eq_some_iff, Prod.exists] at h
  obtain ⟨e, hword, u, f, hu, h⟩ := h
  cases h
  exact .node ((hrule hu).reads.after (keywords?_reads hword)) rfl trivial

theorem asserted_isOrderly (hrule : rule.IsOrderly) : (asserted rules rule).IsOrderly := by
  intro c t d h
  simp only [asserted, Option.bind_eq_bind, Option.bind_eq_some_iff, Prod.exists] at h
  obtain ⟨u, e, hu, h⟩ := h
  cases h
  have hassertion : e.Reads
      (plain (if e.newlineAhead then ([], e) else behind (·.keyword? "is") (rules .type) e).1)
      (if e.newlineAhead then ([], e) else behind (·.keyword? "is") (rules .type) e).2 := by
    split
    · exact .refl e
    · exact behind_reads (fun _ _ => keyword?_reads) (hr _) e
  exact .node ((hrule hu).reads.cons hassertion) rfl trivial

theorem typeName_isOrderly (hrule : rule.IsOrderly) : (typeName rules rule).IsOrderly := by
  intro c t d h
  refine .ite h (fun h => constructorType_isOrderly hr h) fun h => ?_
  refine .ite h (fun h => typeQuery_isOrderly hr h) fun h => ?_
  refine .ite h (fun h => importedType_isOrderly hr h) fun h => ?_
  exact asserted_isOrderly hr (either_isOrderly (inferredType_isOrderly hr)
    (either_isOrderly (prefixedType_isOrderly hrule) (namedType_isOrderly hr false))) h

/-! ## Types -/

omit hr in
theorem negativeNumber_isOrderly : Rule.IsOrderly negativeNumber := by
  intro c t d h
  simp only [negativeNumber, Option.bind_eq_bind, Option.bind_eq_some_iff, Prod.exists] at h
  obtain ⟨e, hminus, u, f, hu, h⟩ := h
  cases h
  exact .node ((number_isOrderly hu).reads.after (punct?_reads hminus)) rfl trivial

omit hr in
theorem templateText_isOrderly : Rule.IsOrderly fun c => (templateText? c).map (leaf c) := by
  intro c t d h
  obtain ⟨e, he, h⟩ := Option.map_eq_some_iff.1 h
  cases h
  exact leaf_yields (skip_templateText?_reads he)

theorem typeCore_isOrderly (hrule : rule.IsOrderly) : (typeCore rules rule).IsOrderly := by
  intro c t d h
  have htemplate : (templateOf .other (rules .type)).IsOrderly :=
    templateOf_isOrderly (hr _) rfl fun _ _ _ => trivial
  rw [typeCore] at h
  split at h
  · cases h
  refine .ite h (fun h => parenthesizedType_isOrderly hr h) fun h => ?_
  refine .ite h (fun h => functionType_isOrderly hr h) fun h => ?_
  refine .ite h (fun h => objectType_isOrderly hr h) fun h => ?_
  refine .ite h (fun h => tuple_isOrderly hr h) fun h => ?_
  refine .ite h (fun h => string_isOrderly h) fun h => ?_
  refine .ite h (fun h => either_isOrderly htemplate templateText_isOrderly h) fun h => ?_
  refine .ite h (fun h => negativeNumber_isOrderly h) fun h => ?_
  refine .ite h (fun h => number_isOrderly h) fun h => ?_
  exact typeName_isOrderly hr hrule h

theorem typeOperand_isOrderly (fuel : Nat) : (typeOperand rules fuel).IsOrderly := by
  induction fuel with
  | zero => exact fun c t d h => nomatch h
  | succ fuel ih =>
    intro c t d h
    simp only [typeOperand, Option.bind_eq_bind, Option.bind_eq_some_iff, Prod.exists] at h
    obtain ⟨u, e, hu, h⟩ := h
    cases h
    have hindexes := many_reads (typeIndex_isOrderly hr) e.fuel e
    exact .node ((typeCore_isOrderly hr ih hu).reads.cons hindexes) rfl trivial

theorem choiceBehind_reads (h : choiceBehind rules c = some (ts, d)) : c.Reads (plain ts) d := by
  rw [choiceBehind] at h
  split at h
  · cases h
  simp only [Option.bind_eq_bind, Option.bind_eq_some_iff, Prod.exists] at h
  obtain ⟨e, hword, t, f, ht, u, g, hu, v, i, hv, h⟩ := h
  cases h
  have ht := (closed_isOrderly (hr _) ht).reads.after (keyword?_reads hword)
  exact ht.cons ((closed_isOrderly (hr _) hu).reads.cons (hr _ hv).reads)

theorem typeTail_reads (h : typeTail rules c = some (ts, d)) : c.Reads (plain ts) d := by
  rw [typeTail] at h
  split at h
  · cases h
    exact .refl c
  split at h
  next e he => exact single_reads h fun _ ht => (hr _ ht).reads.after (orElse_punct?_reads he)
  next =>
    cases hchoice : choiceBehind rules c with
    | none =>
      rw [hchoice] at h
      cases h
      exact .refl c
    | some r =>
      rw [hchoice] at h
      cases h
      exact choiceBehind_reads hr hchoice

theorem typeRule_isOrderly : (typeRule rules).IsOrderly := by
  intro c t d h
  simp only [typeRule, Option.bind_eq_bind, Option.bind_eq_some_iff, Prod.exists] at h
  obtain ⟨u, e, hu, ts, f, hts, h⟩ := h
  cases h
  have hmark : c.skip.Reads []
      ((orElse (c.skip.punct? "|") (c.skip.punct? "&")).getD c.skip) :=
    .getD fun _ => orElse_punct?_reads
  have hu := (typeOperand_isOrderly hr _ hu).reads.after hmark
  exact .node (hu.cons (typeTail_reads hr hts)) rfl trivial

end

end AgentFlow.Script
