import AgentFlow.Proofs.Script.Naming
import AgentFlow.Proofs.Value.Merge

/-!
# Members of object literals

An object literal is converted member by member, and the mapping that a member makes up is merged
with what stands before it. So a literal may be cut anywhere between its members, and a key has the
value of the last member that supplies it. What fails first is what the whole literal fails with.

* `Tree.withMembers`: a literal with other members. `mergeResults`: outcomes of conversions merged.
* `convert_withMembers_append`: a literal cut in two.
* `Supplies`: what a member gives on its own. `field?_eq_some_iff`: the value at a key.
* `literal_merges_members`: the literal as the merge of its members, and what a spread supplies.
-/

namespace AgentFlow

/-- A value merged with a later one, if both are mappings. -/
def Value.merge : Value → Value → Value
  | .map es, .map more => .map (Entries.merge es more)
  | v, _ => v

namespace Script

/-- A node with other children. -/
def Tree.withMembers (t : Tree) (ms : List (Label × Tree)) : Tree :=
  .node t.kind t.start t.stop t.text ms

/-- The outcomes of two conversions merged; the first that fails decides. -/
def mergeResults (r s : Except EscapeError Value) : Except EscapeError Value := do
  let v ← r
  let w ← s
  return v.merge w

variable {root t target : Tree} {active : List Name} {m : Label × Tree}
  {ms ns : List (Label × Tree)} {es more : Entries} {k : Text} {v : Value}

theorem Tree.withMembers_labelled (t : Tree) : t.withMembers t.labelled = t := by
  cases t
  rfl

/-! ## A literal cut in two -/

theorem convertMembers_append (root : Tree) (active : List Name) (ms ns : List (Label × Tree)) :
    convertMembers (some root) active (ms ++ ns) =
      (convertMembers (some root) active ms).bind fun es =>
        (convertMembers (some root) active ns).map fun more => es ++ more := by
  induction ms with
  | nil =>
    rw [List.nil_append]
    conv_rhs => rw [convertMembers]
    cases convertMembers (some root) active ns <;> rfl
  | cons m ms ih =>
    rw [List.cons_append, convertMembers, convertMembers, ih]
    cases convertMember (some root) active m.2 with
    | error e => rfl
    | ok es =>
      cases convertMembers (some root) active ms with
      | error e => rfl
      | ok fs =>
        cases convertMembers (some root) active ns with
        | error e => rfl
        | ok more => exact congrArg Except.ok (List.append_assoc es fs more).symm

theorem convert_withMembers (ht : t.kind = .object) (ms : List (Label × Tree)) :
    convert (some root) active (t.withMembers ms) =
      (convertMembers (some root) active ms).map fun es => .map (Entries.putAll [] es) :=
  convert_of_object ht

theorem plainEntries_of_convertMembers (h : convertMembers (some root) active ms = .ok es) :
    PlainEntries es :=
  promise_of_answer (plainResult_plan .cyclic root) (c := ⟨active, .members ms⟩) h

/-- A literal is the merge of any two parts that it is cut into. -/
theorem convert_withMembers_append (ht : t.kind = .object) (ms ns : List (Label × Tree)) :
    convert (some root) active (t.withMembers (ms ++ ns)) =
      mergeResults (convert (some root) active (t.withMembers ms))
        (convert (some root) active (t.withMembers ns)) := by
  rw [convert_withMembers ht, convert_withMembers ht, convert_withMembers ht,
    convertMembers_append]
  cases hes : convertMembers (some root) active ms with
  | error e => rfl
  | ok es =>
    cases hmore : convertMembers (some root) active ns with
    | error e => rfl
    | ok more =>
      have hplain := plainEntries_of_convertMembers hes
      have htexts : ∀ e ∈ more, ∃ t, e.1 = .str t := fun e he =>
        (plainEntries_of_convertMembers hmore e he).1.imp' Text.ofChars fun _ => id
      have hmerge := Entries.putAll_eq_merge hplain.hasPlainKeys.hasTextKeys htexts
      show Except.ok (Value.map (Entries.putAll [] (es ++ more))) = _
      rw [Entries.putAll_append, hmerge]
      rfl

theorem convert_withMembers_nil (ht : t.kind = .object) :
    convert (some root) active (t.withMembers []) = .ok (.map []) := by
  rw [convert_withMembers ht, convertMembers]
  rfl

/-- A literal is the merge of its members from left to right. -/
theorem convert_withMembers_eq_foldl (ht : t.kind = .object) (ms : List (Label × Tree)) :
    convert (some root) active (t.withMembers ms) =
      ms.foldl (fun r m => mergeResults r (convert (some root) active (t.withMembers [m])))
        (.ok (.map [])) := by
  induction ms using List.reverseRecOn with
  | nil => exact convert_withMembers_nil ht
  | append_singleton ms m ih =>
    rw [convert_withMembers_append ht, ih, List.foldl_append, List.foldl_cons, List.foldl_nil]

/-! ## The value at a key -/

/-- Whether a member, as the only one of a literal, gives a value at a key. -/
def Supplies (root : Tree) (active : List Name) (t : Tree) (m : Label × Tree) (k : Text)
    (v : Value) : Prop :=
  ∃ es : Entries, convert (some root) active (t.withMembers [m]) = .ok (.map es) ∧
    es.field? k = some v

theorem exists_entries_of_convert (ht : t.kind = .object)
    (h : convert (some root) active (t.withMembers ms) = .ok v) :
    ∃ es : Entries, v = .map es := by
  rw [convert_withMembers ht] at h
  cases hes : convertMembers (some root) active ms with
  | error e =>
    rw [hes] at h
    cases h
  | ok es =>
    rw [hes] at h
    exact ⟨_, (Except.ok.inj h).symm⟩

/-- What a literal with one member more is merged of. -/
theorem exists_of_convert_snoc (ht : t.kind = .object)
    (h : convert (some root) active (t.withMembers (ms ++ [m])) = .ok (.map es)) :
    ∃ fs more : Entries, convert (some root) active (t.withMembers ms) = .ok (.map fs) ∧
      convert (some root) active (t.withMembers [m]) = .ok (.map more) ∧ es = fs.merge more := by
  rw [convert_withMembers_append ht] at h
  cases hfs : convert (some root) active (t.withMembers ms) with
  | error e =>
    rw [hfs] at h
    cases h
  | ok v =>
    cases hmore : convert (some root) active (t.withMembers [m]) with
    | error e =>
      rw [hfs, hmore] at h
      cases h
    | ok w =>
      obtain ⟨fs, rfl⟩ := exists_entries_of_convert ht hfs
      obtain ⟨more, rfl⟩ := exists_entries_of_convert ht hmore
      rw [hfs, hmore] at h
      exact ⟨fs, more, rfl, rfl, (Value.map.inj (Except.ok.inj h)).symm⟩

/-- The last element of a kind, in a list with one element more. -/
private theorem exists_last_snoc {α : Type} {P Q : α → Prop} {xs : List α} {x : α} :
    (∃ front y behind, xs ++ [x] = front ++ y :: behind ∧ P y ∧ ∀ z ∈ behind, Q z) ↔
      P x ∨ Q x ∧ ∃ front y behind, xs = front ++ y :: behind ∧ P y ∧ ∀ z ∈ behind, Q z := by
  constructor
  · rintro ⟨front, y, behind, heq, hy, hbehind⟩
    rcases List.eq_nil_or_concat behind with rfl | ⟨behind, z, rfl⟩
    · obtain ⟨-, hx⟩ := List.append_inj' heq rfl
      exact .inl (List.singleton_injective hx ▸ hy)
    · rw [List.concat_eq_append] at heq hbehind
      rw [← List.cons_append, ← List.append_assoc] at heq
      obtain ⟨hxs, hx⟩ := List.append_inj' heq rfl
      obtain rfl := List.singleton_injective hx
      exact .inr ⟨hbehind x (by simp), front, y, behind, hxs, hy,
        fun z hz => hbehind z (by simp [hz])⟩
  · rintro (hx | ⟨hx, front, y, behind, rfl, hy, hbehind⟩)
    · exact ⟨xs, x, [], rfl, hx, by simp⟩
    · refine ⟨front, y, behind ++ [x], by simp, hy, fun z hz => ?_⟩
      rcases List.mem_append.1 hz with hz | hz
      · exact hbehind z hz
      · exact List.mem_singleton.1 hz ▸ hx

/-- With one member more, a literal has the value that this member supplies, or else the one it had
before. -/
theorem field?_of_convert_snoc (ht : t.kind = .object)
    (h : convert (some root) active (t.withMembers (ms ++ [m])) = .ok (.map es)) (k : Text) :
    ∃ fs more : Entries, convert (some root) active (t.withMembers ms) = .ok (.map fs) ∧
      (∀ w, Supplies root active t m k w ↔ more.field? k = some w) ∧
      es.field? k = (more.field? k).or (fs.field? k) := by
  obtain ⟨fs, more, hfs, hmore, rfl⟩ := exists_of_convert_snoc ht h
  refine ⟨fs, more, hfs, fun w => ?_, Entries.get?_merge fs more k⟩
  rw [Supplies, hmore]
  exact ⟨fun ⟨es, hes, hw⟩ => Value.map.inj (Except.ok.inj hes) ▸ hw, fun hw => ⟨more, rfl, hw⟩⟩

/-- The value at a key is that of the last member that supplies the key. -/
theorem field?_eq_some_iff (ht : t.kind = .object)
    (h : convert (some root) active (t.withMembers ms) = .ok (.map es)) (k : Text) (v : Value) :
    es.field? k = some v ↔
      ∃ front m behind, ms = front ++ m :: behind ∧ Supplies root active t m k v ∧
        ∀ n ∈ behind, ∀ w, ¬ Supplies root active t n k w := by
  induction ms using List.reverseRecOn generalizing es with
  | nil =>
    rw [convert_withMembers_nil ht] at h
    cases h
    simp [Entries.field?, Entries.get?_nil]
  | append_singleton ms m ih =>
    obtain ⟨fs, more, hfs, hsupplies, hfield⟩ := field?_of_convert_snoc ht h k
    rw [hfield, exists_last_snoc, ← ih hfs, hsupplies]
    simp only [hsupplies]
    cases more.field? k <;> simp

/-- There is a value at a key just if a member supplies the key. -/
theorem exists_field?_iff (ht : t.kind = .object)
    (h : convert (some root) active (t.withMembers ms) = .ok (.map es)) (k : Text) :
    (∃ v, es.field? k = some v) ↔ ∃ m ∈ ms, ∃ v, Supplies root active t m k v := by
  induction ms using List.reverseRecOn generalizing es with
  | nil =>
    rw [convert_withMembers_nil ht] at h
    cases h
    simp [Entries.field?, Entries.get?_nil]
  | append_singleton ms m ih =>
    obtain ⟨fs, more, hfs, hsupplies, hfield⟩ := field?_of_convert_snoc ht h k
    have hms := ih hfs
    rw [hfield]
    simp only [List.mem_append, List.mem_singleton, or_and_right, exists_or, ← hms,
      exists_eq_left, hsupplies]
    cases more.field? k <;> simp

/-! ## Spreads -/

/-- Only names are looked through. -/
theorem convertSpread_of_not_identifier (hk : target.kind ≠ .identifier) :
    convertSpread (some root) active target =
      .ok [(.str ("..." ++ Text.ofChars target.text), marker target.text)] := by
  rw [← eval_planSpread, planSpread, if_neg hk]
  rfl

/-- A spread supplies all of the literal that its name is defined as, and else its own text. -/
theorem convert_withMembers_spread (ht : t.kind = .object) (hm : m.2.kind = .spread)
    (htarget : m.2.namedChildren.head? = some target) :
    (target.kind = .identifier ∧ Merges root active target.text →
      convert (some root) active (t.withMembers [m]) =
        convertReference (some root) active target.text) ∧
    (¬ (target.kind = .identifier ∧ Merges root active target.text) →
      convert (some root) active (t.withMembers [m]) =
        .ok (.map [(.str ("..." ++ Text.ofChars target.text), marker target.text)])) := by
  have hspread (hk : target.kind = .identifier) : (t.withMembers [m]).IsSpreadOf target.text :=
    ⟨ht, m.1, m.2, target, rfl, hm, htarget, hk, rfl⟩
  refine ⟨fun ⟨hk, hmerges⟩ => convert_of_merges (hspread hk) hmerges, fun hnot => ?_⟩
  by_cases hk : target.kind = .identifier
  · exact convert_of_not_merges (hspread hk) fun hmerges => hnot ⟨hk, hmerges⟩
  · have hobject : (t.withMembers [m]).kind = .object := ht
    rw [convert_of_spread hobject rfl hm htarget, convertSpread_of_not_identifier hk]
    rfl

/-- **An object literal is the merge of its members from left to right.** So it is the merge of any
two parts that it is cut into, and the value at a key is that of the last member that supplies the
key. A spread of a name supplies all of the literal that the name is defined as, unless the name is
being followed. -/
theorem literal_merges_members (ht : t.kind = .object) :
    convert (some root) active t =
      t.labelled.foldl
        (fun r m => mergeResults r (convert (some root) active (t.withMembers [m])))
        (.ok (.map [])) ∧
    (∀ ms ns, t.labelled = ms ++ ns →
      convert (some root) active t =
        mergeResults (convert (some root) active (t.withMembers ms))
          (convert (some root) active (t.withMembers ns))) ∧
    (∀ es : Entries, convert (some root) active t = .ok (.map es) → ∀ k v,
      (es.field? k = some v ↔
        ∃ front m behind, t.labelled = front ++ m :: behind ∧ Supplies root active t m k v ∧
          ∀ n ∈ behind, ∀ w, ¬ Supplies root active t n k w)) ∧
    ∀ m ∈ t.labelled, ∀ target, m.2.kind = .spread → m.2.namedChildren.head? = some target →
      (target.kind = .identifier ∧ Merges root active target.text →
        convert (some root) active (t.withMembers [m]) =
          convertReference (some root) active target.text) ∧
      (¬ (target.kind = .identifier ∧ Merges root active target.text) →
        convert (some root) active (t.withMembers [m]) =
          .ok (.map [(.str ("..." ++ Text.ofChars target.text), marker target.text)])) := by
  have hself := t.withMembers_labelled
  refine ⟨?_, fun ms ns hcut => ?_, fun es hes k v => ?_,
    fun m _ target hm htarget => convert_withMembers_spread ht hm htarget⟩
  · rw [← convert_withMembers_eq_foldl ht, hself]
  · rw [← convert_withMembers_append ht, ← hcut, hself]
  · rw [← hself] at hes
    exact field?_eq_some_iff ht hes k v

/-- The members of `overriding`: a value at `x`, the spread of `b` and a value at `y`. -/
def threeX : Label × Tree :=
  (.plain, pairOf (leafAt .propertyName 29 ['x']) (leafAt .number 32 ['3']))

def spreadB : Label × Tree :=
  (.plain, .node .spread 35 39 "...b".toList [(.plain, leafAt .identifier 38 ['b'])])

def twoY : Label × Tree :=
  (.plain, pairOf (leafAt .propertyName 41 ['y']) (leafAt .number 44 ['2']))

/-- A literal with a spread behind a member that has the same key, and in front of another one. -/
def overriding : Tree := .node .object 28 46 "{x: 3, ...b, y: 2}".toList [threeX, spreadB, twoY]

/-- The literal that `b` is in `overridingScript`. -/
def overridden : Tree :=
  .node .object 10 16 "{x: 1}".toList
    [(.plain, pairOf (leafAt .propertyName 11 ['x']) (leafAt .number 14 ['1']))]

def overridingScript : Tree :=
  .node .other 0 47 "const b = {x: 1}; const o = {x: 3, ...b, y: 2};".toList [
    (.plain, .node .other 0 16 "const b = {x: 1}".toList [
      (.plain, .node .declarator 6 16 "b = {x: 1}".toList [
        (.name, leafAt .identifier 6 ['b']), (.value, overridden)])]),
    (.plain, .node .other 18 46 "const o = {x: 3, ...b, y: 2}".toList [
      (.plain, .node .declarator 24 46 "o = {x: 3, ...b, y: 2}".toList [
        (.name, leafAt .identifier 24 ['o']), (.value, overriding)])])]

theorem convert_overridden (active : List Name) :
    convert (some overridingScript) active overridden = .ok (.map [(.str "x", .int 1)]) :=
  answer_of_run (n := 5) (c := ⟨active, .node overridden⟩) rfl

/-- The spread takes the place of the value in front of it, and no member behind it supplies its
key. -/
theorem overriding_merges_members :
    treeOf "const b = {x: 1}; const o = {x: 3, ...b, y: 2};".toList = overridingScript ∧
    overriding.kind = .object ∧
    convert (some overridingScript) [] overriding
      = .ok (.map [(.str "x", .int 1), (.str "y", .int 2)]) ∧
    mergeResults (convert (some overridingScript) [] (overriding.withMembers [threeX, spreadB]))
        (convert (some overridingScript) [] (overriding.withMembers [twoY]))
      = .ok (.map [(.str "x", .int 1), (.str "y", .int 2)]) ∧
    (∃ front m behind, overriding.labelled = front ++ m :: behind ∧
      Supplies overridingScript [] overriding m "x" (.int 1) ∧
      ∀ n ∈ behind, ∀ w, ¬ Supplies overridingScript [] overriding n "x" w) ∧
    convert (some overridingScript) [] (overriding.withMembers [spreadB]) =
      convertReference (some overridingScript) [] ['b'] := by
  have ht : overriding.kind = .object := rfl
  have hd : overridingScript.definition? ['b'] = some overridden := by
    rw [Tree.definition?_eq]
    rfl
  have hmerges : Merges overridingScript [] ['b'] := ⟨by simp, overridden, hd, rfl⟩
  obtain ⟨hfold, hcut, hfields, hspread⟩ :=
    @literal_merges_members overridingScript overriding [] ht
  have href := (hspread spreadB (.tail _ (.head _)) _ rfl rfl).1 ⟨rfl, hmerges⟩
  have hthree : convert (some overridingScript) [] (overriding.withMembers [threeX])
      = .ok (.map [(.str "x", .int 3)]) :=
    answer_of_run (n := 5) (c := ⟨[], .node (overriding.withMembers [threeX])⟩) rfl
  have hone : convert (some overridingScript) [] (overriding.withMembers [spreadB])
      = .ok (.map [(.str "x", .int 1)]) :=
    href.trans ((convertReference_of_definition? hd (by simp)).trans (convert_overridden _))
  have htwo : convert (some overridingScript) [] (overriding.withMembers [twoY])
      = .ok (.map [(.str "y", .int 2)]) :=
    answer_of_run (n := 5) (c := ⟨[], .node (overriding.withMembers [twoY])⟩) rfl
  have hvalue : convert (some overridingScript) [] overriding
      = .ok (.map [(.str "x", .int 1), (.str "y", .int 2)]) := by
    rw [hfold, overriding, Tree.labelled]
    simp only [List.foldl_cons, List.foldl_nil]
    rw [← overriding, hthree, hone, htwo]
    rfl
  exact ⟨rfl, ht, hvalue, (hcut [threeX, spreadB] [twoY] rfl).symm.trans hvalue,
    (hfields _ hvalue _ _).1 rfl, href⟩

end Script

end AgentFlow
