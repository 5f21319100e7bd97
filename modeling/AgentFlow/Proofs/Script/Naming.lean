import AgentFlow.Proofs.Script.PlainData
import AgentFlow.Script.Parse

/-!
# Names in place of what they are defined as

A name that is followed has the value of its definition, and from there on one name more is being
followed. Two forms of members look at the syntax and not at the value: a function that stands as
a member counts as an agent without a name, and a spread merges an object literal. Neither looks
through a name, so a function with a name is kept as its text, and a spread of a name that is
defined as another name is kept as it is written.

* `convertReference_of_definition?`: a name that is followed has the value of its definition.
* `naming_keeps_value_unless_function`: a member with a name as its value, and the same member with
  the definition.
* `spread_merges_what_reference_gives`: a spread of a name, and the name on its own.
-/

namespace AgentFlow.Script

variable {root t m m' d e key key' value target : Tree} {active : List Name} {name : Name}
  {es : Entries}

/-! ## Following a name -/

theorem convert_of_object (h : t.kind = .object) :
    convert (some root) active t = (convertMembers (some root) active t.labelled).map
      fun es => .map (Entries.putAll [] es) := by
  rw [convert, h]
  cases convertMembers (some root) active t.labelled <;> rfl

theorem convert_of_identifier (h : t.kind = .identifier) :
    convert (some root) active t = convertReference (some root) active t.text := by
  rw [convert, h]

theorem convert_of_function (h : t.kind = .function) :
    convert (some root) active t = .ok (marker t.text) := by
  rw [convert, h]

/-- A name that is not being followed has the value of its definition. -/
theorem convertReference_of_definition? (hd : root.definition? name = some d)
    (ha : name ∉ active) :
    convertReference (some root) active name = convert (some root) (name :: active) d := by
  rw [← eval_planReference, planReference]
  simp [Guard.cyclic, ha, hd, answer]

/-- A name that gives a mapping has been followed to its definition. -/
theorem definition?_of_convertReference
    (h : convertReference (some root) active name = .ok (.map es)) :
    name ∉ active ∧ ∃ d, root.definition? name = some d := by
  rw [← eval_planReference, planReference] at h
  split at h
  case isTrue => cases h
  case isFalse ha =>
    split at h
    case h_1 => cases h
    case h_2 d hd => exact ⟨by simpa [Guard.cyclic] using ha, d, hd⟩

/-! ## A name as the value of a member -/

/-- A member with a name and a value. -/
structure Tree.IsPair (m key value : Tree) : Prop where
  kind_eq : m.kind = .pair
  key_eq : m.child? .key = some key
  value_eq : m.child? .value = some value

/-- What an expression gives as the value of a member. -/
def pairValue (root : Tree) (active : List Name) (value : Tree) : Except EscapeError Value :=
  if value.kind = .function then .ok functionMarker else convert (some root) active value

theorem pairValue_of_function (h : value.kind = .function) :
    pairValue root active value = .ok functionMarker := if_pos h

theorem pairValue_of_not_function (h : value.kind ≠ .function) :
    pairValue root active value = convert (some root) active value := if_neg h

theorem convertMember_of_isPair (h : m.IsPair key value) :
    convertMember (some root) active m = (propertyName key).bind fun k =>
      (pairValue root active value).map fun v => [(.str k, v)] := by
  unfold pairValue
  rw [← eval_planMember, planMember, h.kind_eq, h.key_eq, h.value_eq]
  by_cases hv : value.kind = .function
  · simp only [hv, if_true, Plan.eval_bind, Plan.eval_done, Plan.eval_pure]
    cases propertyName key <;> rfl
  · simp only [hv, if_false, Plan.ask, Plan.eval_bind, Plan.eval_call, Plan.eval_done,
      Plan.eval_pure, answer]
    cases propertyName key <;> cases convert (some root) active value <;> rfl

/-- As the value of a member, a name that is not being followed gives what its definition is
converted to. -/
theorem pairValue_of_definition? (hv : value.kind = .identifier)
    (hd : root.definition? value.text = some e) (ha : value.text ∉ active) :
    pairValue root active value = convert (some root) (value.text :: active) e := by
  have hne : value.kind ≠ .function := by simp [hv]
  rw [pairValue_of_not_function hne, convert_of_identifier hv,
    convertReference_of_definition? hd ha]

/-- **To name the value of a member changes nothing, unless it is a function.** A member with a
name that is not being followed supplies what it supplies with the definition of the name instead,
while that name is being followed. A function is an agent without a name only where it stands as a
member itself; one that has a name is kept as its text. -/
theorem naming_keeps_value_unless_function (hm : m.IsPair key value)
    (hv : value.kind = .identifier) (hd : root.definition? value.text = some e)
    (ha : value.text ∉ active) (hm' : m'.IsPair key' e)
    (hk : propertyName key = propertyName key') :
    (e.kind ≠ .function →
        convertMember (some root) active m = convertMember (some root) (value.text :: active) m') ∧
      (e.kind = .function →
        (convertMember (some root) active m
            = (propertyName key).map fun k => [(.str k, marker e.text)]) ∧
          convertMember (some root) (value.text :: active) m'
            = (propertyName key).map fun k => [(.str k, functionMarker)]) := by
  have hnamed := pairValue_of_definition? hv hd ha
  rw [convertMember_of_isPair hm, convertMember_of_isPair hm', hnamed, ← hk]
  refine ⟨fun he => ?_, fun he => ?_⟩
  · rw [pairValue_of_not_function he]
  · rw [convert_of_function he, pairValue_of_function he]
    cases propertyName key <;> exact ⟨rfl, rfl⟩

/-- A node without children that begins at a byte. -/
def leafAt (kind : Kind) (start : Nat) (text : List Char) : Tree :=
  .node kind start (start + text.length) text []

/-- A member of a name and a value that stand next to each other. -/
def pairOf (key value : Tree) : Tree :=
  .node .pair key.start value.stop (key.text ++ ": ".toList ++ value.text)
    [(.key, key), (.value, value)]

theorem isPair_pairOf (key value : Tree) : (pairOf key value).IsPair key value := ⟨rfl, rfl, rfl⟩

/-- The function that `f` is in `namedValues`. -/
def functionF : Tree :=
  .node .function 10 17 "() => 1".toList
    [(.plain, leafAt .other 10 ['(', ')']), (.plain, leafAt .number 16 ['1'])]

/-- The array that `n` is in `namedValues`. -/
def arrayN : Tree := .node .array 29 32 "[f]".toList [(.plain, leafAt .identifier 30 ['f'])]

def memberK : Tree := pairOf (leafAt .propertyName 45 ['k']) (leafAt .identifier 48 ['f'])

def memberL : Tree := pairOf (leafAt .propertyName 51 ['l']) (leafAt .identifier 54 ['n'])

/-- A script with an object literal of named values. -/
def namedValues : Tree :=
  .node .other 0 57 "const f = () => 1; const n = [f]; const a = {k: f, l: n};".toList [
    (.plain, .node .other 0 17 "const f = () => 1".toList [
      (.plain, .node .declarator 6 17 "f = () => 1".toList [
        (.name, leafAt .identifier 6 ['f']), (.value, functionF)])]),
    (.plain, .node .other 19 32 "const n = [f]".toList [
      (.plain, .node .declarator 25 32 "n = [f]".toList [
        (.name, leafAt .identifier 25 ['n']), (.value, arrayN)])]),
    (.plain, .node .other 34 56 "const a = {k: f, l: n}".toList [
      (.plain, .node .declarator 40 56 "a = {k: f, l: n}".toList [
        (.name, leafAt .identifier 40 ['a']),
        (.value, .node .object 44 56 "{k: f, l: n}".toList [
          (.plain, memberK), (.plain, memberL)])])])]

theorem naming_keeps_arrayN :
    namedValues.definition? ['n'] = some arrayN ∧
      convertMember (some namedValues) [] memberL =
        convertMember (some namedValues) [['n']]
          (pairOf (leafAt .propertyName 51 ['l']) arrayN) := by
  have hd : namedValues.definition? ['n'] = some arrayN := by
    rw [Tree.definition?_eq]
    rfl
  exact ⟨hd, (naming_keeps_value_unless_function (isPair_pairOf _ _) rfl hd (by simp)
    (isPair_pairOf _ _) rfl).1 (by decide)⟩

/-- A function is kept as its text where its name stands as a member, and counts as an agent
without a name where it stands there itself. -/
theorem naming_changes_functionF :
    treeOf "const f = () => 1; const n = [f]; const a = {k: f, l: n};".toList = namedValues ∧
      namedValues.definition? ['f'] = some functionF ∧
      convertMember (some namedValues) [] memberK =
        .ok [(.str "k", .str "<expr>() => 1</expr>")] ∧
      convertMember (some namedValues) [['f']]
          (pairOf (leafAt .propertyName 45 ['k']) functionF) =
        .ok [(.str "k", .str "<expr>AnonymousFunctionAgent</expr>")] ∧
      convertMember (some namedValues) [] memberK ≠
        convertMember (some namedValues) [['f']]
          (pairOf (leafAt .propertyName 45 ['k']) functionF) := by
  have hd : namedValues.definition? ['f'] = some functionF := by
    rw [Tree.definition?_eq]
    rfl
  have hnamed : convertMember (some namedValues) [] memberK =
      .ok [(.str "k", .str "<expr>() => 1</expr>")] := by
    rw [memberK, convertMember_of_isPair (isPair_pairOf _ _),
      pairValue_of_definition? rfl hd (by simp), convert_of_function rfl]
    rfl
  have hinline : convertMember (some namedValues) [['f']]
      (pairOf (leafAt .propertyName 45 ['k']) functionF) =
        .ok [(.str "k", .str "<expr>AnonymousFunctionAgent</expr>")] := by
    rw [convertMember_of_isPair (isPair_pairOf _ _), pairValue_of_function rfl]
    rfl
  refine ⟨rfl, hd, hnamed, hinline, ?_⟩
  rw [hnamed, hinline]
  intro h
  have hvalue := congrArg Prod.snd (List.singleton_injective (Except.ok.inj h))
  exact absurd (Value.str.inj hvalue) (by decide)

/-! ## The spread of a name -/

/-- An object literal whose one member is the spread of a name. -/
def Tree.IsSpreadOf (t : Tree) (name : Name) : Prop :=
  t.kind = .object ∧ ∃ l m target, t.labelled = [(l, m)] ∧ m.kind = .spread ∧
    m.namedChildren.head? = some target ∧ target.kind = .identifier ∧ target.text = name

/-- Whether a spread of a name merges its definition: an object literal, unless the name is being
followed. -/
def Merges (root : Tree) (active : List Name) (name : Name) : Prop :=
  name ∉ active ∧ ∃ d, root.definition? name = some d ∧ d.kind = .object

theorem convertSpread_of_object (hk : target.kind = .identifier)
    (hd : root.definition? target.text = some d) (hobj : d.kind = .object)
    (ha : target.text ∉ active) :
    convertSpread (some root) active target =
      (convertMembers (some root) (target.text :: active) d.labelled).map (Entries.putAll []) := by
  rw [← eval_planSpread, planSpread]
  simp only [hk, hd, hobj, ha, Guard.cyclic, List.contains_eq_mem, decide_false,
    Bool.false_eq_true, if_true, if_false, Plan.ask, Plan.eval_bind, Plan.eval_call,
    Plan.eval_done, Plan.eval_pure, answer]
  cases convertMembers (some root) (target.text :: active) d.labelled <;> rfl

theorem convertSpread_of_not_merges (hk : target.kind = .identifier)
    (h : ¬ Merges root active target.text) :
    convertSpread (some root) active target =
      .ok [(.str ("..." ++ Text.ofChars target.text), marker target.text)] := by
  rw [← eval_planSpread, planSpread, if_pos hk]
  split
  case isTrue => rfl
  case isFalse ha =>
    split
    case h_1 => rfl
    case h_2 d hd =>
      have ha : target.text ∉ active := by simpa [Guard.cyclic] using ha
      have hobj : d.kind ≠ .object := fun hobj => h ⟨ha, d, hd, hobj⟩
      rw [if_neg hobj]
      rfl

theorem convertMember_of_spread (hm : m.kind = .spread)
    (ht : m.namedChildren.head? = some target) :
    convertMember (some root) active m = convertSpread (some root) active target := by
  rw [← eval_planMember, planMember, hm, ht]
  rfl

/-- With a single spread as its member, an object literal is what the spread supplies. -/
theorem convert_of_spread {l : Label} (ht : t.kind = .object) (hlabelled : t.labelled = [(l, m)])
    (hm : m.kind = .spread) (htarget : m.namedChildren.head? = some target) :
    convert (some root) active t = (convertSpread (some root) active target).map
      fun es => .map (Entries.putAll [] es) := by
  rw [convert_of_object ht, hlabelled, convertMembers, convertMembers,
    convertMember_of_spread hm htarget]
  cases convertSpread (some root) active target with
  | error _ => rfl
  | ok es => simp [Bind.bind, Except.bind, Except.map]

/-- The entries of an object literal make up a mapping as they are, once later ones have taken the
place of earlier ones. -/
theorem putAll_putAll_of_convertMembers {ms : List (Label × Tree)}
    (h : convertMembers (some root) active ms = .ok es) :
    Entries.putAll [] (Entries.putAll [] es) = Entries.putAll [] es := by
  have hplain : PlainEntries es :=
    promise_of_answer (plainResult_plan .cyclic root) (c := ⟨active, .members ms⟩) h
  exact Entries.putAll_nil_of_hasPlainKeys hplain.hasPlainKeys

theorem convert_of_merges (ht : t.IsSpreadOf name) (h : Merges root active name) :
    convert (some root) active t = convertReference (some root) active name := by
  obtain ⟨hobj, l, m, target, hlabelled, hm, htarget, hk, rfl⟩ := ht
  obtain ⟨ha, d, hd, hdobj⟩ := h
  rw [convert_of_spread hobj hlabelled hm htarget, convertSpread_of_object hk hd hdobj ha,
    convertReference_of_definition? hd ha, convert_of_object hdobj]
  cases hes : convertMembers (some root) (target.text :: active) d.labelled with
  | error _ => rfl
  | ok es =>
    simp only [Except.map]
    rw [putAll_putAll_of_convertMembers hes]

theorem convert_of_not_merges (ht : t.IsSpreadOf name) (h : ¬ Merges root active name) :
    convert (some root) active t =
      .ok (.map [(.str ("..." ++ Text.ofChars name), marker name)]) := by
  obtain ⟨hobj, l, m, target, hlabelled, hm, htarget, hk, rfl⟩ := ht
  rw [convert_of_spread hobj hlabelled hm htarget, convertSpread_of_not_merges hk h]
  rfl

/-! ## Which definitions are mappings -/

theorem number_of_doubleValue (x : Double) :
    (∃ n, doubleValue x = .int n) ∨ doubleValue x = .float x := by
  unfold doubleValue
  split
  · split
    · exact .inl ⟨_, rfl⟩
    · exact .inr rfl
  · exact .inr rfl

theorem number_of_numberValue? {s : Text} {v : Value} (h : numberValue? s = some v) :
    (∃ n, v = .int n) ∨ ∃ x, v = .float x := by
  have hwhole {n? : Option Int} (h : n?.map Value.int = some v) : ∃ n, v = .int n := by
    obtain ⟨n, _, hn⟩ := Option.map_eq_some_iff.1 h
    exact ⟨n, hn.symm⟩
  unfold numberValue? cleanNumber? at h
  split at h
  · cases h
  split at h
  · exact .inl (hwhole h)
  split at h
  · exact .inl (hwhole h)
  split at h
  · exact .inl (hwhole h)
  split at h
  case h_1 x _ =>
    split at h
    · obtain rfl := Option.some.inj h
      exact (number_of_doubleValue x).imp_right fun hx => ⟨x, hx⟩
    · cases h
  case h_2 => cases h

/-- Only an object literal, or a name that stands for one, is converted to a mapping. -/
theorem kind_of_convert_eq_map (h : convert (some root) active t = .ok (.map es)) :
    t.kind = .object ∨ t.kind = .identifier := by
  rw [convert] at h
  split at h
  case h_1 hk => exact .inl hk
  case h_2 =>
    obtain ⟨_, _, hv⟩ := exists_of_bind_eq_ok h
    cases hv
  case h_3 hk => exact .inr hk
  case h_4 =>
    obtain ⟨_, _, hv⟩ := exists_of_bind_eq_ok h
    cases hv
  case h_5 =>
    have hv := Except.ok.inj h
    cases hn : numberValue? (Text.ofChars t.text) with
    | none =>
      rw [hn] at hv
      cases hv
    | some v =>
      rw [hn] at hv
      rcases number_of_numberValue? hn with ⟨_, rfl⟩ | ⟨_, rfl⟩ <;> cases hv
  all_goals cases h

/-! ## The spread of a name and the name on its own -/

/-- A name that is converted to a mapping is merged by its spread, or it is defined as another
name. -/
theorem merges_or_renamed (h : convertReference (some root) active name = .ok (.map es)) :
    Merges root active name ∨ ∃ d, root.definition? name = some d ∧ d.kind = .identifier := by
  obtain ⟨ha, d, hd⟩ := definition?_of_convertReference h
  rw [convertReference_of_definition? hd ha] at h
  rcases kind_of_convert_eq_map h with hobj | hname
  · exact .inl ⟨ha, d, hd, hobj⟩
  · exact .inr ⟨d, hd, hname⟩

/-- **The spread of a name gives what the name gives, unless it is defined as another name.** If a
name gives a mapping, and is not defined as another name, its spread gives the same mapping. A
spread that is merged ends in all as the name does, and any other is kept under its own text. It is
kept for a name that gives a mapping only if that name is defined as another one. -/
theorem spread_merges_what_reference_gives (ht : t.IsSpreadOf name) :
    (∀ d es, root.definition? name = some d → d.kind ≠ .identifier →
        convertReference (some root) active name = .ok (.map es) →
        convert (some root) active t = .ok (.map es)) ∧
      (Merges root active name →
        convert (some root) active t = convertReference (some root) active name) ∧
      (¬ Merges root active name → convert (some root) active t =
        .ok (.map [(.str ("..." ++ Text.ofChars name), marker name)])) ∧
      ∀ es, convertReference (some root) active name = .ok (.map es) →
        ¬ Merges root active name →
        ∃ d, root.definition? name = some d ∧ d.kind = .identifier := by
  refine ⟨fun d es hd hne href => ?_, convert_of_merges ht, convert_of_not_merges ht,
    fun es href hnot => (merges_or_renamed href).resolve_left hnot⟩
  rcases merges_or_renamed href with hmerges | ⟨d', hd', hname⟩
  · rw [convert_of_merges ht hmerges, href]
  · obtain rfl := Option.some.inj (hd.symm.trans hd')
    exact absurd hname hne

/-- An object literal that is the spread of what stands in it. -/
def spreadOf (target : Tree) : Tree :=
  .node .object (target.start - 4) (target.stop + 1) ("\x7b...".toList ++ target.text ++ ['}'])
    [(.plain, .node .spread (target.start - 3) target.stop ("...".toList ++ target.text)
      [(.plain, target)])]

theorem isSpreadOf_leafAt (start : Nat) (name : Name) :
    (spreadOf (leafAt .identifier start name)).IsSpreadOf name :=
  ⟨rfl, _, _, _, rfl, rfl, rfl, rfl, rfl⟩

/-- The object literal that `y` is in `renamedObject`. -/
def objectY : Tree :=
  .node .object 10 16 "{a: 1}".toList
    [(.plain, pairOf (leafAt .propertyName 11 ['a']) (leafAt .number 14 ['1']))]

def spreadX : Tree := spreadOf (leafAt .identifier 46 ['x'])

def spreadY : Tree := spreadOf (leafAt .identifier 54 ['y'])

/-- A script with an object literal that has two names, and the spreads of both. -/
def renamedObject : Tree :=
  .node .other 0 58 "const y = {a: 1}; const x = y; const z = [{...x}, {...y}];".toList [
    (.plain, .node .other 0 16 "const y = {a: 1}".toList [
      (.plain, .node .declarator 6 16 "y = {a: 1}".toList [
        (.name, leafAt .identifier 6 ['y']), (.value, objectY)])]),
    (.plain, .node .other 18 29 "const x = y".toList [
      (.plain, .node .declarator 24 29 "x = y".toList [
        (.name, leafAt .identifier 24 ['x']), (.value, leafAt .identifier 28 ['y'])])]),
    (.plain, .node .other 31 57 "const z = [{...x}, {...y}]".toList [
      (.plain, .node .declarator 37 57 "z = [{...x}, {...y}]".toList [
        (.name, leafAt .identifier 37 ['z']),
        (.value, .node .array 41 57 "[{...x}, {...y}]".toList [
          (.plain, spreadX), (.plain, spreadY)])])])]

theorem definition?_objectY : renamedObject.definition? ['y'] = some objectY := by
  rw [Tree.definition?_eq]
  rfl

theorem convert_objectY (active : List Name) :
    convert (some renamedObject) active objectY = .ok (.map [(.str "a", .int 1)]) := by
  have hone : convert (some renamedObject) active (leafAt .number 14 ['1']) = .ok (.int 1) := by
    rw [← eval_planNode]
    rfl
  rw [convert_of_object rfl, objectY, Tree.labelled, convertMembers, convertMembers,
    convertMember_of_isPair (isPair_pairOf _ _), pairValue_of_not_function (by decide), hone]
  rfl

theorem spreadY_merges_objectY :
    spreadY.IsSpreadOf ['y'] ∧ Merges renamedObject [] ['y'] ∧
      convert (some renamedObject) [] spreadY
        = convertReference (some renamedObject) [] ['y'] := by
  have hspread : spreadY.IsSpreadOf ['y'] := isSpreadOf_leafAt 54 ['y']
  have hmerges : Merges renamedObject [] ['y'] := ⟨by simp, objectY, definition?_objectY, rfl⟩
  exact ⟨hspread, hmerges, (spread_merges_what_reference_gives hspread).2.1 hmerges⟩

/-- A name that is defined as another name gives the mapping that this one gives, but its spread
is kept. -/
theorem spreadX_keeps_its_text :
    treeOf "const y = {a: 1}; const x = y; const z = [{...x}, {...y}];".toList
        = renamedObject ∧
      spreadX.IsSpreadOf ['x'] ∧
      convertReference (some renamedObject) [] ['x'] = .ok (.map [(.str "a", .int 1)]) ∧
      convert (some renamedObject) [] spreadX =
        .ok (.map [(.str "...x", .str "<expr>x</expr>")]) ∧
      convert (some renamedObject) [] spreadX
        ≠ convertReference (some renamedObject) [] ['x'] := by
  have hd : renamedObject.definition? ['x'] = some (leafAt .identifier 28 ['y']) := by
    rw [Tree.definition?_eq]
    rfl
  have hspread : spreadX.IsSpreadOf ['x'] := isSpreadOf_leafAt 46 ['x']
  have href : convertReference (some renamedObject) [] ['x'] = .ok (.map [(.str "a", .int 1)]) := by
    rw [convertReference_of_definition? hd (by simp), convert_of_identifier rfl]
    exact (convertReference_of_definition? definition?_objectY (by decide)).trans
      (convert_objectY _)
  have hkept : convert (some renamedObject) [] spreadX =
      .ok (.map [(.str "...x", .str "<expr>x</expr>")]) := by
    have hnot : ¬ Merges renamedObject [] ['x'] := by
      rintro ⟨_, d, hd', hobj⟩
      obtain rfl := Option.some.inj (hd.symm.trans hd')
      cases hobj
    exact convert_of_not_merges hspread hnot
  refine ⟨rfl, hspread, href, hkept, ?_⟩
  rw [href, hkept]
  intro h
  have hentry := List.singleton_injective (Value.map.inj (Except.ok.inj h))
  cases congrArg Prod.snd hentry

end AgentFlow.Script
