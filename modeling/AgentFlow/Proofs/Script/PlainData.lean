import AgentFlow.Proofs.Outcome
import AgentFlow.Proofs.Script.Termination
import AgentFlow.Proofs.Value.Plain

/-!
# Conversion gives plain data

Whatever a script holds, its literals are converted to plain values: numbers are finite, texts
have no half of a surrogate pair, and the keys of a mapping are distinct texts.

* `isPlain_numberValue`: the value of a number literal is plain.
* `convert_isPlain`: the value of a node is plain.
-/

namespace AgentFlow.Script

theorem ofChars_append (cs ds : List Char) :
    Text.ofChars cs ++ Text.ofChars ds = Text.ofChars (cs ++ ds) :=
  List.map_append.symm

theorem isPlain_marker (text : List Char) : (marker text).IsPlain := by
  unfold marker Text.ofString
  rw [ofChars_append, ofChars_append]
  exact .str _

theorem isPlain_stringValue {t : Tree} {s : Text} (h : stringValue t = .ok s) :
    ∃ cs, s = Text.ofChars cs := by
  obtain ⟨parts, _, hparts⟩ := exists_of_bind_eq_ok h
  exact ⟨_, (Except.ok.inj hparts).symm⟩

theorem isPlain_propertyName {key : Tree} {s : Text} (h : propertyName key = .ok s) :
    ∃ cs, s = Text.ofChars cs := by
  unfold propertyName at h
  split at h
  · exact isPlain_stringValue h
  · exact ⟨_, (Except.ok.inj h).symm⟩

theorem isPlain_doubleValue {x : Double} (hx : x.isFinite) : (doubleValue x).IsPlain := by
  unfold doubleValue
  split
  · split
    · exact .int _
    · exact .float hx
  · exact .float hx

theorem isPlain_numberValue {t : Text} {v : Value} (h : numberValue? t = some v) : v.IsPlain := by
  have hint {n? : Option Int} (h : n?.map Value.int = some v) : v.IsPlain := by
    obtain ⟨n, _, rfl⟩ := Option.map_eq_some_iff.1 h
    exact .int n
  unfold numberValue? cleanNumber? at h
  split at h
  · cases h
  split at h
  · exact hint h
  split at h
  · exact hint h
  split at h
  · exact hint h
  split at h
  · split at h
    case isTrue hx => exact Option.some.inj h ▸ isPlain_doubleValue hx
    case isFalse => cases h
  · cases h

theorem isPlain_leafValue {t : Tree} {v : Value} (h : leafValue t = .ok v) : v.IsPlain := by
  unfold leafValue at h
  split at h
  case h_1 =>
    obtain ⟨s, hs, hv⟩ := exists_of_bind_eq_ok h
    obtain ⟨cs, rfl⟩ := isPlain_stringValue hs
    exact Except.ok.inj hv ▸ .str cs
  case h_2 =>
    obtain rfl := Except.ok.inj h
    cases hn : numberValue? (Text.ofChars t.text) with
    | none => exact isPlain_marker _
    | some v => exact isPlain_numberValue hn
  all_goals obtain rfl := Except.ok.inj h
  · exact .bool true
  · exact .bool false
  · exact .null
  · exact isPlain_marker _
  · exact isPlain_marker _

/-! ## Calls -/

/-- Entries of plain values under texts without surrogates. -/
def PlainEntries (es : Entries) : Prop :=
  ∀ e ∈ es, (∃ cs, e.1 = .str (Text.ofChars cs)) ∧ e.2.IsPlain

theorem PlainEntries.singleton {cs : List Char} {v : Value} (h : v.IsPlain) :
    PlainEntries [(.str (Text.ofChars cs), v)] := by
  intro e he
  obtain rfl := List.mem_singleton.1 he
  exact ⟨⟨cs, rfl⟩, h⟩

theorem plainEntries_nil : PlainEntries [] := fun _ he => nomatch he

theorem PlainEntries.append {es more : Entries} (h : PlainEntries es) (hm : PlainEntries more) :
    PlainEntries (es ++ more) := fun e he => (List.mem_append.1 he).elim (h e) (hm e)

theorem PlainEntries.hasPlainKeys {es : Entries} (h : PlainEntries es) :
    (Entries.putAll [] es).HasPlainKeys :=
  Entries.hasPlainKeys_nil.putAll fun e he => (h e he).1

theorem PlainEntries.isPlain_putAll {es : Entries} (h : PlainEntries es) :
    ∀ e ∈ Entries.putAll [] es, e.2.IsPlain :=
  Entries.forall_putAll (by simp) fun e he => (h e he).2

theorem PlainEntries.putAll {es : Entries} (h : PlainEntries es) :
    PlainEntries (Entries.putAll [] es) :=
  fun e he => ⟨h.hasPlainKeys.texts e he, h.isPlain_putAll e he⟩

/-- What the result of a call is to be: a plain value, plain entries or plain values. -/
def PlainResult : (c : Call) → c.Result → Prop
  | ⟨_, .node _⟩, v => v.IsPlain
  | ⟨_, .reference _⟩, v => v.IsPlain
  | ⟨_, .members _⟩, es => PlainEntries es
  | ⟨_, .member _⟩, es => PlainEntries es
  | ⟨_, .spread _⟩, es => PlainEntries es
  | ⟨_, .items _⟩, vs => ∀ v ∈ vs, v.IsPlain

theorem plainResult_node (active : List Name) (t : Tree) :
    (planNode active t).Ensures PlainResult Value.IsPlain := by
  unfold planNode
  split
  case h_1 =>
    simp only [Plan.ensures_bind, Plan.ask, Plan.ensures_call, Plan.ensures_done, Plan.ensures_pure]
    exact fun _ hr es hes => .map (hr es hes).hasPlainKeys (hr es hes).isPlain_putAll
  case h_2 =>
    simp only [Plan.ensures_bind, Plan.ask, Plan.ensures_call, Plan.ensures_done, Plan.ensures_pure]
    exact fun _ hr vs hvs => .list (hr vs hvs)
  case h_3 => exact fun _ hr => hr
  case h_4 => exact fun _ hv => isPlain_leafValue hv

theorem plainResult_reference (guard : Guard) (root : Tree) (active : List Name) (name : Name) :
    (planReference guard root active name).Ensures PlainResult Value.IsPlain := by
  unfold planReference
  split
  · exact (Plan.ensures_pure _ _).2 (isPlain_marker name)
  · split
    · exact (Plan.ensures_pure _ _).2 (isPlain_marker name)
    · exact fun _ hr => hr

theorem plainResult_members (active : List Name) (ms : List (Label × Tree)) :
    (planMembers active ms).Ensures PlainResult PlainEntries := by
  cases ms with
  | nil => exact (Plan.ensures_pure _ _).2 plainEntries_nil
  | cons m ms =>
    simp only [planMembers, Plan.ensures_bind, Plan.ask, Plan.ensures_call, Plan.ensures_done,
      Plan.ensures_pure]
    exact fun _ hr es hes _ hr' rest hrest => (hr es hes).append (hr' rest hrest)

theorem plainResult_member (active : List Name) (m : Tree) :
    (planMember active m).Ensures PlainResult PlainEntries := by
  unfold planMember
  split
  case h_1 =>
    split
    case h_1 key v _ _ =>
      simp only [Plan.ensures_bind, Plan.ensures_done]
      intro k hk
      obtain ⟨cs, rfl⟩ := isPlain_propertyName hk
      split
      · exact (Plan.ensures_pure _ _).2 (PlainEntries.singleton (isPlain_marker _))
      · simp only [Plan.ensures_bind, Plan.ask, Plan.ensures_call, Plan.ensures_done,
          Plan.ensures_pure]
        exact fun _ hr v hv => .singleton (hr v hv)
    case h_2 => exact (Plan.ensures_pure _ _).2 plainEntries_nil
  case h_2 =>
    simp only [Plan.ensures_bind, Plan.ask, Plan.ensures_call, Plan.ensures_done, Plan.ensures_pure]
    exact fun _ hr v hv => .singleton (hr v hv)
  case h_3 =>
    split
    · exact fun _ hr => hr
    · exact (Plan.ensures_pure _ _).2 plainEntries_nil
  case h_4 =>
    split
    case h_1 name _ =>
      simp only [Plan.ensures_bind, Plan.ensures_done, Plan.ensures_pure]
      intro k hk
      obtain ⟨cs, rfl⟩ := isPlain_propertyName hk
      exact .singleton (isPlain_marker _)
    case h_2 => exact (Plan.ensures_pure _ _).2 plainEntries_nil
  case h_5 => exact (Plan.ensures_pure _ _).2 plainEntries_nil

theorem plainResult_spread (guard : Guard) (root : Tree) (active : List Name) (target : Tree) :
    (planSpread guard root active target).Ensures PlainResult PlainEntries := by
  have hkept : (pure [(.str ("..." ++ Text.ofChars target.text), marker target.text)]
      : Plan Entries).Ensures PlainResult PlainEntries := by
    unfold Text.ofString
    rw [ofChars_append, Plan.ensures_pure]
    exact .singleton (isPlain_marker _)
  unfold planSpread
  split
  · split
    · exact hkept
    · split
      · exact hkept
      · split
        · simp only [Plan.ensures_bind, Plan.ask, Plan.ensures_call, Plan.ensures_done,
            Plan.ensures_pure]
          exact fun _ hr es hes => (hr es hes).putAll
        · exact hkept
  · exact hkept

theorem plainResult_items (active : List Name) (ts : List (Label × Tree)) :
    (planItems active ts).Ensures PlainResult fun vs => ∀ v ∈ vs, v.IsPlain := by
  cases ts with
  | nil => exact (Plan.ensures_pure _ _).2 (by simp)
  | cons t ts =>
    simp only [planItems]
    split
    · exact fun _ hr => hr
    · simp only [Plan.ensures_bind, Plan.ask, Plan.ensures_call, Plan.ensures_done,
        Plan.ensures_pure]
      exact fun _ hr v hv _ hr' vs hvs => List.forall_mem_cons.2 ⟨hr v hv, hr' vs hvs⟩

/-- Plans make plain data of plain data. -/
theorem plainResult_plan (guard : Guard) (root : Tree) (c : Call) :
    (plan guard root c).Ensures PlainResult (PlainResult c) := by
  obtain ⟨active, task⟩ := c
  cases task with
  | node t => exact plainResult_node active t
  | reference name => exact plainResult_reference guard root active name
  | members ms => exact plainResult_members active ms
  | member m => exact plainResult_member active m
  | spread target => exact plainResult_spread guard root active target
  | items ts => exact plainResult_items active ts

/-- **The value of a node is plain.** -/
theorem convert_isPlain {root : Tree} {active : List Name} {t : Tree} {v : Value}
    (h : convert (some root) active t = .ok v) : v.IsPlain :=
  promise_of_answer (plainResult_plan .cyclic root) (c := ⟨active, .node t⟩) h

end AgentFlow.Script
