import AgentFlow.Value.Display

/-!
# Plain data

A value is plain if JSON has a form of its own for all of it: its numbers are finite, its texts
hold no half of a surrogate pair, and its mappings are those with texts as keys, each key once.

* `Value.IsPlain`: the plain values.
* `Entries.putAll_nil_of_hasPlainKeys`: putting entries with distinct texts as keys into an empty
  mapping gives the entries.
* `Entries.HasTextKeys.putAll`: keys stay distinct when entries are put in.
-/

namespace AgentFlow

/-- Keys that are texts, each only once. -/
structure Entries.HasTextKeys (es : Entries) : Prop where
  texts : ∀ e ∈ es, ∃ t, e.1 = .str t
  nodup : (es.map (·.1)).Nodup

/-- Keys that are texts without surrogates, each only once. -/
structure Entries.HasPlainKeys (es : Entries) : Prop where
  texts : ∀ e ∈ es, ∃ cs, e.1 = .str (Text.ofChars cs)
  nodup : (es.map (·.1)).Nodup

/-- Values that JSON text can spell. -/
inductive Value.IsPlain : Value → Prop
  | null : IsPlain .null
  | bool (b : Bool) : IsPlain (.bool b)
  | int (n : Int) : IsPlain (.int n)
  | float {x : Double} (h : x.isFinite) : IsPlain (.float x)
  | str (cs : List Char) : IsPlain (.str (Text.ofChars cs))
  | list {vs : List Value} (h : ∀ v ∈ vs, IsPlain v) : IsPlain (.list vs)
  | map {es : Entries} (hk : es.HasPlainKeys) (hv : ∀ e ∈ es, IsPlain e.2) : IsPlain (.map es)

namespace Entries

/-! ## Putting one entry -/

theorem put_of_not_sameKey {es : Entries} {k : Value} (h : ∀ e ∈ es, e.1.sameKey k = false)
    (v : Value) : put es k v = es ++ [(k, v)] := by
  induction es with
  | nil => rfl
  | cons e es ih =>
    have he := h e List.mem_cons_self
    rw [put, if_neg (by simp [he]), ih fun d hd => h d (List.mem_cons_of_mem _ hd)]
    rfl

/-- An entry of a mapping into which a value was put is an old one or holds the value. -/
theorem mem_put {es : Entries} {k v : Value} {e : Value × Value} (h : e ∈ put es k v) :
    e ∈ es ∨ e.2 = v := by
  induction es with
  | nil =>
    obtain rfl := List.mem_singleton.1 h
    exact .inr rfl
  | cons d es ih =>
    rw [put] at h
    split at h
    · rcases List.mem_cons.1 h with rfl | h
      · exact .inr rfl
      · exact .inl (List.mem_cons_of_mem _ h)
    · rcases List.mem_cons.1 h with rfl | h
      · exact .inl List.mem_cons_self
      · exact (ih h).imp_left (List.mem_cons_of_mem _)

/-- A key that is put in is there already, or the entry comes last. -/
theorem put_cases (es : Entries) (k v : Value) :
    (put es k v).map (·.1) = es.map (·.1) ∨
      (∀ e ∈ es, e.1.sameKey k = false) ∧ put es k v = es ++ [(k, v)] := by
  by_cases h : ∀ e ∈ es, e.1.sameKey k = false
  · exact .inr ⟨h, put_of_not_sameKey h v⟩
  · refine .inl ?_
    induction es with
    | nil => simp at h
    | cons e es ih =>
      rw [put]
      split
      · rfl
      case isFalse he =>
        rw [List.map_cons, List.map_cons, ih (by simp_all)]

theorem mem_keys_put {es : Entries} {k v : Value} {e : Value × Value} (h : e ∈ put es k v) :
    e.1 = k ∨ ∃ d ∈ es, e.1 = d.1 := by
  rcases put_cases es k v with hsame | ⟨-, hput⟩
  · obtain ⟨d, hd, hde⟩ := List.mem_map.1 (hsame ▸ List.mem_map_of_mem h : e.1 ∈ es.map (·.1))
    exact .inr ⟨d, hd, hde.symm⟩
  · rw [hput] at h
    rcases List.mem_append.1 h with h | h
    · exact .inr ⟨e, h, rfl⟩
    · exact .inl (List.mem_singleton.1 h ▸ rfl)

theorem HasTextKeys.put {es : Entries} (h : es.HasTextKeys) (t : Text) (v : Value) :
    (es.put (.str t) v).HasTextKeys := by
  refine ⟨fun e he => ?_, ?_⟩
  · rcases mem_keys_put he with hk | ⟨d, hd, hk⟩
    · exact ⟨t, hk⟩
    · exact hk ▸ h.texts d hd
  · rcases put_cases es (.str t) v with hsame | ⟨hnew, hput⟩
    · exact hsame ▸ h.nodup
    · rw [hput, List.map_append]
      refine List.nodup_append.2 ⟨h.nodup, by simp, fun a ha b hb hab => ?_⟩
      obtain ⟨e, he, rfl⟩ := List.mem_map.1 ha
      have hsame := hnew e he
      rw [hab, List.mem_singleton.1 hb] at hsame
      simp at hsame

/-! ## Putting entries one after the other -/

theorem hasTextKeys_nil : HasTextKeys [] := ⟨by simp, by simp⟩

theorem hasPlainKeys_nil : HasPlainKeys [] := ⟨by simp, by simp⟩

/-- Keys stay distinct when entries are put in. -/
theorem HasTextKeys.putAll {es more : Entries} (h : es.HasTextKeys)
    (hm : ∀ e ∈ more, ∃ t, e.1 = .str t) : (es.putAll more).HasTextKeys := by
  induction more generalizing es with
  | nil => exact h
  | cons e more ih =>
    obtain ⟨t, ht⟩ := hm e List.mem_cons_self
    rw [putAll_cons, ht]
    exact ih (h.put t e.2) fun d hd => hm d (List.mem_cons_of_mem _ hd)

/-- What holds of all keys that are put in, and of those there before, holds of the keys of the
mapping. -/
theorem forall_keys_putAll {P : Value → Prop} {es more : Entries} (h : ∀ e ∈ es, P e.1)
    (hm : ∀ e ∈ more, P e.1) : ∀ e ∈ es.putAll more, P e.1 := by
  induction more generalizing es with
  | nil => exact h
  | cons d more ih =>
    refine ih (fun e he => ?_) fun e he => hm e (List.mem_cons_of_mem _ he)
    rcases mem_keys_put he with hk | ⟨c, hc, hk⟩
    · exact hk ▸ hm d List.mem_cons_self
    · exact hk ▸ h c hc

theorem HasPlainKeys.hasTextKeys {es : Entries} (h : es.HasPlainKeys) : es.HasTextKeys :=
  ⟨fun e he => (h.texts e he).imp' Text.ofChars fun _ => id, h.nodup⟩

theorem HasPlainKeys.putAll {es more : Entries} (h : es.HasPlainKeys)
    (hm : ∀ e ∈ more, ∃ cs, e.1 = .str (Text.ofChars cs)) : (es.putAll more).HasPlainKeys :=
  ⟨forall_keys_putAll (P := fun k => ∃ cs, k = .str (Text.ofChars cs)) h.texts hm,
    (h.hasTextKeys.putAll fun e he => (hm e he).imp' Text.ofChars fun _ => id).nodup⟩

/-- What holds of all values that are put in, and of those there before, holds of the values of the
mapping. -/
theorem forall_putAll {P : Value → Prop} {es more : Entries} (h : ∀ e ∈ es, P e.2)
    (hm : ∀ e ∈ more, P e.2) : ∀ e ∈ es.putAll more, P e.2 := by
  induction more generalizing es with
  | nil => exact h
  | cons d more ih =>
    refine ih (fun e he => ?_) fun e he => hm e (List.mem_cons_of_mem _ he)
    rcases mem_put he with he | he
    · exact h e he
    · exact he ▸ hm d List.mem_cons_self

theorem putAll_of_hasPlainKeys {es more : Entries} (h : HasPlainKeys (es ++ more)) :
    es.putAll more = es ++ more := by
  induction more generalizing es with
  | nil => simp [putAll_nil]
  | cons d more ih =>
    have hnew : ∀ e ∈ es, e.1.sameKey d.1 = false := by
      intro e he
      obtain ⟨cs, hcs⟩ := h.texts e (List.mem_append_left _ he)
      obtain ⟨ds, hds⟩ := h.texts d (List.mem_append_right _ List.mem_cons_self)
      have hnodup := h.nodup
      rw [List.map_append] at hnodup
      have hne := (List.nodup_append.1 hnodup).2.2 e.1 (List.mem_map_of_mem he) d.1
        (List.mem_map_of_mem List.mem_cons_self)
      rw [hcs, hds] at hne ⊢
      simpa using hne
    rw [putAll_cons, put_of_not_sameKey hnew]
    have happ : es ++ [(d.1, d.2)] ++ more = es ++ d :: more := by simp
    rw [ih (happ ▸ h), happ]

/-- Entries with distinct texts as keys make up a mapping as they are. -/
theorem putAll_nil_of_hasPlainKeys {es : Entries} (h : es.HasPlainKeys) : putAll [] es = es :=
  putAll_of_hasPlainKeys (show HasPlainKeys ([] ++ es) from h)

end Entries

/-! ## Showing -/

namespace Value

theorem areShowable_iff {vs : List Value} :
    areShowable vs = true ↔ ∀ v ∈ vs, v.isShowable = true := by
  induction vs with
  | nil => simp [areShowable]
  | cons v vs ih => simp [areShowable, ih]

theorem isShowable_of_entriesShowable {es : Entries} (h : entriesShowable es = true) :
    ∀ e ∈ es, e.2.isShowable = true := by
  induction es with
  | nil => simp
  | cons e es ih =>
    obtain ⟨k, v⟩ := e
    simp only [entriesShowable, Bool.and_eq_true] at h
    rintro d hd
    rcases List.mem_cons.1 hd with rfl | hd
    · exact h.1.2
    · exact ih h.2 d hd

end Value

end AgentFlow
