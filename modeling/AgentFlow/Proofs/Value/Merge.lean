import AgentFlow.Proofs.Value.Plain
import Mathlib.Data.List.Induction

/-!
# Mappings merged from left to right

A mapping merged with a later one has the keys of both, those of the earlier one first and in its
order. At a key of both it has the value of the later one. Putting entries in one after the other is
merging, however often a key is repeated among them.

* `Entries.get?_put`: what is found in a mapping into which a value was put.
* `Entries.merge`, `Entries.get?_merge`: the merged mapping, and what is found in it.
* `Entries.putAll_eq_merge`: to put all entries in is to merge the mapping that they make up.
-/

namespace AgentFlow

/-- No key but the text itself is the same key as a text. -/
theorem Value.sameKey_str_iff {k : Value} {t : Text} : k.sameKey (.str t) = true ↔ k = .str t := by
  cases k <;> simp [sameKey, keyNumber?]

namespace Entries

/-- A mapping merged with a later one: keys keep the place where they stand first, and the value of
the later mapping takes the place of the earlier one. -/
def merge (es more : Entries) : Entries :=
  es.map (fun e => (e.1, (more.get? e.1).getD e.2)) ++ more.filter fun e => !es.hasKey e.1

variable {es more : Entries} {s : Text}

/-! ## Looking up a text -/

theorem get?_nil (k : Value) : get? [] k = none := rfl

theorem get?_cons (e : Value × Value) (es : Entries) (k : Value) :
    get? (e :: es) k = if e.1.sameKey k then some e.2 else get? es k := by
  rw [get?, List.find?_cons]
  cases h : e.1.sameKey k
  · rfl
  · rfl

theorem get?_append (es more : Entries) (k : Value) :
    get? (es ++ more) k = (get? es k).or (get? more k) := by
  rw [get?, List.find?_append, Option.map_or]
  rfl

theorem hasKey_eq (es : Entries) (k : Value) : es.hasKey k = (es.get? k).isSome := by
  rw [hasKey, get?, Option.isSome_map, List.isSome_find?]

/-- A value that was put in is found at its key, and at other keys is found what was there. -/
theorem get?_put (es : Entries) (s t : Text) (v : Value) :
    get? (put es (.str s) v) (.str t) = if s = t then some v else get? es (.str t) := by
  induction es with
  | nil => simp [put, get?_cons, get?_nil]
  | cons e es ih =>
    obtain ⟨k, w⟩ := e
    rw [put]
    by_cases hk : k = .str s
    · subst hk
      rw [if_pos (by simp), get?_cons, get?_cons]
      simp only [Value.sameKey_str, beq_iff_eq]
      split <;> rfl
    · rw [if_neg (Value.sameKey_str_iff.not.2 hk), get?_cons, get?_cons, ih]
      by_cases hkt : k.sameKey (.str t) = true
      · have hst : s ≠ t := by
          rintro rfl
          exact hk (Value.sameKey_str_iff.1 hkt)
        rw [if_pos hkt, if_neg hst, if_pos hkt]
      · rw [if_neg hkt, if_neg hkt]

/-- A text is looked up in entries with new values as in the old ones. -/
theorem get?_map (es : Entries) (t : Text) (f : Value → Value → Value) :
    get? (es.map fun e => (e.1, f e.1 e.2)) (.str t) = (get? es (.str t)).map (f (.str t)) := by
  induction es with
  | nil => rfl
  | cons e es ih =>
    rw [List.map_cons, get?_cons, get?_cons, ih]
    by_cases he : e.1.sameKey (.str t) = true
    · rw [if_pos he, if_pos he, Value.sameKey_str_iff.1 he]
      rfl
    · rw [if_neg he, if_neg he]

/-- A text is not found among entries of which it is left out, and else where it was. -/
theorem get?_filter (es : Entries) (t : Text) (p : Value → Bool) :
    get? (es.filter fun e => p e.1) (.str t) = if p (.str t) then get? es (.str t) else none := by
  induction es with
  | nil => simp [get?_nil]
  | cons e es ih =>
    rw [get?_cons, List.filter_cons]
    by_cases he : e.1.sameKey (.str t) = true
    · rw [if_pos he, Value.sameKey_str_iff.1 he]
      split
      · rw [get?_cons, if_pos he]
      · rw [ih, if_neg ‹_›]
    · rw [if_neg he]
      split
      · rw [get?_cons, if_neg he, ih]
      · exact ih

/-! ## Putting a value into parts of a mapping -/

theorem put_append_of_hasKey {k : Value} (h : es.hasKey k = true) (more : Entries) (v : Value) :
    put (es ++ more) k v = put es k v ++ more := by
  induction es with
  | nil => cases h
  | cons e es ih =>
    rw [List.cons_append, put, put]
    by_cases he : e.1.sameKey k = true
    · rw [if_pos he, if_pos he]
      rfl
    · have htail : hasKey es k = true := by simpa [hasKey, he] using h
      rw [if_neg he, if_neg he, ih htail]
      rfl

theorem put_append_of_not_hasKey {k : Value} (h : es.hasKey k = false) (more : Entries)
    (v : Value) : put (es ++ more) k v = es ++ put more k v := by
  induction es with
  | nil => rfl
  | cons e es ih =>
    have he : e.1.sameKey k = false ∧ hasKey es k = false := by simpa [hasKey] using h
    rw [List.cons_append, put, if_neg (by simp [he.1]), ih he.2]
    rfl

/-- A value put into entries with new values takes the place of the one at its key. -/
theorem put_map (h : (es.map (·.1)).Nodup) (hkey : es.hasKey (.str s) = true)
    (f : Value × Value → Value) (v : Value) :
    put (es.map fun e => (e.1, f e)) (.str s) v =
      es.map fun e => (e.1, if e.1.sameKey (.str s) then v else f e) := by
  induction es with
  | nil => cases hkey
  | cons e es ih =>
    rw [List.map_cons, List.nodup_cons] at h
    rw [List.map_cons, List.map_cons, put]
    by_cases he : e.1.sameKey (.str s) = true
    · rw [if_pos he, if_pos he]
      congr 1
      refine List.map_congr_left fun d hd => ?_
      have hne : ¬ d.1.sameKey (.str s) = true := by
        rw [Value.sameKey_str_iff, ← Value.sameKey_str_iff.1 he]
        intro hde
        exact h.1 (hde ▸ List.mem_map_of_mem hd)
      rw [if_neg hne]
    · have hkey : hasKey es (.str s) = true := by simpa [hasKey, he] using hkey
      rw [if_neg he, if_neg he, ih h.2 hkey]

/-- Entries with some keys left out take up what is put in if its key is not left out. -/
theorem filter_put (more : Entries) (s : Text) (v : Value) (p : Value → Bool) :
    (put more (.str s) v).filter (fun e => p e.1) =
      if p (.str s) then put (more.filter fun e => p e.1) (.str s) v
      else more.filter fun e => p e.1 := by
  induction more with
  | nil =>
    rw [put, List.filter_cons]
    rfl
  | cons e more ih =>
    obtain ⟨k, w⟩ := e
    rw [put]
    by_cases hk : k = .str s
    · subst hk
      rw [if_pos (by simp), List.filter_cons, List.filter_cons]
      split
      · rw [put, if_pos (by simp)]
      · rfl
    · have hput (rest : Entries) :
          put ((k, w) :: rest) (.str s) v = (k, w) :: put rest (.str s) v :=
        if_neg (Value.sameKey_str_iff.not.2 hk)
      rw [if_neg (Value.sameKey_str_iff.not.2 hk), List.filter_cons, List.filter_cons, ih]
      cases p k
      · rfl
      · rw [if_pos rfl, if_pos rfl, hput]
        split <;> rfl

/-! ## Merging -/

theorem merge_nil (es : Entries) : es.merge [] = es := by
  simp [merge, get?_nil]

/-- A text is looked up in the later mapping first. -/
theorem get?_merge (es more : Entries) (t : Text) :
    get? (es.merge more) (.str t) = (get? more (.str t)).or (get? es (.str t)) := by
  rw [merge, get?_append, get?_map es t fun k w => (more.get? k).getD w,
    get?_filter more t fun k => !es.hasKey k, hasKey_eq]
  cases get? es (.str t) <;> cases get? more (.str t) <;> rfl

theorem hasKey_map (es : Entries) (f : Value × Value → Value) (k : Value) :
    hasKey (es.map fun e => (e.1, f e)) k = hasKey es k := by
  simp [hasKey, List.any_map, Function.comp_def]

/-- A value put into a merged mapping is put into the later mapping. -/
theorem put_merge (h : es.HasTextKeys) (more : Entries) (s : Text) (v : Value) :
    put (es.merge more) (.str s) v = es.merge (put more (.str s) v) := by
  have hlook (e : Value × Value) (he : e ∈ es) :
      ((put more (.str s) v).get? e.1).getD e.2 =
        if e.1.sameKey (.str s) then v else (more.get? e.1).getD e.2 := by
    obtain ⟨t, ht⟩ := h.texts e he
    rw [ht, get?_put, Value.sameKey_str]
    by_cases hst : s = t
    · simp [hst]
    · simp [hst, Ne.symm hst]
  have hmap := List.map_congr_left fun e he => congrArg (Prod.mk e.1) (hlook e he)
  rw [merge, merge, filter_put more s v fun k => !es.hasKey k, hmap]
  cases hkey : es.hasKey (.str s) with
  | true =>
    rw [put_append_of_hasKey (by rw [hasKey_map, hkey]),
      put_map h.nodup hkey fun e => (more.get? e.1).getD e.2]
    rfl
  | false =>
    have hsame : (es.map fun e =>
        (e.1, if e.1.sameKey (.str s) then v else (more.get? e.1).getD e.2)) =
          es.map fun e => (e.1, (more.get? e.1).getD e.2) :=
      List.map_congr_left fun e he => by rw [if_neg (List.any_eq_false.1 hkey e he)]
    rw [put_append_of_not_hasKey (by rw [hasKey_map, hkey]), hsame]
    rfl

/-- **To put all entries into a mapping is to merge it with the mapping that they make up.** -/
theorem putAll_eq_merge (h : es.HasTextKeys) (hm : ∀ e ∈ more, ∃ t, e.1 = .str t) :
    es.putAll more = es.merge (putAll [] more) := by
  induction more using List.reverseRecOn with
  | nil => rw [putAll_nil, putAll_nil, merge_nil]
  | append_singleton more e ih =>
    obtain ⟨t, ht⟩ := hm e (by simp)
    have hmore : ∀ d ∈ more, ∃ t, d.1 = .str t := fun d hd => hm d (by simp [hd])
    rw [putAll_append, putAll_append, ih hmore, putAll_cons, putAll_cons, putAll_nil, putAll_nil,
      ht, put_merge h]

example :
    merge [(.str "x", .int 0), (.str "y", .int 1)] [(.str "z", .int 2), (.str "x", .int 3)] =
      [(.str "x", .int 3), (.str "y", .int 1), (.str "z", .int 2)] := by rfl

end Entries

end AgentFlow
