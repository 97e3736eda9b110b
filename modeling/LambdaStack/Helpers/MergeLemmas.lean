/-
# What the merger does to one key and one item

The lemmas every result about `merge_objdict` rests on. A run of the loop is
described key by key: a key only one side has keeps that side's value, and a key
both have gets the value `mergeValue` computes. A list merged by name is the
merged default items followed by the unmatched items of the extending list.
-/

import LambdaStack.Helpers.ObjdictHelpers

namespace LambdaStack

open Lib

/-- What a merge makes of the values two mappings hold under one key, or two
lists under one item name. -/
inductive Outcome : Option Val → Option Val → Option Val → Prop
  | default (x : Option Val) : Outcome x none x
  | user (v : Val) : Outcome none (some v) (some v)
  | merged {key : String} {x v r : Val} (h : mergeValue key x v = .ok r) :
      Outcome (some x) (some v) (some r)

/-! ## The loop over keys -/

theorem mergeObjdict_cons (toMerge : Entries) (entry : String × Val) (rest : Entries) :
    mergeObjdict toMerge (entry :: rest) =
      (mergeEntry toMerge entry >>= fun toMerge => mergeObjdict toMerge rest) := rfl

/-- One step of the loop assigns its key, and the value is the outcome of the
two values under it. -/
theorem mergeEntry_eq_ok {toMerge next : Entries} {key : String} {val : Val}
    (h : mergeEntry toMerge (key, val) = .ok next) :
    ∃ r, next = dictSet key r toMerge ∧
      Outcome (toMerge.lookup key) (some val) (some r) := by
  unfold mergeEntry at h
  cases hlookup : toMerge.lookup key with
  | none =>
      simp only [hlookup, Except.ok.injEq] at h
      exact ⟨val, h.symm, .user val⟩
  | some current =>
      simp only [hlookup, bind_eq_ok, Except.ok.injEq] at h
      obtain ⟨merged, hmerged, rfl⟩ := h
      exact ⟨merged, rfl, .merged hmerged⟩

/-- The loop, key by key. -/
theorem mergeObjdict_outcome {toMerge extendBy result : Entries}
    (h : mergeObjdict toMerge extendBy = .ok result) (hkeys : (dictKeys extendBy).Nodup)
    (key : String) :
    Outcome (toMerge.lookup key) (extendBy.lookup key) (result.lookup key) := by
  induction extendBy generalizing toMerge with
  | nil =>
      cases h
      exact .default _
  | cons entry rest ih =>
      obtain ⟨k, v⟩ := entry
      rw [mergeObjdict_cons, bind_eq_ok] at h
      obtain ⟨next, hnext, hrest⟩ := h
      obtain ⟨r, rfl, hr⟩ := mergeEntry_eq_ok hnext
      rw [dictKeys_cons, List.nodup_cons] at hkeys
      have hout := ih hrest hkeys.2
      by_cases hk : key = k
      · subst hk
        have hnone : rest.lookup key = none :=
          lookup_eq_none_iff_not_mem_dictKeys.mpr hkeys.1
        rw [hnone, lookup_dictSet_self] at hout
        rw [List.lookup_cons_self]
        generalize result.lookup key = z at hout
        cases hout
        exact hr
      · have hne : (key == k) = false := by simpa using hk
        rwa [List.lookup_cons, hne, ← lookup_dictSet_ne hk r toMerge]

/-- The keys of a merged mapping: those of the default in their order, then the
new ones in the order of the extending mapping. -/
theorem dictKeys_mergeObjdict {toMerge extendBy result : Entries}
    (h : mergeObjdict toMerge extendBy = .ok result) (hkeys : (dictKeys extendBy).Nodup) :
    dictKeys result =
      dictKeys toMerge ++ (dictKeys extendBy).filter (· ∉ dictKeys toMerge) := by
  induction extendBy generalizing toMerge with
  | nil => cases h; simp
  | cons entry rest ih =>
      obtain ⟨k, v⟩ := entry
      rw [mergeObjdict_cons, bind_eq_ok] at h
      obtain ⟨next, hnext, hrest⟩ := h
      obtain ⟨r, rfl, -⟩ := mergeEntry_eq_ok hnext
      rw [dictKeys_cons, List.nodup_cons] at hkeys
      rw [ih hrest hkeys.2]
      by_cases hmem : k ∈ dictKeys toMerge
      · simp [dictKeys_dictSet_of_mem hmem, hmem]
      · rw [dictSet_of_not_mem hmem]
        have hfilter : (dictKeys rest).filter (· ∉ dictKeys (toMerge ++ [(k, r)])) =
            (dictKeys rest).filter (· ∉ dictKeys toMerge) := by
          apply List.filter_congr
          intro key hkey
          have hne : key ≠ k := fun heq => hkeys.1 (heq ▸ hkey)
          simp [hne]
        rw [hfilter]
        simp [hmem]

/-- A property of the values on both sides that merging two values keeps is
kept by the whole loop. -/
theorem mergeObjdict_values {P : Val → Prop} {toMerge extendBy result : Entries}
    (h : mergeObjdict toMerge extendBy = .ok result)
    (hdefault : ∀ entry ∈ toMerge, P entry.2) (huser : ∀ entry ∈ extendBy, P entry.2)
    (hmerge : ∀ entry ∈ extendBy, ∀ key x r, P x → mergeValue key x entry.2 = .ok r → P r) :
    ∀ entry ∈ result, P entry.2 := by
  induction extendBy generalizing toMerge with
  | nil => cases h; exact hdefault
  | cons entry rest ih =>
      obtain ⟨k, v⟩ := entry
      rw [mergeObjdict_cons, bind_eq_ok] at h
      obtain ⟨next, hnext, hrest⟩ := h
      obtain ⟨r, rfl, hr⟩ := mergeEntry_eq_ok hnext
      have hPr : P r := by
        generalize hx : toMerge.lookup k = x at hr
        cases hr with
        | user => exact huser (k, v) (by simp)
        | merged hval =>
            exact hmerge (k, v) (by simp) _ _ _
              (hdefault _ (mem_of_lookup_eq_some hx)) hval
      refine ih hrest (fun entry hmem => ?_) (fun entry hmem => huser entry (by simp [hmem]))
        fun entry hmem => hmerge entry (by simp [hmem])
      rcases mem_dictSet hmem with rfl | hmem
      · exact hPr
      · exact hdefault entry hmem

/-! ## The value under a known key -/

theorem mergeValue_dict_eq_ok {key : String} {current r : Val} {extendBy : Entries}
    (h : mergeValue key current (.dict extendBy) = .ok r) :
    ∃ toMerge result, current = .dict toMerge ∧ r = .dict result ∧
      mergeObjdict toMerge extendBy = .ok result := by
  unfold mergeValue at h
  cases current with
  | dict toMerge =>
      simp only [bind_eq_ok, Except.ok.injEq] at h
      obtain ⟨result, hresult, rfl⟩ := h
      exact ⟨toMerge, result, rfl, rfl, hresult⟩
  | scalar | list => cases h

/-- What the item loop of `merge_list` does to one item of the merged list. -/
def mergeMatched (extendBy : List Val) (item : Val) : Res Val := do
  let found ← matchesOf item extendBy
  if found.length = 1 then mergeFirst item extendBy else .ok item

theorem mergeValue_list_eq_ok {key : String} {current r : Val} {extendBy : List Val}
    (h : mergeValue key current (.list extendBy) = .ok r) :
    ∃ toMerge result, current = .list toMerge ∧ r = .list result ∧
      mergeList toMerge extendBy key (mergeMatched extendBy) = .ok result := by
  unfold mergeValue at h
  cases current with
  | list toMerge =>
      simp only [bind_eq_ok, Except.ok.injEq] at h
      obtain ⟨result, hresult, rfl⟩ := h
      exact ⟨toMerge, result, rfl, rfl, hresult⟩
  | scalar | dict => cases h

theorem mergeValue_scalar_eq_ok {key : String} {current r : Val} {s : Scalar}
    (h : mergeValue key current (.scalar s) = .ok r) :
    r = .scalar s ∧ ∃ old, current = .scalar old := by
  unfold mergeValue at h
  split at h
  · next htype =>
      cases h
      refine ⟨rfl, ?_⟩
      cases current with
      | scalar old => exact ⟨old, rfl⟩
      | list | dict => cases s <;> simp [Val.pyType] at htype
  · cases h

/-- Merging two items is merging two mappings under a key. -/
theorem mergeInto_eq_ok {item x r : Val} (h : mergeInto item x = .ok r) (key : String) :
    mergeValue key item x = .ok r := by
  cases x with
  | scalar | list => cases h
  | dict extendBy =>
      simp only [mergeInto, bind_eq_ok, Except.ok.injEq] at h
      obtain ⟨toMerge, hitem, result, hresult, rfl⟩ := h
      cases item with
      | dict entries =>
          cases hitem
          simp [mergeValue, hresult]
      | scalar | list => cases hitem

theorem mergeFirst_eq (item : Val) (extendBy : List Val) :
    mergeFirst item extendBy =
      match extendBy.find? (isMatch item) with
      | some x => mergeInto item x
      | none => .ok item := by
  induction extendBy with
  | nil => rfl
  | cons x rest ih =>
      rw [mergeFirst, List.find?_cons]
      cases isMatch item x <;> simp [ih]

/-! ## Well-formed results -/

/-- The parts of a list that `merge_list` returns: the extending list, its named
items, or the merged default items followed by items of the extending list. -/
theorem mergeList_mem {toMerge extendBy result : List Val} {key : String}
    {mergeItem : Val → Res Val} (h : mergeList toMerge extendBy key mergeItem = .ok result) :
    ∀ r ∈ result, r ∈ extendBy ∨ ∃ x ∈ toMerge, mergeItem x = .ok r := by
  have happend : ∀ (extendBy start finish : List Val),
      appendUnmatched start extendBy = .ok finish →
        ∀ r ∈ finish, r ∈ start ∨ r ∈ extendBy := by
    intro extendBy
    induction extendBy with
    | nil =>
        intro start finish h r hr
        cases h
        exact Or.inl hr
    | cons item rest ih =>
        intro start finish h r hr
        unfold appendUnmatched at h
        split at h
        · exact (ih _ _ h r hr).imp_right fun hmem => by simp [hmem]
        · simp only [bind_eq_ok] at h
          obtain ⟨name, -, known, -, h⟩ := h
          rcases ih _ _ h r hr with hmem | hmem
          · split at hmem
            · exact Or.inl hmem
            · rcases List.mem_append.mp hmem with hmem | hmem
              · exact Or.inl hmem
              · exact Or.inr (by simp [List.mem_singleton.mp hmem])
          · exact Or.inr (by simp [hmem])
  intro r hr
  unfold mergeList at h
  split at h
  · simp only [bind_eq_ok] at h
    obtain ⟨merge, -, -, -, -, -, h⟩ := h
    split at h
    · rw [bind_eq_ok] at h
      obtain ⟨merged, hmerged, h⟩ := h
      rcases happend _ _ _ h r hr with hmem | hmem
      · obtain ⟨x, hx, hxr⟩ := exists_of_mem_mapM hmerged hmem
        exact Or.inr ⟨x, hx, hxr⟩
      · exact Or.inl hmem
    · cases h
      exact Or.inl (List.mem_filter.mp hr).1
  · cases h
    exact Or.inl hr

/-- Merging keeps every mapping of the result free of repeated keys. -/
theorem mergeValue_wellFormed {v : Val} (hv : v.WellFormed) :
    ∀ {key : String} {x r : Val}, x.WellFormed → mergeValue key x v = .ok r →
      r.WellFormed := by
  induction v using Val.induct with
  | scalar s =>
      intro key x r _ h
      rw [(mergeValue_scalar_eq_ok h).1]
      exact .scalar s
  | dict entries ih =>
      intro key x r hx h
      obtain ⟨toMerge, result, rfl, rfl, hrun⟩ := mergeValue_dict_eq_ok h
      obtain ⟨hkeys, hvalues⟩ := Val.wellFormed_dict_iff.mp hv
      obtain ⟨hkeys', hvalues'⟩ := Val.wellFormed_dict_iff.mp hx
      refine .dict ?_ (mergeObjdict_values hrun hvalues' hvalues fun entry hmem _ _ _ =>
        ih entry hmem (hvalues entry hmem))
      rw [dictKeys_mergeObjdict hrun hkeys]
      refine List.nodup_append.mpr ⟨hkeys', hkeys.filter _, fun a ha b hb => ?_⟩
      rintro rfl
      simp [ha] at hb
  | list items ih =>
      intro key x r hx h
      obtain ⟨toMerge, result, rfl, rfl, hrun⟩ := mergeValue_list_eq_ok h
      rw [Val.wellFormed_list_iff] at hv hx
      refine .list fun r hr => ?_
      rcases mergeList_mem hrun r hr with hmem | ⟨x, hmem, hxr⟩
      · exact hv r hmem
      · simp only [mergeMatched, bind_eq_ok] at hxr
        obtain ⟨found, -, hxr⟩ := hxr
        split at hxr
        · rw [mergeFirst_eq] at hxr
          cases hfind : items.find? (isMatch x) with
          | none =>
              rw [hfind] at hxr
              cases hxr
              exact hx _ hmem
          | some e =>
              rw [hfind] at hxr
              have he := List.mem_of_find?_eq_some hfind
              exact ih e he (hv e he) (hx x hmem) (mergeInto_eq_ok hxr key)
        · cases hxr
          exact hx _ hmem

theorem mergeObjdict_wellFormed {toMerge extendBy result : Entries}
    (hto : (Val.dict toMerge).WellFormed) (hext : (Val.dict extendBy).WellFormed)
    (h : mergeObjdict toMerge extendBy = .ok result) : (Val.dict result).WellFormed :=
  @mergeValue_wellFormed _ hext "" _ _ hto (by simp [mergeValue, h])

/-! ## The result as a function of both sides -/

theorem mergeList_key {toMerge extendBy result : List Val} {key : String}
    {mergeItem : Val → Res Val} (h : mergeList toMerge extendBy key mergeItem = .ok result)
    (other : String) : mergeList toMerge extendBy other mergeItem = .ok result := by
  have hstrategy : ∀ merge, mergeStrategy extendBy key = .ok merge →
      mergeStrategy extendBy other = .ok merge := by
    intro merge h
    unfold mergeStrategy at h ⊢
    split at h
    · exact h
    · split at h
      · exact h
      · cases h
  have hunique : ∀ l type u, assertUniqueNamesInNamedList l key type = .ok u →
      assertUniqueNamesInNamedList l other type = .ok u := by
    intro l type u h
    unfold assertUniqueNamesInNamedList at h ⊢
    split at h
    · cases h
    · exact h
  unfold mergeList at h ⊢
  split at h
  · next hnamed =>
      rw [if_pos hnamed]
      simp only [bind_eq_ok] at h ⊢
      obtain ⟨merge, hmerge, u, hto, u', hext, h⟩ := h
      exact ⟨merge, hstrategy _ hmerge, u, hunique _ _ _ hto, u', hunique _ _ _ hext, h⟩
  · next hnamed =>
      rw [if_neg hnamed]
      exact h

/-- The key of two merged values is only in the messages of the exceptions. -/
theorem mergeValue_key {key : String} {x v r : Val} (h : mergeValue key x v = .ok r)
    (other : String) : mergeValue other x v = .ok r := by
  cases v with
  | dict extendBy =>
      obtain ⟨toMerge, result, rfl, rfl, hrun⟩ := mergeValue_dict_eq_ok h
      simp [mergeValue, hrun]
  | list extendBy =>
      obtain ⟨toMerge, result, rfl, rfl, hrun⟩ := mergeValue_list_eq_ok h
      have hother : mergeList toMerge extendBy other (mergeMatched extendBy) = .ok result :=
        mergeList_key hrun other
      unfold mergeValue
      simp only [bind_eq_ok, Except.ok.injEq]
      exact ⟨result, hother, rfl⟩
  | scalar s =>
      unfold mergeValue at h ⊢
      split at h
      · next htype => rw [if_pos htype, h]
      · cases h

/-- What merging gives a key is the user's scalar if it is a scalar at all. -/
theorem Outcome.eq_scalar {x y : Option Val} {s : Scalar} (h : Outcome x y (some (.scalar s)))
    (hy : y ≠ none) : y = some (.scalar s) := by
  cases h with
  | default => exact absurd rfl hy
  | user => rfl
  | @merged key x v r hval =>
      cases v with
      | scalar t => rw [(mergeValue_scalar_eq_ok hval).1]
      | list items =>
          obtain ⟨_, _, -, hr, -⟩ := mergeValue_list_eq_ok hval
          cases hr
      | dict entries =>
          obtain ⟨_, _, -, hr, -⟩ := mergeValue_dict_eq_ok hval
          cases hr

/-- A scalar of the user is what the key gets. -/
theorem Outcome.of_scalar {x z : Option Val} {s : Scalar}
    (h : Outcome x (some (.scalar s)) z) : z = some (.scalar s) := by
  cases h with
  | user => rfl
  | merged h => rw [(mergeValue_scalar_eq_ok h).1]

/-- What is merged over a scalar is what the key gets. -/
theorem Outcome.over_scalar {s : Scalar} {v : Val} {z : Option Val}
    (h : Outcome (some (.scalar s)) (some v) z) : z = some v := by
  cases h with
  | @merged key x v r hval =>
      cases v with
      | scalar t => rw [(mergeValue_scalar_eq_ok hval).1]
      | list items =>
          obtain ⟨_, _, hx, -⟩ := mergeValue_list_eq_ok hval
          cases hx
      | dict entries =>
          obtain ⟨_, _, hx, -⟩ := mergeValue_dict_eq_ok hval
          cases hx

/-- The value a merge gives a key, from the values of both sides. -/
def mergedAttr (key : String) : Option Val → Option Val → Option Val
  | x, none => x
  | none, some v => some v
  | some x, some v => (mergeValue key x v).toOption

theorem Outcome.eq_mergedAttr {x y z : Option Val} (h : Outcome x y z) (key : String) :
    z = mergedAttr key x y := by
  cases h with
  | default => cases x <;> rfl
  | user => rfl
  | merged h => simp [mergedAttr, mergeValue_key h key, Except.toOption]

theorem mergeObjdict_lookup {toMerge extendBy result : Entries}
    (h : mergeObjdict toMerge extendBy = .ok result) (hkeys : (dictKeys extendBy).Nodup)
    (key : String) :
    result.lookup key = mergedAttr key (toMerge.lookup key) (extendBy.lookup key) :=
  (mergeObjdict_outcome h hkeys key).eq_mergedAttr key

end LambdaStack
