/-
# When a merge succeeds

The conditions under which the merger's loops and checks end without an exception,
and what they return then. Together with the inversion lemmas they determine a
merge that is run again on its own result.
-/

import LambdaStack.Helpers.MergeSpec

namespace LambdaStack

open Lib

/-! ## The loop over keys -/

/-- Mappings with the same keys in the same order and the same values are the same. -/
theorem entries_ext {es fs : Entries} (hkeys : dictKeys es = dictKeys fs)
    (hnodup : (dictKeys es).Nodup) (hlookup : ∀ key, es.lookup key = fs.lookup key) : es = fs := by
  induction es generalizing fs with
  | nil =>
      cases fs with
      | nil => rfl
      | cons entry rest => cases hkeys
  | cons entry rest ih =>
      cases fs with
      | nil => cases hkeys
      | cons entry' rest' =>
          obtain ⟨key, x⟩ := entry
          obtain ⟨key', x'⟩ := entry'
          rw [dictKeys_cons, dictKeys_cons, List.cons.injEq] at hkeys
          obtain ⟨rfl, hkeys⟩ := hkeys
          rw [dictKeys_cons, List.nodup_cons] at hnodup
          have hx : x = x' := by simpa using hlookup key
          rw [hx, ih hkeys hnodup.2]
          intro other
          by_cases hother : other = key
          · subst hother
            rw [lookup_eq_none_iff_not_mem_dictKeys.mpr hnodup.1,
              lookup_eq_none_iff_not_mem_dictKeys.mpr (hkeys ▸ hnodup.1)]
          · have hne : (other == key) = false := by simpa using hother
            simpa [List.lookup_cons, hne] using hlookup other

/-- Assigning a key the value it has. -/
theorem dictSet_self {entries : Entries} {key : String} {x : Val}
    (h : entries.lookup key = some x) : dictSet key x entries = entries := by
  induction entries with
  | nil => cases h
  | cons entry rest ih =>
      obtain ⟨k, v⟩ := entry
      by_cases hk : k = key
      · subst hk
        rw [List.lookup_cons_self, Option.some.injEq] at h
        rw [dictSet, if_pos rfl, h]
      · have hne : (key == k) = false := by simpa using Ne.symm hk
        rw [List.lookup_cons, hne] at h
        rw [dictSet, if_neg hk, ih h]

/-- The loop ends when the merge of each known key does. -/
theorem mergeObjdict_ok {toMerge extendBy : Entries} (hkeys : (dictKeys extendBy).Nodup)
    (hvalues : ∀ entry ∈ extendBy, ∀ x, toMerge.lookup entry.1 = some x →
      ∃ r, mergeValue entry.1 x entry.2 = .ok r) : ∃ r, mergeObjdict toMerge extendBy = .ok r := by
  induction extendBy generalizing toMerge with
  | nil => exact ⟨toMerge, rfl⟩
  | cons entry rest ih =>
      obtain ⟨key, v⟩ := entry
      rw [dictKeys_cons, List.nodup_cons] at hkeys
      obtain ⟨r, hr⟩ : ∃ r, mergeEntry toMerge (key, v) = .ok (dictSet key r toMerge) := by
        unfold mergeEntry
        cases hlookup : toMerge.lookup key with
        | none => exact ⟨v, rfl⟩
        | some x =>
            obtain ⟨r, hr⟩ := hvalues (key, v) List.mem_cons_self x hlookup
            exact ⟨r, by simp only [hr, ok_bind]⟩
      rw [mergeObjdict_cons, hr, ok_bind]
      refine ih hkeys.2 fun entry hentry x hx => ?_
      have hne : entry.1 ≠ key := by
        rintro rfl
        exact hkeys.1 (List.mem_map.mpr ⟨entry, hentry, rfl⟩)
      rw [lookup_dictSet_ne hne] at hx
      exact hvalues entry (List.mem_cons_of_mem _ hentry) x hx

/-- The loop changes nothing when it gives every key the value it has. -/
theorem mergeObjdict_same {toMerge extendBy : Entries}
    (hvalues : ∀ entry ∈ extendBy, ∃ x, toMerge.lookup entry.1 = some x ∧
      mergeValue entry.1 x entry.2 = .ok x) : mergeObjdict toMerge extendBy = .ok toMerge := by
  induction extendBy with
  | nil => rfl
  | cons entry rest ih =>
      obtain ⟨x, hlookup, hx⟩ := hvalues entry List.mem_cons_self
      have hstep : mergeEntry toMerge entry = .ok toMerge := by
        obtain ⟨key, v⟩ := entry
        unfold mergeEntry
        simp only [hlookup, hx, ok_bind, dictSet_self hlookup]
      rw [mergeObjdict_cons, hstep, ok_bind]
      exact ih fun entry hentry => hvalues entry (List.mem_cons_of_mem _ hentry)

/-- The value under a key both sides have. -/
theorem mergeObjdict_value {toMerge extendBy result : Entries} {key : String} {x v : Val}
    (h : mergeObjdict toMerge extendBy = .ok result) (hkeys : (dictKeys extendBy).Nodup)
    (hx : toMerge.lookup key = some x) (hv : extendBy.lookup key = some v) :
    ∃ r, result.lookup key = some r ∧ mergeValue key x v = .ok r := by
  have hout := mergeObjdict_outcome h hkeys key
  rw [hx, hv] at hout
  generalize result.lookup key = z at hout
  cases hout with
  | merged hval => exact ⟨_, rfl, mergeValue_key hval key⟩

theorem mergeObjdict_kept {toMerge extendBy result : Entries} {key : String}
    (h : mergeObjdict toMerge extendBy = .ok result) (hkeys : (dictKeys extendBy).Nodup)
    (hv : extendBy.lookup key = none) : result.lookup key = toMerge.lookup key := by
  have hout := mergeObjdict_outcome h hkeys key
  rw [hv] at hout
  generalize toMerge.lookup key = x at hout ⊢
  generalize result.lookup key = z at hout
  cases hout
  rfl

theorem mergeObjdict_new {toMerge extendBy result : Entries} {key : String} {v : Val}
    (h : mergeObjdict toMerge extendBy = .ok result) (hkeys : (dictKeys extendBy).Nodup)
    (hx : toMerge.lookup key = none) (hv : extendBy.lookup key = some v) :
    result.lookup key = some v := by
  have hout := mergeObjdict_outcome h hkeys key
  rw [hx, hv] at hout
  generalize result.lookup key = z at hout
  cases hout
  rfl

theorem mergeValue_dict_iff {key : String} {es fs : Entries} {r : Val} :
    mergeValue key (.dict es) (.dict fs) = .ok r ↔
      ∃ gs, r = .dict gs ∧ mergeObjdict es fs = .ok gs := by
  constructor
  · intro h
    obtain ⟨_, gs, heq, rfl, hrun⟩ := mergeValue_dict_eq_ok h
    cases heq
    exact ⟨gs, rfl, hrun⟩
  · rintro ⟨gs, rfl, hrun⟩
    simp [mergeValue, hrun]

theorem mergeValue_list_iff {key : String} {xs ys : List Val} {r : Val} :
    mergeValue key (.list xs) (.list ys) = .ok r ↔
      ∃ zs, r = .list zs ∧ mergeList xs ys key (mergeMatched ys) = .ok zs := by
  constructor
  · intro h
    obtain ⟨_, zs, heq, rfl, hrun⟩ := mergeValue_list_eq_ok h
    cases heq
    exact ⟨zs, rfl, hrun⟩
  · rintro ⟨zs, rfl, hrun⟩
    unfold mergeValue
    simp only [bind_eq_ok, Except.ok.injEq]
    exact ⟨zs, hrun, rfl⟩

/-- A merged mapping has the keys of both sides. -/
theorem hasAttr_mergeValue {key other : String} {x v r : Val} {fs : Entries} (hv : v = .dict fs)
    (hkeys : (dictKeys fs).Nodup) (h : mergeValue key x v = .ok r) :
    r.hasAttr other = (x.hasAttr other || v.hasAttr other) := by
  subst hv
  obtain ⟨es, gs, rfl, rfl, hrun⟩ := mergeValue_dict_eq_ok h
  simp only [Val.hasAttr, Val.attr?]
  cases hfs : fs.lookup other with
  | none => rw [mergeObjdict_kept hrun hkeys hfs, Option.isSome_none, Bool.or_false]
  | some v =>
      cases hes : es.lookup other with
      | none => rw [mergeObjdict_new hrun hkeys hes hfs, Option.isSome_some, Bool.or_true]
      | some x =>
          obtain ⟨r, hr, -⟩ := mergeObjdict_value hrun hkeys hes hfs
          rw [hr]
          rfl

/-! ## The checks of `merge_list` -/

/-- The check of the names passes exactly where no two are equal. -/
theorem assertUniqueNames_iff {l : List Val} {key type : String} (hl : (Val.list l).WellFormed) :
    assertUniqueNamesInNamedList l key type = .ok () ↔ UniqueNames l := by
  refine ⟨uniqueNames_of_assert hl, fun hunique => ?_⟩
  rw [Val.wellFormed_list_iff] at hl
  have hnames : (allNames l).Pairwise fun n m => n.pyEq m = false :=
    List.pairwise_filterMap.mpr hunique
  have hwf : ∀ n ∈ allNames l, n.WellFormed := by
    intro n hn
    obtain ⟨x, hx, hxn⟩ := List.mem_filterMap.mp hn
    exact (hl x hx).attr? hxn
  unfold assertUniqueNamesInNamedList
  have hnone : (allNames l).find? (fun name => 1 < (allNames l).countP (·.pyEq name)) = none := by
    rw [List.find?_eq_none]
    intro name hname hcount
    -- two of the names that are counted would be equal
    rw [List.countP_eq_length_filter] at hcount
    match hfilter : (allNames l).filter (·.pyEq name) with
    | [] => simp [hfilter] at hcount
    | [a] => simp [hfilter] at hcount
    | a :: b :: rest =>
        have hsub : [a, b].Sublist (allNames l) := by
          refine List.Sublist.trans ?_ (hfilter ▸ List.filter_sublist)
          exact ((List.nil_sublist rest).cons_cons b).cons_cons a
        have ha : a ∈ (allNames l).filter (·.pyEq name) := by simp [hfilter]
        have hb : b ∈ (allNames l).filter (·.pyEq name) := by simp [hfilter]
        obtain ⟨hamem, haname⟩ := List.mem_filter.mp ha
        obtain ⟨hbmem, hbname⟩ := List.mem_filter.mp hb
        have hab := List.pairwise_iff_forall_sublist.mp hnames hsub
        rw [Val.pyEq_of_pyEq_right (hwf b hbmem) (hwf name hname) haname hbname] at hab
        cases hab
  rw [hnone]

/-- The list asks for no merge. -/
theorem mergeStrategy_false_iff {l : List Val} {key : String} :
    mergeStrategy l key = .ok false ↔
      (∀ x ∈ l, x.hasAttr "_merge" = false) ∨ firstMarker l = some (.bool false) := by
  unfold mergeStrategy firstMarker
  cases hfind : l.find? (·.hasAttr "_merge") with
  | none => simpa [List.find?_eq_none] using hfind
  | some marker =>
      have hmarker : ¬ ∀ x ∈ l, x.hasAttr "_merge" = false := by
        intro hall
        have := hall marker (List.mem_of_find?_eq_some hfind)
        simp [List.find?_some hfind] at this
      simp only [Option.bind_some, hmarker, false_or]
      split
      · next merge h => simp [h, Val.bool]
      · next h =>
          simp only [reduceCtorEq, false_iff]
          exact h false

/-- Two named lists of which the second one overwrites the first one. -/
theorem mergeList_overwrite {toMerge extendBy : List Val} (key : String)
    (mergeItem : Val → Res Val) (hnamed : isNamedList toMerge = true)
    (hnamed' : isNamedList extendBy = true) (hto : (Val.list toMerge).WellFormed)
    (hext : (Val.list extendBy).WellFormed) (hstrategy : mergeStrategy extendBy key = .ok false)
    (hunique : UniqueNames toMerge) (hunique' : UniqueNames extendBy) :
    mergeList toMerge extendBy key mergeItem = .ok (extendBy.filter (·.hasAttr "name")) := by
  unfold mergeList
  rw [if_pos (by simp [hnamed, hnamed']), hstrategy, (assertUniqueNames_iff hto).mpr hunique,
    (assertUniqueNames_iff hext).mpr hunique']
  rfl

theorem mergeList_notNamed {toMerge extendBy : List Val} {key : String}
    {mergeItem : Val → Res Val}
    (hnamed : ¬ (isNamedList toMerge = true ∧ isNamedList extendBy = true)) :
    mergeList toMerge extendBy key mergeItem = .ok extendBy := by
  unfold mergeList
  rw [if_neg (by simpa using hnamed)]

/-- What a merge of two named lists has checked. -/
theorem uniqueNames_of_mergeList {toMerge extendBy result : List Val} {key : String}
    {mergeItem : Val → Res Val} (hnamed : isNamedList toMerge = true)
    (hnamed' : isNamedList extendBy = true) (hto : (Val.list toMerge).WellFormed)
    (hext : (Val.list extendBy).WellFormed)
    (h : mergeList toMerge extendBy key mergeItem = .ok result) :
    UniqueNames toMerge ∧ UniqueNames extendBy := by
  unfold mergeList at h
  rw [if_pos (by simp [hnamed, hnamed'])] at h
  simp only [bind_eq_ok] at h
  obtain ⟨-, -, ⟨⟩, hunique, ⟨⟩, hunique', -⟩ := h
  exact ⟨uniqueNames_of_assert hto hunique, uniqueNames_of_assert hext hunique'⟩

/-- Named lists that are not merged by name ask for no merge. -/
theorem mergeStrategy_of_mergeList {toMerge extendBy result : List Val} {key : String}
    {mergeItem : Val → Res Val} (hnamed : isNamedList toMerge = true)
    (hnamed' : isNamedList extendBy = true) (hby : ¬ MergedByName toMerge extendBy)
    (h : mergeList toMerge extendBy key mergeItem = .ok result) :
    mergeStrategy extendBy key = .ok false := by
  unfold mergeList at h
  rw [if_pos (by simp [hnamed, hnamed'])] at h
  simp only [bind_eq_ok] at h
  obtain ⟨merge, hmerge, -⟩ := h
  cases merge with
  | false => exact hmerge
  | true => exact absurd ⟨hnamed, hnamed', mergeStrategy_eq_ok_true.mp hmerge⟩ hby

/-- The items of a named list without markers all have names. -/
theorem hasName_of_unmarked {l : List Val} (hnamed : isNamedList l = true)
    (hunmarked : ∀ x ∈ l, x.hasAttr "_merge" = false) : ∀ x ∈ l, x.hasAttr "name" = true := by
  intro x hx
  simp only [isNamedList, List.all_eq_true] at hnamed
  simpa [hunmarked x hx] using hnamed x hx

theorem isNamedList_of_names {l : List Val} (h : ∀ x ∈ l, x.hasAttr "name" = true) :
    isNamedList l = true := by
  rw [isNamedList, List.all_eq_true]
  intro x hx
  rw [h x hx, Bool.true_or]

/-! ## Lists merged by name -/

/-- The items a merge by name appends: those without a match that are no markers. -/
def additions (toMerge extendBy : List Val) : List Val :=
  (unmatched toMerge extendBy).filter fun e => !e.hasAttr "_merge"

theorem exists_name {x : Val} (h : x.hasAttr "name" = true) : ∃ own, x.attr? "name" = some own :=
  Option.isSome_iff_exists.mp h

theorem exists_dict {x : Val} {key : String} (h : x.hasAttr key = true) : ∃ es, x = .dict es := by
  cases x with
  | scalar | list => simp [Val.hasAttr, Val.attr?] at h
  | dict es => exact ⟨es, rfl⟩

theorem noMergeItems_of_not_mentions {x : Val} (h : ¬ x.Mentions "_merge") : NoMergeItems x := by
  induction x using Val.induct with
  | scalar s => exact .scalar s
  | list items ih =>
      refine .list (fun x hx => ?_) fun x hx => ih x hx fun hm => h (.item hx hm)
      by_contra hmarker
      rw [Bool.not_eq_false] at hmarker
      obtain ⟨es, rfl⟩ := exists_dict hmarker
      obtain ⟨v, hv⟩ := Option.isSome_iff_exists.mp hmarker
      exact h (.item hx (.here (mem_dictKeys_of_lookup_eq_some hv)))
  | dict entries ih =>
      exact .dict fun entry hentry => ih entry hentry fun hm => h (.entry hentry hm)

theorem nameKnown_eq (name : Val) {l : List Val} (hnames : ∀ x ∈ l, x.hasAttr "name" = true) :
    nameKnown name l = .ok (l.any (isNamed name)) := by
  induction l with
  | nil => rfl
  | cons x rest ih =>
      obtain ⟨own, hown⟩ := exists_name (hnames x List.mem_cons_self)
      rw [nameKnown, Val.getItem_eq_ok.mpr hown, ok_bind,
        ih fun y hy => hnames y (List.mem_cons_of_mem _ hy), ok_bind, List.any_cons, isNamed, hown]

theorem mem_additions {toMerge extendBy : List Val} {e : Val} :
    e ∈ additions toMerge extendBy ↔ e ∈ extendBy ∧ e.hasAttr "_merge" = false ∧
      ∃ own, e.attr? "name" = some own ∧ toMerge.any (isNamed own) = false := by
  unfold additions unmatched
  rw [List.mem_filter, List.mem_filter]
  cases e.attr? "name" with
  | none => simp
  | some own => simp [and_comm, and_left_comm]

/-- The second loop of a merge by name, on items that have names. -/
theorem appendUnmatched_eq {toMerge extendBy : List Val}
    (hnames : ∀ x ∈ toMerge, x.hasAttr "name" = true) (hnamed : isNamedList extendBy = true)
    (hunique : UniqueNames extendBy) :
    appendUnmatched toMerge extendBy = .ok (toMerge ++ additions toMerge extendBy) := by
  induction extendBy generalizing toMerge with
  | nil => simp [appendUnmatched, additions, unmatched]
  | cons item rest ih =>
      obtain ⟨hfirst, hunique⟩ := List.pairwise_cons.mp hunique
      rw [isNamedList, List.all_cons, Bool.and_eq_true] at hnamed
      rw [appendUnmatched]
      by_cases hmarker : item.hasAttr "_merge" = true
      · rw [if_pos hmarker, ih hnames hnamed.2 hunique]
        unfold additions unmatched
        rw [List.filter_filter, List.filter_filter, List.filter_cons_of_neg (by simp [hmarker])]
      · obtain ⟨name, hname⟩ := exists_name (x := item) (by simpa [hmarker] using hnamed.1)
        rw [if_neg hmarker, Val.getItem_eq_ok.mpr hname, ok_bind, nameKnown_eq name hnames, ok_bind]
        cases hknown : toMerge.any (isNamed name) with
        | true =>
            rw [if_pos rfl, ih hnames hnamed.2 hunique]
            unfold additions unmatched
            rw [List.filter_filter, List.filter_filter,
              List.filter_cons_of_neg (by simp [hname, hknown])]
        | false =>
            -- the appended item matches none of those after it
            have hrest : additions (toMerge ++ [item]) rest = additions toMerge rest := by
              unfold additions unmatched
              rw [List.filter_filter, List.filter_filter]
              apply List.filter_congr
              intro e he
              cases hn : e.attr? "name" with
              | none => rfl
              | some m => simp [isNamed, hname, hfirst e he name hname m hn]
            have hitem : additions toMerge (item :: rest) = item :: additions toMerge rest := by
              unfold additions unmatched
              rw [List.filter_filter, List.filter_filter,
                List.filter_cons_of_pos (by simp [hname, hknown, hmarker])]
            have hnames' : ∀ x ∈ toMerge ++ [item], x.hasAttr "name" = true := by
              intro x hx
              rcases List.mem_append.mp hx with hx | hx
              · exact hnames x hx
              · rw [List.mem_singleton.mp hx, Val.hasAttr, hname, Option.isSome_some]
            rw [if_neg Bool.false_ne_true, ih hnames' hnamed.2 hunique, hrest, hitem]
            simp

/-- The match of an item without one. -/
theorem mergeMatched_none {item own z : Val} {l : List Val} (hown : item.attr? "name" = some own)
    (hitem : item.WellFormed) (hl : (Val.list l).WellFormed) (hunique : UniqueNames l)
    (hfind : itemNamed own l = none) : mergeMatched l item = .ok z ↔ z = item := by
  rw [itemNamed, ← funext (isMatch_eq_isNamed hown)] at hfind
  rw [mergeMatched_eq hown hitem hl hunique, hfind, Except.ok.injEq, eq_comm]

/-- An item is merged with its match. -/
theorem mergeMatched_eq_mergeValue {item own y : Val} {l : List Val}
    (hown : item.attr? "name" = some own) (hitem : item.WellFormed) (hl : (Val.list l).WellFormed)
    (hunique : UniqueNames l) (hfind : itemNamed own l = some y) (key : String) :
    mergeMatched l item = mergeValue key item y := by
  have hname : item.hasAttr "name" = true := by rw [Val.hasAttr, hown, Option.isSome_some]
  obtain ⟨es, rfl⟩ := exists_dict hname
  obtain ⟨fs, rfl⟩ := exists_dict (hasAttr_of_isNamed (List.find?_some hfind))
  rw [itemNamed, ← funext (isMatch_eq_isNamed hown)] at hfind
  rw [mergeMatched_eq hown hitem hl hunique, hfind]
  simp [mergeInto, mergeValue, Val.asDict]

theorem mergeMatched_some {item own y z : Val} {l : List Val} (key : String)
    (hown : item.attr? "name" = some own) (hitem : item.WellFormed) (hl : (Val.list l).WellFormed)
    (hunique : UniqueNames l) (hfind : itemNamed own l = some y) :
    mergeMatched l item = .ok z ↔ mergeValue key item y = .ok z := by
  rw [mergeMatched_eq_mergeValue hown hitem hl hunique hfind key]

/-- A merged item has the keys it had. -/
theorem hasName_of_mergeMatched {item z : Val} {l : List Val} (hitem : item.WellFormed)
    (hl : (Val.list l).WellFormed) (hunique : UniqueNames l) (hname : item.hasAttr "name" = true)
    (h : mergeMatched l item = .ok z) : z.hasAttr "name" = true := by
  obtain ⟨own, hown⟩ := exists_name hname
  cases hfind : itemNamed own l with
  | none =>
      rw [mergeMatched_none hown hitem hl hunique hfind] at h
      rw [h, hname]
  | some y =>
      rw [mergeMatched_some "" hown hitem hl hunique hfind] at h
      obtain ⟨fs, rfl⟩ := exists_dict (hasAttr_of_isNamed (List.find?_some hfind))
      have hy := Val.wellFormed_list_iff.mp hl _ (List.mem_of_find?_eq_some hfind)
      rw [hasAttr_mergeValue rfl (Val.wellFormed_dict_iff.mp hy).1 h, hname, Bool.true_or]

/-- A merge by name: the items merged with their matches, then the additions. -/
theorem mergeList_byName_iff {xs ys zs : List Val} (key : String) (hby : MergedByName xs ys)
    (hxs : (Val.list xs).WellFormed) (hys : (Val.list ys).WellFormed)
    (hnames : ∀ x ∈ xs, x.hasAttr "name" = true) :
    mergeList xs ys key (mergeMatched ys) = .ok zs ↔ UniqueNames xs ∧ UniqueNames ys ∧
      ∃ merged, List.Forall₂ (fun x z => mergeMatched ys x = .ok z) xs merged ∧
        zs = merged ++ additions merged ys := by
  have hmerged : UniqueNames ys → ∀ {merged},
      List.Forall₂ (fun x z => mergeMatched ys x = .ok z) xs merged →
      ∀ z ∈ merged, z.hasAttr "name" = true := by
    intro hunique merged hpairs z hz
    obtain ⟨x, hx, hxz⟩ := exists_of_mem_forall₂ hpairs.flip hz
    exact hasName_of_mergeMatched (Val.wellFormed_list_iff.mp hxs x hx) hys hunique (hnames x hx)
      hxz
  constructor
  · intro h
    obtain ⟨hunique, hunique', merged, hpairs, happend⟩ := mergeList_byName hby hxs hys h
    rw [appendUnmatched_eq (hmerged hunique' hpairs) hby.2.1 hunique', Except.ok.injEq] at happend
    exact ⟨hunique, hunique', merged, hpairs, happend.symm⟩
  · rintro ⟨hunique, hunique', merged, hpairs, rfl⟩
    unfold mergeList
    rw [if_pos (by simp [hby.1, hby.2.1]), mergeStrategy_eq_ok_true.mpr hby.2.2,
      (assertUniqueNames_iff hxs).mpr hunique, (assertUniqueNames_iff hys).mpr hunique']
    simp only [ok_bind, if_true]
    rw [mapM_eq_ok.mpr hpairs, ok_bind]
    exact appendUnmatched_eq (hmerged hunique' hpairs) hby.2.1 hunique'

/-- An item is what its own name finds. -/
theorem itemNamed_of_mem {l : List Val} (hl : (Val.list l).WellFormed) (hunique : UniqueNames l)
    {y own : Val} (hy : y ∈ l) (hown : y.attr? "name" = some own) : itemNamed own l = some y := by
  rw [Val.wellFormed_list_iff] at hl
  have hself : own.pyEq own = true := Val.pyEq_refl ((hl y hy).attr? hown)
  induction l with
  | nil => cases hy
  | cons x rest ih =>
      obtain ⟨hfirst, hunique⟩ := List.pairwise_cons.mp hunique
      rw [itemNamed, List.find?_cons]
      rcases List.mem_cons.mp hy with rfl | hy
      · rw [isNamed_eq_true.mpr ⟨own, hown, hself⟩]
      · have hx : isNamed own x = false := by
          unfold isNamed
          cases hname : x.attr? "name" with
          | none => rfl
          | some name => exact hfirst y hy name hname own hown
        rw [hx]
        exact ih (fun z hz => hl z (List.mem_cons_of_mem _ hz)) hunique hy

/-- A name finds the item that has it. -/
theorem itemNamed_eq_some {l : List Val} (hl : (Val.list l).WellFormed) (hunique : UniqueNames l)
    {y name : Val} (hname : name.WellFormed) (hy : y ∈ l) (hnamed : isNamed name y = true) :
    itemNamed name l = some y := by
  obtain ⟨own, hown, heq⟩ := isNamed_eq_true.mp hnamed
  have hsame : isNamed own = isNamed name :=
    isNamed_eq_of_pyEq ((Val.wellFormed_list_iff.mp hl y hy).attr? hown) hname heq
  rw [itemNamed, ← hsame]
  exact itemNamed_of_mem hl hunique hy hown

/-- The items of a list merged by name: an item of the default with its match merged into
it, under the name it had, or an addition. -/
theorem merged_items {xs ys zs : List Val} {key : String} (hby : MergedByName xs ys)
    (hxs : (Val.list xs).WellFormed) (hys : (Val.list ys).WellFormed)
    (hfree : NoMergeItems (.list xs)) (hrun : mergeList xs ys key (mergeMatched ys) = .ok zs) :
    UniqueNames zs ∧ ∃ merged, zs = merged ++ additions xs ys ∧
      List.Forall₂ (fun x z => mergeMatched ys x = .ok z ∧ x.WellFormed ∧ NoMergeItems x ∧
        SameName x z) xs merged := by
  have hnames : ∀ x ∈ xs, x.hasAttr "name" = true :=
    hasName_of_unmarked hby.1 (noMergeItems_list_iff.mp hfree).1
  obtain ⟨hunique, hunique', merged, hpairs, rfl⟩ :=
    (mergeList_byName_iff key hby hxs hys hnames).mp hrun
  have hxs' := Val.wellFormed_list_iff.mp hxs
  have hfree' := (noMergeItems_list_iff.mp hfree).2
  have hitem : ∀ x ∈ xs, ∀ z, mergeMatched ys x = .ok z → SameName x z ∧ z.WellFormed := by
    intro x hx z hz
    obtain ⟨own, hown⟩ := exists_name (hnames x hx)
    have hout := mergeMatched_outcome hys hunique' (hxs' x hx) (hfree' x hx) hown hz
    exact ⟨hout.1, hout.2.1⟩
  have hpairs : List.Forall₂ (fun x z => x ∈ xs ∧ mergeMatched ys x = .ok z) xs merged :=
    List.forall₂_iff_get.mpr
      ⟨hpairs.length_eq, fun i hi hi' => ⟨List.get_mem _ _, hpairs.get hi hi'⟩⟩
  have hsame : List.Forall₂ SameName xs merged :=
    hpairs.imp fun x z hz => (hitem x hz.1 z hz.2).1
  have hmerged : (Val.list merged).WellFormed := by
    rw [Val.wellFormed_list_iff]
    intro z hz
    obtain ⟨x, hx, -, hxz⟩ := exists_of_mem_forall₂ hpairs.flip hz
    exact (hitem x hx z hxz).2
  have hadditions : additions merged ys = additions xs ys := by
    rw [additions, unmatched_congr hsame hxs hmerged, additions]
  refine ⟨?_, merged, by rw [hadditions], hpairs.imp fun x z hz => ?_⟩
  · have hall := uniqueNames_append_unmatched (uniqueNames_congr hsame hxs hmerged hunique) hunique'
    exact hall.sublist (List.Sublist.append (List.Sublist.refl _) List.filter_sublist)
  · exact ⟨hz.2, hxs' x hz.1, hfree' x hz.1, (hitem x hz.1 z hz.2).1⟩

end LambdaStack
