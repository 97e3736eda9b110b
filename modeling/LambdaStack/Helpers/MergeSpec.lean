/-
# User settings win and nothing is lost

The specification of `merge_objdict` by address. An address descends through
mapping keys and, inside lists that both sides hold as named lists and the user
marks `_merge: true`, through item names. At every address the default, the
user's document and the result are compared: what the user sets is in the
result, what the user does not set is unchanged, and the result holds nothing
else.
-/

import LambdaStack.Helpers.NamedLists

namespace LambdaStack

open Lib

/-- No item of any list of the document has a `_merge` key. -/
inductive NoMergeItems : Val → Prop
  | scalar (s : Scalar) : NoMergeItems (.scalar s)
  | dict {entries : Entries} (hvalues : ∀ entry ∈ entries, NoMergeItems entry.2) :
      NoMergeItems (.dict entries)
  | list {items : List Val} (hunmarked : ∀ x ∈ items, x.hasAttr "_merge" = false)
      (hitems : ∀ x ∈ items, NoMergeItems x) : NoMergeItems (.list items)

/-- A `_merge` item that has no other key. -/
def IsMarker (x : Val) : Prop := ∃ flag, x = .dict [("_merge", flag)]

/-- `_merge` occurs in the document only in list items that have no other key. -/
inductive MarkersAlone : Val → Prop
  | scalar (s : Scalar) : MarkersAlone (.scalar s)
  | dict {entries : Entries} (hunmarked : "_merge" ∉ dictKeys entries)
      (hvalues : ∀ entry ∈ entries, MarkersAlone entry.2) : MarkersAlone (.dict entries)
  | list {items : List Val} (hitems : ∀ x ∈ items, ¬ IsMarker x → MarkersAlone x) :
      MarkersAlone (.list items)

@[simp]
theorem noMergeItems_scalar (s : Scalar) : NoMergeItems (.scalar s) := .scalar s

@[simp]
theorem noMergeItems_dict_iff {entries : Entries} :
    NoMergeItems (.dict entries) ↔ ∀ entry ∈ entries, NoMergeItems entry.2 :=
  ⟨fun h => by cases h; assumption, .dict⟩

@[simp]
theorem noMergeItems_list_iff {items : List Val} :
    NoMergeItems (.list items) ↔
      (∀ x ∈ items, x.hasAttr "_merge" = false) ∧ ∀ x ∈ items, NoMergeItems x :=
  ⟨fun h => by cases h; exact ⟨‹_›, ‹_›⟩, fun h => .list h.1 h.2⟩

@[simp]
theorem markersAlone_scalar (s : Scalar) : MarkersAlone (.scalar s) := .scalar s

@[simp]
theorem markersAlone_dict_iff {entries : Entries} :
    MarkersAlone (.dict entries) ↔
      "_merge" ∉ dictKeys entries ∧ ∀ entry ∈ entries, MarkersAlone entry.2 :=
  ⟨fun h => by cases h; exact ⟨‹_›, ‹_›⟩, fun h => .dict h.1 h.2⟩

@[simp]
theorem markersAlone_list_iff {items : List Val} :
    MarkersAlone (.list items) ↔ ∀ x ∈ items, ¬ IsMarker x → MarkersAlone x :=
  ⟨fun h => by cases h; assumption, .list⟩

/-- One step of an address. -/
inductive Step
  | key (key : String)
  | item (name : Val)

/-- The values the default `d`, the user's document `u` and the result `r` hold
at an address. -/
inductive Holds (d u r : Val) : List Step → Option Val → Option Val → Option Val → Prop
  | root : Holds d u r [] (some d) (some u) (some r)
  | key {address : List Step} {es fs gs : Entries}
      (prior : Holds d u r address (some (.dict es)) (some (.dict fs)) (some (.dict gs)))
      (key : String) :
      Holds d u r (address ++ [.key key]) (es.lookup key) (fs.lookup key) (gs.lookup key)
  | item {address : List Step} {xs ys zs : List Val}
      (prior : Holds d u r address (some (.list xs)) (some (.list ys)) (some (.list zs)))
      (byName : MergedByName xs ys) {name : Val} (hname : name.WellFormed) :
      Holds d u r (address ++ [.item name]) (itemNamed name xs) (itemNamed name ys)
        (itemNamed name zs)

/-- The two values are combined below their address: two mappings key by key,
two lists by item name. Any other value of the user is set as a whole. -/
def Combined : Val → Val → Prop
  | .dict _, .dict _ => True
  | .list xs, .list ys => MergedByName xs ys
  | _, _ => False

/-- The user's value without its marker items, where it is a list that
overwrites a named list. -/
def withoutMarkers : Option Val → Val → Val
  | some (.list xs), .list ys =>
      .list (if isNamedList xs && isNamedList ys then ys.filter (·.hasAttr "name") else ys)
  | _, v => v

theorem MarkersAlone.markersUnnamed {l : List Val} (h : MarkersAlone (.list l)) :
    MarkersUnnamed l := by
  intro x hx hmarker
  by_cases hx' : IsMarker x
  · obtain ⟨flag, rfl⟩ := hx'
    rfl
  · cases markersAlone_list_iff.mp h x hx hx' with
    | dict hunmarked _ =>
        have hnone := lookup_eq_none_iff_not_mem_dictKeys.mpr hunmarked
        simp [Val.hasAttr, Val.attr?, hnone] at hmarker
    | scalar | list => simp [Val.hasAttr, Val.attr?] at hmarker

/-- A named item of the user's list is not a marker. -/
theorem MarkersAlone.of_named {l : List Val} (h : MarkersAlone (.list l)) {x : Val}
    (hx : x ∈ l) (hname : x.hasAttr "name" = true) : MarkersAlone x := by
  refine markersAlone_list_iff.mp h x hx ?_
  rintro ⟨flag, rfl⟩
  simp [Val.hasAttr, Val.attr?] at hname

theorem hasAttr_of_isNamed {name x : Val} (h : isNamed name x = true) :
    x.hasAttr "name" = true := by
  obtain ⟨own, hown, -⟩ := isNamed_eq_true.mp h
  simp [Val.hasAttr, hown]

/-- Equal mappings have the same keys. -/
theorem hasAttr_eq_of_pyEq {x y : Val} (hx : x.WellFormed) (hy : y.WellFormed)
    (h : x.pyEq y = true) (key : String) : x.hasAttr key = y.hasAttr key := by
  have hforward : ∀ {x y : Val}, x.pyEq y = true → x.hasAttr key = true →
      y.hasAttr key = true := by
    intro x y h hkey
    cases x with
    | scalar | list => simp [Val.hasAttr, Val.attr?] at hkey
    | dict es =>
        cases y with
        | scalar | list => simp [Val.pyEq] at h
        | dict fs =>
            obtain ⟨v, hv⟩ := Option.isSome_iff_exists.mp hkey
            obtain ⟨w, hw, -⟩ := (Val.pyEq_dict_iff.mp h).2 _ (mem_of_lookup_eq_some hv)
            simp only [Val.hasAttr, Val.attr?, hw, Option.isSome_some]
  rw [Bool.eq_iff_iff]
  exact ⟨hforward h, hforward (Val.pyEq_symm hx hy h)⟩

/-- Merging a value equal to the default gives an equal value, so a matched item
keeps its name. -/
theorem mergeValue_pyEq {v : Val} (hv : v.WellFormed) :
    ∀ {key : String} {x r : Val}, x.WellFormed → NoMergeItems x → v.pyEq x = true →
      mergeValue key x v = .ok r → r.pyEq v = true := by
  induction v using Val.induct with
  | scalar s =>
      intro key x r _ _ _ h
      rw [(mergeValue_scalar_eq_ok h).1]
      exact Val.pyEq_refl (.scalar s)
  | list ys ih =>
      intro key x r hx hfree heq h
      obtain ⟨xs, zs, rfl, rfl, hrun⟩ := mergeValue_list_eq_ok h
      rw [Val.pyEq_list_iff] at heq
      rw [Val.wellFormed_list_iff] at hx
      have hvs := Val.wellFormed_list_iff.mp hv
      cases hfree with
      | list hunmarked _ =>
          -- every item of the user's list equals an unmarked one
          have hno : ∀ y ∈ ys, y.hasAttr "_merge" = false := by
            intro y hy
            obtain ⟨i, hi, rfl⟩ := List.mem_iff_getElem.mp hy
            have hi' : i < xs.length := heq.length_eq ▸ hi
            rw [hasAttr_eq_of_pyEq (hvs _ hy) (hx _ (List.getElem_mem hi'))
              (heq.get hi hi')]
            exact hunmarked _ (List.getElem_mem hi')
          have hby : ¬ MergedByName xs ys := by
            rintro ⟨-, -, hmarker⟩
            have hfind : ys.find? (·.hasAttr "_merge") = none := by
              simpa [List.find?_eq_none] using hno
            simp [firstMarker, hfind] at hmarker
          have hzs : zs = ys := by
            rw [mergeList_replaced hby hrun]
            split
            · next hnamed =>
                simp only [Bool.and_eq_true, isNamedList, List.all_eq_true] at hnamed
                rw [List.filter_eq_self]
                intro y hy
                simpa [hno y hy] using hnamed.2 y hy
            · rfl
          rw [hzs]
          exact Val.pyEq_refl hv
  | dict fs ih =>
      intro key x r hx hfree heq h
      obtain ⟨es, gs, rfl, rfl, hrun⟩ := mergeValue_dict_eq_ok h
      obtain ⟨hlen, heq⟩ := Val.pyEq_dict_iff.mp heq
      obtain ⟨hkeys, hvalues⟩ := Val.wellFormed_dict_iff.mp hv
      obtain ⟨hkeys', hvalues'⟩ := Val.wellFormed_dict_iff.mp hx
      have hgkeys : dictKeys gs = dictKeys es := by
        rw [dictKeys_mergeObjdict hrun hkeys, List.append_right_eq_self,
          List.filter_eq_nil_iff]
        intro k hk
        obtain ⟨entry, hentry, rfl⟩ := List.mem_map.mp hk
        obtain ⟨w, hw, -⟩ := heq entry hentry
        simpa using mem_dictKeys_of_lookup_eq_some hw
      have hsub : dictKeys fs ⊆ dictKeys es := fun k hk => by
        obtain ⟨entry, hentry, rfl⟩ := List.mem_map.mp hk
        obtain ⟨w, hw, -⟩ := heq entry hentry
        exact mem_dictKeys_of_lookup_eq_some hw
      have hperm : (dictKeys fs).Perm (dictKeys es) :=
        (List.subperm_of_subset hkeys hsub).perm_of_length_le (by simp [dictKeys, hlen])
      refine Val.pyEq_dict_iff.mpr ⟨?_, fun entry hentry => ?_⟩
      · have := congrArg List.length hgkeys
        simp only [dictKeys, List.length_map] at this
        omega
      · have hkey : entry.1 ∈ dictKeys fs := by
          rw [hperm.mem_iff, ← hgkeys]
          exact List.mem_map.mpr ⟨entry, hentry, rfl⟩
        obtain ⟨⟨k, v⟩, hmem, hk⟩ := List.mem_map.mp hkey
        obtain rfl : k = entry.1 := hk
        obtain ⟨x, hxlookup, hvx⟩ := heq _ hmem
        have hvlookup := lookup_eq_some_of_mem hkeys hmem
        have hgnodup : (dictKeys gs).Nodup := hgkeys ▸ hkeys'
        have hglookup := lookup_eq_some_of_mem hgnodup hentry
        have hout := mergeObjdict_outcome hrun hkeys entry.1
        have hxmem := mem_of_lookup_eq_some hxlookup
        simp only at hvlookup hxlookup hxmem
        rw [hvlookup, hxlookup, hglookup] at hout
        cases hout with
        | merged hval =>
            exact ⟨v, hvlookup, ih _ hmem (hvalues _ hmem) (hvalues' _ hxmem)
              (noMergeItems_dict_iff.mp hfree _ hxmem) hvx hval⟩

/-- Merging an item with its match keeps the name of the item. -/
theorem sameName_of_mergeValue {item x r own : Val} {key : String} (hitem : item.WellFormed)
    (hfree : NoMergeItems item) (hx : x.WellFormed) (hown : item.attr? "name" = some own)
    (hmatch : isNamed own x = true) (h : mergeValue key item x = .ok r) : SameName item r := by
  obtain ⟨name, hname, heq⟩ := isNamed_eq_true.mp hmatch
  cases x with
  | scalar | list => simp [Val.attr?] at hname
  | dict fs =>
      obtain ⟨es, gs, rfl, rfl, hrun⟩ := mergeValue_dict_eq_ok h
      have hout := mergeObjdict_outcome hrun (Val.wellFormed_dict_iff.mp hx).1 "name"
      simp only [Val.attr?] at hown hname
      rw [hown, hname] at hout
      generalize hr : gs.lookup "name" = z at hout
      cases hout with
      | @merged key _ _ r hval =>
          have hownfree := noMergeItems_dict_iff.mp hfree _ (mem_of_lookup_eq_some hown)
          have hr' := mergeValue_pyEq (hx.attr? hname) (hitem.attr? hown) hownfree heq hval
          exact ⟨own, r, hown, hr, Val.pyEq_trans hr' heq⟩

/-- What the item loop does to one default item: it keeps its name, and its
value is the outcome of the two items of that name. -/
theorem mergeMatched_outcome {ys : List Val} {x y own : Val} (hys : (Val.list ys).WellFormed)
    (hunique : UniqueNames ys) (hx : x.WellFormed) (hfree : NoMergeItems x)
    (hown : x.attr? "name" = some own) (h : mergeMatched ys x = .ok y) :
    SameName x y ∧ y.WellFormed ∧ Outcome (some x) (itemNamed own ys) (some y) := by
  rw [mergeMatched_eq hown hx hys hunique] at h
  have hmatch : ys.find? (isMatch x) = itemNamed own ys := by
    rw [funext (isMatch_eq_isNamed hown), itemNamed]
  rw [hmatch] at h
  cases hfind : itemNamed own ys with
  | none =>
      rw [hfind] at h
      cases h
      exact ⟨.refl hx hown, hx, .default _⟩
  | some e =>
      rw [hfind] at h
      have he := Val.wellFormed_list_iff.mp hys e (List.mem_of_find?_eq_some hfind)
      have hval := mergeInto_eq_ok h "name"
      exact ⟨sameName_of_mergeValue hx hfree he hown (List.find?_some hfind) hval,
        mergeValue_wellFormed he hx hval, .merged hval⟩

/-- Without markers every item of a named list has a name. -/
theorem NoMergeItems.exists_name {l : List Val} (h : NoMergeItems (.list l))
    (hnamed : isNamedList l = true) {x : Val} (hx : x ∈ l) :
    ∃ own, x.attr? "name" = some own := by
  simp only [isNamedList, List.all_eq_true] at hnamed
  have hname : x.hasAttr "name" = true := by
    simpa [(noMergeItems_list_iff.mp h).1 x hx] using hnamed x hx
  exact Option.isSome_iff_exists.mp hname

/-- The specification of a merge by name: the default items in their order, each
under the name it had, then the unmatched items of the user; under each name the
outcome of the two items that have it. -/
theorem mergeList_byName_spec {xs ys zs : List Val} {key : String}
    (hby : MergedByName xs ys) (hxs : (Val.list xs).WellFormed)
    (hys : (Val.list ys).WellFormed) (hfree : NoMergeItems (.list xs))
    (halone : MarkersAlone (.list ys))
    (h : mergeList xs ys key (mergeMatched ys) = .ok zs) :
    (∃ merged, List.Forall₂ SameName xs merged ∧ zs = merged ++ unmatched xs ys) ∧
      UniqueNames zs ∧
      ∀ name : Val, name.WellFormed →
        Outcome (itemNamed name xs) (itemNamed name ys) (itemNamed name zs) := by
  obtain ⟨hxunique, hyunique, merged, hmerged, happend⟩ := mergeList_byName hby hxs hys h
  have hxs' := Val.wellFormed_list_iff.mp hxs
  have hfree' := (noMergeItems_list_iff.mp hfree).2
  have hitem : ∀ x ∈ xs, ∀ y, mergeMatched ys x = .ok y → SameName x y ∧ y.WellFormed := by
    intro x hx y hxy
    obtain ⟨own, hown⟩ := hfree.exists_name hby.1 hx
    have := mergeMatched_outcome hys hyunique (hxs' x hx) (hfree' x hx) hown hxy
    exact ⟨this.1, this.2.1⟩
  have hpairs : List.Forall₂ (fun x y => x ∈ xs ∧ mergeMatched ys x = .ok y) xs merged :=
    List.forall₂_iff_get.mpr ⟨hmerged.length_eq, fun i hi hi' =>
      ⟨List.get_mem _ _, hmerged.get hi hi'⟩⟩
  have hsame : List.Forall₂ SameName xs merged :=
    hpairs.imp fun x y hxy => (hitem x hxy.1 y hxy.2).1
  have hmergedwf : ∀ y ∈ merged, y.WellFormed := by
    intro y hy
    obtain ⟨i, hi, rfl⟩ := List.mem_iff_getElem.mp hy
    have hi' : i < xs.length := hpairs.length_eq ▸ hi
    have hxy := hpairs.get hi' hi
    exact (hitem _ hxy.1 _ hxy.2).2
  have hcongr := unmatched_congr hsame hxs (.list hmergedwf) ys
  have hzs : zs = merged ++ unmatched xs ys := by
    rw [appendUnmatched_eq_ok hyunique halone.markersUnnamed happend, hcongr]
  refine ⟨⟨merged, hsame, hzs⟩, ?_, fun name hname => ?_⟩
  · rw [hzs, ← hcongr]
    exact uniqueNames_append_unmatched
      (uniqueNames_congr hsame hxs (.list hmergedwf) hxunique) hyunique
  · have hsplit : itemNamed name zs =
        (itemNamed name merged).or (itemNamed name (unmatched xs ys)) := by
      rw [hzs, itemNamed, List.find?_append]
      rfl
    rcases find?_forall₂ (p := isNamed name) (q := isNamed name) hpairs
      (fun x hx y hy hxy => (hitem x hx y hxy.2).1.isNamed_eq (hxs' x hx)
        (hmergedwf y hy) name) with ⟨hx, hy⟩ | ⟨x, y, hx, hy, hxmem, hxy⟩
    · -- no default item has the name, so the user's item is appended
      rw [hsplit, itemNamed_unmatched hname hys hx]
      simp only [itemNamed, hx, hy, Option.none_or]
      cases List.find? (isNamed name) ys with
      | none => exact .default none
      | some v => exact .user v
    · -- the default item of the name has kept it
      obtain ⟨own, hown, heq⟩ := isNamed_eq_true.mp (List.find?_some hx)
      have hxwf := hxs' x hxmem
      have hown' : isNamed own = isNamed name :=
        isNamed_eq_of_pyEq (hxwf.attr? hown) hname heq
      obtain ⟨-, -, hout⟩ :=
        mergeMatched_outcome hys hyunique hxwf (hfree' x hxmem) hown hxy
      rw [hsplit]
      simp only [itemNamed, hown'] at hout ⊢
      simpa only [hx, hy, Option.some_or] using hout

/-! ## The comparison at every address -/

/-- What `merge_objdict` promises to a user. -/
structure MergeSpec (d u r : Val) : Prop where
  /-- Every value the user sets is in the result at its address. -/
  userWins : ∀ {address x v z}, Holds d u r address x (some v) z →
    (∀ w, x = some w → ¬ Combined w v) → z = some (withoutMarkers x v)
  /-- Every value of the default that the user does not set is unchanged. -/
  defaultKept : ∀ {address w z}, Holds d u r address (some w) none z → z = some w
  /-- The result holds nothing else. -/
  nothingElse : ∀ {address z}, Holds d u r address none none z → z = none
  /-- Two mappings are combined into a mapping: the keys of the default, then
  the new keys of the user. -/
  mappings : ∀ {address es fs z}, Holds d u r address (some (.dict es)) (some (.dict fs)) z →
    ∃ gs, z = some (.dict gs) ∧ (dictKeys gs).Nodup ∧
      dictKeys gs = dictKeys es ++ (dictKeys fs).filter (· ∉ dictKeys es)
  /-- A list merged by name holds every name once: the items of the default in
  their order, then the unmatched items of the user in theirs. -/
  namedLists : ∀ {address xs ys z}, Holds d u r address (some (.list xs)) (some (.list ys)) z →
    MergedByName xs ys → ∃ merged, z = some (.list (merged ++ unmatched xs ys)) ∧
      List.Forall₂ SameName xs merged ∧ UniqueNames (merged ++ unmatched xs ys)

/-- At every address the values are the outcome of one merge of well-formed
values. -/
theorem Holds.outcome {d u r : Entries} (hd : (Val.dict d).WellFormed)
    (hu : (Val.dict u).WellFormed) (hfree : NoMergeItems (.dict d))
    (halone : MarkersAlone (.dict u)) (hrun : mergeObjdict d u = .ok r)
    {address : List Step} {x y z : Option Val}
    (h : Holds (.dict d) (.dict u) (.dict r) address x y z) :
    Outcome x y z ∧ (∀ v ∈ x, v.WellFormed ∧ NoMergeItems v) ∧
      ∀ v ∈ y, v.WellFormed ∧ MarkersAlone v := by
  induction h with
  | root =>
      have hval : mergeValue "" (.dict d) (.dict u) = .ok (.dict r) := by
        simp [mergeValue, hrun]
      refine ⟨.merged hval, ?_, ?_⟩
      · rintro v ⟨⟩
        exact ⟨hd, hfree⟩
      · rintro v ⟨⟩
        exact ⟨hu, halone⟩
  | key prior key ih =>
      obtain ⟨hout, hx, hy⟩ := ih
      obtain ⟨hxwf, hxfree⟩ := hx _ rfl
      obtain ⟨hywf, hyalone⟩ := hy _ rfl
      cases hout with
      | merged hval =>
          obtain ⟨es, gs, ⟨⟩, ⟨⟩, hloop⟩ := mergeValue_dict_eq_ok hval
          obtain ⟨hkeys, hvalues⟩ := Val.wellFormed_dict_iff.mp hywf
          refine ⟨mergeObjdict_outcome hloop hkeys key, fun v hv => ?_, fun v hv => ?_⟩
          · exact ⟨hxwf.attr? hv, noMergeItems_dict_iff.mp hxfree _ (mem_of_lookup_eq_some hv)⟩
          · exact ⟨hywf.attr? hv,
              (markersAlone_dict_iff.mp hyalone).2 _ (mem_of_lookup_eq_some hv)⟩
  | item prior byName hname ih =>
      obtain ⟨hout, hx, hy⟩ := ih
      obtain ⟨hxwf, hxfree⟩ := hx _ rfl
      obtain ⟨hywf, hyalone⟩ := hy _ rfl
      cases hout with
      | merged hval =>
          obtain ⟨xs, zs, ⟨⟩, ⟨⟩, hlist⟩ := mergeValue_list_eq_ok hval
          have hspec := mergeList_byName_spec byName hxwf hywf hxfree hyalone hlist
          refine ⟨hspec.2.2 _ hname, fun v hv => ?_, fun v hv => ?_⟩
          · have hmem := List.mem_of_find?_eq_some hv
            exact ⟨Val.wellFormed_list_iff.mp hxwf v hmem,
              (noMergeItems_list_iff.mp hxfree).2 v hmem⟩
          · have hmem := List.mem_of_find?_eq_some hv
            exact ⟨Val.wellFormed_list_iff.mp hywf v hmem,
              hyalone.of_named hmem (hasAttr_of_isNamed (List.find?_some hv))⟩

/-- The user's value is set as a whole wherever the two values are not
combined. -/
theorem mergeValue_replaced {key : String} {x v r : Val} (hnot : ¬ Combined x v)
    (h : mergeValue key x v = .ok r) : r = withoutMarkers (some x) v := by
  cases v with
  | scalar s =>
      rw [(mergeValue_scalar_eq_ok h).1]
      cases x <;> rfl
  | dict fs =>
      obtain ⟨es, gs, rfl, -⟩ := mergeValue_dict_eq_ok h
      exact absurd trivial hnot
  | list ys =>
      obtain ⟨xs, zs, rfl, rfl, hrun⟩ := mergeValue_list_eq_ok h
      rw [mergeList_replaced hnot hrun]
      rfl

/-- User settings win and nothing is lost: a merge of a default without marker
items and a user's document that marks lists by items of their own succeeds only
with what `MergeSpec` promises. -/
theorem mergeObjdict_mergeSpec {d u r : Entries} (hd : (Val.dict d).WellFormed)
    (hu : (Val.dict u).WellFormed) (hfree : NoMergeItems (.dict d))
    (halone : MarkersAlone (.dict u)) (hrun : mergeObjdict d u = .ok r) :
    MergeSpec (.dict d) (.dict u) (.dict r) := by
  constructor
  · intro address x v z h hnot
    obtain ⟨hout, -, -⟩ := h.outcome hd hu hfree halone hrun
    cases hout with
    | user => rfl
    | merged hval => rw [mergeValue_replaced (hnot _ rfl) hval]
  · intro address w z h
    obtain ⟨hout, -, -⟩ := h.outcome hd hu hfree halone hrun
    cases hout
    rfl
  · intro address z h
    obtain ⟨hout, -, -⟩ := h.outcome hd hu hfree halone hrun
    cases hout
    rfl
  · intro address es fs z h
    obtain ⟨hout, hx, hy⟩ := h.outcome hd hu hfree halone hrun
    cases hout with
    | merged hval =>
        have hr := mergeValue_wellFormed (hy _ rfl).1 (hx _ rfl).1 hval
        obtain ⟨es, gs, ⟨⟩, rfl, hloop⟩ := mergeValue_dict_eq_ok hval
        obtain ⟨hkeys, -⟩ := Val.wellFormed_dict_iff.mp (hy _ rfl).1
        exact ⟨gs, rfl, (Val.wellFormed_dict_iff.mp hr).1, dictKeys_mergeObjdict hloop hkeys⟩
  · intro address xs ys z h hby
    obtain ⟨hout, hx, hy⟩ := h.outcome hd hu hfree halone hrun
    obtain ⟨hxwf, hxfree⟩ := hx _ rfl
    obtain ⟨hywf, hyalone⟩ := hy _ rfl
    cases hout with
    | merged hval =>
        obtain ⟨xs, zs, ⟨⟩, rfl, hlist⟩ := mergeValue_list_eq_ok hval
        obtain ⟨⟨merged, hsame, rfl⟩, hunique, -⟩ :=
          mergeList_byName_spec hby hxwf hywf hxfree hyalone hlist
        exact ⟨merged, rfl, hsame, hunique⟩

/-- A default list of one item, marked for a merge by a user who sets a value of
that item and adds another. -/
theorem mergeObjdict_mergeSpec_marked :
    MergeSpec
      (.dict [("count", .int 1), ("rules", .list [.dict [("name", .str "ssh"), ("port", .int 22)]])])
      (.dict [("rules", .list [.dict [("_merge", .bool true)],
        .dict [("name", .str "ssh"), ("port", .int 2222)], .dict [("name", .str "http")]])])
      (.dict [("count", .int 1), ("rules", .list [.dict [("name", .str "ssh"), ("port", .int 2222)],
        .dict [("name", .str "http")]])]) := by
  exact mergeObjdict_mergeSpec (by simp) (by simp) (by simp [Val.hasAttr, Val.attr?])
    (by simp [IsMarker]) (by rfl)

end LambdaStack
