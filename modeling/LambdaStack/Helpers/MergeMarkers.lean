/-
# What becomes of the markers

A `_merge` marker tells the merger what to do with a list and is no data. The merger
leaves it out where it combines two named lists, and only there: a part of the user's
document that is taken over whole brings its markers along. A named item that carries
the marker itself is merged, or dropped when it has no match.
-/

import LambdaStack.Helpers.MergeRuns

namespace LambdaStack

open Lib

/-- A `_merge` key of the user gets into the result. -/
inductive Leaks : Val → Val → Prop
  | newKey {es fs : Entries} {key : String} {v : Val} (hd : es.lookup key = none)
      (hu : fs.lookup key = some v) (h : key = "_merge" ∨ v.Mentions "_merge") :
      Leaks (.dict es) (.dict fs)
  | key {es fs : Entries} {key : String} {x v : Val} (hd : es.lookup key = some x)
      (hu : fs.lookup key = some v) (h : Leaks x v) : Leaks (.dict es) (.dict fs)
  | replaced {xs ys : List Val} (hnamed : ¬ (isNamedList xs = true ∧ isNamedList ys = true))
      (h : (Val.list ys).Mentions "_merge") : Leaks (.list xs) (.list ys)
  | overwritten {xs ys : List Val} {e : Val}
      (hnamed : isNamedList xs = true ∧ isNamedList ys = true)
      (hby : ¬ MergedByName xs ys) (he : e ∈ ys) (hname : e.hasAttr "name" = true)
      (h : e.Mentions "_merge") : Leaks (.list xs) (.list ys)
  | appended {xs ys : List Val} {e : Val} (hby : MergedByName xs ys) (he : e ∈ additions xs ys)
      (h : e.Mentions "_merge") : Leaks (.list xs) (.list ys)
  | item {xs ys : List Val} {x y own : Val} (hby : MergedByName xs ys) (hx : x ∈ xs)
      (hown : x.attr? "name" = some own) (hy : itemNamed own ys = some y) (h : Leaks x y) :
      Leaks (.list xs) (.list ys)

/-- A named item of the user that carries a marker has no match. -/
inductive Loses : Val → Val → Prop
  | key {es fs : Entries} {key : String} {x v : Val} (hd : es.lookup key = some x)
      (hu : fs.lookup key = some v) (h : Loses x v) : Loses (.dict es) (.dict fs)
  | dropped {xs ys : List Val} {e own : Val} (hby : MergedByName xs ys) (he : e ∈ ys)
      (hown : e.attr? "name" = some own) (hmarker : e.hasAttr "_merge" = true)
      (hnone : xs.any (isNamed own) = false) : Loses (.list xs) (.list ys)
  | item {xs ys : List Val} {x y own : Val} (hby : MergedByName xs ys) (hx : x ∈ xs)
      (hown : x.attr? "name" = some own) (hy : itemNamed own ys = some y) (h : Loses x y) :
      Loses (.list xs) (.list ys)

/-- What the document holds at an address. -/
def Val.at? : Val → List Step → Option Val
  | v, [] => some v
  | .dict entries, .key key :: rest => (entries.lookup key).bind fun v => v.at? rest
  | .list items, .item name :: rest => (itemNamed name items).bind fun v => v.at? rest
  | _, _ :: _ => none

/-- The names of the address are values of documents. -/
def GoodAddress (address : List Step) : Prop := ∀ name, Step.item name ∈ address → name.WellFormed

/-- Every item of a user's list that has a name is in the list at the same address of the
result under that name. -/
def KeepsItems (u r : Val) : Prop :=
  ∀ address ys, GoodAddress address → u.at? address = some (.list ys) →
    ∃ zs, r.at? address = some (.list zs) ∧
      ∀ y ∈ ys, ∀ own, y.attr? "name" = some own → zs.any (isNamed own) = true

/-! ## Markers -/

/-- The markers of a merged mapping, when those of its values are known. -/
theorem mentions_mergeObjdict_iff {es fs gs : Entries} (hes : (Val.dict es).WellFormed)
    (hfs : (Val.dict fs).WellFormed) (hfree : ¬ (Val.dict es).Mentions "_merge")
    (hrun : mergeObjdict es fs = .ok gs)
    (ih : ∀ entry ∈ fs, ∀ {key : String} {x r : Val}, x.WellFormed → ¬ x.Mentions "_merge" →
      mergeValue key x entry.2 = .ok r → (r.Mentions "_merge" ↔ Leaks x entry.2)) :
    (Val.dict gs).Mentions "_merge" ↔ Leaks (.dict es) (.dict fs) := by
  have hr := mergeObjdict_wellFormed hes hfs hrun
  obtain ⟨-, hevalues⟩ := Val.wellFormed_dict_iff.mp hes
  obtain ⟨hfkeys, hfvalues⟩ := Val.wellFormed_dict_iff.mp hfs
  obtain ⟨hgkeys, -⟩ := Val.wellFormed_dict_iff.mp hr
  have hfree' : ∀ {k w}, es.lookup k = some w → ¬ w.Mentions "_merge" :=
    fun hw hm => hfree (.entry (mem_of_lookup_eq_some hw) hm)
  have hknown : ∀ {k w v}, es.lookup k = some w → fs.lookup k = some v →
      ∃ z, gs.lookup k = some z ∧ (z.Mentions "_merge" ↔ Leaks w v) := by
    intro k w v hw hv
    have hmem := mem_of_lookup_eq_some hv
    obtain ⟨z, hz, hmerge⟩ := mergeObjdict_value hrun hfkeys hw hv
    exact ⟨z, hz, ih _ hmem (hevalues _ (mem_of_lookup_eq_some hw)) (hfree' hw) hmerge⟩
  constructor
  · intro hm
    rcases Val.mentions_dict_iff.mp hm with hkey | ⟨⟨k, z⟩, hentry, hm⟩
    · rw [dictKeys_mergeObjdict hrun hfkeys, List.mem_append] at hkey
      rcases hkey with hkey | hkey
      · exact absurd (.here hkey) hfree
      · obtain ⟨hmem, hnot⟩ := List.mem_filter.mp hkey
        obtain ⟨entry, hentry, hk⟩ := List.mem_map.mp hmem
        refine .newKey (lookup_eq_none_iff_not_mem_dictKeys.mpr (by simpa using hnot))
          (hk ▸ lookup_eq_some_of_mem hfkeys hentry) (Or.inl rfl)
    · have hz := lookup_eq_some_of_mem hgkeys hentry
      cases hv : fs.lookup k with
      | none =>
          rw [mergeObjdict_kept hrun hfkeys hv] at hz
          exact absurd hm (hfree' hz)
      | some v =>
          cases hw : es.lookup k with
          | none =>
              rw [mergeObjdict_new hrun hfkeys hw hv] at hz
              cases hz
              exact .newKey hw hv (Or.inr hm)
          | some w =>
              obtain ⟨z', hz', hiff⟩ := hknown hw hv
              rw [hz] at hz'
              cases hz'
              exact .key hw hv (hiff.mp hm)
  · intro hleaks
    cases hleaks with
    | newKey hd hu h =>
        have hz := mergeObjdict_new hrun hfkeys hd hu
        rcases h with rfl | h
        · exact .here (mem_dictKeys_of_lookup_eq_some hz)
        · exact .entry (mem_of_lookup_eq_some hz) h
    | key hd hu h =>
        obtain ⟨z, hz, hiff⟩ := hknown hd hu
        exact .entry (mem_of_lookup_eq_some hz) (hiff.mpr h)

/-- The markers of a list that is merged by name, when those of its items are known. -/
theorem mentions_byName_iff {xs ys zs : List Val} {key : String} (hby : MergedByName xs ys)
    (hxs : (Val.list xs).WellFormed) (hys : (Val.list ys).WellFormed)
    (hfree : ¬ (Val.list xs).Mentions "_merge")
    (hrun : mergeList xs ys key (mergeMatched ys) = .ok zs)
    (ih : ∀ y ∈ ys, ∀ {key : String} {x r : Val}, x.WellFormed → ¬ x.Mentions "_merge" →
      mergeValue key x y = .ok r → (r.Mentions "_merge" ↔ Leaks x y)) :
    (Val.list zs).Mentions "_merge" ↔ Leaks (.list xs) (.list ys) := by
  obtain ⟨-, merged, rfl, hpairs⟩ :=
    merged_items hby hxs hys (noMergeItems_of_not_mentions hfree) hrun
  have hunique := (mergeList_byName hby hxs hys hrun).2.1
  -- an item of the default gets its markers from its match
  have hitem : ∀ {x z own}, x ∈ xs → x.attr? "name" = some own →
      mergeMatched ys x = .ok z → x.WellFormed → (z.Mentions "_merge" ↔
        ∃ y, itemNamed own ys = some y ∧ Leaks x y) := by
    intro x z own hmem hown hxz hxwf
    have hxfree : ¬ x.Mentions "_merge" := fun hm => hfree (.item hmem hm)
    cases hy : itemNamed own ys with
    | none =>
        rw [(mergeMatched_none hown hxwf hys hunique hy).mp hxz]
        simp [hxfree]
    | some y =>
        have hymem := List.mem_of_find?_eq_some hy
        have hmerge := (mergeMatched_some key hown hxwf hys hunique hy).mp hxz
        simp [ih y hymem hxwf hxfree hmerge]
  rw [Val.mentions_list_iff]
  constructor
  · rintro ⟨z, hz, hm⟩
    rcases List.mem_append.mp hz with hz | hz
    · obtain ⟨x, hmem, hxz, hxwf, -, own, -, hown, -⟩ := exists_of_mem_forall₂ hpairs.flip hz
      obtain ⟨y, hy, hleaks⟩ := (hitem hmem hown hxz hxwf).mp hm
      exact .item hby hmem hown hy hleaks
    · exact .appended hby hz hm
  · intro hleaks
    cases hleaks with
    | replaced hnot => exact absurd ⟨hby.1, hby.2.1⟩ hnot
    | overwritten _ hnot => exact absurd hby hnot
    | appended _ he hm => exact ⟨_, List.mem_append_right _ he, hm⟩
    | item _ hmem hown hy h =>
        obtain ⟨z, hz, hxz, hxwf, -⟩ := exists_of_mem_forall₂ hpairs hmem
        exact ⟨z, List.mem_append_left _ hz, (hitem hmem hown hxz hxwf).mpr ⟨_, hy, h⟩⟩

/-- The markers of a list that is not merged by name: its items are the user's. -/
theorem mentions_notByName_iff {xs ys zs : List Val} {key : String} (hby : ¬ MergedByName xs ys)
    (hrun : mergeList xs ys key (mergeMatched ys) = .ok zs) :
    (Val.list zs).Mentions "_merge" ↔ Leaks (.list xs) (.list ys) := by
  by_cases hnamed : isNamedList xs = true ∧ isNamedList ys = true
  · rw [Val.mentions_list_iff, mergeList_replaced hby hrun, if_pos (by simp [hnamed.1, hnamed.2])]
    constructor
    · rintro ⟨z, hz, hm⟩
      obtain ⟨hmem, hname⟩ := List.mem_filter.mp hz
      exact .overwritten hnamed hby hmem hname hm
    · intro hleaks
      cases hleaks with
      | replaced hnot => exact absurd hnamed hnot
      | overwritten _ _ he hname hm => exact ⟨_, List.mem_filter.mpr ⟨he, hname⟩, hm⟩
      | appended hby' => exact absurd hby' hby
      | item hby' => exact absurd hby' hby
  · rw [mergeList_notNamed hnamed] at hrun
    cases hrun
    constructor
    · exact .replaced hnamed
    · intro hleaks
      cases hleaks with
      | replaced _ hm => exact hm
      | overwritten hnamed' => exact absurd hnamed' hnamed
      | appended hby' => exact absurd hby' hby
      | item hby' => exact absurd hby' hby

/-- No marker in the default, so those of the result come from the user. -/
theorem mentions_mergeValue_iff {v : Val} (hv : v.WellFormed) : ∀ {key : String} {x r : Val},
    x.WellFormed → ¬ x.Mentions "_merge" → mergeValue key x v = .ok r →
      (r.Mentions "_merge" ↔ Leaks x v) := by
  induction v using Val.induct with
  | scalar s =>
      intro key x r _ _ h
      obtain ⟨rfl, -⟩ := mergeValue_scalar_eq_ok h
      constructor
      · exact fun hm => absurd hm (Val.not_mentions_scalar s)
      · intro hleaks
        cases hleaks
  | dict fs ih =>
      intro key x r hx hfree h
      obtain ⟨es, gs, rfl, rfl, hrun⟩ := mergeValue_dict_eq_ok h
      exact mentions_mergeObjdict_iff hx hv hfree hrun fun entry hentry =>
        ih entry hentry ((Val.wellFormed_dict_iff.mp hv).2 entry hentry)
  | list ys ih =>
      intro key x r hx hfree h
      obtain ⟨xs, zs, rfl, rfl, hrun⟩ := mergeValue_list_eq_ok h
      by_cases hby : MergedByName xs ys
      · exact mentions_byName_iff hby hx hv hfree hrun fun y hy =>
          ih y hy (Val.wellFormed_list_iff.mp hv y hy)
      · exact mentions_notByName_iff hby hrun

/-! ## Items -/

theorem keepsItems_scalar (s : Scalar) (r : Val) : KeepsItems (.scalar s) r := by
  intro address ys _ hu
  cases address with
  | nil => cases hu
  | cons step rest => cases step <;> cases hu

theorem Val.WellFormed.at? {v w : Val} {address : List Step} (hv : v.WellFormed)
    (h : v.at? address = some w) : w.WellFormed := by
  induction address generalizing v with
  | nil =>
      cases h
      exact hv
  | cons step rest ih =>
      cases step with
      | key key =>
          cases v with
          | scalar | list => cases h
          | dict entries =>
              rw [Val.at?, Option.bind_eq_some_iff] at h
              obtain ⟨x, hx, h⟩ := h
              exact ih (hv.attr? hx) h
      | item name =>
          cases v with
          | scalar | dict => cases h
          | list items =>
              rw [Val.at?, Option.bind_eq_some_iff] at h
              obtain ⟨x, hx, h⟩ := h
              exact ih (Val.wellFormed_list_iff.mp hv x (List.mem_of_find?_eq_some hx)) h

theorem KeepsItems.refl {v : Val} (hv : v.WellFormed) : KeepsItems v v := by
  intro address ys _ hu
  refine ⟨ys, hu, fun y hy own hown => List.any_eq_true.mpr ⟨y, hy, ?_⟩⟩
  have hy := Val.wellFormed_list_iff.mp (hv.at? hu) y hy
  exact isNamed_eq_true.mpr ⟨own, hown, Val.pyEq_refl (hy.attr? hown)⟩

theorem goodAddress_cons {step : Step} {rest : List Step} : GoodAddress (step :: rest) ↔
    (∀ name, step = .item name → name.WellFormed) ∧ GoodAddress rest := by
  constructor
  · exact fun h => ⟨fun name heq => h name (heq ▸ List.mem_cons_self),
      fun name hmem => h name (List.mem_cons_of_mem _ hmem)⟩
  · rintro ⟨hfirst, hrest⟩ name hmem
    rcases List.mem_cons.mp hmem with heq | hmem
    · exact hfirst name heq.symm
    · exact hrest name hmem

/-- Two mappings, key by key. -/
theorem keepsItems_dict_iff {fs gs : Entries}
    (hkeys : ∀ {k v}, fs.lookup k = some v → ∃ z, gs.lookup k = some z) :
    KeepsItems (.dict fs) (.dict gs) ↔ ∀ {k v z}, fs.lookup k = some v → gs.lookup k = some z →
      KeepsItems v z := by
  constructor
  · intro h k v z hv hz address ys hgood hu
    have hfound : (Val.dict fs).at? (.key k :: address) = some (.list ys) := by
      rw [Val.at?, hv]
      exact hu
    obtain ⟨zs, hr, hitems⟩ := h _ ys (goodAddress_cons.mpr ⟨by simp, hgood⟩) hfound
    rw [Val.at?, hz] at hr
    exact ⟨zs, hr, hitems⟩
  · intro h address ys hgood hu
    cases address with
    | nil => cases hu
    | cons step rest =>
        cases step with
        | item name => cases hu
        | key k =>
            rw [Val.at?, Option.bind_eq_some_iff] at hu
            obtain ⟨v, hv, hu⟩ := hu
            obtain ⟨z, hz⟩ := hkeys hv
            obtain ⟨zs, hr, hitems⟩ := h hv hz rest ys (goodAddress_cons.mp hgood).2 hu
            refine ⟨zs, ?_, hitems⟩
            rw [Val.at?, hz]
            exact hr

/-- Two lists, by item name. -/
theorem keepsItems_list_iff {ys zs : List Val} (hys : (Val.list ys).WellFormed) :
    KeepsItems (.list ys) (.list zs) ↔
      (∀ y ∈ ys, ∀ own, y.attr? "name" = some own → zs.any (isNamed own) = true) ∧
        ∀ {name y z}, name.WellFormed → itemNamed name ys = some y →
          itemNamed name zs = some z → KeepsItems y z := by
  constructor
  · intro h
    constructor
    · obtain ⟨zs', hr, hitems⟩ := h [] ys (fun _ hmem => absurd hmem (List.not_mem_nil)) rfl
      cases hr
      exact hitems
    · intro name y z hname hy hz address items hgood hu
      have hfound : (Val.list ys).at? (.item name :: address) = some (.list items) := by
        rw [Val.at?, hy]
        exact hu
      have hgood' : GoodAddress (.item name :: address) := by
        refine goodAddress_cons.mpr ⟨fun other heq => ?_, hgood⟩
        cases heq
        exact hname
      obtain ⟨items', hr, hitems⟩ := h _ items hgood' hfound
      rw [Val.at?, hz] at hr
      exact ⟨items', hr, hitems⟩
  · rintro ⟨hitems, hnested⟩ address items hgood hu
    cases address with
    | nil =>
        cases hu
        exact ⟨zs, rfl, hitems⟩
    | cons step rest =>
        cases step with
        | key k => cases hu
        | item name =>
            rw [Val.at?, Option.bind_eq_some_iff] at hu
            obtain ⟨y, hy, hu⟩ := hu
            obtain ⟨hname, hgood⟩ := goodAddress_cons.mp hgood
            have hname := hname name rfl
            have hmem := List.mem_of_find?_eq_some hy
            obtain ⟨own, hown, heq⟩ := isNamed_eq_true.mp (List.find?_some hy)
            have hownwf := (Val.wellFormed_list_iff.mp hys y hmem).attr? hown
            have hany := hitems y hmem own hown
            rw [isNamed_eq_of_pyEq hownwf hname heq, List.any_eq_true, ← List.find?_isSome] at hany
            obtain ⟨z, hz⟩ := Option.isSome_iff_exists.mp hany
            obtain ⟨items', hr, hitems⟩ := hnested hname hy hz rest items hgood hu
            refine ⟨items', ?_, hitems⟩
            rw [Val.at?, show itemNamed name zs = some z from hz]
            exact hr

/-- A list merged by name, where it is known for the items. -/
theorem keepsItems_byName_iff {xs ys zs : List Val} {key : String} (hby : MergedByName xs ys)
    (hxs : (Val.list xs).WellFormed) (hys : (Val.list ys).WellFormed)
    (hfree : NoMergeItems (.list xs)) (hrun : mergeList xs ys key (mergeMatched ys) = .ok zs)
    (ih : ∀ y ∈ ys, ∀ {x z}, x.WellFormed → NoMergeItems x → mergeValue key x y = .ok z →
      (KeepsItems y z ↔ ¬ Loses x y)) :
    KeepsItems (.list ys) (.list zs) ↔ ¬ Loses (.list xs) (.list ys) := by
  have hzs : (Val.list zs).WellFormed :=
    mergeValue_wellFormed hys hxs (mergeValue_list_iff.mpr ⟨zs, rfl, hrun⟩)
  have hzs' := Val.wellFormed_list_iff.mp hzs
  have hys' := Val.wellFormed_list_iff.mp hys
  have hunique : UniqueNames ys := (mergeList_byName hby hxs hys hrun).2.1
  obtain ⟨huniquez, merged, rfl, hpairs⟩ := merged_items hby hxs hys hfree hrun
  have hany : ∀ own, xs.any (isNamed own) = merged.any (isNamed own) := fun own =>
    any_forall₂ hpairs fun x _ z hz hxz =>
      hxz.2.2.2.isNamed_eq hxz.2.1 (hzs' z (List.mem_append_left _ hz)) own
  -- a match is merged into the item of the default, which keeps its name
  have hitem : ∀ {x z y own}, (mergeMatched ys x = .ok z ∧ x.WellFormed ∧ NoMergeItems x ∧
      SameName x z) → x.attr? "name" = some own → itemNamed own ys = some y →
        (KeepsItems y z ↔ ¬ Loses x y) := by
    rintro x z y own ⟨hxz, hxwf, hxfree, -⟩ hown hy
    exact ih y (List.mem_of_find?_eq_some hy) hxwf hxfree
      ((mergeMatched_some key hown hxwf hys hunique hy).mp hxz)
  rw [keepsItems_list_iff hys]
  constructor
  · rintro ⟨hitems, hnested⟩ hloses
    cases hloses with
    | @dropped _ _ e own _ he hown hmarker hnone =>
        have hkept := hitems e he own hown
        rw [List.any_append, ← hany, hnone, Bool.false_or] at hkept
        obtain ⟨e', he', hnamed⟩ := List.any_eq_true.mp hkept
        obtain ⟨hmem, hunmarked, -⟩ := mem_additions.mp he'
        have hsame := itemNamed_eq_some hys hunique ((hys' e he).attr? hown) hmem hnamed
        rw [itemNamed_of_mem hys hunique he hown] at hsame
        cases hsame
        rw [hmarker] at hunmarked
        cases hunmarked
    | @item _ _ x y own _ hx hown hy h =>
        obtain ⟨z, hz, hpair⟩ := exists_of_mem_forall₂ hpairs hx
        have hownwf := hpair.2.1.attr? hown
        have hz := List.mem_append_left (additions xs ys) hz
        have hnamed : isNamed own z = true := by
          rw [← hpair.2.2.2.isNamed_eq hpair.2.1 (hzs' z hz) own]
          exact isNamed_eq_true.mpr ⟨own, hown, Val.pyEq_refl hownwf⟩
        exact (hitem hpair hown hy).mp
          (hnested hownwf hy (itemNamed_eq_some hzs huniquez hownwf hz hnamed)) h
  · intro hkeeps
    constructor
    · intro y hy own hown
      rw [List.any_append, Bool.or_eq_true, ← hany]
      by_cases hknown : xs.any (isNamed own) = true
      · exact Or.inl hknown
      · refine Or.inr (List.any_eq_true.mpr ⟨y, mem_additions.mpr ⟨hy, ?_, own, hown, ?_⟩, ?_⟩)
        · by_contra hmarker
          rw [Bool.not_eq_false] at hmarker
          exact hkeeps (.dropped hby hy hown hmarker (by simpa using hknown))
        · simpa using hknown
        · exact isNamed_eq_true.mpr ⟨own, hown, Val.pyEq_refl ((hys' y hy).attr? hown)⟩
    · intro name y z hname hy hz
      have hnamed := List.find?_some hz
      rcases List.mem_append.mp (List.mem_of_find?_eq_some hz) with hmem | hmem
      · obtain ⟨x, hx, hpair⟩ := exists_of_mem_forall₂ hpairs.flip hmem
        rw [← hpair.2.2.2.isNamed_eq hpair.2.1 (hzs' z (List.mem_append_left _ hmem)) name]
          at hnamed
        obtain ⟨own, hown, heq⟩ := isNamed_eq_true.mp hnamed
        have hown' : itemNamed own ys = some y := by
          rw [← hy, itemNamed, itemNamed, isNamed_eq_of_pyEq (hpair.2.1.attr? hown) hname heq]
        exact (hitem hpair hown hown').mpr fun h => hkeeps (.item hby hx hown hown' h)
      · -- an addition is the user's item itself
        have hz := itemNamed_eq_some hys hunique hname (mem_additions.mp hmem).1 hnamed
        rw [hy] at hz
        cases hz
        exact KeepsItems.refl (hys' y (List.mem_of_find?_eq_some hy))

/-- What a merge keeps of the user's named items. -/
theorem keepsItems_mergeValue_iff {v : Val} (hv : v.WellFormed) : ∀ {key : String} {x r : Val},
    x.WellFormed → NoMergeItems x → mergeValue key x v = .ok r →
      (KeepsItems v r ↔ ¬ Loses x v) := by
  induction v using Val.induct with
  | scalar s =>
      intro key x r _ _ _
      refine iff_of_true (keepsItems_scalar s r) fun hloses => ?_
      cases hloses
  | dict fs ih =>
      intro key x r hx hfree h
      obtain ⟨es, gs, rfl, rfl, hrun⟩ := mergeValue_dict_eq_ok h
      obtain ⟨-, hevalues⟩ := Val.wellFormed_dict_iff.mp hx
      obtain ⟨hfkeys, hfvalues⟩ := Val.wellFormed_dict_iff.mp hv
      have hfree := noMergeItems_dict_iff.mp hfree
      have hknown : ∀ {k w v}, es.lookup k = some w → fs.lookup k = some v →
          ∃ z, gs.lookup k = some z ∧ (KeepsItems v z ↔ ¬ Loses w v) := by
        intro k w v hw hv
        have hmem := mem_of_lookup_eq_some hw
        have hvmem := mem_of_lookup_eq_some hv
        obtain ⟨z, hz, hmerge⟩ := mergeObjdict_value hrun hfkeys hw hv
        exact ⟨z, hz, ih _ hvmem (hfvalues _ hvmem) (hevalues _ hmem) (hfree _ hmem) hmerge⟩
      have hkeys : ∀ {k v}, fs.lookup k = some v → ∃ z, gs.lookup k = some z := by
        intro k v hv
        cases hw : es.lookup k with
        | none => exact ⟨v, mergeObjdict_new hrun hfkeys hw hv⟩
        | some w =>
            obtain ⟨z, hz, -⟩ := hknown hw hv
            exact ⟨z, hz⟩
      rw [keepsItems_dict_iff hkeys]
      constructor
      · intro hkeeps hloses
        cases hloses with
        | key hd hu h =>
            obtain ⟨z, hz, hiff⟩ := hknown hd hu
            exact hiff.mp (hkeeps hu hz) h
      · intro hkeeps k v z hv hz
        cases hw : es.lookup k with
        | none =>
            rw [mergeObjdict_new hrun hfkeys hw hv] at hz
            cases hz
            exact KeepsItems.refl (hfvalues _ (mem_of_lookup_eq_some hv))
        | some w =>
            obtain ⟨z', hz', hiff⟩ := hknown hw hv
            rw [hz] at hz'
            cases hz'
            exact hiff.mpr fun h => hkeeps (.key hw hv h)
  | list ys ih =>
      intro key x r hx hfree h
      obtain ⟨xs, zs, rfl, rfl, hrun⟩ := mergeValue_list_eq_ok h
      have hys := Val.wellFormed_list_iff.mp hv
      by_cases hby : MergedByName xs ys
      · refine keepsItems_byName_iff hby hx hv hfree hrun fun y hy {x z} hx hfree hmerge => ?_
        exact ih y hy (hys y hy) hx hfree hmerge
      -- every other list of the user keeps all its named items
      have hkeeps : ¬ Loses (.list xs) (.list ys) := by
        intro hloses
        cases hloses with
        | dropped hby' => exact hby hby'
        | item hby' => exact hby hby'
      refine iff_of_true ?_ hkeeps
      by_cases hnamed : isNamedList xs = true ∧ isNamedList ys = true
      · rw [mergeList_replaced hby hrun, if_pos (by simp [hnamed.1, hnamed.2]),
          keepsItems_list_iff hv]
        obtain ⟨-, hunique⟩ := uniqueNames_of_mergeList hnamed.1 hnamed.2 hx hv hrun
        constructor
        · intro y hy own hown
          have hname : y.hasAttr "name" = true := by rw [Val.hasAttr, hown, Option.isSome_some]
          exact List.any_eq_true.mpr ⟨y, List.mem_filter.mpr ⟨hy, hname⟩,
            isNamed_eq_true.mpr ⟨own, hown, Val.pyEq_refl ((hys y hy).attr? hown)⟩⟩
        · intro name y z hname hy hz
          have hmem := (List.mem_filter.mp (List.mem_of_find?_eq_some hz)).1
          have hz := itemNamed_eq_some hv hunique hname hmem (List.find?_some hz)
          rw [hy] at hz
          cases hz
          exact KeepsItems.refl (hys y (List.mem_of_find?_eq_some hy))
      · rw [mergeList_notNamed hnamed] at hrun
        cases hrun
        exact KeepsItems.refl hv

/-! ## The whole document -/

/-- The result of a merge has no marker and every named item of the user, exactly when no
part of the user's document brings a marker along and no named item with a marker is
without a match. -/
theorem mergeObjdict_markers_iff {d u r : Entries} (hd : (Val.dict d).WellFormed)
    (hu : (Val.dict u).WellFormed) (hfree : ¬ (Val.dict d).Mentions "_merge")
    (hrun : mergeObjdict d u = .ok r) :
    (¬ (Val.dict r).Mentions "_merge" ∧ KeepsItems (.dict u) (.dict r)) ↔
      ¬ Leaks (.dict d) (.dict u) ∧ ¬ Loses (.dict d) (.dict u) := by
  have hval : mergeValue "" (.dict d) (.dict u) = .ok (.dict r) :=
    mergeValue_dict_iff.mpr ⟨r, rfl, hrun⟩
  rw [mentions_mergeValue_iff hu hd hfree hval,
    keepsItems_mergeValue_iff hu hd (noMergeItems_of_not_mentions hfree) hval]

/-- A marked list under a key the default does not know is taken over with its marker. -/
theorem mergeObjdict_leaks_marker : ¬ ∀ d u r : Entries, (Val.dict d).WellFormed →
    (Val.dict u).WellFormed → ¬ (Val.dict d).Mentions "_merge" → mergeObjdict d u = .ok r →
    ¬ (Val.dict r).Mentions "_merge" ∧ KeepsItems (.dict u) (.dict r) := by
  intro h
  obtain ⟨hfree, -⟩ := h [] [("rules", .list [.dict [("_merge", .bool true)],
    .dict [("name", .str "ssh")]])] _ (by simp) (by simp)
    (by simp [Val.mentions_dict_iff]) rfl
  simp [Val.mentions_dict_iff, Val.mentions_list_iff, dictSet] at hfree

/-- A marked list the default knows. -/
theorem mergeObjdict_markers_iff_sample :
    (¬ (Val.dict [("rules", .list [.dict [("name", .str "ssh")],
        .dict [("name", .str "http")]])]).Mentions "_merge" ∧
      KeepsItems (.dict [("rules", .list [.dict [("_merge", .bool true)],
          .dict [("name", .str "http")]])])
        (.dict [("rules", .list [.dict [("name", .str "ssh")],
          .dict [("name", .str "http")]])])) ↔
      ¬ Leaks (.dict [("rules", .list [.dict [("name", .str "ssh")]])])
          (.dict [("rules", .list [.dict [("_merge", .bool true)],
            .dict [("name", .str "http")]])]) ∧
        ¬ Loses (.dict [("rules", .list [.dict [("name", .str "ssh")]])])
          (.dict [("rules", .list [.dict [("_merge", .bool true)],
            .dict [("name", .str "http")]])]) :=
  mergeObjdict_markers_iff (by simp) (by simp)
    (by simp [Val.mentions_dict_iff, Val.mentions_list_iff, Val.not_mentions_scalar]) rfl

end LambdaStack
