/-
# Merging one document twice

A user document named `default` is merged as the default configuration of its kind
and then as the document itself. The second merge meets the user's own parts in the
result: where the first one took such a part over whole, the part is merged with
itself, and its markers and names are looked at for the first time.
-/

import LambdaStack.Helpers.MergeRuns

namespace LambdaStack

open Lib

/-- A value that is merged with itself without a change: its named lists have unique
names and no marker item stands among named ones. -/
inductive SelfMerges : Val → Prop
  | scalar (s : Scalar) : SelfMerges (.scalar s)
  | dict {entries : Entries} (h : ∀ entry ∈ entries, SelfMerges entry.2) :
      SelfMerges (.dict entries)
  /-- A list that is no named one is replaced by itself. -/
  | plain {items : List Val} (h : isNamedList items = false) : SelfMerges (.list items)
  /-- A named list that asks for no merge is overwritten by its named items. -/
  | overwritten {items : List Val} (hnames : ∀ x ∈ items, x.hasAttr "name" = true)
      (hunique : UniqueNames items) (hstrategy : (∀ x ∈ items, x.hasAttr "_merge" = false) ∨
        firstMarker items = some (.bool false)) : SelfMerges (.list items)
  | byName {items : List Val} (hnames : ∀ x ∈ items, x.hasAttr "name" = true)
      (hunique : UniqueNames items) (hmarker : firstMarker items = some (.bool true))
      (h : ∀ x ∈ items, SelfMerges x) : SelfMerges (.list items)
  /-- A list of nothing but markers. -/
  | markers {items : List Val} (hnames : ∀ x ∈ items, x.hasAttr "name" = false)
      (hmarkers : ∀ x ∈ items, x.hasAttr "_merge" = true)
      (hmarker : firstMarker items = some (.bool true)) : SelfMerges (.list items)

/-- `w` is a part of the user's value that a merge takes over whole. -/
inductive TakenOver : Val → Val → Val → Prop
  | newKey {es fs : Entries} {key : String} {v : Val} (hd : es.lookup key = none)
      (hu : fs.lookup key = some v) : TakenOver (.dict es) (.dict fs) v
  | key {es fs : Entries} {key : String} {x v w : Val} (hd : es.lookup key = some x)
      (hu : fs.lookup key = some v) (h : TakenOver x v w) : TakenOver (.dict es) (.dict fs) w
  | replaced {xs ys : List Val} (h : ¬ (isNamedList xs = true ∧ isNamedList ys = true)) :
      TakenOver (.list xs) (.list ys) (.list ys)
  | appended {xs ys : List Val} {e : Val} (hby : MergedByName xs ys) (he : e ∈ additions xs ys) :
      TakenOver (.list xs) (.list ys) e
  | item {xs ys : List Val} {x y own w : Val} (hby : MergedByName xs ys) (hx : x ∈ xs)
      (hown : x.attr? "name" = some own) (hy : itemNamed own ys = some y)
      (h : TakenOver x y w) : TakenOver (.list xs) (.list ys) w

/-- Every named item of the list is in the list itself. -/
theorem additions_self {l : List Val} (hl : (Val.list l).WellFormed) : additions l l = [] := by
  rw [List.eq_nil_iff_forall_not_mem]
  intro e he
  obtain ⟨hmem, -, own, hown, hany⟩ := mem_additions.mp he
  have hself : isNamed own e = true :=
    isNamed_eq_true.mpr ⟨own, hown, Val.pyEq_refl
      ((Val.wellFormed_list_iff.mp hl e hmem).attr? hown)⟩
  rw [List.any_eq_false] at hany
  exact hany e hmem hself

/-- Without named candidates an item without a name has no match either. -/
theorem mergeMatched_unnamed {l : List Val} (hnames : ∀ x ∈ l, x.hasAttr "name" = false)
    (item : Val) : mergeMatched l item = .ok item := by
  have hmatches : matchesOf item l = .ok [] := by
    induction l with
    | nil => rfl
    | cons x rest ih =>
        have hx : x.attr? "name" = none := by
          simpa [Val.hasAttr] using hnames x List.mem_cons_self
        rw [matchesOf, hx]
        exact ih fun y hy => hnames y (List.mem_cons_of_mem _ hy)
  rw [mergeMatched, hmatches]
  rfl

theorem appendUnmatched_markers {toMerge extendBy : List Val}
    (hmarkers : ∀ x ∈ extendBy, x.hasAttr "_merge" = true) :
    appendUnmatched toMerge extendBy = .ok toMerge := by
  induction extendBy with
  | nil => rfl
  | cons item rest ih =>
      rw [appendUnmatched, if_pos (hmarkers item List.mem_cons_self)]
      exact ih fun x hx => hmarkers x (List.mem_cons_of_mem _ hx)

theorem SelfMerges.run {v : Val} (h : SelfMerges v) (hv : v.WellFormed) :
    ∀ key, mergeValue key v v = .ok v := by
  induction h with
  | scalar s =>
      intro key
      simp only [mergeValue, if_true]
  | @dict es _ ih =>
      intro key
      obtain ⟨hkeys, hvalues⟩ := Val.wellFormed_dict_iff.mp hv
      refine mergeValue_dict_iff.mpr ⟨es, rfl, mergeObjdict_same fun entry hentry => ?_⟩
      exact ⟨entry.2, lookup_eq_some_of_mem hkeys hentry,
        ih entry hentry (hvalues entry hentry) entry.1⟩
  | @plain items h =>
      intro key
      exact mergeValue_list_iff.mpr ⟨items, rfl, mergeList_notNamed fun hnamed => by
        rw [h] at hnamed
        exact Bool.false_ne_true hnamed.1⟩
  | @overwritten items hnames hunique hstrategy =>
      intro key
      have hnamed := isNamedList_of_names hnames
      have hrun := mergeList_overwrite key (mergeMatched items) hnamed hnamed hv hv
        (mergeStrategy_false_iff.mpr hstrategy) hunique hunique
      rw [List.filter_eq_self.mpr hnames] at hrun
      exact mergeValue_list_iff.mpr ⟨items, rfl, hrun⟩
  | @byName items hnames hunique hmarker _ ih =>
      intro key
      have hnamed := isNamedList_of_names hnames
      have hitems := Val.wellFormed_list_iff.mp hv
      refine mergeValue_list_iff.mpr ⟨items, rfl,
        (mergeList_byName_iff key ⟨hnamed, hnamed, hmarker⟩ hv hv hnames).mpr
          ⟨hunique, hunique, items, List.forall₂_same.mpr fun x hx => ?_, ?_⟩⟩
      · obtain ⟨own, hown⟩ := exists_name (hnames x hx)
        exact (mergeMatched_some _ hown (hitems x hx) hv hunique
          (itemNamed_of_mem hv hunique hx hown)).mpr (ih x hx (hitems x hx) key)
      · rw [additions_self hv, List.append_nil]
  | @markers items hnames hmarkers hmarker =>
      intro key
      have hnamed : isNamedList items = true := by
        rw [isNamedList, List.all_eq_true]
        intro x hx
        rw [hmarkers x hx, Bool.or_true]
      have hunique : UniqueNames items := by
        refine List.pairwise_iff_forall_sublist.mpr fun {a b} hsub n hn => ?_
        have ha := hnames a (hsub.subset (by simp))
        rw [Val.hasAttr, hn] at ha
        cases ha
      refine mergeValue_list_iff.mpr ⟨items, rfl, ?_⟩
      unfold mergeList
      rw [if_pos (by simp [hnamed]), mergeStrategy_eq_ok_true.mpr hmarker,
        (assertUniqueNames_iff hv).mpr hunique, (assertUniqueNames_iff hv).mpr hunique]
      have hmerged : items.mapM (mergeMatched items) = .ok items :=
        mapM_eq_ok.mpr (List.forall₂_same.mpr fun x _ => mergeMatched_unnamed hnames x)
      simp only [ok_bind, if_true, hmerged, appendUnmatched_markers hmarkers]

/-- An item without a name is merged only where no candidate has one. -/
theorem unnamed_of_mergeMatched {l : List Val} {item z : Val} (hitem : item.hasAttr "name" = false)
    (h : mergeMatched l item = .ok z) : ∀ x ∈ l, x.hasAttr "name" = false := by
  have hnone : item.attr? "name" = none := by simpa [Val.hasAttr] using hitem
  have hmatches :
      ∀ {l found}, matchesOf item l = .ok found → ∀ x ∈ l, x.hasAttr "name" = false := by
    intro l
    induction l with
    | nil => simp
    | cons x rest ih =>
        intro found hfound
        rw [matchesOf] at hfound
        cases hx : x.attr? "name" with
        | none =>
            rw [hx] at hfound
            exact List.forall_mem_cons.mpr ⟨by simp [Val.hasAttr, hx], ih hfound⟩
        | some name =>
            simp only [hx, bind_eq_ok, Val.getItem_eq_ok, hnone] at hfound
            obtain ⟨_, ⟨⟩, -⟩ := hfound
  rw [mergeMatched, bind_eq_ok] at h
  obtain ⟨found, hfound, -⟩ := h
  exact hmatches hfound

theorem selfMerges_of_run {v : Val} (hv : v.WellFormed) :
    ∀ {key : String} {r : Val}, mergeValue key v v = .ok r → r.pyEq v = true → SelfMerges v := by
  induction v using Val.induct with
  | scalar s => exact fun _ _ => .scalar s
  | dict es ih =>
      intro key r h heq
      obtain ⟨hkeys, hvalues⟩ := Val.wellFormed_dict_iff.mp hv
      obtain ⟨gs, rfl, hrun⟩ := mergeValue_dict_iff.mp h
      refine .dict fun entry hentry => ?_
      have hlookup := lookup_eq_some_of_mem hkeys hentry
      obtain ⟨z, hz, hmerge⟩ := mergeObjdict_value hrun hkeys hlookup hlookup
      obtain ⟨w, hw, hzw⟩ := (Val.pyEq_dict_iff.mp heq).2 _ (mem_of_lookup_eq_some hz)
      rw [hlookup] at hw
      cases hw
      exact ih entry hentry (hvalues entry hentry) hmerge hzw
  | list items ih =>
      intro key r h heq
      obtain ⟨zs, rfl, hrun⟩ := mergeValue_list_iff.mp h
      rw [Val.pyEq_list_iff] at heq
      have hitems := Val.wellFormed_list_iff.mp hv
      by_cases hnamed : isNamedList items = true
      · obtain ⟨hunique, -⟩ := uniqueNames_of_mergeList hnamed hnamed hv hv hrun
        by_cases hby : MergedByName items items
        · by_cases hnames : ∀ x ∈ items, x.hasAttr "name" = true
          · -- every item is merged with itself
            obtain ⟨-, -, merged, hpairs, rfl⟩ :=
              (mergeList_byName_iff key hby hv hv hnames).mp hrun
            have hnone : additions merged items = [] := by
              have hlength := heq.length_eq
              rw [List.length_append, ← hpairs.length_eq] at hlength
              exact List.length_eq_zero_iff.mp (by omega)
            rw [hnone, List.append_nil] at heq
            refine .byName hnames hunique hby.2.2 fun x hx => ?_
            obtain ⟨i, hi, rfl⟩ := List.mem_iff_getElem.mp hx
            have hi' : i < merged.length := hpairs.length_eq ▸ hi
            obtain ⟨own, hown⟩ := exists_name (hnames _ hx)
            have hmerge := (mergeMatched_some key hown (hitems _ hx) hv hunique
              (itemNamed_of_mem hv hunique hx hown)).mp (hpairs.get hi hi')
            exact ih _ hx (hitems _ hx) hmerge (heq.get hi' hi)
          · -- an item without a name is a marker, and has to be among such
            rw [not_forall] at hnames
            obtain ⟨x, hx⟩ := hnames
            rw [Classical.not_imp, Bool.not_eq_true] at hx
            obtain ⟨-, -, merged, hpairs, -⟩ := mergeList_byName hby hv hv hrun
            obtain ⟨z, -, hz⟩ := exists_of_mem_forall₂ hpairs hx.1
            have hnone := unnamed_of_mergeMatched hx.2 hz
            refine .markers hnone (fun y hy => ?_) hby.2.2
            simp only [isNamedList, List.all_eq_true] at hnamed
            simpa [hnone y hy] using hnamed y hy
        · have hzs := mergeList_replaced hby hrun
          rw [if_pos (by simp [hnamed])] at hzs
          subst hzs
          have hnames := List.length_filter_eq_length_iff.mp heq.length_eq
          exact .overwritten hnames hunique (mergeStrategy_false_iff.mp
            (mergeStrategy_of_mergeList hnamed hnamed hby hrun))
      · exact .plain (by simpa using hnamed)

/-! ## The second merge -/

/-- Merging `v` into the result of merging it into `x` changes nothing exactly when all
that was taken over whole merges with itself. -/
structure Settled (key : String) (x v r : Val) : Prop where
  selfMerges : ∀ {r'}, mergeValue key r v = .ok r' → r'.pyEq r = true →
    ∀ w, TakenOver x v w → SelfMerges w
  run : (∀ w, TakenOver x v w → SelfMerges w) → mergeValue key r v = .ok r

/-- The second merge of a list by name, where it is known for the items. -/
theorem mergeList_settled {xs ys zs : List Val} {key : String} (hby : MergedByName xs ys)
    (hxs : (Val.list xs).WellFormed) (hys : (Val.list ys).WellFormed)
    (hfree : NoMergeItems (.list xs)) (hrun : mergeList xs ys key (mergeMatched ys) = .ok zs)
    (ih : ∀ y ∈ ys, ∀ {x z}, x.WellFormed → NoMergeItems x → mergeValue key x y = .ok z →
      Settled key x y z) : Settled key (.list xs) (.list ys) (.list zs) := by
  have hzs : (Val.list zs).WellFormed :=
    mergeValue_wellFormed hys hxs (mergeValue_list_iff.mpr ⟨zs, rfl, hrun⟩)
  have hzs' := Val.wellFormed_list_iff.mp hzs
  have hunique' : UniqueNames ys := (mergeList_byName hby hxs hys hrun).2.1
  obtain ⟨huniquez, merged, rfl, hpairs⟩ := merged_items hby hxs hys hfree hrun
  have hnamesz : ∀ z ∈ merged ++ additions xs ys, z.hasAttr "name" = true := by
    intro z hz
    rcases List.mem_append.mp hz with hz | hz
    · obtain ⟨x, -, -, -, -, _, own, -, hown, -⟩ := exists_of_mem_forall₂ hpairs.flip hz
      rw [Val.hasAttr, hown, Option.isSome_some]
    · obtain ⟨-, -, own, hown, -⟩ := mem_additions.mp hz
      rw [Val.hasAttr, hown, Option.isSome_some]
  have hbyz : MergedByName (merged ++ additions xs ys) ys :=
    ⟨isNamedList_of_names hnamesz, hby.2.1, hby.2.2⟩
  -- an item that comes from the default has the match it had
  have hmatch : ∀ {x z}, x.WellFormed → z.WellFormed → SameName x z → ∃ own own',
      x.attr? "name" = some own ∧ z.attr? "name" = some own' ∧
        itemNamed own' ys = itemNamed own ys := by
    rintro x z hx hz ⟨own, own', hown, hown', heq⟩
    refine ⟨own, own', hown, hown', ?_⟩
    have hsame : isNamed own' = isNamed own :=
      isNamed_eq_of_pyEq (hz.attr? hown') (hx.attr? hown) heq
    rw [itemNamed, itemNamed, hsame]
  -- an addition is its own match
  have hadded : ∀ e ∈ additions xs ys, ∀ e', mergeMatched ys e = .ok e' ↔
      mergeValue key e e = .ok e' := by
    intro e he e'
    obtain ⟨hmem, -, own, hown, -⟩ := mem_additions.mp he
    exact mergeMatched_some key hown (Val.wellFormed_list_iff.mp hys e hmem) hys hunique'
      (itemNamed_of_mem hys hunique' hmem hown)
  constructor
  · intro r' hagain heq w hw
    obtain ⟨zs', rfl, hrun'⟩ := mergeValue_list_iff.mp hagain
    obtain ⟨-, -, merged', hpairs', rfl⟩ := (mergeList_byName_iff key hbyz hzs hys hnamesz).mp hrun'
    rw [Val.pyEq_list_iff] at heq
    have hnone : additions merged' ys = [] := by
      have hlength := heq.length_eq
      rw [List.length_append, ← hpairs'.length_eq] at hlength
      exact List.length_eq_zero_iff.mp (by omega)
    rw [hnone, List.append_nil] at heq
    have hitem : ∀ z ∈ merged ++ additions xs ys, ∃ z', mergeMatched ys z = .ok z' ∧
        z'.pyEq z = true := by
      intro z hz
      obtain ⟨i, hi, rfl⟩ := List.mem_iff_getElem.mp hz
      have hi' : i < merged'.length := hpairs'.length_eq ▸ hi
      exact ⟨merged'[i], hpairs'.get hi hi', heq.get hi' hi⟩
    cases hw with
    | replaced hnot => exact absurd ⟨hby.1, hby.2.1⟩ hnot
    | appended _ he =>
        obtain ⟨e', hrun, heq⟩ := hitem w (List.mem_append_right _ he)
        have hmem := (mem_additions.mp he).1
        exact selfMerges_of_run (Val.wellFormed_list_iff.mp hys w hmem)
          ((hadded w he e').mp hrun) heq
    | item _ hx hown hy htaken =>
        obtain ⟨z, hz, hxz, hxwf, hxfree, hsame⟩ := exists_of_mem_forall₂ hpairs hx
        have hz := List.mem_append_left (additions xs ys) hz
        obtain ⟨own, own', hown₁, hown', hnamed⟩ := hmatch hxwf (hzs' z hz) hsame
        rw [hown] at hown₁
        cases hown₁
        obtain ⟨z', hrun, heq⟩ := hitem z hz
        have hmerge := (mergeMatched_some key hown hxwf hys hunique' hy).mp hxz
        have hagain := (mergeMatched_some key hown' (hzs' z hz) hys hunique'
          (hnamed.trans hy)).mp hrun
        exact (ih _ (List.mem_of_find?_eq_some hy) hxwf hxfree hmerge).selfMerges hagain heq w
          htaken
  · intro hall
    have hitem : ∀ z ∈ merged ++ additions xs ys, mergeMatched ys z = .ok z := by
      intro z hz
      rcases List.mem_append.mp hz with hmem | hmem
      · obtain ⟨x, hx, hxz, hxwf, hxfree, hsame⟩ := exists_of_mem_forall₂ hpairs.flip hmem
        obtain ⟨own, own', hown, hown', hnamed⟩ := hmatch hxwf (hzs' z hz) hsame
        cases hy : itemNamed own ys with
        | none =>
            exact (mergeMatched_none hown' (hzs' z hz) hys hunique' (hnamed.trans hy)).mpr rfl
        | some y =>
            have hmerge := (mergeMatched_some key hown hxwf hys hunique' hy).mp hxz
            refine (mergeMatched_some key hown' (hzs' z hz) hys hunique'
              (hnamed.trans hy)).mpr ?_
            exact (ih y (List.mem_of_find?_eq_some hy) hxwf hxfree hmerge).run fun w hw =>
              hall w (.item hby hx hown hy hw)
      · exact (hadded z hmem z).mpr ((hall z (.appended hby hmem)).run (hzs' z hz) key)
    have hnone : additions (merged ++ additions xs ys) ys = [] := by
      rw [List.eq_nil_iff_forall_not_mem]
      intro e he
      obtain ⟨hmem, hmarker, own, hown, hany⟩ := mem_additions.mp he
      rw [List.any_append, Bool.or_eq_false_iff] at hany
      have hxs' : xs.any (isNamed own) = false := by
        rw [any_forall₂ hpairs fun x _ z hz hxz =>
          hxz.2.2.2.isNamed_eq hxz.2.1 (hzs' z (List.mem_append_left _ hz)) own]
        exact hany.1
      have he := mem_additions.mpr ⟨hmem, hmarker, own, hown, hxs'⟩
      have hself : isNamed own e = true := isNamed_eq_true.mpr ⟨own, hown, Val.pyEq_refl
        ((Val.wellFormed_list_iff.mp hys e hmem).attr? hown)⟩
      exact (List.any_eq_false.mp hany.2) e he hself
    refine mergeValue_list_iff.mpr ⟨_, rfl, (mergeList_byName_iff key hbyz hzs hys hnamesz).mpr
      ⟨huniquez, hunique', _, List.forall₂_same.mpr hitem, ?_⟩⟩
    rw [hnone, List.append_nil]

/-- Merging a value a second time. -/
theorem mergeValue_settled {v : Val} (hv : v.WellFormed) : ∀ {key : String} {x r : Val},
    x.WellFormed → NoMergeItems x → mergeValue key x v = .ok r → Settled key x v r := by
  induction v using Val.induct with
  | scalar s =>
      intro key x r _ _ h
      obtain ⟨rfl, -⟩ := mergeValue_scalar_eq_ok h
      constructor
      · intro r' _ _ w hw
        cases hw
      · intro _
        simp only [mergeValue, if_true]
  | list ys ih =>
      intro key x r hx hfree h
      obtain ⟨xs, zs, rfl, rfl, hrun⟩ := mergeValue_list_eq_ok h
      have hys := Val.wellFormed_list_iff.mp hv
      by_cases hby : MergedByName xs ys
      · refine mergeList_settled hby hx hv hfree hrun fun y hy {x z} hx hfree hmerge => ?_
        exact ih y hy (hys y hy) hx hfree hmerge
      by_cases hnamed : isNamedList xs = true ∧ isNamedList ys = true
      · -- the user's named items have overwritten the list, and do it again
        have hnot : ∀ w, ¬ TakenOver (.list xs) (.list ys) w := by
          intro w hw
          cases hw with
          | replaced hnot => exact hnot hnamed
          | appended hby' => exact hby hby'
          | item hby' => exact hby hby'
        have hzs := mergeList_replaced hby hrun
        rw [if_pos (by simp [hnamed.1, hnamed.2])] at hzs
        subst hzs
        obtain ⟨-, hunique⟩ := uniqueNames_of_mergeList hnamed.1 hnamed.2 hx hv hrun
        have hnames : ∀ z ∈ ys.filter (·.hasAttr "name"), z.hasAttr "name" = true :=
          fun z hz => (List.mem_filter.mp hz).2
        have hwf : (Val.list (ys.filter (·.hasAttr "name"))).WellFormed :=
          .list fun z hz => hys z (List.mem_filter.mp hz).1
        constructor
        · exact fun _ _ w hw => absurd hw (hnot w)
        · exact fun _ => mergeValue_list_iff.mpr ⟨_, rfl,
            mergeList_overwrite key _ (isNamedList_of_names hnames) hnamed.2 hwf hv
              (mergeStrategy_of_mergeList hnamed.1 hnamed.2 hby hrun)
              (hunique.sublist List.filter_sublist) hunique⟩
      · rw [mergeList_notNamed hnamed] at hrun
        cases hrun
        constructor
        · intro r' hagain heq w hw
          cases hw with
          | replaced => exact selfMerges_of_run hv hagain heq
          | appended hby => exact absurd ⟨hby.1, hby.2.1⟩ hnamed
          | item hby => exact absurd ⟨hby.1, hby.2.1⟩ hnamed
        · exact fun hall => (hall _ (.replaced hnamed)).run hv key
  | dict fs ih =>
      intro key x r hx hfree h
      have hr := mergeValue_wellFormed hv hx h
      obtain ⟨es, gs, rfl, rfl, hrun⟩ := mergeValue_dict_eq_ok h
      obtain ⟨-, hevalues⟩ := Val.wellFormed_dict_iff.mp hx
      obtain ⟨hfkeys, hfvalues⟩ := Val.wellFormed_dict_iff.mp hv
      have hfree := noMergeItems_dict_iff.mp hfree
      have hknown : ∀ {k w v}, es.lookup k = some w → fs.lookup k = some v →
          ∃ z, gs.lookup k = some z ∧ Settled k w v z := by
        intro k w v hw hv
        have hmem := mem_of_lookup_eq_some hw
        have hvmem := mem_of_lookup_eq_some hv
        obtain ⟨z, hz, hmerge⟩ := mergeObjdict_value hrun hfkeys hw hv
        exact ⟨z, hz, ih _ hvmem (hfvalues _ hvmem) (hevalues _ hmem) (hfree _ hmem) hmerge⟩
      constructor
      · intro r' hagain heq w hw
        obtain ⟨gs', rfl, hrun'⟩ := mergeValue_dict_iff.mp hagain
        have hvalue : ∀ {k z v}, gs.lookup k = some z → fs.lookup k = some v →
            ∃ z', mergeValue k z v = .ok z' ∧ z'.pyEq z = true := by
          intro k z v hz hv
          obtain ⟨z', hz', hmerge⟩ := mergeObjdict_value hrun' hfkeys hz hv
          obtain ⟨z₁, hz₁, heq⟩ := (Val.pyEq_dict_iff.mp heq).2 _ (mem_of_lookup_eq_some hz')
          rw [hz] at hz₁
          cases hz₁
          exact ⟨z', hmerge, heq⟩
        cases hw with
        | newKey hd hu =>
            obtain ⟨z', hmerge, heq⟩ := hvalue (mergeObjdict_new hrun hfkeys hd hu) hu
            exact selfMerges_of_run (hfvalues _ (mem_of_lookup_eq_some hu)) hmerge heq
        | key hd hu htaken =>
            obtain ⟨z, hz, hsettled⟩ := hknown hd hu
            obtain ⟨z', hmerge, heq⟩ := hvalue hz hu
            exact hsettled.selfMerges hmerge heq w htaken
      · intro hall
        refine mergeValue_dict_iff.mpr ⟨gs, rfl, mergeObjdict_same fun entry hentry => ?_⟩
        have hu := lookup_eq_some_of_mem hfkeys hentry
        cases hd : es.lookup entry.1 with
        | none =>
            exact ⟨entry.2, mergeObjdict_new hrun hfkeys hd hu,
              (hall _ (.newKey hd hu)).run (hfvalues entry hentry) entry.1⟩
        | some w =>
            obtain ⟨z, hz, hsettled⟩ := hknown hd hu
            exact ⟨z, hz, hsettled.run fun y hy => hall y (.key hd hu hy)⟩

/-- Merging the user's document into the result of merging it succeeds and leaves the
result what it is, exactly when every part that was taken over whole merges with itself. -/
theorem mergeObjdict_twice_iff {d u r : Entries} (hd : (Val.dict d).WellFormed)
    (hu : (Val.dict u).WellFormed) (hfree : NoMergeItems (.dict d))
    (hrun : mergeObjdict d u = .ok r) :
    (∃ r', mergeObjdict r u = .ok r' ∧ (Val.dict r').pyEq (.dict r) = true) ↔
      ∀ w, TakenOver (.dict d) (.dict u) w → SelfMerges w := by
  have hval : mergeValue "" (.dict d) (.dict u) = .ok (.dict r) :=
    mergeValue_dict_iff.mpr ⟨r, rfl, hrun⟩
  have hsettled := mergeValue_settled hu hd hfree hval
  constructor
  · rintro ⟨r', hagain, heq⟩
    exact hsettled.selfMerges (mergeValue_dict_iff.mpr ⟨r', rfl, hagain⟩) heq
  · intro hall
    obtain ⟨_, heq, hagain⟩ := mergeValue_dict_iff.mp (hsettled.run hall)
    cases heq
    exact ⟨r, hagain, Val.pyEq_refl (mergeObjdict_wellFormed hd hu hrun)⟩

/-- A marked list under a key the default does not know: the first merge takes it over
with its marker, the second one asks the marker for its name. -/
theorem mergeObjdict_twice_raises : ¬ ∀ d u r : Entries, (Val.dict d).WellFormed →
    (Val.dict u).WellFormed → NoMergeItems (.dict d) → mergeObjdict d u = .ok r →
    ∃ r', mergeObjdict r u = .ok r' ∧ (Val.dict r').pyEq (.dict r) = true := by
  intro h
  obtain ⟨r', hrun, -⟩ := h [] [("rules", .list [.dict [("_merge", .bool true)],
    .dict [("name", .str "ssh")]])] _ (by simp) (by simp) (by simp) rfl
  cases hrun

/-- A marked list the default knows. -/
theorem mergeObjdict_twice_iff_sample :
    (∃ r', mergeObjdict [("rules", .list [.dict [("name", .str "ssh"), ("port", .int 22)]])]
        [("rules", .list [.dict [("_merge", .bool true)],
          .dict [("name", .str "ssh"), ("port", .int 22)]])] = .ok r' ∧
      (Val.dict r').pyEq (.dict [("rules",
        .list [.dict [("name", .str "ssh"), ("port", .int 22)]])]) = true) ↔
      ∀ w, TakenOver (.dict [("rules", .list [.dict [("name", .str "ssh")]])])
        (.dict [("rules", .list [.dict [("_merge", .bool true)],
          .dict [("name", .str "ssh"), ("port", .int 22)]])]) w → SelfMerges w :=
  mergeObjdict_twice_iff (by simp) (by simp) (by simp [Val.hasAttr, Val.attr?]) rfl

end LambdaStack
