/-
# Merging a merged document

An upgrade and a full initialisation give the merger documents it has merged
before. Merging the result with the same defaults again gives the same result,
except where the defaults themselves repeat a name in a list the user left
alone: that list is checked only now.
-/

import LambdaStack.Helpers.MergeRuns

namespace LambdaStack

open Lib

/-- No named list that is reached through mappings repeats a name. -/
inductive NamesUnique : Val → Prop
  | scalar (s : Scalar) : NamesUnique (.scalar s)
  | list {items : List Val} (h : isNamedList items = true → UniqueNames items) :
      NamesUnique (.list items)
  | dict {entries : Entries} (h : ∀ entry ∈ entries, NamesUnique entry.2) :
      NamesUnique (.dict entries)

/-- `w` is a value of the default under a key the user does not set. -/
inductive LeftAlone : Val → Val → Val → Prop
  | here {es fs : Entries} {key : String} {w : Val} (hd : es.lookup key = some w)
      (hu : fs.lookup key = none) : LeftAlone (.dict es) (.dict fs) w
  | under {es fs : Entries} {key : String} {x v w : Val} (hd : es.lookup key = some x)
      (hu : fs.lookup key = some v) (h : LeftAlone x v w) : LeftAlone (.dict es) (.dict fs) w

theorem leftAlone_list {xs ys : List Val} {w : Val} : ¬ LeftAlone (.list xs) (.list ys) w := by
  intro h
  cases h

/-- Merging a default with itself. -/
theorem mergeValue_self_iff {x : Val} (hx : x.WellFormed) (hfree : NoMergeItems x) :
    ∀ {key : String} {r : Val}, mergeValue key x x = .ok r ↔ r = x ∧ NamesUnique x := by
  induction x using Val.induct with
  | scalar s =>
      intro key r
      simp only [mergeValue, if_true, Except.ok.injEq]
      exact ⟨fun h => ⟨h.symm, .scalar s⟩, fun h => h.1.symm⟩
  | list xs ih =>
      intro key r
      have hunmarked := (noMergeItems_list_iff.mp hfree).1
      rw [mergeValue_list_iff]
      by_cases hnamed : isNamedList xs = true
      · have hself : UniqueNames xs → mergeList xs xs key (mergeMatched xs) = .ok xs := by
          intro hunique
          have hrun := mergeList_overwrite key (mergeMatched xs) hnamed hnamed
            hx hx (mergeStrategy_false_iff.mpr (Or.inl hunmarked)) hunique hunique
          rwa [List.filter_eq_self.mpr (hasName_of_unmarked hnamed hunmarked)] at hrun
        constructor
        · rintro ⟨zs, rfl, hrun⟩
          have hunique := (uniqueNames_of_mergeList hnamed hnamed hx hx hrun).1
          rw [hself hunique] at hrun
          cases hrun
          exact ⟨rfl, .list fun _ => hunique⟩
        · rintro ⟨rfl, hunique⟩
          cases hunique with
          | list h => exact ⟨xs, rfl, hself (h hnamed)⟩
      · rw [mergeList_notNamed fun h => hnamed h.1]
        constructor
        · rintro ⟨zs, rfl, hrun⟩
          cases hrun
          exact ⟨rfl, .list fun h => absurd h hnamed⟩
        · rintro ⟨rfl, -⟩
          exact ⟨xs, rfl, rfl⟩
  | dict es ih =>
      intro key r
      obtain ⟨hkeys, hvalues⟩ := Val.wellFormed_dict_iff.mp hx
      have hfree := noMergeItems_dict_iff.mp hfree
      rw [mergeValue_dict_iff]
      constructor
      · rintro ⟨gs, rfl, hrun⟩
        have hentry : ∀ k w, es.lookup k = some w → gs.lookup k = some w ∧ NamesUnique w := by
          intro k w hw
          obtain ⟨r, hr, hmerge⟩ := mergeObjdict_value hrun hkeys hw hw
          have hmem := mem_of_lookup_eq_some hw
          obtain ⟨rfl, hunique⟩ := (ih _ hmem (hvalues _ hmem) (hfree _ hmem)).mp hmerge
          exact ⟨hr, hunique⟩
        have hgkeys : dictKeys gs = dictKeys es := by
          rw [dictKeys_mergeObjdict hrun hkeys, List.append_right_eq_self, List.filter_eq_nil_iff]
          simp
        have hgs : gs = es := by
          refine entries_ext hgkeys (hgkeys ▸ hkeys) fun k => ?_
          cases hk : es.lookup k with
          | none => rw [mergeObjdict_kept hrun hkeys hk, hk]
          | some w => exact (hentry k w hk).1
        refine ⟨congrArg Val.dict hgs, .dict fun entry hentry' => ?_⟩
        exact (hentry _ _ (lookup_eq_some_of_mem hkeys hentry')).2
      · rintro ⟨rfl, hunique⟩
        cases hunique with
        | dict hunique =>
            refine ⟨es, rfl, mergeObjdict_same fun entry hentry => ?_⟩
            exact ⟨entry.2, lookup_eq_some_of_mem hkeys hentry,
              (ih _ hentry (hvalues _ hentry) (hfree _ hentry)).mpr ⟨rfl, hunique _ hentry⟩⟩

/-- An item with a name is no marker and carries none. -/
theorem MarkersAlone.unmarked {ys : List Val} (halone : MarkersAlone (.list ys)) {y : Val}
    (hy : y ∈ ys) (hname : y.hasAttr "name" = true) : y.hasAttr "_merge" = false := by
  by_contra hmarker
  rw [Bool.not_eq_false] at hmarker
  rw [halone.markersUnnamed y hy hmarker] at hname
  cases hname

/-- The first merge leaves a list of named items, each name once. -/
theorem merged_names {xs ys zs : List Val} {key : String} (hnamed : isNamedList xs = true)
    (hnamed' : isNamedList ys = true) (hxs : (Val.list xs).WellFormed)
    (hys : (Val.list ys).WellFormed) (hfree : NoMergeItems (.list xs))
    (halone : MarkersAlone (.list ys)) (h : mergeList xs ys key (mergeMatched ys) = .ok zs) :
    (∀ z ∈ zs, z.hasAttr "name" = true ∧ z.hasAttr "_merge" = false) ∧ UniqueNames zs := by
  obtain ⟨hunique, hunique'⟩ := uniqueNames_of_mergeList hnamed hnamed' hxs hys h
  have hitem : ∀ y ∈ ys, y.hasAttr "name" = true →
      y.hasAttr "name" = true ∧ y.hasAttr "_merge" = false :=
    fun y hy hname => ⟨hname, halone.unmarked hy hname⟩
  by_cases hby : MergedByName xs ys
  · obtain ⟨⟨merged, hsame, hzs⟩, huniquez, -⟩ := mergeList_byName_spec hby hxs hys hfree halone h
    have hname : ∀ z ∈ zs, z.hasAttr "name" = true := by
      intro z hz
      rw [hzs] at hz
      rcases List.mem_append.mp hz with hz | hz
      · obtain ⟨x, -, _, name, -, hname, -⟩ := exists_of_mem_forall₂ hsame.flip hz
        simp [Val.hasAttr, hname]
      · have hz := (List.mem_filter.mp hz).2
        cases hname : z.attr? "name" with
        | none => simp [hname] at hz
        | some name => simp [Val.hasAttr, hname]
    refine ⟨fun z hz => ?_, huniquez⟩
    rcases mergeList_mem h z hz with hmem | ⟨x, hx, hxz⟩
    · exact hitem z hmem (hname z hz)
    · obtain ⟨own, hown⟩ := hfree.exists_name hnamed hx
      have hxwf := Val.wellFormed_list_iff.mp hxs x hx
      obtain ⟨-, -, hout⟩ := mergeMatched_outcome hys hunique' hxwf
        ((noMergeItems_list_iff.mp hfree).2 x hx) hown hxz
      refine ⟨hname z hz, ?_⟩
      have hxmarker := (noMergeItems_list_iff.mp hfree).1 x hx
      generalize hy : itemNamed own ys = y at hout
      cases hout with
      | default => exact hxmarker
      | @merged _ _ y r hval =>
          have hmem := List.mem_of_find?_eq_some hy
          have hyname := hasAttr_of_isNamed (List.find?_some hy)
          cases y with
          | scalar | list => simp [Val.hasAttr, Val.attr?] at hyname
          | dict fs =>
              have hywf := Val.wellFormed_list_iff.mp hys _ hmem
              rw [hasAttr_mergeValue rfl (Val.wellFormed_dict_iff.mp hywf).1 hval, hxmarker,
                halone.unmarked hmem hyname]
              rfl
  · have hzs := mergeList_replaced hby h
    rw [if_pos (by simp [hnamed, hnamed'])] at hzs
    subst hzs
    refine ⟨fun z hz => ?_, hunique'.sublist List.filter_sublist⟩
    exact hitem z (List.mem_filter.mp hz).1 (List.mem_filter.mp hz).2

/-- Two lists: what the first merge leaves is overwritten with itself. -/
theorem mergeList_again {xs ys zs : List Val} {key : String} (hxs : (Val.list xs).WellFormed)
    (hys : (Val.list ys).WellFormed) (hfree : NoMergeItems (.list xs))
    (halone : MarkersAlone (.list ys)) (h : mergeList xs ys key (mergeMatched ys) = .ok zs) :
    mergeList xs zs key (mergeMatched zs) = .ok zs := by
  have hzs : (Val.list zs).WellFormed :=
    mergeValue_wellFormed hys hxs (mergeValue_list_iff.mpr ⟨zs, rfl, h⟩)
  by_cases hnamed : isNamedList xs = true ∧ isNamedList ys = true
  · obtain ⟨hunique, hunique'⟩ := uniqueNames_of_mergeList hnamed.1 hnamed.2 hxs hys h
    obtain ⟨hnames, huniquez⟩ := merged_names hnamed.1 hnamed.2 hxs hys hfree halone h
    have hunmarked := fun z hz => (hnames z hz).2
    have hnames := fun z hz => (hnames z hz).1
    have hrun := mergeList_overwrite key (mergeMatched zs) hnamed.1
      (isNamedList_of_names hnames) hxs hzs (mergeStrategy_false_iff.mpr (Or.inl hunmarked))
      hunique huniquez
    rwa [List.filter_eq_self.mpr hnames] at hrun
  · rw [mergeList_notNamed hnamed] at h
    cases h
    exact mergeList_notNamed hnamed

/-- Two values: a second merge returns the first result, provided that the default
repeats no name where the user left it alone. -/
theorem mergeValue_again_iff {v : Val} (hv : v.WellFormed) (halone : MarkersAlone v) :
    ∀ {key : String} {x r r' : Val}, x.WellFormed → NoMergeItems x → mergeValue key x v = .ok r →
      (mergeValue key x r = .ok r' ↔ r' = r ∧ ∀ w, LeftAlone x v w → NamesUnique w) := by
  induction v using Val.induct with
  | scalar s =>
      intro key x r r' _ _ h
      obtain ⟨rfl, -⟩ := mergeValue_scalar_eq_ok h
      rw [h, Except.ok.injEq, eq_comm]
      refine ⟨fun heq => ⟨heq, fun w hw => ?_⟩, fun heq => heq.1⟩
      cases hw
  | list ys _ =>
      intro key x r r' hx hfree h
      obtain ⟨xs, zs, rfl, rfl, hrun⟩ := mergeValue_list_eq_ok h
      have hagain := mergeValue_list_iff.mpr ⟨zs, rfl, mergeList_again hx hv hfree halone hrun⟩
      rw [hagain, Except.ok.injEq, eq_comm]
      exact ⟨fun heq => ⟨heq, fun w hw => absurd hw leftAlone_list⟩, fun heq => heq.1⟩
  | dict fs ih =>
      intro key x r r' hx hfree h
      have hr := mergeValue_wellFormed hv hx h
      obtain ⟨es, gs, rfl, rfl, hrun⟩ := mergeValue_dict_eq_ok h
      obtain ⟨hekeys, hevalues⟩ := Val.wellFormed_dict_iff.mp hx
      obtain ⟨hfkeys, hfvalues⟩ := Val.wellFormed_dict_iff.mp hv
      obtain ⟨hgkeys, -⟩ := Val.wellFormed_dict_iff.mp hr
      have hfree := noMergeItems_dict_iff.mp hfree
      have halone := (markersAlone_dict_iff.mp halone).2
      -- what the second merge makes of a key of the default
      have hkey : ∀ k w, es.lookup k = some w → ∃ z, gs.lookup k = some z ∧ ∀ z',
          mergeValue k w z = .ok z' ↔ z' = z ∧
            ∀ y, (fs.lookup k = none ∧ y = w ∨ ∃ v, fs.lookup k = some v ∧ LeftAlone w v y) →
              NamesUnique y := by
        intro k w hw
        have hmem := mem_of_lookup_eq_some hw
        cases hv : fs.lookup k with
        | none =>
            refine ⟨w, (mergeObjdict_kept hrun hfkeys hv).trans hw, fun z' => ?_⟩
            rw [mergeValue_self_iff (hevalues _ hmem) (hfree _ hmem)]
            simp
        | some v =>
            have hvmem := mem_of_lookup_eq_some hv
            obtain ⟨z, hz, hmerge⟩ := mergeObjdict_value hrun hfkeys hw hv
            refine ⟨z, hz, fun z' => ?_⟩
            rw [ih _ hvmem (hfvalues _ hvmem) (halone _ hvmem) (hevalues _ hmem) (hfree _ hmem)
              hmerge]
            simp
      have hforward : ∀ gs', mergeObjdict es gs = .ok gs' →
          gs' = gs ∧ ∀ w, LeftAlone (.dict es) (.dict fs) w → NamesUnique w := by
        intro gs' hrun'
        have hboth : ∀ k w, es.lookup k = some w → ∃ z, gs.lookup k = some z ∧
            gs'.lookup k = some z ∧ ∀ y, (fs.lookup k = none ∧ y = w ∨
              ∃ v, fs.lookup k = some v ∧ LeftAlone w v y) → NamesUnique y := by
          intro k w hw
          obtain ⟨z, hz, hiff⟩ := hkey k w hw
          obtain ⟨z', hz', hmerge⟩ := mergeObjdict_value hrun' hgkeys hw hz
          obtain ⟨rfl, hunique⟩ := (hiff z').mp hmerge
          exact ⟨z', hz, hz', hunique⟩
        have hkeys : dictKeys gs' = dictKeys gs := by
          rw [dictKeys_mergeObjdict hrun' hgkeys, dictKeys_mergeObjdict hrun hfkeys,
            List.filter_append]
          simp
        refine ⟨entries_ext hkeys (hkeys ▸ hgkeys) fun k => ?_, fun w hw => ?_⟩
        · cases hw : es.lookup k with
          | some w =>
              obtain ⟨z, hz, hz', -⟩ := hboth k w hw
              rw [hz, hz']
          | none =>
              cases hz : gs.lookup k with
              | some z => exact mergeObjdict_new hrun' hgkeys hw hz
              | none => rw [mergeObjdict_kept hrun' hgkeys hz, hw]
        · cases hw with
          | here hd hu =>
              obtain ⟨z, -, -, hunique⟩ := hboth _ _ hd
              exact hunique _ (Or.inl ⟨hu, rfl⟩)
          | under hd hu halone =>
              obtain ⟨z, -, -, hunique⟩ := hboth _ _ hd
              exact hunique _ (Or.inr ⟨_, hu, halone⟩)
      rw [mergeValue_dict_iff]
      constructor
      · rintro ⟨gs', rfl, hrun'⟩
        obtain ⟨rfl, hunique⟩ := hforward gs' hrun'
        exact ⟨rfl, hunique⟩
      · rintro ⟨rfl, hunique⟩
        obtain ⟨gs', hrun'⟩ := mergeObjdict_ok hgkeys fun entry hentry w hw => by
          obtain ⟨z, hz, hiff⟩ := hkey entry.1 w hw
          rw [lookup_eq_some_of_mem hgkeys hentry] at hz
          cases hz
          refine ⟨entry.2, (hiff entry.2).mpr ⟨rfl, fun y hy => hunique y ?_⟩⟩
          rcases hy with ⟨hu, rfl⟩ | ⟨v, hu, hy⟩
          · exact .here hw hu
          · exact .under hw hu hy
        exact ⟨gs', congrArg Val.dict (hforward gs' hrun').1.symm, hrun'⟩

/-- Merging the result with the defaults again succeeds exactly when no named list of the
default repeats a name where the user left it alone, and the result is the same then. -/
theorem mergeObjdict_again_iff {d u r : Entries} (hd : (Val.dict d).WellFormed)
    (hu : (Val.dict u).WellFormed) (hfree : NoMergeItems (.dict d))
    (halone : MarkersAlone (.dict u)) (hrun : mergeObjdict d u = .ok r) (r' : Entries) :
    mergeObjdict d r = .ok r' ↔
      r' = r ∧ ∀ w, LeftAlone (.dict d) (.dict u) w → NamesUnique w := by
  have hval : mergeValue "" (.dict d) (.dict u) = .ok (.dict r) :=
    mergeValue_dict_iff.mpr ⟨r, rfl, hrun⟩
  have hiff : mergeValue "" (.dict d) (.dict r) = .ok (.dict r') ↔ _ :=
    mergeValue_again_iff hu halone hd hfree hval
  rw [Val.dict.injEq] at hiff
  rw [← hiff, mergeValue_dict_iff]
  constructor
  · exact fun hagain => ⟨r', rfl, hagain⟩
  · rintro ⟨_, heq, hagain⟩
    cases heq
    exact hagain

/-- A default with a repeated name is merged with an empty document, and not with the
result of that. -/
theorem mergeObjdict_again_raises : ¬ ∀ d u r : Entries, (Val.dict d).WellFormed →
    (Val.dict u).WellFormed → NoMergeItems (.dict d) → MarkersAlone (.dict u) →
    mergeObjdict d u = .ok r →
    ∃ r', mergeObjdict d r = .ok r' ∧ (Val.dict r').pyEq (.dict r) = true := by
  intro h
  obtain ⟨r', hrun, -⟩ := h
    [("rules", .list [.dict [("name", .str "ssh")], .dict [("name", .str "ssh")]])] [] _
    (by simp) (by simp) (by simp [Val.hasAttr, Val.attr?]) (by simp) rfl
  cases hrun

/-- A user who marks a list of the default and leaves a number alone. -/
theorem mergeObjdict_again_iff_sample :
    mergeObjdict [("count", .int 1), ("rules", .list [.dict [("name", .str "ssh")]])]
        [("count", .int 1), ("rules", .list [.dict [("name", .str "ssh"), ("port", .int 22)]])] =
      .ok [("count", .int 1), ("rules", .list [.dict [("name", .str "ssh"), ("port", .int 22)]])] ↔
      [("count", Val.int 1), ("rules", .list [.dict [("name", .str "ssh"), ("port", .int 22)]])] =
        [("count", .int 1), ("rules", .list [.dict [("name", .str "ssh"), ("port", .int 22)]])] ∧
      ∀ w, LeftAlone (.dict [("count", .int 1), ("rules", .list [.dict [("name", .str "ssh")]])])
        (.dict [("rules", .list [.dict [("_merge", .bool true)],
          .dict [("name", .str "ssh"), ("port", .int 22)]])]) w → NamesUnique w :=
  mergeObjdict_again_iff (by simp) (by simp) (by simp [Val.hasAttr, Val.attr?])
    (by simp [IsMarker]) rfl _

end LambdaStack
