/-
# When a merge fails

Where the default and the user's document meet at one address, a merge can go wrong in
three ways: the two values have different types, one of two named lists repeats a name,
or the first marker of the user's list is no `bool`. It goes wrong nowhere else, and it
stops at the first such place in the order in which it walks the two documents. Types
are not YAML's kinds: null has a type, values of one kind have different types when the
loader writes them in different classes, and an anchored boolean is no `bool`.
-/

import LambdaStack.Helpers.MergeRuns

namespace LambdaStack

open Lib

/-- `x` of the default and `v` of the user stand at one address, reached by equal keys
and, in the lists that are merged, by equal names. -/
inductive Meets (Merged : List Val → List Val → Prop) : Val → Val → Val → Val → Prop
  | here (d u : Val) : Meets Merged d u d u
  | key {es fs : Entries} {key : String} {x v x' v' : Val} (hd : es.lookup key = some x)
      (hu : fs.lookup key = some v) (h : Meets Merged x v x' v') :
      Meets Merged (.dict es) (.dict fs) x' v'
  | item {xs ys : List Val} {x y x' v' : Val} (hby : Merged xs ys) (hx : x ∈ xs)
      (hy : y ∈ ys) (hname : SameName x y) (h : Meets Merged x y x' v') :
      Meets Merged (.list xs) (.list ys) x' v'

/-! ## What cannot be merged -/

/-- The kinds of values in YAML. -/
inductive YamlKind
  | mapping
  | list
  | string
  | integer
  | float
  | boolean
  deriving DecidableEq

/-- The kind of the values of a type; null has none. -/
def PyType.kind? : PyType → Option YamlKind
  | .noneType => none
  | .bool _ => some .boolean
  | .int _ => some .integer
  | .float _ => some .float
  | .str _ => some .string
  | .list => some .list
  | .objDict => some .mapping

/-- Two values of different kinds, neither of which is null. -/
def KindsDiffer (x v : Val) : Prop :=
  ∃ k l, x.pyType.kind? = some k ∧ v.pyType.kind? = some l ∧ k ≠ l

/-- Two named lists, where the user's is marked with `_merge: true`. -/
def MarkedMerge (xs ys : List Val) : Prop :=
  isNamedList xs = true ∧ isNamedList ys = true ∧
    ∃ type, firstMarker ys = some (.scalar (.bool true type))

/-- Two named lists, one of which repeats a name. -/
inductive NameRepeats : Val → Val → Prop
  | lists {xs ys : List Val} (hnamed : isNamedList xs = true) (hnamed' : isNamedList ys = true)
      (h : ¬ (UniqueNames xs ∧ UniqueNames ys)) : NameRepeats (.list xs) (.list ys)

/-- Two named lists, and the first `_merge` value of the user's is no boolean. -/
inductive MarkerNotBoolean : Val → Val → Prop
  | lists {xs ys : List Val} {marker : Val} (hnamed : isNamedList xs = true)
      (hnamed' : isNamedList ys = true) (hmarker : firstMarker ys = some marker)
      (h : marker.pyType.kind? ≠ some .boolean) : MarkerNotBoolean (.list xs) (.list ys)

/-- The exception `e` is the one what is wrong with the two values is to raise. -/
def OfKind (e : Exc) (x v : Val) : Prop :=
  match e with
  | .typeMismatch _ _ _ => KindsDiffer x v
  | .duplicatesInNamedList _ _ _ => NameRepeats x v
  | .attributeError _ => MarkerNotBoolean x v
  | _ => False

/-- The merge fails where two values cannot be merged and nowhere else, and with the
exception of such a place. -/
structure FailsOnConflicts (d u : Entries) : Prop where
  fails : (∃ e, mergeObjdict d u = .error e) ↔
    ∃ x v, Meets MarkedMerge (.dict d) (.dict u) x v ∧
      (KindsDiffer x v ∨ NameRepeats x v ∨ MarkerNotBoolean x v)
  exception : ∀ e, mergeObjdict d u = .error e →
    ∃ x v, Meets MarkedMerge (.dict d) (.dict u) x v ∧ OfKind e x v

/-! ## What the merger does not merge -/

/-- Two named lists, and the first `_merge` value of the user's is no `bool`. -/
inductive MarkerRejected : Val → Val → Prop
  | lists {xs ys : List Val} {marker : Val} (hnamed : isNamedList xs = true)
      (hnamed' : isNamedList ys = true) (hmarker : firstMarker ys = some marker)
      (h : ∀ b, marker ≠ .bool b) : MarkerRejected (.list xs) (.list ys)

/-- What the merger cannot deal with. -/
def Conflict (x v : Val) : Prop :=
  x.pyType ≠ v.pyType ∨ NameRepeats x v ∨ MarkerRejected x v

/-- There is a conflict somewhere in the two values. -/
def Conflicting (x v : Val) : Prop := ∃ x' v', Meets MergedByName x v x' v' ∧ Conflict x' v'

/-- Different types, although the kinds do not differ: a null, or values of one kind in
different classes. -/
def TypesApart (x v : Val) : Prop := x.pyType ≠ v.pyType ∧ ¬ KindsDiffer x v

/-- Two named lists, and the first `_merge` value of the user's is a boolean with an
anchor. -/
inductive MarkerAnchored : Val → Val → Prop
  | lists {xs ys : List Val} {merge : Bool} (hnamed : isNamedList xs = true)
      (hnamed' : isNamedList ys = true)
      (hmarker : firstMarker ys = some (.scalar (.bool merge .scalarBoolean))) :
      MarkerAnchored (.list xs) (.list ys)

/-- The place of the first conflict. The entries of a mapping are walked in the user's
order, the items of a list in the default's, after the checks of the list itself. -/
inductive StopsAt : Val → Val → Val → Val → Prop
  | here {x v : Val} (h : Conflict x v) : StopsAt x v x v
  | key {es fs : Entries} {key : String} {x v x' v' : Val}
      (hfirst : FirstWith (fun entry => ∃ x, es.lookup entry.1 = some x ∧ Conflicting x entry.2)
        fs (key, v))
      (hd : es.lookup key = some x) (hu : fs.lookup key = some v) (h : StopsAt x v x' v') :
      StopsAt (.dict es) (.dict fs) x' v'
  | item {xs ys : List Val} {x y x' v' : Val} (hby : MergedByName xs ys)
      (hunique : UniqueNames xs ∧ UniqueNames ys)
      (hfirst : FirstWith (fun x => ∃ y ∈ ys, SameName x y ∧ Conflicting x y) xs x)
      (hy : y ∈ ys) (hname : SameName x y) (h : StopsAt x y x' v') :
      StopsAt (.list xs) (.list ys) x' v'

/-- The exception `e` belongs to the conflict of the two values. The marker is read
before the names. -/
def Reports (e : Exc) (x v : Val) : Prop :=
  match e with
  | .typeMismatch _ ofDefault ofUser =>
      ofDefault = x.pyType ∧ ofUser = v.pyType ∧ x.pyType ≠ v.pyType
  | .duplicatesInNamedList _ _ _ => NameRepeats x v ∧ ¬ MarkerRejected x v
  | .attributeError _ => MarkerRejected x v
  | _ => False

/-! ## Places -/

theorem StopsAt.meets {x v x' v' : Val} (h : StopsAt x v x' v') :
    Meets MergedByName x v x' v' ∧ Conflict x' v' := by
  induction h with
  | here h => exact ⟨.here _ _, h⟩
  | key _ hd hu _ ih => exact ⟨.key hd hu ih.1, ih.2⟩
  | item hby _ hfirst hy hname _ ih => exact ⟨.item hby hfirst.mem hy hname ih.1, ih.2⟩

/-- An item has one match in a list of unique names. -/
theorem SameName.unique {x y y' : Val} {ys : List Val} (hx : x.WellFormed)
    (hys : (Val.list ys).WellFormed) (hunique : UniqueNames ys) (hy : y ∈ ys) (hy' : y' ∈ ys)
    (h : SameName x y) (h' : SameName x y') : y = y' := by
  obtain ⟨own, name, hown, hname, heq⟩ := h
  obtain ⟨own', name', hown', hname', heq'⟩ := h'
  rw [hown] at hown'
  cases hown'
  have hfound := itemNamed_eq_some hys hunique (hx.attr? hown) hy
    (isNamed_eq_true.mpr ⟨name, hname, heq⟩)
  rw [itemNamed_eq_some hys hunique (hx.attr? hown) hy'
    (isNamed_eq_true.mpr ⟨name', hname', heq'⟩)] at hfound
  cases hfound
  rfl

theorem not_conflict_dict (es fs : Entries) : ¬ Conflict (.dict es) (.dict fs) := by
  rintro (h | ⟨⟨⟩⟩ | ⟨⟨⟩⟩)
  exact h rfl

theorem not_conflict_byName {xs ys : List Val} (hby : MergedByName xs ys)
    (hunique : UniqueNames xs ∧ UniqueNames ys) : ¬ Conflict (.list xs) (.list ys) := by
  rintro (h | h | h)
  · exact h rfl
  · cases h with
    | lists _ _ h => exact h hunique
  · cases h with
    | lists _ _ hmarker h =>
        rw [hby.2.2] at hmarker
        cases hmarker
        exact h true rfl

/-- There is one first conflict. -/
theorem StopsAt.unique {x v a b a' b' : Val} (hx : x.WellFormed) (hv : v.WellFormed)
    (h : StopsAt x v a b) (h' : StopsAt x v a' b') : a = a' ∧ b = b' := by
  induction h with
  | here hconflict =>
      cases h' with
      | here => exact ⟨rfl, rfl⟩
      | key => exact absurd hconflict (not_conflict_dict _ _)
      | item hby hunique => exact absurd hconflict (not_conflict_byName hby hunique)
  | key hfirst hd hu _ ih =>
      cases h' with
      | here hconflict => exact absurd hconflict (not_conflict_dict _ _)
      | key hfirst' hd' hu' h' =>
          cases hfirst.unique hfirst'
          rw [hd] at hd'
          cases hd'
          exact ih (hx.attr? hd) (hv.attr? hu) h'
  | item hby hunique hfirst hy hname _ ih =>
      cases h' with
      | here hconflict => exact absurd hconflict (not_conflict_byName hby hunique)
      | item _ _ hfirst' hy' hname' h' =>
          cases hfirst.unique hfirst'
          have hxwf := Val.wellFormed_list_iff.mp hx _ hfirst.mem
          cases SameName.unique hxwf hv hunique.2 hy hy' hname hname'
          exact ih hxwf (Val.wellFormed_list_iff.mp hv _ hy) h'

/-! ## Merges that end -/

/-- A strategy that is read comes from a marker that is a `bool`, if there is one. -/
theorem not_markerRejected_of_mergeStrategy {xs ys : List Val} {key : String} {merge : Bool}
    (h : mergeStrategy ys key = .ok merge) : ¬ MarkerRejected (.list xs) (.list ys) := by
  intro hrejected
  cases hrejected with
  | lists _ _ hmarker hnot =>
      cases merge with
      | true =>
          rw [mergeStrategy_eq_ok_true.mp h] at hmarker
          cases hmarker
          exact hnot true rfl
      | false =>
          rcases mergeStrategy_false_iff.mp h with hnone | hfalse
          · unfold firstMarker at hmarker
            rw [Option.bind_eq_some_iff] at hmarker
            obtain ⟨item, hfind, -⟩ := hmarker
            have hitem := hnone item (List.mem_of_find?_eq_some hfind)
            rw [List.find?_some hfind] at hitem
            cases hitem
          · rw [hfalse] at hmarker
            cases hmarker
            exact hnot false rfl

/-- A merge that ends meets no conflict. -/
theorem not_conflict_of_mergeValue {d u x v : Val} (h : Meets MergedByName d u x v) :
    ∀ (key : String) {r}, d.WellFormed → NoMergeItems d → u.WellFormed →
      mergeValue key d u = .ok r → ¬ Conflict x v := by
  induction h with
  | here x v =>
      intro key r hx hfree hv hrun
      rintro (htypes | hnames | hmarker)
      · cases v with
        | scalar s =>
            unfold mergeValue at hrun
            rw [if_neg htypes] at hrun
            cases hrun
        | list ys =>
            obtain ⟨xs, -, rfl, -⟩ := mergeValue_list_eq_ok hrun
            exact htypes rfl
        | dict fs =>
            obtain ⟨es, -, rfl, -⟩ := mergeValue_dict_eq_ok hrun
            exact htypes rfl
      · cases hnames with
        | lists hnamed hnamed' h =>
            obtain ⟨zs, -, hrun⟩ := mergeValue_list_iff.mp hrun
            exact h (uniqueNames_of_mergeList hnamed hnamed' hx hv hrun)
      · have hrejected := hmarker
        cases hmarker with
        | @lists xs ys marker hnamed hnamed' hmarker h =>
            obtain ⟨zs, -, hrun⟩ := mergeValue_list_iff.mp hrun
            have hby : ¬ MergedByName xs ys := by
              rintro ⟨-, -, htrue⟩
              rw [hmarker] at htrue
              cases htrue
              exact h true rfl
            have hstrategy := mergeStrategy_of_mergeList hnamed hnamed' hby hrun
            exact not_markerRejected_of_mergeStrategy hstrategy hrejected
  | key hd hu _ ih =>
      intro key r hx hfree hv hrun
      obtain ⟨gs, -, hrun⟩ := mergeValue_dict_iff.mp hrun
      obtain ⟨z, -, hmerge⟩ := mergeObjdict_value hrun (Val.wellFormed_dict_iff.mp hv).1 hd hu
      exact ih _ (hx.attr? hd) (noMergeItems_dict_iff.mp hfree _ (mem_of_lookup_eq_some hd))
        (hv.attr? hu) hmerge
  | item hby hmem hy hname _ ih =>
      intro key r hx hfree hv hrun
      obtain ⟨zs, -, hrun⟩ := mergeValue_list_iff.mp hrun
      have hunique := (mergeList_byName hby hx hv hrun).2.1
      obtain ⟨-, merged, -, hpairs⟩ := merged_items hby hx hv hfree hrun
      obtain ⟨z, -, hxz, hxwf, hxfree, -⟩ := exists_of_mem_forall₂ hpairs hmem
      obtain ⟨own, name, hown, hname, heq⟩ := hname
      have hfound := itemNamed_eq_some hv hunique (hxwf.attr? hown) hy
        (isNamed_eq_true.mpr ⟨name, hname, heq⟩)
      exact ih key hxwf hxfree (Val.wellFormed_list_iff.mp hv _ hy)
        ((mergeMatched_some key hown hxwf hv hunique hfound).mp hxz)

/-! ## Merges that fail -/

/-- The entry a loop fails at. -/
theorem exists_of_mergeObjdict_eq_error {toMerge extendBy : Entries} {e : Exc}
    (hkeys : (dictKeys extendBy).Nodup) (h : mergeObjdict toMerge extendBy = .error e) :
    ∃ before key v after x, extendBy = before ++ (key, v) :: after ∧
      toMerge.lookup key = some x ∧ mergeValue key x v = .error e ∧
        ∀ entry ∈ before, ∀ x, toMerge.lookup entry.1 = some x →
          ∃ r, mergeValue entry.1 x entry.2 = .ok r := by
  induction extendBy generalizing toMerge with
  | nil => cases h
  | cons entry rest ih =>
      obtain ⟨key, v⟩ := entry
      rw [dictKeys_cons, List.nodup_cons] at hkeys
      rw [mergeObjdict_cons] at h
      cases hstep : mergeEntry toMerge (key, v) with
      | error e' =>
          rw [hstep] at h
          cases h
          unfold mergeEntry at hstep
          cases hx : toMerge.lookup key with
          | none => simp [hx] at hstep
          | some x =>
              cases hmerge : mergeValue key x v with
              | ok r => simp [hx, hmerge] at hstep
              | error e' =>
                  simp only [hx, hmerge, error_bind, Except.error.injEq] at hstep
                  exact ⟨[], key, v, rest, x, rfl, hx, hstep ▸ hmerge, by simp⟩
      | ok next =>
          rw [hstep, ok_bind] at h
          obtain ⟨before, k, w, after, x, rfl, hx, hmerge, hbefore⟩ := ih hkeys.2 h
          -- the entries after the first one have other keys
          have hlookup : ∀ entry ∈ before ++ (k, w) :: after,
              next.lookup entry.1 = toMerge.lookup entry.1 := by
            intro entry hentry
            obtain ⟨r, rfl, -⟩ := mergeEntry_eq_ok hstep
            have hne : entry.1 ≠ key := by
              rintro rfl
              exact hkeys.1 (List.mem_map.mpr ⟨entry, hentry, rfl⟩)
            rw [lookup_dictSet_ne hne]
          rw [hlookup (k, w) (by simp)] at hx
          refine ⟨(key, v) :: before, k, w, after, x, rfl, hx, hmerge, ?_⟩
          intro entry hentry x hx
          rcases List.mem_cons.mp hentry with rfl | hentry
          · cases hmerge : mergeValue key x v with
            | ok r => exact ⟨r, rfl⟩
            | error e' => simp [mergeEntry, hx, hmerge] at hstep
          · exact hbefore entry hentry x (by rw [hlookup entry (by simp [hentry]), hx])

theorem reports_of_mergeStrategy {xs ys : List Val} {key : String} {e : Exc}
    (hnamed : isNamedList xs = true) (hnamed' : isNamedList ys = true)
    (h : mergeStrategy ys key = .error e) : Reports e (.list xs) (.list ys) := by
  unfold mergeStrategy at h
  split at h
  · cases h
  · next item hfind =>
      have hmarked : item.hasAttr "_merge" = true := by simpa using List.find?_some hfind
      obtain ⟨marker, hmarker⟩ := Option.isSome_iff_exists.mp hmarked
      have hfirst : firstMarker ys = some marker := by
        rw [firstMarker, hfind, Option.bind_some, hmarker]
      split at h
      · cases h
      · next hnot =>
          cases h
          refine .lists hnamed hnamed' hfirst fun b hb => hnot b ?_
          rw [hmarker, hb]

theorem duplicates_of_assert {l : List Val} {key type : String} {e : Exc}
    (h : assertUniqueNamesInNamedList l key type = .error e) :
    ∃ name, e = .duplicatesInNamedList name key type := by
  unfold assertUniqueNamesInNamedList at h
  split at h
  · next name _ =>
      cases h
      exact ⟨name, rfl⟩
  · cases h

/-- A merge of two lists fails in one of its checks or at an item. -/
theorem mergeList_eq_error {xs ys : List Val} {key : String} {e : Exc}
    (hxs : (Val.list xs).WellFormed) (hys : (Val.list ys).WellFormed)
    (hfree : NoMergeItems (.list xs)) (h : mergeList xs ys key (mergeMatched ys) = .error e) :
    Reports e (.list xs) (.list ys) ∨ (MergedByName xs ys ∧ (UniqueNames xs ∧ UniqueNames ys) ∧
      xs.mapM (mergeMatched ys) = .error e) := by
  unfold mergeList at h
  split at h
  case isFalse => cases h
  next hnamed =>
    rw [Bool.and_eq_true] at hnamed
    obtain ⟨hnamed, hnamed'⟩ := hnamed
    cases hstrategy : mergeStrategy ys key with
    | error e' =>
        rw [hstrategy] at h
        cases h
        exact Or.inl (reports_of_mergeStrategy hnamed hnamed' hstrategy)
    | ok merge =>
        rw [hstrategy, ok_bind] at h
        -- a check that fails has found a name twice
        have hreports : ∀ {l type e'}, assertUniqueNamesInNamedList l key type = .error e' →
            ¬ (UniqueNames xs ∧ UniqueNames ys) → Reports e' (.list xs) (.list ys) := by
          intro l type e' herror hnot
          obtain ⟨name, rfl⟩ := duplicates_of_assert herror
          exact ⟨.lists hnamed hnamed' hnot, not_markerRejected_of_mergeStrategy hstrategy⟩
        cases hdefault : assertUniqueNamesInNamedList xs key "default" with
        | error e' =>
            rw [hdefault] at h
            cases h
            refine Or.inl (hreports hdefault fun hunique => ?_)
            rw [(assertUniqueNames_iff hxs).mpr hunique.1] at hdefault
            cases hdefault
        | ok _ =>
            rw [hdefault, ok_bind] at h
            cases hinput : assertUniqueNamesInNamedList ys key "input" with
            | error e' =>
                rw [hinput] at h
                cases h
                refine Or.inl (hreports hinput fun hunique => ?_)
                rw [(assertUniqueNames_iff hys).mpr hunique.2] at hinput
                cases hinput
            | ok _ =>
                rw [hinput, ok_bind] at h
                have hunique := (assertUniqueNames_iff hxs).mp hdefault
                have hunique' := (assertUniqueNames_iff hys).mp hinput
                cases merge with
                | false => cases h
                | true =>
                    have hby : MergedByName xs ys :=
                      ⟨hnamed, hnamed', mergeStrategy_eq_ok_true.mp hstrategy⟩
                    refine Or.inr ⟨hby, ⟨hunique, hunique'⟩, ?_⟩
                    cases hmap : xs.mapM (mergeMatched ys) with
                    | error e' =>
                        rw [if_pos rfl, hmap] at h
                        cases h
                        rfl
                    | ok merged =>
                        -- the loop over the additions cannot fail
                        have hnames := hasName_of_unmarked hnamed (noMergeItems_list_iff.mp hfree).1
                        have hok := (mergeList_byName_iff key hby hxs hys hnames).mpr
                          ⟨hunique, hunique', merged, mapM_eq_ok.mp hmap, rfl⟩
                        unfold mergeList at hok
                        rw [if_pos (by simp [hnamed, hnamed']), hstrategy, hdefault, hinput] at hok
                        simp only [ok_bind, if_true] at hok
                        rw [if_pos rfl, hok] at h
                        cases h

theorem mergeValue_typeMismatch {key : String} {x v : Val} (h : x.pyType ≠ v.pyType) :
    mergeValue key x v = .error (.typeMismatch key x.pyType v.pyType) := by
  cases v with
  | scalar s =>
      unfold mergeValue
      rw [if_neg h]
  | list ys =>
      cases x with
      | scalar | dict => rfl
      | list => exact absurd rfl h
  | dict fs =>
      cases x with
      | scalar | list => rfl
      | dict => exact absurd rfl h

theorem exists_of_pyType_list {x : Val} (h : x.pyType = .list) : ∃ xs, x = .list xs := by
  cases x with
  | scalar s => cases s <;> cases h
  | list xs => exact ⟨xs, rfl⟩
  | dict => cases h

theorem exists_of_pyType_objDict {x : Val} (h : x.pyType = .objDict) : ∃ es, x = .dict es := by
  cases x with
  | scalar s => cases s <;> cases h
  | list => cases h
  | dict es => exact ⟨es, rfl⟩

theorem mergeValue_list_eq_error {key : String} {xs ys : List Val} {e : Exc}
    (h : mergeValue key (.list xs) (.list ys) = .error e) :
    mergeList xs ys key (mergeMatched ys) = .error e := by
  cases hrun : mergeList xs ys key (mergeMatched ys) with
  | ok zs =>
      rw [mergeValue_list_iff.mpr ⟨zs, rfl, hrun⟩] at h
      cases h
  | error e' =>
      have hvalue : mergeValue key (.list xs) (.list ys) =
          (mergeList xs ys key (mergeMatched ys) >>= fun merged => .ok (Val.list merged)) := by
        unfold mergeValue
        rfl
      rw [hvalue, hrun] at h
      cases h
      rfl

/-- The conflict of a mapping is that of its first entry with one. -/
theorem stopsAt_dict {es fs : Entries} {e : Exc} (hes : (Val.dict es).WellFormed)
    (hfs : (Val.dict fs).WellFormed) (hfree : NoMergeItems (.dict es))
    (hrun : mergeObjdict es fs = .error e)
    (ih : ∀ entry ∈ fs, ∀ {key x}, x.WellFormed → NoMergeItems x →
      mergeValue key x entry.2 = .error e → ∃ x' v', StopsAt x entry.2 x' v' ∧ Reports e x' v') :
    ∃ x' v', StopsAt (.dict es) (.dict fs) x' v' ∧ Reports e x' v' := by
  obtain ⟨hkeys, hvalues⟩ := Val.wellFormed_dict_iff.mp hfs
  have hfree := noMergeItems_dict_iff.mp hfree
  obtain ⟨before, k, v, after, x, rfl, hd, hmerge, hbefore⟩ :=
    exists_of_mergeObjdict_eq_error hkeys hrun
  have hmem : (k, v) ∈ before ++ (k, v) :: after := by simp
  obtain ⟨x', v', hstops, hreports⟩ :=
    ih _ hmem (hes.attr? hd) (hfree _ (mem_of_lookup_eq_some hd)) hmerge
  refine ⟨x', v', .key ⟨before, after, rfl, ⟨x, hd, x', v', hstops.meets⟩, ?_⟩ hd
    (lookup_eq_some_of_mem hkeys hmem) hstops, hreports⟩
  rintro entry hentry ⟨w, hw, a, b, hmeets, hconflict⟩
  obtain ⟨r, hr⟩ := hbefore entry hentry w hw
  exact not_conflict_of_mergeValue hmeets _ (hes.attr? hw) (hfree _ (mem_of_lookup_eq_some hw))
    (hvalues entry (by simp [hentry])) hr hconflict

/-- The conflict of lists merged by name is that of the first item with one. -/
theorem stopsAt_byName {xs ys : List Val} {e : Exc} (hby : MergedByName xs ys)
    (hunique : UniqueNames xs ∧ UniqueNames ys) (hxs : (Val.list xs).WellFormed)
    (hys : (Val.list ys).WellFormed) (hfree : NoMergeItems (.list xs))
    (hmap : xs.mapM (mergeMatched ys) = .error e)
    (ih : ∀ y ∈ ys, ∀ {key x}, x.WellFormed → NoMergeItems x → mergeValue key x y = .error e →
      ∃ x' v', StopsAt x y x' v' ∧ Reports e x' v') :
    ∃ x' v', StopsAt (.list xs) (.list ys) x' v' ∧ Reports e x' v' := by
  have hnames := hasName_of_unmarked hby.1 (noMergeItems_list_iff.mp hfree).1
  obtain ⟨before, x, after, rfl, hmerge, hbefore⟩ := exists_of_mapM_eq_error hmap
  have hxs := Val.wellFormed_list_iff.mp hxs
  have hfree := (noMergeItems_list_iff.mp hfree).2
  have hmem : x ∈ before ++ x :: after := by simp
  obtain ⟨own, hown⟩ := exists_name (hnames x hmem)
  cases hfind : itemNamed own ys with
  | none =>
      rw [(mergeMatched_none hown (hxs x hmem) hys hunique.2 hfind).mpr rfl] at hmerge
      cases hmerge
  | some y =>
      have hy := List.mem_of_find?_eq_some hfind
      obtain ⟨name, hname, heq⟩ := isNamed_eq_true.mp (List.find?_some hfind)
      have hsame : SameName x y := ⟨own, name, hown, hname, heq⟩
      rw [mergeMatched_eq_mergeValue hown (hxs x hmem) hys hunique.2 hfind ""] at hmerge
      obtain ⟨x', v', hstops, hreports⟩ := ih y hy (hxs x hmem) (hfree x hmem) hmerge
      refine ⟨x', v', .item hby hunique
        ⟨before, after, rfl, ⟨y, hy, hsame, x', v', hstops.meets⟩, ?_⟩ hy hsame hstops, hreports⟩
      rintro w hw ⟨z, hz, ⟨own', name', hown', hname', heq'⟩, a, b, hmeets, hconflict⟩
      have hwmem : w ∈ before ++ x :: after := by simp [hw]
      obtain ⟨r, hr⟩ := hbefore w hw
      have hfound := itemNamed_eq_some hys hunique.2 ((hxs w hwmem).attr? hown') hz
        (isNamed_eq_true.mpr ⟨name', hname', heq'⟩)
      rw [mergeMatched_eq_mergeValue hown' (hxs w hwmem) hys hunique.2 hfound ""] at hr
      exact not_conflict_of_mergeValue hmeets _ (hxs w hwmem) (hfree w hwmem)
        (Val.wellFormed_list_iff.mp hys z hz) hr hconflict

theorem Reports.conflict {e : Exc} {x v : Val} (h : Reports e x v) : Conflict x v := by
  cases e with
  | typeMismatch => exact Or.inl h.2.2
  | duplicatesInNamedList => exact Or.inr (Or.inl h.1)
  | attributeError => exact Or.inr (Or.inr h)
  | _ => exact absurd h id

/-- A merge that fails stops at the first conflict and reports it. -/
theorem exists_stopsAt_of_error {v : Val} (hv : v.WellFormed) :
    ∀ {key : String} {x : Val} {e : Exc}, x.WellFormed → NoMergeItems x →
      mergeValue key x v = .error e → ∃ x' v', StopsAt x v x' v' ∧ Reports e x' v' := by
  induction v using Val.induct with
  | scalar s =>
      intro key x e _ _ h
      by_cases htypes : x.pyType = (Val.scalar s).pyType
      · unfold mergeValue at h
        rw [if_pos htypes] at h
        cases h
      · rw [mergeValue_typeMismatch htypes] at h
        cases h
        exact ⟨x, .scalar s, .here (Or.inl htypes), rfl, rfl, htypes⟩
  | dict fs ih =>
      intro key x e hx hfree h
      by_cases htypes : x.pyType = (Val.dict fs).pyType
      · obtain ⟨es, rfl⟩ := exists_of_pyType_objDict htypes
        have hrun : mergeObjdict es fs = .error e := by
          cases hrun : mergeObjdict es fs with
          | ok gs => simp [mergeValue, hrun] at h
          | error e' => simpa [mergeValue, hrun] using h
        refine stopsAt_dict hx hv hfree hrun fun entry hentry {key x} hx hfree hmerge => ?_
        exact ih entry hentry ((Val.wellFormed_dict_iff.mp hv).2 entry hentry) hx hfree hmerge
      · rw [mergeValue_typeMismatch htypes] at h
        cases h
        exact ⟨x, .dict fs, .here (Or.inl htypes), rfl, rfl, htypes⟩
  | list ys ih =>
      intro key x e hx hfree h
      by_cases htypes : x.pyType = (Val.list ys).pyType
      · obtain ⟨xs, rfl⟩ := exists_of_pyType_list htypes
        rcases mergeList_eq_error hx hv hfree (mergeValue_list_eq_error h) with
          hreports | ⟨hby, hunique, hmap⟩
        · exact ⟨_, _, .here hreports.conflict, hreports⟩
        · refine stopsAt_byName hby hunique hx hv hfree hmap fun y hy {key x} hx hfree hmerge => ?_
          exact ih y hy (Val.wellFormed_list_iff.mp hv y hy) hx hfree hmerge
      · rw [mergeValue_typeMismatch htypes] at h
        cases h
        exact ⟨x, .list ys, .here (Or.inl htypes), rfl, rfl, htypes⟩

/-! ## Kinds and types -/

theorem KindsDiffer.pyType_ne {x v : Val} (h : KindsDiffer x v) : x.pyType ≠ v.pyType := by
  obtain ⟨k, l, hk, hl, hne⟩ := h
  intro htypes
  rw [htypes, hl] at hk
  cases hk
  exact hne rfl

theorem MarkerNotBoolean.rejected {x v : Val} (h : MarkerNotBoolean x v) : MarkerRejected x v := by
  cases h with
  | lists hnamed hnamed' hmarker h =>
      refine .lists hnamed hnamed' hmarker ?_
      rintro b rfl
      exact h rfl

/-- A marker the merger rejects is no boolean or one with an anchor. -/
theorem MarkerRejected.cases {x v : Val} (h : MarkerRejected x v) :
    MarkerNotBoolean x v ∨ MarkerAnchored x v := by
  cases h with
  | @lists xs ys marker hnamed hnamed' hmarker h =>
      by_cases hkind : marker.pyType.kind? = some .boolean
      · right
        cases marker with
        | list | dict => cases hkind
        | scalar s =>
            cases s with
            | null | int | float | str => cases hkind
            | bool merge type =>
                cases type with
                | bool => exact absurd rfl (h merge)
                | scalarBoolean => exact .lists hnamed hnamed' hmarker
      · exact Or.inl (.lists hnamed hnamed' hmarker hkind)

theorem MarkerAnchored.rejected {x v : Val} (h : MarkerAnchored x v) : MarkerRejected x v := by
  cases h with
  | lists hnamed hnamed' hmarker =>
      refine .lists hnamed hnamed' hmarker fun b hb => ?_
      cases hb

theorem MarkerRejected.pyType_eq {x v : Val} (h : MarkerRejected x v) : x.pyType = v.pyType := by
  cases h
  rfl

/-- What cannot be merged is a conflict to the merger. -/
theorem conflict_of_cannotMerge {x v : Val}
    (h : KindsDiffer x v ∨ NameRepeats x v ∨ MarkerNotBoolean x v) : Conflict x v := by
  rcases h with hkinds | hnames | hmarker
  · exact Or.inl hkinds.pyType_ne
  · exact Or.inr (Or.inl hnames)
  · exact Or.inr (Or.inr hmarker.rejected)

theorem MergedByName.marked {xs ys : List Val} (h : MergedByName xs ys) : MarkedMerge xs ys :=
  ⟨h.1, h.2.1, .bool, h.2.2⟩

/-- The merger goes on only where the lists are marked. -/
theorem Meets.marked {d u x v : Val} (h : Meets MergedByName d u x v) :
    Meets MarkedMerge d u x v := by
  induction h with
  | here d u => exact .here d u
  | key hd hu _ ih => exact .key hd hu ih
  | item hby hx hy hname _ ih => exact .item hby.marked hx hy hname ih

/-- Where there is no conflict the merger goes on in all lists that are marked. -/
theorem Meets.merged {d u x v : Val} (h : Meets MarkedMerge d u x v)
    (hnone : ∀ x v, Meets MergedByName d u x v → ¬ Conflict x v) :
    Meets MergedByName d u x v := by
  induction h with
  | here d u => exact .here d u
  | key hd hu _ ih => exact .key hd hu (ih fun x v h => hnone x v (.key hd hu h))
  | @item xs ys _ _ _ _ hby hx hy hname _ ih =>
      obtain ⟨hnamed, hnamed', type, hmarker⟩ := hby
      have hmerged : MergedByName xs ys := by
        cases type with
        | bool => exact ⟨hnamed, hnamed', hmarker⟩
        | scalarBoolean =>
            have hrejected := MarkerAnchored.rejected (.lists hnamed hnamed' hmarker)
            exact absurd (Or.inr (Or.inr hrejected)) (hnone _ _ (.here _ _))
      exact .item hmerged hx hy hname
        (ih fun x v h => hnone x v (.item hmerged hx hy hname h))

/-! ## The whole document -/

theorem OfKind.cannotMerge {e : Exc} {x v : Val} (h : OfKind e x v) :
    KindsDiffer x v ∨ NameRepeats x v ∨ MarkerNotBoolean x v := by
  cases e with
  | typeMismatch => exact Or.inl h
  | duplicatesInNamedList => exact Or.inr (Or.inl h)
  | attributeError => exact Or.inr (Or.inr h)
  | _ => exact absurd h id

/-- The exception says what is wrong, unless the types alone or the class of the marker
are. -/
theorem Reports.ofKind {e : Exc} {x v : Val} (h : Reports e x v) :
    OfKind e x v ∨ TypesApart x v ∨ MarkerAnchored x v := by
  cases e with
  | typeMismatch =>
      by_cases hkinds : KindsDiffer x v
      · exact Or.inl hkinds
      · exact Or.inr (Or.inl ⟨h.2.2, hkinds⟩)
  | duplicatesInNamedList => exact Or.inl h.1
  | attributeError =>
      rcases MarkerRejected.cases h with hmarker | hanchored
      · exact Or.inl hmarker
      · exact Or.inr (Or.inr hanchored)
  | _ => exact absurd h id

/-- Types that are apart raise the exception of different kinds. -/
theorem Reports.ofKind_typesApart {e : Exc} {x v x' v' : Val} (h : Reports e x v)
    (htypes : TypesApart x v) : OfKind e x' v' ↔ KindsDiffer x' v' := by
  cases e with
  | typeMismatch => exact Iff.rfl
  | duplicatesInNamedList =>
      obtain ⟨hnames, -⟩ := h
      cases hnames with
      | lists => exact absurd rfl htypes.1
  | attributeError => exact absurd (MarkerRejected.pyType_eq h) htypes.1
  | _ => exact absurd h id

/-- An anchored marker raises the exception of one that is no boolean. -/
theorem Reports.ofKind_markerAnchored {e : Exc} {x v x' v' : Val} (h : Reports e x v)
    (hmarker : MarkerAnchored x v) : OfKind e x' v' ↔ MarkerNotBoolean x' v' := by
  cases e with
  | typeMismatch => exact absurd hmarker.rejected.pyType_eq h.2.2
  | duplicatesInNamedList => exact absurd hmarker.rejected h.2
  | attributeError => exact Iff.rfl
  | _ => exact absurd h id

/-- The merge fails just where two values cannot be merged, exactly when each of the two
other things it stops at has the same exception due somewhere: types that are apart where
values of different kinds meet, an anchored marker where a marker is no boolean. -/
theorem mergeObjdict_failsOnConflicts_iff {d u : Entries} (hd : (Val.dict d).WellFormed)
    (hu : (Val.dict u).WellFormed) (hfree : ¬ (Val.dict d).Mentions "_merge") :
    FailsOnConflicts d u ↔ ∀ x v, StopsAt (.dict d) (.dict u) x v →
      (TypesApart x v →
        ∃ x' v', Meets MarkedMerge (.dict d) (.dict u) x' v' ∧ KindsDiffer x' v') ∧
      (MarkerAnchored x v →
        ∃ x' v', Meets MarkedMerge (.dict d) (.dict u) x' v' ∧ MarkerNotBoolean x' v') := by
  have hfree := noMergeItems_of_not_mentions hfree
  have hok : ∀ {r}, mergeObjdict d u = .ok r → ∀ x v,
      Meets MergedByName (.dict d) (.dict u) x v → ¬ Conflict x v := fun hrun x v hmeets =>
    not_conflict_of_mergeValue hmeets "" hd hfree hu (mergeValue_dict_iff.mpr ⟨_, rfl, hrun⟩)
  have herror : ∀ {e}, mergeObjdict d u = .error e →
      ∃ x v, StopsAt (.dict d) (.dict u) x v ∧ Reports e x v := by
    intro e hrun
    have hval : mergeValue "" (.dict d) (.dict u) = .error e := by simp [mergeValue, hrun]
    exact exists_stopsAt_of_error hu hd hfree hval
  constructor
  · intro h x v hstops
    cases hrun : mergeObjdict d u with
    | ok r => exact absurd hstops.meets.2 (hok hrun x v hstops.meets.1)
    | error e =>
        obtain ⟨x', v', hstops', hreports⟩ := herror hrun
        obtain ⟨rfl, rfl⟩ := hstops.unique hd hu hstops'
        obtain ⟨a, b, hmeets, hkind⟩ := h.exception e hrun
        exact ⟨fun htypes => ⟨a, b, hmeets, (hreports.ofKind_typesApart htypes).mp hkind⟩,
          fun hmarker => ⟨a, b, hmeets, (hreports.ofKind_markerAnchored hmarker).mp hkind⟩⟩
  · intro h
    cases hrun : mergeObjdict d u with
    | ok r =>
        refine ⟨iff_of_false (by simp [hrun]) ?_, fun e he => ?_⟩
        · rintro ⟨x, v, hmeets, hcannot⟩
          exact hok hrun x v (hmeets.merged (hok hrun)) (conflict_of_cannotMerge hcannot)
        · rw [hrun] at he
          cases he
    | error e =>
        obtain ⟨x, v, hstops, hreports⟩ := herror hrun
        -- a place where this exception is due
        obtain ⟨x', v', hmeets, hkind⟩ :
            ∃ x' v', Meets MarkedMerge (.dict d) (.dict u) x' v' ∧ OfKind e x' v' := by
          rcases hreports.ofKind with hkind | htypes | hmarker
          · exact ⟨x, v, hstops.meets.1.marked, hkind⟩
          · obtain ⟨x', v', hmeets, hkinds⟩ := (h x v hstops).1 htypes
            exact ⟨x', v', hmeets, (hreports.ofKind_typesApart htypes).mpr hkinds⟩
          · obtain ⟨x', v', hmeets, hnot⟩ := (h x v hstops).2 hmarker
            exact ⟨x', v', hmeets, (hreports.ofKind_markerAnchored hmarker).mpr hnot⟩
        refine ⟨iff_of_true ⟨e, hrun⟩ ⟨x', v', hmeets, hkind.cannotMerge⟩, fun e' he => ?_⟩
        rw [hrun] at he
        cases he
        exact ⟨x', v', hmeets, hkind⟩

/-- A default with one entry meets a user's document at that entry only. -/
theorem meets_single {Merged : List Val → List Val → Prop} {key : String} {a b : Scalar} {x v : Val}
    (h : Meets Merged (.dict [(key, .scalar a)]) (.dict [(key, .scalar b)]) x v) :
    (x = .dict [(key, .scalar a)] ∧ v = .dict [(key, .scalar b)]) ∨
      (x = .scalar a ∧ v = .scalar b) := by
  cases h with
  | here => exact Or.inl ⟨rfl, rfl⟩
  | @key _ _ other _ _ _ _ hd hu h =>
      simp only [List.lookup_cons, List.lookup_nil] at hd hu
      split at hd
      · next heq =>
          cases hd
          rw [heq] at hu
          cases hu
          cases h
          exact Or.inr ⟨rfl, rfl⟩
      · cases hd

/-- A null the user writes over a string. -/
theorem mergeObjdict_null_raises : ¬ ∀ d u : Entries, (Val.dict d).WellFormed →
    (Val.dict u).WellFormed → ¬ (Val.dict d).Mentions "_merge" → FailsOnConflicts d u := by
  intro h
  have hfails := h [("build_path", .str "build/path")] [("build_path", .scalar .null)] (by simp)
    (by simp) (by simp [Val.mentions_dict_iff, Val.not_mentions_scalar])
  obtain ⟨x, v, hmeets, k, l, hk, hl, hne⟩ := hfails.exception _ rfl
  rcases meets_single hmeets with ⟨rfl, rfl⟩ | ⟨rfl, rfl⟩
  · cases hk
    cases hl
    exact hne rfl
  · cases hl

/-- A plain string over a block string. -/
example : mergeObjdict [("config", .scalar (.str "a: 1\n" .literalScalarString))]
    [("config", .str "a: 2")] =
      .error (.typeMismatch "config" (.str .literalScalarString) (.str .str)) := rfl

/-- A user who writes a number over a string. -/
theorem mergeObjdict_failsOnConflicts_iff_sample :
    FailsOnConflicts [("name", .str "staging"), ("count", .int 1)] [("name", .int 7)] ↔
      ∀ x v, StopsAt (.dict [("name", .str "staging"), ("count", .int 1)])
          (.dict [("name", .int 7)]) x v →
        (TypesApart x v → ∃ x' v', Meets MarkedMerge
          (.dict [("name", .str "staging"), ("count", .int 1)]) (.dict [("name", .int 7)]) x' v' ∧
            KindsDiffer x' v') ∧
        (MarkerAnchored x v → ∃ x' v', Meets MarkedMerge
          (.dict [("name", .str "staging"), ("count", .int 1)]) (.dict [("name", .int 7)]) x' v' ∧
            MarkerNotBoolean x' v') :=
  mergeObjdict_failsOnConflicts_iff (by simp) (by simp)
    (by simp [Val.mentions_dict_iff, Val.not_mentions_scalar])

end LambdaStack
