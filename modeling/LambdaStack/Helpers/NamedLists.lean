/-
# Lists merged by item name

Two named lists of which the extending one asks for a merge are combined item
by item. The names of an accepted list are pairwise distinct under `==`, so an
item has at most one match; the merged list is the default list with its
matched items merged, followed by the unmatched items of the extending list.
-/

import LambdaStack.Helpers.MergeLemmas
import LambdaStack.Lib.Lists

namespace LambdaStack

open Lib

/-- The value of the first `_merge` marker of a list. -/
def firstMarker (l : List Val) : Option Val :=
  (l.find? (·.hasAttr "_merge")).bind (·.attr? "_merge")

/-- Both sides hold a named list and the extending one is marked
`_merge: true`. -/
def MergedByName (toMerge extendBy : List Val) : Prop :=
  isNamedList toMerge = true ∧ isNamedList extendBy = true ∧
    firstMarker extendBy = some (.bool true)

/-- `x` has the name `name`. -/
def isNamed (name x : Val) : Bool :=
  match x.attr? "name" with
  | some own => own.pyEq name
  | none => false

/-- The item of a list that has the name `name`. -/
def itemNamed (name : Val) (l : List Val) : Option Val := l.find? (isNamed name)

/-- No two items of the list have equal names. -/
def UniqueNames (l : List Val) : Prop :=
  l.Pairwise fun a b => ∀ n, a.attr? "name" = some n →
    ∀ m, b.attr? "name" = some m → n.pyEq m = false

/-- A merged item keeps the name it had. -/
def SameName (x y : Val) : Prop :=
  ∃ n m, x.attr? "name" = some n ∧ y.attr? "name" = some m ∧ m.pyEq n = true

/-- The named items of the extending list whose name the default list does not
have. -/
def unmatched (toMerge extendBy : List Val) : List Val :=
  extendBy.filter fun e =>
    match e.attr? "name" with
    | some name => !toMerge.any (isNamed name)
    | none => false

/-- Every marker of the list is an item without a name. -/
def MarkersUnnamed (l : List Val) : Prop :=
  ∀ x ∈ l, x.hasAttr "_merge" = true → x.hasAttr "name" = false

theorem isNamed_eq_true {name x : Val} :
    isNamed name x = true ↔ ∃ own, x.attr? "name" = some own ∧ own.pyEq name = true := by
  unfold isNamed
  cases x.attr? "name" <;> simp

theorem isMatch_eq_isNamed {item own : Val} (h : item.attr? "name" = some own) (x : Val) :
    isMatch item x = isNamed own x := by
  unfold isMatch isNamed
  rw [h]
  cases x.attr? "name" <;> rfl

/-- Two equal names select the same items. -/
theorem isNamed_congr {n m : Val} (x : Val) (hn : n.WellFormed) (hm : m.WellFormed)
    (hnm : n.pyEq m = true) : isNamed n x = isNamed m x := by
  rw [Bool.eq_iff_iff, isNamed_eq_true, isNamed_eq_true]
  constructor
  · rintro ⟨own, hown, h⟩
    exact ⟨own, hown, Val.pyEq_trans h hnm⟩
  · rintro ⟨own, hown, h⟩
    exact ⟨own, hown, Val.pyEq_trans h (Val.pyEq_symm hn hm hnm)⟩

theorem isNamed_eq_of_pyEq {n m : Val} (hn : n.WellFormed) (hm : m.WellFormed)
    (hnm : n.pyEq m = true) : isNamed n = isNamed m :=
  funext fun x => isNamed_congr x hn hm hnm

/-! ## What the checks establish -/

theorem mergeStrategy_eq_ok_true {l : List Val} {key : String} :
    mergeStrategy l key = .ok true ↔ firstMarker l = some (.bool true) := by
  unfold mergeStrategy firstMarker
  cases l.find? (·.hasAttr "_merge") with
  | none => simp
  | some marker =>
      simp only [Option.bind_some]
      split
      · next merge h => simp [h, Val.bool]
      · next h =>
          simp only [reduceCtorEq, false_iff]
          exact h true

theorem uniqueNames_of_assert {l : List Val} {key type : String} (hl : (Val.list l).WellFormed)
    (h : assertUniqueNamesInNamedList l key type = .ok ()) : UniqueNames l := by
  rw [Val.wellFormed_list_iff] at hl
  unfold assertUniqueNamesInNamedList at h
  split at h
  · cases h
  next hfind =>
  rw [List.find?_eq_none] at hfind
  have hnames : (allNames l).Pairwise fun n m => n.pyEq m = false := by
    rw [List.pairwise_iff_forall_sublist]
    intro n m hsub
    -- both names of an equal pair are counted for the second one
    by_contra hne
    rw [Bool.not_eq_false] at hne
    have hmem : m ∈ allNames l := hsub.subset (by simp)
    obtain ⟨x, hx, hxm⟩ := List.mem_filterMap.mp hmem
    have hself : m.pyEq m = true := Val.pyEq_refl ((hl x hx).attr? hxm)
    have hcount : 2 ≤ (allNames l).countP (·.pyEq m) := by
      have hpair : [n, m].countP (·.pyEq m) = 2 := by simp [hne, hself]
      exact hpair ▸ hsub.countP_le
    exact hfind m hmem (decide_eq_true hcount)
  exact List.pairwise_filterMap.mp hnames

/-- What `merge_list` does to two lists that are merged by name. -/
theorem mergeList_byName {toMerge extendBy result : List Val} {key : String}
    {mergeItem : Val → Res Val} (hby : MergedByName toMerge extendBy)
    (hto : (Val.list toMerge).WellFormed) (hext : (Val.list extendBy).WellFormed)
    (h : mergeList toMerge extendBy key mergeItem = .ok result) :
    UniqueNames toMerge ∧ UniqueNames extendBy ∧
      ∃ merged, List.Forall₂ (fun x y => mergeItem x = .ok y) toMerge merged ∧
        appendUnmatched merged extendBy = .ok result := by
  obtain ⟨hnamed, hnamed', hmarker⟩ := hby
  unfold mergeList at h
  rw [if_pos (by simp [hnamed, hnamed'])] at h
  simp only [bind_eq_ok] at h
  obtain ⟨merge, hmerge, ⟨⟩, hunique, ⟨⟩, hunique', h⟩ := h
  rw [mergeStrategy_eq_ok_true.mpr hmarker, Except.ok.injEq] at hmerge
  subst hmerge
  rw [if_pos rfl, bind_eq_ok] at h
  obtain ⟨merged, hmerged, happend⟩ := h
  exact ⟨uniqueNames_of_assert hto hunique, uniqueNames_of_assert hext hunique',
    merged, mapM_eq_ok.mp hmerged, happend⟩

/-- Two lists that are not merged by name: the extending list takes the place
of the default one, without its markers when both are named. -/
theorem mergeList_replaced {toMerge extendBy result : List Val} {key : String}
    {mergeItem : Val → Res Val} (hby : ¬ MergedByName toMerge extendBy)
    (h : mergeList toMerge extendBy key mergeItem = .ok result) :
    result = if isNamedList toMerge && isNamedList extendBy
      then extendBy.filter (·.hasAttr "name") else extendBy := by
  unfold mergeList at h
  split at h
  · next hnamed =>
      simp only [Bool.and_eq_true] at hnamed
      simp only [bind_eq_ok] at h
      obtain ⟨merge, hmerge, -, -, -, -, h⟩ := h
      have hfalse : merge = false := by
        by_contra htrue
        rw [Bool.not_eq_false] at htrue
        subst htrue
        exact hby ⟨hnamed.1, hnamed.2, mergeStrategy_eq_ok_true.mp hmerge⟩
      subst hfalse
      simp only [Bool.false_eq_true, if_false, Except.ok.injEq] at h
      simp [hnamed, ← h]
  · next hnamed =>
      cases h
      simp [hnamed]

/-! ## Matching -/

theorem matchesOf_eq {item own : Val} (h : item.attr? "name" = some own) (l : List Val) :
    matchesOf item l = .ok (l.filter (isMatch item)) := by
  induction l with
  | nil => rfl
  | cons x rest ih =>
      unfold matchesOf
      cases hx : x.attr? "name" with
      | none => simp [ih, isMatch, hx]
      | some name =>
          have hown : item.getItem "name" = .ok own := Val.getItem_eq_ok.mpr h
          have hmatch : isMatch item x = name.pyEq own := by simp [isMatch, hx, h]
          simp only [hown, ok_bind, ih, List.filter_cons, hmatch]

/-- With unique names an item merges with the match it has, if any. -/
theorem mergeMatched_eq {item own : Val} {l : List Val} (hown : item.attr? "name" = some own)
    (hitem : item.WellFormed) (hl : (Val.list l).WellFormed) (hunique : UniqueNames l) :
    mergeMatched l item =
      match l.find? (isMatch item) with
      | some x => mergeInto item x
      | none => .ok item := by
  rw [Val.wellFormed_list_iff] at hl
  have hownwf : own.WellFormed := hitem.attr? hown
  rw [mergeMatched, matchesOf_eq hown, ok_bind]
  cases hfind : l.find? (isMatch item) with
  | none =>
      have hempty : l.filter (isMatch item) = [] := by
        simpa [List.filter_eq_nil_iff, List.find?_eq_none] using hfind
      simp [hempty]
  | some x =>
      -- two matches would have equal names
      have hle : ∀ a b, [a, b].Sublist (l.filter (isMatch item)) → False := by
        intro a b hsub
        have ha : isMatch item a = true := (List.mem_filter.mp (hsub.subset (by simp))).2
        have hb := List.mem_filter.mp (hsub.subset (show b ∈ [a, b] by simp))
        rw [isMatch_eq_isNamed hown, isNamed_eq_true] at ha
        obtain ⟨n, hn, hneq⟩ := ha
        obtain ⟨hbl, hb⟩ := hb
        rw [isMatch_eq_isNamed hown, isNamed_eq_true] at hb
        obtain ⟨m, hm, hmeq⟩ := hb
        have hfalse := List.pairwise_iff_forall_sublist.mp hunique
          (hsub.trans List.filter_sublist) n hn m hm
        rw [Val.pyEq_of_pyEq_right ((hl b hbl).attr? hm) hownwf hneq hmeq] at hfalse
        cases hfalse
      have hone : (l.filter (isMatch item)).length = 1 := by
        have hmem : x ∈ l.filter (isMatch item) :=
          List.mem_filter.mpr ⟨List.mem_of_find?_eq_some hfind, List.find?_some hfind⟩
        cases hf : l.filter (isMatch item) with
        | nil => simp [hf] at hmem
        | cons a others =>
            cases others with
            | nil => rfl
            | cons b rest =>
                have hsub : [a, b].Sublist (l.filter (isMatch item)) := by
                  rw [hf]
                  exact ((List.nil_sublist rest).cons_cons b).cons_cons a
                exact (hle a b hsub).elim
      rw [if_pos hone, mergeFirst_eq, hfind]

theorem nameKnown_eq_ok {name : Val} {l : List Val} {known : Bool}
    (h : nameKnown name l = .ok known) : known = l.any (isNamed name) := by
  induction l generalizing known with
  | nil => cases h; rfl
  | cons x rest ih =>
      simp only [nameKnown, bind_eq_ok, Except.ok.injEq] at h
      obtain ⟨own, hown, restKnown, hrest, rfl⟩ := h
      rw [List.any_cons, ih hrest, isNamed, Val.getItem_eq_ok.mp hown]

/-- The second loop of a merge by name appends the unmatched items. -/
theorem appendUnmatched_eq_ok {toMerge extendBy result : List Val}
    (hunique : UniqueNames extendBy) (hmarkers : MarkersUnnamed extendBy)
    (h : appendUnmatched toMerge extendBy = .ok result) :
    result = toMerge ++ unmatched toMerge extendBy := by
  induction extendBy generalizing toMerge with
  | nil => cases h; simp [unmatched]
  | cons item rest ih =>
      obtain ⟨hfirst, hunique⟩ := List.pairwise_cons.mp hunique
      have hmarkers' : MarkersUnnamed rest := fun x hx => hmarkers x (by simp [hx])
      unfold appendUnmatched at h
      split at h
      · next hmarker =>
          have hno : item.attr? "name" = none := by
            simpa [Val.hasAttr] using hmarkers item (by simp) hmarker
          rw [ih hunique hmarkers' h]
          simp [unmatched, hno]
      · simp only [bind_eq_ok] at h
        obtain ⟨name, hname, known, hknown, h⟩ := h
        rw [Val.getItem_eq_ok] at hname
        have hknown := nameKnown_eq_ok hknown
        rw [ih hunique hmarkers' h]
        cases known with
        | true => simp [unmatched, hname, ← hknown]
        | false =>
            -- the appended item matches none of those after it
            have hrest : unmatched (toMerge ++ [item]) rest = unmatched toMerge rest := by
              apply List.filter_congr
              intro e he
              cases hn : e.attr? "name" with
              | none => rfl
              | some m => simp [isNamed, hname, hfirst e he name hname m hn]
            simp only [Bool.false_eq_true, if_false]
            rw [hrest]
            simp [unmatched, hname, ← hknown]

/-! ## Names after the merge -/

theorem SameName.refl {x own : Val} (hx : x.WellFormed) (h : x.attr? "name" = some own) :
    SameName x x :=
  ⟨own, own, h, h, Val.pyEq_refl (hx.attr? h)⟩

/-- Items of the same name are selected by the same names. -/
theorem SameName.isNamed_eq {x y : Val} (h : SameName x y) (hx : x.WellFormed)
    (hy : y.WellFormed) (name : Val) : isNamed name x = isNamed name y := by
  obtain ⟨n, m, hn, hm, hmn⟩ := h
  rw [Bool.eq_iff_iff, isNamed_eq_true, isNamed_eq_true, hn, hm]
  have hnm := Val.pyEq_symm (hy.attr? hm) (hx.attr? hn) hmn
  constructor
  · rintro ⟨_, ⟨⟩, hname⟩
    exact ⟨m, rfl, Val.pyEq_trans hmn hname⟩
  · rintro ⟨_, ⟨⟩, hname⟩
    exact ⟨n, rfl, Val.pyEq_trans hnm hname⟩

/-- The items that are appended do not depend on what the merge did to the
items it kept. -/
theorem unmatched_congr {xs merged : List Val} (hsame : List.Forall₂ SameName xs merged)
    (hxs : (Val.list xs).WellFormed) (hmerged : (Val.list merged).WellFormed) (ys : List Val) :
    unmatched merged ys = unmatched xs ys := by
  rw [Val.wellFormed_list_iff] at hxs hmerged
  apply List.filter_congr
  intro e _
  cases e.attr? "name" with
  | none => rfl
  | some name =>
      simp only
      rw [any_forall₂ hsame fun x hx y hy h => h.isNamed_eq (hxs x hx) (hmerged y hy) name]

theorem uniqueNames_congr {xs merged : List Val} (hsame : List.Forall₂ SameName xs merged)
    (hxs : (Val.list xs).WellFormed) (hmerged : (Val.list merged).WellFormed)
    (hunique : UniqueNames xs) : UniqueNames merged := by
  rw [Val.wellFormed_list_iff] at hxs hmerged
  induction hsame with
  | nil => exact .nil
  | @cons x y xs ys hxy hrest ih =>
      obtain ⟨hfirst, hunique⟩ := List.pairwise_cons.mp hunique
      refine List.pairwise_cons.mpr ⟨fun y' hy' n hn m hm => ?_,
        ih (fun a ha => hxs a (by simp [ha])) (fun a ha => hmerged a (by simp [ha])) hunique⟩
      -- an equal name would also be shared by the items before the merge
      by_contra hnm
      rw [Bool.not_eq_false] at hnm
      obtain ⟨i, hi, rfl⟩ := List.mem_iff_getElem.mp hy'
      have hi' : i < xs.length := hrest.length_eq ▸ hi
      have hx' : xs[i] ∈ xs := List.getElem_mem hi'
      have hxx := hxy.isNamed_eq (hxs x (by simp)) (hmerged y (by simp)) m
      have hxx' : isNamed m xs[i] = isNamed m ys[i] :=
        (hrest.get hi' hi).isNamed_eq (hxs _ (by simp)) (hmerged _ (by simp)) m
      rw [isNamed_eq_true.mpr ⟨n, hn, hnm⟩, isNamed_eq_true] at hxx
      have hmwf : m.WellFormed := (hmerged _ (by simp)).attr? hm
      rw [isNamed_eq_true.mpr ⟨m, hm, Val.pyEq_refl hmwf⟩, isNamed_eq_true] at hxx'
      obtain ⟨a, ha, ham⟩ := hxx
      obtain ⟨b, hb, hbm⟩ := hxx'
      have hbwf : b.WellFormed := (hxs _ (by simp [hx'])).attr? hb
      have := hfirst _ hx' a ha b hb
      rw [Val.pyEq_of_pyEq_right hbwf hmwf ham hbm] at this
      cases this

/-- Appending the unmatched items repeats no name. -/
theorem uniqueNames_append_unmatched {xs ys : List Val} (hxs : UniqueNames xs)
    (hys : UniqueNames ys) : UniqueNames (xs ++ unmatched xs ys) := by
  refine List.pairwise_append.mpr ⟨hxs, hys.sublist List.filter_sublist, ?_⟩
  intro x hxmem e he n hn m hm
  obtain ⟨hemem, he⟩ := List.mem_filter.mp he
  rw [hm] at he
  by_contra hnm
  rw [Bool.not_eq_false] at hnm
  have hany : xs.any (isNamed m) = true :=
    List.any_eq_true.mpr ⟨x, hxmem, isNamed_eq_true.mpr ⟨n, hn, hnm⟩⟩
  simp [hany] at he

/-- A name no default item has selects the same item among the unmatched ones
as in the whole extending list. -/
theorem itemNamed_unmatched {xs ys : List Val} {name : Val} (hname : name.WellFormed)
    (hys : (Val.list ys).WellFormed) (hnone : itemNamed name xs = none) :
    itemNamed name (unmatched xs ys) = itemNamed name ys := by
  rw [Val.wellFormed_list_iff] at hys
  rw [itemNamed, unmatched, List.find?_filter, itemNamed]
  have hxs : ∀ x ∈ xs, isNamed name x = false := by
    simpa [itemNamed, List.find?_eq_none] using hnone
  induction ys with
  | nil => rfl
  | cons e rest ih =>
      rw [List.find?_cons, List.find?_cons, ih fun y hy => hys y (by simp [hy])]
      cases he : isNamed name e with
      | false => simp
      | true =>
          obtain ⟨own, hown, heq⟩ := isNamed_eq_true.mp he
          have hownwf : own.WellFormed := (hys e (by simp)).attr? hown
          have hany : xs.any (isNamed own) = false := by
            rw [List.any_eq_false]
            intro x hx
            rw [isNamed_congr x hownwf hname heq, hxs x hx]
            simp
          simp [hown, hany]

end LambdaStack
