/-
# The tags of machine definitions

The hosts of a component are found by the tags of their machines. The builders
append the tags of a cluster and of a component to a copy of the component's
machine definition; everything else they do keeps the tags of every document.
-/

import LambdaStack.Engine.Providers.BuilderFrame
import LambdaStack.Engine.Providers.DocFrame

namespace LambdaStack

open Lib BuildM

/-- A step that keeps what selects a machine definition, and its tags. -/
structure KeepsTags (x y : Val) : Prop where
  kind : y.attr? "kind" = x.attr? "kind"
  name : y.attr? "name" = x.attr? "name"
  tags : y.specAttr? "tags" = x.specAttr? "tags"
  unique : x.KeysUnique → y.KeysUnique

instance : Std.Refl KeepsTags := ⟨fun _ => ⟨rfl, rfl, rfl, id⟩⟩

instance : IsTrans Val KeepsTags :=
  ⟨fun _ _ _ h h' => ⟨h'.kind.trans h.kind, h'.name.trans h.name, h'.tags.trans h.tags,
    fun hx => h'.unique (h.unique hx)⟩⟩

theorem KeepsTags.withSpecAttr {x y value : Val} {key : String} (hkey : key ≠ "tags")
    (h : x.withSpecAttr key value = .ok y) : KeepsTags x y where
  kind := Val.attr?_withSpecAttr h (by decide)
  name := Val.attr?_withSpecAttr h (by decide)
  tags := by rw [Val.specAttr?_withSpecAttr h, if_neg hkey.symm]
  unique hx := hx.withSpecAttr h

/-- Every document keeps its tags. -/
abbrev TagsKept : Store → Store → Prop := Store.Evolves KeepsTags

theorem preserves_tags_setSpecAttr (id : DocId) {key : String} (value : Val)
    (hkey : key ≠ "tags") : Preserves TagsKept (setSpecAttr id key value) :=
  preserves_setSpecAttr id fun _ _ h => .withSpecAttr hkey h

theorem builderFrame_tagsKept (provider : CloudProvider) : BuilderFrame provider TagsKept where
  creates := preserves_newDoc
  assigns id _ value hkey _ := preserves_tags_setSpecAttr id value hkey

theorem preserves_tags_setImage (provider : CloudProvider) (id : DocId) (value : Val) :
    Preserves TagsKept (setSpecAttr id provider.imageField value) := by
  apply preserves_tags_setSpecAttr
  cases provider <;> decide

/-- Appending tags to a document made in the meantime. -/
theorem appendTags_tags {id : DocId} {tags : List Val} {s₀ s s' : Store} {u : Unit}
    (hnew : s₀.next ≤ id) (hkept : TagsKept s₀ s) (h : appendTags id tags s = .ok (u, s')) :
    TagsKept s₀ s' ∧ s'.next = s.next ∧
      (s'.doc id).attr? "kind" = (s.doc id).attr? "kind" ∧
      ∃ old, (s.doc id).specAttr? "tags" = some (.list old) ∧
        (s'.doc id).specAttr? "tags" = some (.list (old ++ tags)) := by
  simp only [appendTags, BuildM.bind_eq_ok, lift_eq_ok] at h
  obtain ⟨value, _, hread, old, _, ⟨hold, rfl⟩, h⟩ := h
  obtain ⟨htags, rfl⟩ := specAttr_eq_ok.mp hread
  obtain ⟨doc, hdoc, rfl⟩ := setSpecAttr_eq_ok.mp h
  refine ⟨⟨hkept.next_le, fun other hother => ?_⟩, rfl, ?_, old, ?_, ?_⟩
  · rw [s.write_doc_ne (hother.trans_le hnew).ne]
    exact hkept.doc other hother
  · rw [s.write_doc_self]
    exact Val.attr?_withSpecAttr hdoc (by decide)
  · rw [htags, Val.asList_eq_ok.mp hold]
  · rw [s.write_doc_self, Val.specAttr?_withSpecAttr hdoc, if_pos rfl]

/-! ## The tags of a component's machines -/

/-- The tags of the machine definition a component selects. -/
def machineTags (env : BuilderEnv) (clusterModel : Val) (docs : List Val)
    (componentValue : Val) : Option (List Val) := do
  let machineSelector ← (componentValue.getAttr "machine").toOption
  let tags ← machinePart "tags" env clusterModel docs machineSelector
  tags.asList.toOption

/-- The tags every machine of a component has to carry. -/
def componentTags (env : BuilderEnv) (clusterModel : Val) (docs : List Val) (clusterTag : Val)
    (component : String × Val) : Option Val :=
  (machineTags env clusterModel docs component.2).map fun own =>
    .list (own ++ [clusterTag, .dict [(component.1, .str "")]])

/-- A document that has the tags of the machine definition a component selects, if it
has tags at all. -/
def HasMachineTags (env : BuilderEnv) (clusterModel : Val) (docs : List Val)
    (componentValue x : Val) : Prop :=
  ∀ tags, x.specAttr? "tags" = some tags → x.IsKind vmKind ∧ ∀ own, tags = .list own →
    machineTags env clusterModel docs componentValue = some own

/-- The tags the machines among the documents carry, in order. -/
def shownTags (s : Store) (ids : List DocId) : List (Option Val) :=
  (ids.filter fun id => Holds? (kindIs vmKind (s.doc id))).map fun id =>
    (s.doc id).specAttr? "tags"

/-- The tags of the machines a run has to emit, the given number for each component. -/
def expectedTags (env : BuilderEnv) (clusterModel : Val) (docs : List Val) (clusterTag : Val)
    (machineCount : Val → Nat) (components : Entries) : List (Option Val) :=
  components.flatMap fun component => List.replicate (machineCount component.2)
    (componentTags env clusterModel docs clusterTag component)

/-- A document that is not a machine's. -/
structure NoMachine (s : Store) (id : DocId) : Prop where
  lt : id < s.next
  kind : ¬ (s.doc id).IsKind vmKind

section

variable {provider : CloudProvider} {env : BuilderEnv} {b : BuilderDocs} {s s' : Store}

theorem forall₂_docs {R : Val → Val → Prop} {docs : List DocId}
    (hdocs : ∀ id ∈ docs, id < s.next) (h : s.Evolves R s') :
    List.Forall₂ R (docs.map s.doc) (docs.map s'.doc) := by
  rw [List.forall₂_map_left_iff, List.forall₂_map_right_iff, List.forall₂_same]
  exact fun id hid => h.doc id (hdocs id hid)

theorem componentTags_keeps {docs : List DocId} (hdocs : ∀ id ∈ docs, id < s.next)
    (h : TagsKept s s') (clusterModel clusterTag : Val) (component : String × Val) :
    componentTags env clusterModel (docs.map s'.doc) clusterTag component =
      componentTags env clusterModel (docs.map s.doc) clusterTag component := by
  have hpart : ∀ machineSelector,
      machinePart "tags" env clusterModel (docs.map s'.doc) machineSelector =
        machinePart "tags" env clusterModel (docs.map s.doc) machineSelector :=
    machinePart_congr (fun _ _ h => h.kind) (fun _ _ h => h.name) (fun _ _ h _ => h.tags)
      (forall₂_docs hdocs h) clusterModel
  unfold componentTags machineTags
  simp only [hpart]

theorem expectedTags_keeps {docs : List DocId} (hdocs : ∀ id ∈ docs, id < s.next)
    (h : TagsKept s s') {clusterModel clusterTag : Val} {machineCount : Val → Nat}
    {components : Entries} :
    expectedTags env clusterModel (docs.map s'.doc) clusterTag machineCount components =
      expectedTags env clusterModel (docs.map s.doc) clusterTag machineCount components := by
  unfold expectedTags
  simp only [componentTags_keeps hdocs h]

theorem shownTags_keeps {ids : List DocId} (hids : ∀ id ∈ ids, id < s.next)
    (h : TagsKept s s') : shownTags s' ids = shownTags s ids := by
  unfold shownTags
  rw [List.filter_congr fun id hid => holds?_kindIs_congr (h.doc id (hids id hid)).kind vmKind]
  refine List.map_congr_left fun id hid => ?_
  exact (h.doc id (hids id (List.mem_filter.mp hid).1)).tags

theorem shownTags_append (s : Store) (xs ys : List DocId) :
    shownTags s (xs ++ ys) = shownTags s xs ++ shownTags s ys := by
  rw [shownTags, List.filter_append, List.map_append]
  rfl

theorem shownTags_singleton {id : DocId} (h : (s.doc id).IsKind vmKind) :
    shownTags s [id] = [(s.doc id).specAttr? "tags"] := by
  rw [shownTags, List.filter_singleton, holds?_kindIs.mpr h]
  rfl

theorem shownTags_noMachine {ids : List DocId} (h : ∀ id ∈ ids, NoMachine s id) :
    shownTags s ids = [] := by
  rw [shownTags, List.map_eq_nil_iff, List.filter_eq_nil_iff]
  intro id hid
  rw [holds?_kindIs]
  exact (h id hid).kind

theorem NoMachine.keeps {id : DocId} (h : NoMachine s id) (hkept : TagsKept s s') :
    NoMachine s' id where
  lt := h.lt.trans_le hkept.next_le
  kind := by
    rw [Val.IsKind, (hkept.doc id h.lt).kind]
    exact h.kind

/-- The documents are allocated, and the machines among them carry the tags. -/
structure ShowsTags (s : Store) (ids : List DocId) (shown : List (Option Val)) : Prop where
  lt : ∀ id ∈ ids, id < s.next
  tags : shownTags s ids = shown

theorem ShowsTags.keeps {ids : List DocId} {shown : List (Option Val)}
    (h : ShowsTags s ids shown) (hkept : TagsKept s s') : ShowsTags s' ids shown where
  lt id hid := (h.lt id hid).trans_le hkept.next_le
  tags := (shownTags_keeps h.lt hkept).trans h.tags

theorem ShowsTags.append_noMachine {ids new : List DocId} {shown : List (Option Val)}
    (h : ShowsTags s ids shown) (hnew : ∀ id ∈ new, NoMachine s id) :
    ShowsTags s (ids ++ new) shown where
  lt id hid := (List.mem_append.mp hid).elim (h.lt id) fun hid => (hnew id hid).lt
  tags := by rw [shownTags_append, h.tags, shownTags_noMachine hnew, List.append_nil]

theorem ShowsTags.append_machine {ids : List DocId} {id : DocId} {shown : List (Option Val)}
    (h : ShowsTags s ids shown) (hlt : id < s.next) (hkind : (s.doc id).IsKind vmKind) :
    ShowsTags s (ids ++ [id]) (shown ++ [(s.doc id).specAttr? "tags"]) where
  lt other hother := (List.mem_append.mp hother).elim (h.lt other) fun hmem => by
    rwa [List.mem_singleton.mp hmem]
  tags := by rw [shownTags_append, h.tags, shownTags_singleton hkind]

theorem HasMachineTags.keeps {clusterModel componentValue x y : Val} {docs : List Val}
    (h : HasMachineTags env clusterModel docs componentValue x) (hkept : KeepsTags x y) :
    HasMachineTags env clusterModel docs componentValue y := by
  intro tags htags
  rw [hkept.tags] at htags
  rw [Val.IsKind, hkept.kind]
  exact h tags htags

/-- What `get_virtual_machine` returns is a machine definition with the tags the
documents give it, or the `None` a missing one is. -/
theorem getVirtualMachine_tags {componentValue : Val} {model : DocId}
    (hdocs : ∀ id ∈ b.docs, id < s.next) (hunique : ∀ id ∈ b.docs, (s.doc id).KeysUnique)
    (h : getVirtualMachine provider env b componentValue s = .ok (model, s')) :
    TagsKept s s' ∧ model < s'.next ∧
      HasMachineTags env b.clusterModel (b.docs.map s.doc) componentValue (s'.doc model) := by
  have hkept := ((builderFrame_tagsKept provider).getVirtualMachine
    (preserves_tags_setImage provider) componentValue).rel h
  obtain ⟨machineSelector, s₁, hselector, hselect, hrest⟩ :=
    (builderFrame_tagsKept provider).selected (preserves_tags_setImage provider) h
  obtain ⟨htree, hstore⟩ := selectMachine_eq_ok hselect
  have hlt : model < s₁.next := by
    rcases hstore with ⟨hmem, rfl⟩ | ⟨rfl, hs⟩
    · exact hdocs model hmem
    · rw [hs]
      exact Nat.lt_succ_self _
  have hmodel := hrest.doc model hlt
  refine ⟨hkept, hlt.trans_le hrest.next_le, fun tags htags => ?_⟩
  rw [hmodel.tags] at htags
  have hnull : s₁.doc model ≠ .null := by
    intro heq
    simp [heq, Val.specAttr?, Val.attr?] at htags
  obtain ⟨hkind, hpart⟩ := machineTree_eq_ok (by simpa using hunique) hnull htree
  constructor
  · rw [Val.IsKind, hmodel.kind]
    exact hkind
  · rintro own rfl
    rw [machineTags, hselector]
    simp [Except.toOption, ← hpart, htags, Val.asList]

/-- A copy of a machine definition to which assignments and then tags are made. -/
theorem copy_tags {clusterModel clusterTag : Val} {docs : List Val} (component : String × Val)
    {model : DocId} {s₁ s₂ s₃ : Store} {u : Unit}
    (hmodel : HasMachineTags env clusterModel docs component.2 (s₁.doc model))
    (hassigned : TagsKept (s₁.alloc (s₁.doc model)) s₂)
    (happend : appendTags s₁.next [clusterTag, .dict [(component.1, .str "")]] s₂ =
      .ok (u, s₃)) :
    TagsKept s₁ s₃ ∧ s₁.next < s₃.next ∧ (s₃.doc s₁.next).IsKind vmKind ∧
      (s₃.doc s₁.next).specAttr? "tags" =
        componentTags env clusterModel docs clusterTag component := by
  have hcopy := hassigned.doc s₁.next (Nat.lt_succ_self _)
  rw [s₁.alloc_doc_self] at hcopy
  have hkept : TagsKept s₁ s₂ :=
    Trans.trans (Store.evolves_alloc (R := KeepsTags) s₁ _) hassigned
  obtain ⟨hkept', hnext, hkind, old, hold, htags⟩ := appendTags_tags le_rfl hkept happend
  obtain ⟨hvm, hown⟩ := hmodel _ (hcopy.tags.symm.trans hold)
  refine ⟨hkept', ?_, ?_, ?_⟩
  · rw [hnext]
    exact Nat.lt_of_succ_le hassigned.next_le
  · rw [Val.IsKind, hkind, hcopy.kind]
    exact hvm
  · rw [htags, componentTags, hown old rfl]
    rfl

/-- A computation whose result is no machine's document. -/
structure ReturnsNoMachine (docs : List DocId) (x : BuildM DocId) : Prop where
  run : ∀ {s id s'}, (∀ id ∈ docs, id < s.next) → x s = .ok (id, s') →
    TagsKept s s' ∧ NoMachine s' id

theorem returnsNoMachine_configWith {docs : List DocId} {kind : String}
    {fields : List (String × Val)} (hkind : ConfigKind kind)
    (hfields : ∀ field ∈ fields, field.1 ≠ "tags" ∧ field.1 ≠ provider.imageField) :
    ReturnsNoMachine docs (configWith provider env docs kind fields) := by
  refine ⟨fun {s id s'} hdocs h => ?_⟩
  rw [configWith, BuildM.bind_eq_ok] at h
  obtain ⟨config, s₁, hconfig, h⟩ := h
  obtain ⟨-, hlt, hisKind, -⟩ := getConfigOrDefault_keeps hdocs hkind.2 hconfig
  have hkept := ((builderFrame_tagsKept provider).getConfigOrDefault provider env docs kind).rel
    hconfig
  rw [BuildM.bind_eq_ok] at h
  obtain ⟨_, s₂, hset, h⟩ := h
  obtain ⟨rfl, rfl⟩ := BuildM.pure_eq_ok.mp h
  have hassigned := ((builderFrame_tagsKept provider).setSpecAttrs config hfields).rel hset
  refine ⟨Trans.trans hkept hassigned, NoMachine.keeps ⟨hlt, ?_⟩ hassigned⟩
  intro hvm
  exact hkind.1 (hisKind.unique hvm)

/-- After a computation that keeps the tags. -/
theorem ReturnsNoMachine.after {α : Type} {docs : List DocId} {x : BuildM α}
    {f : α → BuildM DocId} (hx : Preserves TagsKept x) (hf : ∀ a, ReturnsNoMachine docs (f a)) :
    ReturnsNoMachine docs (x >>= f) := by
  refine ⟨fun {s id s'} hdocs h => ?_⟩
  obtain ⟨a, s₁, hfirst, hrest⟩ := BuildM.bind_eq_ok.mp h
  have hkept := hx.rel hfirst
  obtain ⟨hkept', hid⟩ := (hf a).run (fun id hid => (hdocs id hid).trans_le hkept.next_le) hrest
  exact ⟨Trans.trans hkept hkept', hid⟩

/-- Before a computation that keeps the tags and returns the same document. -/
theorem ReturnsNoMachine.getsThen {docs : List DocId} {config getter : BuildM DocId}
    (hconfig : ReturnsNoMachine docs config) (h : GetsThen TagsKept config getter) :
    ReturnsNoMachine docs getter := by
  obtain ⟨f, rfl, hf⟩ := h
  refine ⟨fun {s id s'} hdocs h => ?_⟩
  obtain ⟨a, s₁, hfirst, hrest⟩ := BuildM.bind_eq_ok.mp h
  obtain ⟨hkept, hid⟩ := hconfig.run hdocs hfirst
  obtain rfl := (hf a).eq hrest
  have hkept' := (hf id).rel hrest
  exact ⟨Trans.trans hkept hkept', hid.keeps hkept'⟩

end

end LambdaStack
