/-
# What an operation of a builder leaves unchanged

A builder assigns to the specifications of the documents of one kind at a time.
Such a step keeps the kind and the name of every document, the `security` part
of every machine definition and every document of another kind. The relation
composes, so one lemma for each operation is enough.
-/

import LambdaStack.Engine.Providers.VirtualMachine
import LambdaStack.Helpers.MergeLemmas
import LambdaStack.Lib.Lists

namespace LambdaStack

open Lib BuildM

/-- The kind of the machine definitions. -/
abbrev vmKind : String := "infrastructure/virtual-machine"

/-- The kinds whose documents the getters fill in: no machine definition, and no
minimal cluster configuration, which the builders never load. -/
abbrev ConfigKind (kind : String) : Prop :=
  kind ≠ vmKind ∧ kind ≠ "configuration/minimal-cluster-config"

namespace Val

/-- The keys of a document and of its specification are pairwise distinct. -/
structure KeysUnique (x : Val) : Prop where
  top : ∀ entries, x = .dict entries → (dictKeys entries).Nodup
  spec : ∀ entries, x.attr? "specification" = some (.dict entries) → (dictKeys entries).Nodup

theorem WellFormed.keysUnique {x : Val} (hx : x.WellFormed) : x.KeysUnique where
  top := by
    rintro entries rfl
    exact (wellFormed_dict_iff.mp hx).1
  spec := fun entries h => (wellFormed_dict_iff.mp (hx.attr? h)).1

theorem KeysUnique.withSpecAttr {x y value : Val} {key : String} (hx : x.KeysUnique)
    (h : x.withSpecAttr key value = .ok y) : y.KeysUnique := by
  simp only [Val.withSpecAttr, Lib.bind_eq_ok, getAttr_eq_ok] at h
  obtain ⟨spec, hspec, spec', hset, h⟩ := h
  obtain ⟨specEntries, rfl, rfl⟩ := setAttr_eq_ok.mp hset
  constructor
  · rintro entries rfl
    obtain ⟨xs, hxs, hys⟩ := setAttr_eq_ok.mp h
    cases hys
    exact nodup_dictKeys_dictSet (hx.top xs hxs) _
  · intro entries hentries
    rw [attr?_setAttr h, if_pos rfl] at hentries
    cases hentries
    exact nodup_dictKeys_dictSet (hx.spec specEntries hspec) _

end Val

/-- What a step that assigns to documents of the kinds `changing` does to one
document. -/
structure DocStep (changing : Set String) (x y : Val) : Prop where
  kind : y.attr? "kind" = x.attr? "kind"
  name : y.attr? "name" = x.attr? "name"
  security : x.IsKind vmKind → y.specAttr? "security" = x.specAttr? "security"
  unique : x.KeysUnique → y.KeysUnique
  same : (∀ kind ∈ changing, ¬ x.IsKind kind) → y = x

theorem DocStep.refl (changing : Set String) (x : Val) : DocStep changing x x :=
  ⟨rfl, rfl, fun _ => rfl, id, fun _ => rfl⟩

theorem DocStep.isKind {changing : Set String} {x y : Val} {kind : String}
    (h : DocStep changing x y) : y.IsKind kind ↔ x.IsKind kind := by
  rw [Val.IsKind, Val.IsKind, h.kind]

theorem DocStep.trans {changing : Set String} {x y z : Val} (h : DocStep changing x y)
    (h' : DocStep changing y z) : DocStep changing x z where
  kind := h'.kind.trans h.kind
  name := h'.name.trans h.name
  security hx := (h'.security (h.isKind.mpr hx)).trans (h.security hx)
  unique hx := h'.unique (h.unique hx)
  same hx := by
    have hyx := h.same hx
    exact (h'.same (hyx ▸ hx)).trans hyx

theorem DocStep.mono {changing changing' : Set String} {x y : Val} (h : DocStep changing x y)
    (hsub : changing ⊆ changing') : DocStep changing' x y where
  kind := h.kind
  name := h.name
  security := h.security
  unique := h.unique
  same hx := h.same fun kind hkind => hx kind (hsub hkind)

theorem DocStep.withSpecAttr {changing : Set String} {x y value : Val} {key kind : String}
    (hkind : x.IsKind kind) (hmem : kind ∈ changing) (hkey : kind = vmKind → key ≠ "security")
    (h : x.withSpecAttr key value = .ok y) : DocStep changing x y where
  kind := Val.attr?_withSpecAttr h (by decide)
  name := Val.attr?_withSpecAttr h (by decide)
  security hvm := by
    cases hkind.symm.trans hvm
    rw [Val.specAttr?_withSpecAttr h, if_neg (hkey rfl).symm]
  unique hx := hx.withSpecAttr h
  same hx := absurd hkind (hx kind hmem)

/-- A step of the whole store. -/
structure Keeps (changing : Set String) (s s' : Store) : Prop where
  next : s.next ≤ s'.next
  doc : ∀ id < s.next, DocStep changing (s.doc id) (s'.doc id)

namespace Keeps

variable {changing changing' : Set String} {s s' s₁ s₂ s₃ : Store}

theorem refl (changing : Set String) (s : Store) : Keeps changing s s :=
  ⟨le_rfl, fun _ _ => .refl _ _⟩

theorem trans (h : Keeps changing s₁ s₂) (h' : Keeps changing s₂ s₃) : Keeps changing s₁ s₃ :=
  ⟨h.next.trans h'.next, fun id hid => (h.doc id hid).trans (h'.doc id (hid.trans_le h.next))⟩

theorem mono (h : Keeps changing s s') (hsub : changing ⊆ changing') : Keeps changing' s s' :=
  ⟨h.next, fun id hid => (h.doc id hid).mono hsub⟩

theorem alloc (changing : Set String) (s : Store) (v : Val) : Keeps changing s (s.alloc v) :=
  ⟨Nat.le_succ _, fun id hid => by
    rw [s.alloc_doc_of_lt hid]
    exact .refl _ _⟩

theorem write {id : DocId} {v : Val} (h : DocStep changing (s.doc id) v) :
    Keeps changing s (s.write id v) := by
  refine ⟨le_rfl, fun other _ => ?_⟩
  by_cases heq : other = id
  · subst heq
    rwa [s.write_doc_self]
  · rw [s.write_doc_ne heq]
    exact .refl _ _

theorem isKind (h : Keeps changing s s') {id : DocId} (hid : id < s.next) (kind : String) :
    (s'.doc id).IsKind kind ↔ (s.doc id).IsKind kind := (h.doc id hid).isKind

/-- A document of a kind that does not change is the same. -/
theorem same (h : Keeps changing s s') {id : DocId} (hid : id < s.next) {kind : String}
    (hkind : (s.doc id).IsKind kind) (hout : kind ∉ changing) : s'.doc id = s.doc id := by
  refine (h.doc id hid).same fun other hother hisOther => hout ?_
  cases hkind.symm.trans hisOther
  exact hother

end Keeps

/-! ## The operations -/

section

variable {provider : CloudProvider} {env : BuilderEnv}

theorem setSpecAttr_keeps {changing : Set String} {id : DocId} {key kind : String} {value : Val}
    {s s' : Store} {u : Unit} (hkind : (s.doc id).IsKind kind) (hmem : kind ∈ changing)
    (hkey : kind = vmKind → key ≠ "security")
    (h : setSpecAttr id key value s = .ok (u, s')) : Keeps changing s s' := by
  obtain ⟨doc, hdoc, rfl⟩ := setSpecAttr_eq_ok.mp h
  exact .write (.withSpecAttr hkind hmem hkey hdoc)

/-- The first document of a kind, which the user replaces the default with. -/
def ownDoc (docs : List DocId) (kind : String) (s : Store) : Option DocId :=
  docs.find? fun id => Holds? (kindIs kind (s.doc id))

theorem holds?_kindIs {kind : String} {x : Val} :
    Holds? (kindIs kind x) = true ↔ x.IsKind kind := by
  rw [holds?_eq_true, kindIs_eq_ok_true, Val.IsKind]

theorem holds?_kindIs_congr {x y : Val} (h : y.attr? "kind" = x.attr? "kind") (kind : String) :
    Holds? (kindIs kind y) = Holds? (kindIs kind x) := by
  rw [Bool.eq_iff_iff, holds?_kindIs, holds?_kindIs, Val.IsKind, Val.IsKind, h]

theorem Keeps.ownDoc_eq {changing : Set String} {s s' : Store} {docs : List DocId}
    (h : Keeps changing s s') (hdocs : ∀ id ∈ docs, id < s.next) (kind : String) :
    ownDoc docs kind s' = ownDoc docs kind s := by
  unfold ownDoc
  have hcongr : ∀ id ∈ docs, Holds? (kindIs kind (s'.doc id)) = Holds? (kindIs kind (s.doc id)) :=
    fun id hid => holds?_kindIs_congr (h.doc id (hdocs id hid)).kind kind
  induction docs with
  | nil => rfl
  | cons id rest ih =>
      rw [List.find?_cons, List.find?_cons, hcongr id (by simp),
        ih (fun i hi => hdocs i (by simp [hi])) fun i hi => hcongr i (by simp [hi])]

/-- `get_config_or_default` changes no document and returns one of the kind: the
user's own, or a new one when the user has none. -/
theorem getConfigOrDefault_keeps {docs : List DocId} {kind : String} {s s' : Store} {id : DocId}
    (hdocs : ∀ id ∈ docs, id < s.next) (hfiles : kind ≠ "configuration/minimal-cluster-config")
    (h : getConfigOrDefault provider env docs kind s = .ok (id, s')) :
    Keeps ∅ s s' ∧ id < s'.next ∧ (s'.doc id).IsKind kind ∧
      match ownDoc docs kind s with
      | some own => id = own
      | none => s.next ≤ id := by
  rw [getConfigOrDefault, BuildM.bind_eq_ok] at h
  obtain ⟨config, s₁, hread, h⟩ := h
  obtain ⟨hconfig, rfl⟩ := reads_eq_ok.mp hread
  have hown : ownDoc docs kind s = config := (selectFirst_eq_ok hconfig).symm
  rw [hown]
  cases config with
  | some found =>
      obtain ⟨rfl, rfl⟩ := BuildM.pure_eq_ok.mp h
      have hmem : found ∈ docs := List.mem_of_find?_eq_some hown
      have hholds := List.find?_some hown
      exact ⟨.refl _ _, hdocs found hmem, holds?_kindIs.mp hholds, rfl⟩
  | none =>
      simp only [BuildM.bind_eq_ok, lift_eq_ok, newDoc_eq_ok] at h
      obtain ⟨loaded, _, ⟨hloaded, rfl⟩, config, _, ⟨hset, rfl⟩, rfl, rfl⟩ := h
      refine ⟨.alloc _ _ _, Nat.lt_succ_self _, ?_, le_rfl⟩
      rw [s.alloc_doc_self, Val.IsKind, Val.attr?_setItem hset, if_neg (by decide)]
      rcases SchemaDir.kind_of_loadSchemaObj (Or.inr hfiles) hloaded with rfl | hkind
      · simp [Val.setItem] at hset
      · exact hkind

/-! ## Documents with assigned fields -/

theorem setSpecAttrs_eq_ok {id : DocId} {kind : String} {fields : List (String × Val)}
    {s s' : Store} {u : Unit} (hkind : (s.doc id).IsKind kind)
    (hsecurity : kind = vmKind → "security" ∉ dictKeys fields)
    (hfields : (dictKeys fields).Nodup) (h : setSpecAttrs id fields s = .ok (u, s')) :
    Keeps {kind} s s' ∧ s.Frame {id} s' ∧
      ∀ key, (s'.doc id).specAttr? key = (fields.lookup key).or ((s.doc id).specAttr? key) := by
  induction fields generalizing s with
  | nil =>
      obtain ⟨-, rfl⟩ := BuildM.pure_eq_ok.mp h
      exact ⟨.refl _ _, .refl _ _, fun key => rfl⟩
  | cons field rest ih =>
      obtain ⟨key, value⟩ := field
      rw [setSpecAttrs, BuildM.bind_eq_ok] at h
      obtain ⟨_, s₁, hset, h⟩ := h
      obtain ⟨doc, hdoc, rfl⟩ := setSpecAttr_eq_ok.mp hset
      rw [dictKeys_cons, List.nodup_cons] at hfields
      have hstep : DocStep {kind} (s.doc id) doc := .withSpecAttr hkind (Set.mem_singleton _)
        (fun hvm heq => hsecurity hvm (by simp [show key = "security" from heq])) hdoc
      have hkind₁ : ((s.write id doc).doc id).IsKind kind := by
        rw [s.write_doc_self, Val.IsKind, hstep.kind]
        exact hkind
      obtain ⟨hkeep, hframe, hread⟩ := ih hkind₁
        (fun hvm hmem => hsecurity hvm (by simp [hmem])) hfields.2 h
      refine ⟨(Keeps.write hstep).trans hkeep,
        (s.frame_write (Set.mem_singleton _) doc).trans hframe, fun other => ?_⟩
      rw [hread, s.write_doc_self, Val.specAttr?_withSpecAttr hdoc, List.lookup_cons]
      by_cases heq : other = key
      · subst heq
        rw [lookup_eq_none_iff_not_mem_dictKeys.mpr hfields.1]
        simp
      · have hne : (other == key) = false := by simpa using heq
        simp [heq, hne]

/-- What every getter that assigns fields returns: a document of the kind that
shows them, and no other document has changed. -/
theorem configWith_eq_ok {docs : List DocId} {kind : String} {fields : List (String × Val)}
    {s s' : Store} {id : DocId} (hdocs : ∀ id ∈ docs, id < s.next) (hkind : ConfigKind kind)
    (hfields : (dictKeys fields).Nodup)
    (h : configWith provider env docs kind fields s = .ok (id, s')) :
    Keeps {kind} s s' ∧ s.Frame {id} s' ∧ id < s'.next ∧ (s'.doc id).IsKind kind ∧
      (match ownDoc docs kind s with
        | some own => id = own
        | none => s.next ≤ id) ∧
      ∀ key value, fields.lookup key = some value → (s'.doc id).specAttr? key = some value := by
  rw [configWith, BuildM.bind_eq_ok] at h
  obtain ⟨config, s₁, hconfig, h⟩ := h
  obtain ⟨hkeep, hlt, hisKind, hown⟩ := getConfigOrDefault_keeps hdocs hkind.2 hconfig
  rw [BuildM.bind_eq_ok] at h
  obtain ⟨_, s₂, hset, h⟩ := h
  obtain ⟨rfl, rfl⟩ := BuildM.pure_eq_ok.mp h
  obtain ⟨hkeep', hframe, hread⟩ :=
    setSpecAttrs_eq_ok hisKind (fun hvm => absurd hvm hkind.1) hfields hset
  have hframe₀ : s.Frame {config} s₁ :=
    ⟨hkeep.next, fun other hother _ =>
      (hkeep.doc other hother).same fun _ hmem => absurd hmem (Set.notMem_empty _)⟩
  refine ⟨(hkeep.mono (Set.empty_subset _)).trans hkeep', hframe₀.trans hframe,
    hlt.trans_le hkeep'.next, (hkeep'.isKind hlt kind).mpr hisKind, hown,
    fun key value hvalue => ?_⟩
  rw [hread, hvalue]
  rfl

/-- A field of the document a getter starts from: the user's own, or the default. -/
def loadedPart (provider : CloudProvider) (env : BuilderEnv) (docs : List DocId) (kind key : String)
    (s : Store) : Option Val :=
  match ownDoc docs kind s with
  | some own => (s.doc own).specAttr? key
  | none => (env.schema.loadSchemaObj provider.schemaName kind).toOption.bind (·.specAttr? key)

/-- What a getter leaves as it was. -/
theorem configWith_loaded {docs : List DocId} {kind : String} {fields : List (String × Val)}
    {s s' : Store} {id : DocId} (hdocs : ∀ id ∈ docs, id < s.next) (hkind : ConfigKind kind)
    (hfields : (dictKeys fields).Nodup)
    (h : configWith provider env docs kind fields s = .ok (id, s')) :
    (ownDoc docs kind s = none →
      ∃ default, env.schema.loadSchemaObj provider.schemaName kind = .ok default) ∧
    ∀ key, (s'.doc id).specAttr? key =
      (fields.lookup key).or (loadedPart provider env docs kind key s) := by
  rw [configWith, BuildM.bind_eq_ok] at h
  obtain ⟨config, s₁, hconfig, h⟩ := h
  obtain ⟨-, -, hisKind, -⟩ := getConfigOrDefault_keeps hdocs hkind.2 hconfig
  rw [BuildM.bind_eq_ok] at h
  obtain ⟨_, s₂, hset, h⟩ := h
  obtain ⟨rfl, rfl⟩ := BuildM.pure_eq_ok.mp h
  obtain ⟨-, -, hread⟩ := setSpecAttrs_eq_ok hisKind (fun hvm => absurd hvm hkind.1) hfields hset
  rw [getConfigOrDefault, BuildM.bind_eq_ok] at hconfig
  obtain ⟨found, _, hread', hconfig⟩ := hconfig
  obtain ⟨hfound, rfl⟩ := reads_eq_ok.mp hread'
  have hown : ownDoc docs kind s = found := (selectFirst_eq_ok hfound).symm
  unfold loadedPart
  rw [hown]
  cases found with
  | some own =>
      obtain ⟨rfl, rfl⟩ := BuildM.pure_eq_ok.mp hconfig
      refine ⟨fun heq => ?_, hread⟩
      cases heq
  | none =>
      simp only [BuildM.bind_eq_ok, lift_eq_ok, newDoc_eq_ok] at hconfig
      obtain ⟨default, _, ⟨hdefault, rfl⟩, doc, _, ⟨hdoc, rfl⟩, rfl, rfl⟩ := hconfig
      refine ⟨fun _ => ⟨default, hdefault⟩, fun key => ?_⟩
      rw [hread, s.alloc_doc_self, Val.specAttr?_setItem hdoc (by decide), hdefault]
      rfl

/-- A kind the user has no document of: the fields, and otherwise the default. -/
theorem configWith_default {docs : List DocId} {kind : String} {fields : List (String × Val)}
    {s s' : Store} {id : DocId} (hdocs : ∀ id ∈ docs, id < s.next) (hkind : ConfigKind kind)
    (hfields : (dictKeys fields).Nodup) (hown : ownDoc docs kind s = none)
    (h : configWith provider env docs kind fields s = .ok (id, s')) :
    ∃ default, env.schema.loadSchemaObj provider.schemaName kind = .ok default ∧
      ∀ key, (s'.doc id).specAttr? key = (fields.lookup key).or (default.specAttr? key) := by
  obtain ⟨hdefault, hread⟩ := configWith_loaded hdocs hkind hfields h
  obtain ⟨default, hload⟩ := hdefault hown
  refine ⟨default, hload, fun key => ?_⟩
  rw [hread, loadedPart, hown, hload]
  rfl

/-- What a getter starts from stays while documents of other kinds change. -/
theorem loadedPart_keeps {docs : List DocId} {kind : String} {changing : Set String} {s s' : Store}
    (hdocs : ∀ id ∈ docs, id < s.next) (h : Keeps changing s s') (hout : kind ∉ changing)
    (key : String) : loadedPart provider env docs kind key s' =
      loadedPart provider env docs kind key s := by
  unfold loadedPart
  rw [h.ownDoc_eq hdocs]
  cases hown : ownDoc docs kind s with
  | none => rfl
  | some own =>
      have hholds := List.find?_some hown
      have hisKind : (s.doc own).IsKind kind := holds?_kindIs.mp hholds
      exact congrArg (Val.specAttr? · key)
        (h.same (hdocs own (List.mem_of_find?_eq_some hown)) hisKind hout)

/-! ## The selected machine definition -/

/-- Merging two documents, key by key. -/
theorem mergeDocs_outcome {toMerge : Option Val} {u r : Val} (hu : u.KeysUnique)
    (h : mergeDocs toMerge (some u) = .ok r) (key : String) :
    Outcome ((toMerge.getD .null).attr? key) (u.attr? key) (r.attr? key) := by
  simp only [mergeDocs, Option.getD_some, Lib.bind_eq_ok, Except.ok.injEq] at h
  obtain ⟨fs, hfs, es, hes, gs, hrun, rfl⟩ := h
  cases u with
  | scalar | list => cases hfs
  | dict fs' =>
      cases hfs
      cases hto : toMerge.getD .null with
      | scalar | list =>
          rw [hto] at hes
          cases hes
      | dict es' =>
          rw [hto] at hes
          cases hes
          exact mergeObjdict_outcome hrun (hu.top fs rfl) key

theorem mergeDocs_eq_ok {d u r : Val} (hu : u.KeysUnique)
    (h : mergeDocs (some d) (some u) = .ok r) (key : String) :
    r.specAttr? key = mergedAttr key (d.specAttr? key) (u.specAttr? key) := by
  have hout := mergeDocs_outcome hu h "specification"
  have hspec := hu.spec
  rw [Option.getD_some] at hout
  unfold Val.specAttr?
  generalize d.attr? "specification" = x at hout ⊢
  generalize u.attr? "specification" = y at hout hspec ⊢
  generalize r.attr? "specification" = z at hout ⊢
  cases hout with
  | default => cases x <;> rfl
  | user v =>
      change v.attr? key = mergedAttr key none (v.attr? key)
      cases v.attr? key <;> rfl
  | @merged k x v r hval =>
      cases v with
      | scalar t =>
          obtain ⟨rfl, old, rfl⟩ := mergeValue_scalar_eq_ok hval
          rfl
      | list ys =>
          obtain ⟨xs, zs, rfl, rfl, -⟩ := mergeValue_list_eq_ok hval
          rfl
      | dict vs =>
          obtain ⟨xs, zs, rfl, rfl, hloop⟩ := mergeValue_dict_eq_ok hval
          exact mergeObjdict_lookup hloop (hspec vs rfl) key

/-- What a document of a kind is merged into is of the kind afterwards. -/
theorem isKind_of_mergeDocs {toMerge : Option Val} {u r : Val} {kind : String}
    (hu : u.KeysUnique) (h : mergeDocs toMerge (some u) = .ok r) (hkind : u.IsKind kind) :
    r.IsKind kind := by
  obtain ⟨own, hown, htext⟩ := Val.isKind_iff.mp hkind
  obtain ⟨type, rfl⟩ := Val.str?_eq_some.mp htext
  have hout := mergeDocs_outcome hu h "kind"
  rw [hown] at hout
  exact Val.isKind_iff.mpr ⟨_, hout.of_scalar, htext⟩

theorem isKind_of_find_kindAndName {docs : List Val} {kind : String} {name x : Val}
    (h : docs.find? (Holds? ∘ kindAndNameAre kind name) = some x) : x.IsKind kind := by
  have hholds := List.find?_some h
  exact (kindAndNameAre_eq_ok_true.mp (holds?_eq_true.mp hholds)).1

theorem isKind_of_find_nameAndKind {docs : List Val} {kind : String} {name x : Val}
    (h : docs.find? (Holds? ∘ nameAndKindAre kind name) = some x) : x.IsKind kind := by
  have hholds := List.find?_some h
  exact (nameAndKindAre_eq_ok_true.mp (holds?_eq_true.mp hholds)).1

/-- A part of the specification of the first document a query holds on. -/
def partOf (key : String) (docs : List Val) (query : Val → Res Bool) : Option Val :=
  (docs.find? (Holds? ∘ query)).bind (·.specAttr? key)

/-- A part of what `merge_with_defaults` returns. -/
def mergedPart (key : String) (files docs : List Val) (machineSelector : Val) : Option Val :=
  if machineSelector.pyEq (.str "default") then partOf key files (attrIs "name" machineSelector)
  else
    mergedAttr key
      (mergedAttr key (partOf key files (attrIs "name" (.str "default")))
        (partOf key docs (nameAndKindAre vmKind (.str "default"))))
      (partOf key files (attrIs "name" machineSelector))

/-- A part of the specification a component's machine definition has, read off the
documents without running a merge of the whole. -/
def machinePart (key : String) (env : BuilderEnv) (clusterModel : Val) (docs : List Val)
    (machineSelector : Val) : Option Val :=
  match docs.find? (Holds? ∘ kindAndNameAre vmKind machineSelector) with
  | some model => model.specAttr? key
  | none =>
      let files := ((clusterModel.getAttr "provider").bind fun provider =>
        provider.asStr.bind fun provider =>
          env.schema.loadAllSchemaObjs provider vmKind).toOption.getD []
      mergedPart key files docs machineSelector

/-- A step that changes no kind, no name and not this part of the machine
definitions changes neither which one a component selects nor the part it has. -/
theorem machinePart_congr {R : Val → Val → Prop} {key : String} {xs ys : List Val}
    (hkind : ∀ x y, R x y → y.attr? "kind" = x.attr? "kind")
    (hname : ∀ x y, R x y → y.attr? "name" = x.attr? "name")
    (hpart : ∀ x y, R x y → x.IsKind vmKind → y.specAttr? key = x.specAttr? key)
    (h : List.Forall₂ R xs ys) (clusterModel machineSelector : Val) :
    machinePart key env clusterModel ys machineSelector =
      machinePart key env clusterModel xs machineSelector := by
  have hattr : ∀ {key : String} {value x y : Val}, y.attr? key = x.attr? key →
      attrIs key value y = attrIs key value x := by
    intro key value x y h
    simp only [attrIs, Val.getAttr, h]
  have hselect : ∀ x ∈ xs, ∀ y ∈ ys, R x y →
      (Holds? ∘ kindAndNameAre vmKind machineSelector) x =
        (Holds? ∘ kindAndNameAre vmKind machineSelector) y := fun x _ y _ hxy => by
    simp only [Function.comp_apply, kindAndNameAre, kindIs, hattr (hkind x y hxy),
      hattr (hname x y hxy)]
  have hdefault : ∀ x ∈ xs, ∀ y ∈ ys, R x y →
      (Holds? ∘ nameAndKindAre vmKind (.str "default")) x =
        (Holds? ∘ nameAndKindAre vmKind (.str "default")) y := fun x _ y _ hxy => by
    simp only [Function.comp_apply, nameAndKindAre, kindIs, hattr (hkind x y hxy),
      hattr (hname x y hxy)]
  unfold machinePart
  rcases find?_forall₂ h hselect with ⟨hx, hy⟩ | ⟨x, y, hx, hy, hxy⟩
  · have hpartOf : partOf key ys (nameAndKindAre vmKind (.str "default")) =
        partOf key xs (nameAndKindAre vmKind (.str "default")) := by
      unfold partOf
      rcases find?_forall₂ h hdefault with ⟨hx, hy⟩ | ⟨x, y, hx, hy, hxy⟩
      · rw [hx, hy]
      · rw [hx, hy]
        exact hpart x y hxy (isKind_of_find_nameAndKind hx)
    rw [hx, hy]
    simp only [mergedPart, hpartOf]
  · simp only [hx, hy, hpart x y hxy (isKind_of_find_kindAndName hx)]

/-- The `security` part a component's machine definition has. -/
def machineSecurity (env : BuilderEnv) (clusterModel : Val) (docs : List Val)
    (machineSelector : Val) : Option Val :=
  machinePart "security" env clusterModel docs machineSelector

/-- Assigning to specifications does not change which machine definition a
component selects, nor its `security` part. -/
theorem machineSecurity_congr {changing : Set String} {xs ys : List Val}
    (h : List.Forall₂ (DocStep changing) xs ys) (clusterModel machineSelector : Val) :
    machineSecurity env clusterModel ys machineSelector =
      machineSecurity env clusterModel xs machineSelector :=
  machinePart_congr (fun _ _ h => h.kind) (fun _ _ h => h.name) (fun _ _ h => h.security) h
    clusterModel machineSelector

theorem mergeWithDefaults_eq_ok {provider : String} {machineSelector merged : Val}
    {docs : List Val} (hdocs : ∀ doc ∈ docs, doc.KeysUnique)
    (h : mergeWithDefaults env.schema env.version provider vmKind machineSelector docs =
      .ok merged) (hmerged : merged ≠ .null) :
    merged.IsKind vmKind ∧ ∃ files, env.schema.loadAllSchemaObjs provider vmKind = .ok files ∧
      ∀ key, merged.specAttr? key = mergedPart key files docs machineSelector := by
  simp only [mergeWithDefaults, Lib.bind_eq_ok] at h
  obtain ⟨files, hfiles, configSpec, hspec, h⟩ := h
  obtain ⟨directory, hfile, -⟩ := SchemaDir.docsOf_eq_ok hfiles
  have hkinds : ∀ {doc}, doc ∈ files → doc.IsKind vmKind :=
    SchemaDir.kinds_of_docsOf (Or.inr (by decide)) hfiles _
  have hunique : ∀ {doc}, doc ∈ files → doc.KeysUnique := fun hmem =>
    (env.schema.wellFormed hfile _ hmem).keysUnique
  have hspec := selectFirst_eq_ok hspec
  split at h
  · next hdefault =>
      cases h
      cases configSpec with
      | none => exact absurd rfl hmerged
      | some spec =>
          refine ⟨hkinds (List.mem_of_find?_eq_some hspec.symm), files, hfiles, fun key => ?_⟩
          rw [mergedPart, if_pos hdefault, partOf, ← hspec]
          rfl
  · next hdefault =>
      simp only [Lib.bind_eq_ok] at h
      obtain ⟨defaultConfig, hconfig, defaultDoc, hdoc, start, hstart, doc, hmerge, hset⟩ := h
      have hconfig := selectFirst_eq_ok hconfig
      have hdoc := selectFirst_eq_ok hdoc
      cases configSpec with
      | none => simp [mergeDocs, Val.asDict] at hmerge
      | some spec =>
          have hspecmem := List.mem_of_find?_eq_some hspec.symm
          have hkind := isKind_of_mergeDocs (hunique hspecmem) hmerge (hkinds hspecmem)
          have hpart := mergeDocs_eq_ok (hunique hspecmem) hmerge
          obtain ⟨default, rfl, hstartpart⟩ : ∃ default, defaultDoc = some default ∧
              ∀ key, start.specAttr? key = mergedAttr key (default.specAttr? key)
                (defaultConfig.bind (·.specAttr? key)) := by
            cases defaultDoc with
            | none =>
                cases defaultConfig with
                | none =>
                    cases hstart
                    simp [mergeDocs, Val.asDict, Lib.bind_eq_ok] at hmerge
                | some config =>
                    simp [mergeDefaultConfig, mergeDocs, Val.asDict, Lib.bind_eq_ok] at hstart
            | some default =>
                refine ⟨default, rfl, ?_⟩
                cases defaultConfig with
                | none =>
                    cases hstart
                    intro key
                    cases hs : default.specAttr? key <;> simp [mergedAttr, hs]
                | some config =>
                    have hmem := List.mem_of_find?_eq_some hconfig.symm
                    exact mergeDocs_eq_ok (hdocs config hmem) hstart
          refine ⟨?_, files, hfiles, fun key => ?_⟩
          · rw [Val.IsKind, Val.attr?_setItem hset, if_neg (by decide)]
            exact hkind
          · rw [Val.specAttr?_setItem hset (by decide), hpart, hstartpart, mergedPart,
              if_neg hdefault, partOf, partOf, partOf, ← hspec, ← hdoc, ← hconfig]
            rfl

/-- The selected machine definition is one, and its specification has the parts
the documents give it. -/
theorem machineTree_eq_ok {clusterModel machineSelector tree : Val} {docs : List Val}
    (hdocs : ∀ doc ∈ docs, doc.KeysUnique) (htree : tree ≠ .null)
    (h : machineTree env clusterModel docs machineSelector = .ok tree) :
    tree.IsKind vmKind ∧
      ∀ key, tree.specAttr? key = machinePart key env clusterModel docs machineSelector := by
  simp only [machineTree, Lib.bind_eq_ok] at h
  obtain ⟨model, hmodel, h⟩ := h
  have hmodel := selectFirst_eq_ok hmodel
  simp only [machinePart, ← hmodel]
  cases model with
  | some model =>
      cases h
      exact ⟨isKind_of_find_kindAndName hmodel.symm, fun _ => rfl⟩
  | none =>
      simp only [Lib.bind_eq_ok] at h
      obtain ⟨p, hp, name, hname, h⟩ := h
      obtain ⟨hkind, files, hfiles, hpart⟩ := mergeWithDefaults_eq_ok hdocs h htree
      exact ⟨hkind, fun key => by
        simp [hpart, hp, hname, hfiles, Except.bind, Except.toOption]⟩

/-- A machine definition, or the `None` a missing one is. -/
def MachineOrNull (x : Val) : Prop := x = .null ∨ x.IsKind vmKind

theorem imageField_ne_security (provider : CloudProvider) : provider.imageField ≠ "security" := by
  cases provider <;> decide

/-- Assigning to a machine definition. -/
theorem setSpecAttr_machine {id : DocId} {key : String} {value : Val} {s s' : Store} {u : Unit}
    (hmachine : MachineOrNull (s.doc id)) (hkey : key ≠ "security")
    (h : setSpecAttr id key value s = .ok (u, s')) :
    Keeps {vmKind} s s' ∧ (s'.doc id).IsKind vmKind ∧
      (s'.doc id).specAttr? "security" = (s.doc id).specAttr? "security" := by
  obtain ⟨doc, hdoc, rfl⟩ := setSpecAttr_eq_ok.mp h
  rcases hmachine with hnull | hkind
  · simp [hnull, Val.withSpecAttr, Val.getAttr, Val.attr?] at hdoc
  · have hstep := DocStep.withSpecAttr hkind (Set.mem_singleton _) (fun _ => hkey) hdoc
    refine ⟨.write hstep, ?_, ?_⟩
    · rw [s.write_doc_self, Val.IsKind, hstep.kind]
      exact hkind
    · rw [s.write_doc_self]
      exact hstep.security hkind

theorem selectMachine_keeps {b : BuilderDocs} {machineSelector : Val} {s s' : Store}
    {model : DocId} (hdocs : ∀ id ∈ b.docs, id < s.next)
    (hunique : ∀ id ∈ b.docs, (s.doc id).KeysUnique)
    (h : selectMachine env b machineSelector s = .ok (model, s')) :
    Keeps ∅ s s' ∧ model < s'.next ∧ (s'.doc model = .null ∨ (s'.doc model).IsKind vmKind ∧
      (s'.doc model).specAttr? "security" =
        machineSecurity env b.clusterModel (b.docs.map s.doc) machineSelector) := by
  obtain ⟨htree, hstore⟩ := selectMachine_eq_ok h
  have hmachine : s'.doc model = .null ∨ (s'.doc model).IsKind vmKind ∧
      (s'.doc model).specAttr? "security" =
        machineSecurity env b.clusterModel (b.docs.map s.doc) machineSelector := by
    by_cases hnull : s'.doc model = .null
    · exact Or.inl hnull
    · exact Or.inr ((machineTree_eq_ok (by simpa using hunique) hnull htree).imp_right
        fun hpart => hpart "security")
  rcases hstore with ⟨hmem, rfl⟩ | ⟨rfl, hs⟩
  · exact ⟨.refl _ _, hdocs _ hmem, hmachine⟩
  · refine ⟨hs ▸ .alloc _ _ _, ?_, hmachine⟩
    rw [hs]
    exact Nat.lt_succ_self _

theorem applyClusterImage_keeps {b : BuilderDocs} {model : DocId} {s s' : Store} {u : Unit}
    (hdocs : ∀ id ∈ b.docs, id < s.next) (hmodel : model < s.next)
    (hmachine : MachineOrNull (s.doc model))
    (h : applyClusterImage provider env b model s = .ok (u, s')) :
    Keeps {vmKind} s s' ∧ MachineOrNull (s'.doc model) ∧
      (s'.doc model).specAttr? "security" = (s.doc model).specAttr? "security" := by
  rw [applyClusterImage, BuildM.bind_eq_ok] at h
  obtain ⟨defaults, s₁, hdefaults, h⟩ := h
  obtain ⟨hkeep, -, -, -⟩ := getConfigOrDefault_keeps hdocs (by decide) hdefaults
  have hsame : s₁.doc model = s.doc model :=
    (hkeep.doc model hmodel).same fun _ hmem => absurd hmem (Set.notMem_empty _)
  have hkeep := hkeep.mono (Set.empty_subset {vmKind})
  rw [BuildM.bind_eq_ok] at h
  obtain ⟨cloudImage, _, hlift, h⟩ := h
  obtain ⟨-, rfl⟩ := lift_eq_ok.mp hlift
  split at h
  · obtain ⟨-, rfl⟩ := BuildM.pure_eq_ok.mp h
    exact ⟨hkeep, hsame ▸ hmachine, by rw [hsame]⟩
  · simp only [BuildM.bind_eq_ok, lift_eq_ok] at h
    obtain ⟨name, _, ⟨-, rfl⟩, images, _, hspec, h⟩ := h
    obtain ⟨-, rfl⟩ := reads_eq_ok.mp hspec
    cases himage : images.attr? name with
    | none => simp [himage, BuildM.bind_eq_ok, lift_eq_ok] at h
    | some image =>
        rw [himage] at h
        obtain ⟨hset, hkind, hsecurity⟩ := setSpecAttr_machine (hsame ▸ hmachine)
          (imageField_ne_security provider) h
        exact ⟨hkeep.trans hset, Or.inr hkind, by rw [hsecurity, hsame]⟩

/-- `get_virtual_machine` changes the document it returns and no other, which is the
user's or a new one. -/
theorem getVirtualMachine_frame {b : BuilderDocs} {componentValue : Val} {s s' : Store}
    {model : DocId} (hdocs : ∀ id ∈ b.docs, id < s.next)
    (h : getVirtualMachine provider env b componentValue s = .ok (model, s')) :
    s.Frame {model} s' ∧ (model ∈ b.docs ∨ s.next ≤ model) := by
  obtain ⟨_, s₁, -, hframe, -, hmodel, -, hmanifest⟩ := getVirtualMachine_eq_ok hdocs h
  refine ⟨?_, hmodel⟩
  split at hmanifest
  · rwa [hmanifest]
  · obtain ⟨current, preserved, -, -, hset⟩ := hmanifest
    cases preserved with
    | none => rwa [hset]
    | some image =>
        obtain ⟨doc, -, rfl⟩ := hset
        exact hframe.trans (s₁.frame_write (Set.mem_singleton _) doc)

/-- `get_virtual_machine` changes machine definitions only, and none of their
`security` parts. -/
theorem getVirtualMachine_keeps {b : BuilderDocs} {componentValue : Val} {s s' : Store}
    {model : DocId} (hdocs : ∀ id ∈ b.docs, id < s.next)
    (hunique : ∀ id ∈ b.docs, (s.doc id).KeysUnique)
    (h : getVirtualMachine provider env b componentValue s = .ok (model, s')) :
    Keeps {vmKind} s s' ∧ model < s'.next ∧ MachineOrNull (s'.doc model) ∧
      ∃ machineSelector, componentValue.getAttr "machine" = .ok machineSelector ∧
        ((s'.doc model).IsKind vmKind → (s'.doc model).specAttr? "security" =
          machineSecurity env b.clusterModel (b.docs.map s.doc) machineSelector) := by
  rw [getVirtualMachine, BuildM.bind_eq_ok] at h
  obtain ⟨machineSelector, _, hlift, h⟩ := h
  obtain ⟨hselector, rfl⟩ := lift_eq_ok.mp hlift
  rw [BuildM.bind_eq_ok] at h
  obtain ⟨found, s₀, hselect, h⟩ := h
  obtain ⟨hkeep₀, hlt, hfound⟩ := selectMachine_keeps hdocs hunique hselect
  rw [BuildM.bind_eq_ok] at h
  obtain ⟨_, s₁, hcluster, h⟩ := h
  have hmachine₀ : MachineOrNull (s₀.doc found) := hfound.imp_right And.left
  obtain ⟨hkeep₁, hmachine₁, hsecurity₁⟩ := applyClusterImage_keeps
    (fun id hid => (hdocs id hid).trans_le hkeep₀.next) hlt hmachine₀ hcluster
  have hkeep := (hkeep₀.mono (Set.empty_subset {vmKind})).trans hkeep₁
  have hlt₁ := hlt.trans_le hkeep₁.next
  have hsecurity : (s₁.doc found).IsKind vmKind → (s₁.doc found).specAttr? "security" =
      machineSecurity env b.clusterModel (b.docs.map s.doc) machineSelector := by
    intro hkind
    rw [hkeep₁.isKind hlt] at hkind
    rcases hfound with hnull | ⟨-, hfound⟩
    · simp [hnull, Val.IsKind, Val.attr?] at hkind
    · rw [hsecurity₁, hfound]
  split at h
  · obtain ⟨rfl, rfl⟩ := BuildM.pure_eq_ok.mp h
    exact ⟨hkeep, hlt₁, hmachine₁, machineSelector, hselector, hsecurity⟩
  · rw [BuildM.bind_eq_ok] at h
    obtain ⟨current, _, hread, h⟩ := h
    obtain ⟨-, rfl⟩ := specAttr_eq_ok.mp hread
    rw [BuildM.bind_eq_ok] at h
    obtain ⟨preserved, _, hlift, h⟩ := h
    obtain ⟨-, rfl⟩ := lift_eq_ok.mp hlift
    rw [BuildM.bind_eq_ok] at h
    obtain ⟨_, s₂, hset, h⟩ := h
    obtain ⟨rfl, rfl⟩ := BuildM.pure_eq_ok.mp h
    cases preserved with
    | none =>
        obtain ⟨-, rfl⟩ := BuildM.pure_eq_ok.mp hset
        exact ⟨hkeep, hlt₁, hmachine₁, machineSelector, hselector, hsecurity⟩
    | some image =>
        obtain ⟨hkeep₂, hkind₂, hsecurity₂⟩ := setSpecAttr_machine hmachine₁
          (imageField_ne_security provider) hset
        refine ⟨hkeep.trans hkeep₂, hlt₁.trans_le hkeep₂.next, Or.inr hkind₂,
          machineSelector, hselector, fun _ => ?_⟩
        rw [hsecurity₂]
        exact hsecurity ((hkeep₂.isKind hlt₁ vmKind).mp hkind₂)

/-- The components of a cluster model. -/
theorem components_wellFormed {clusterModel : Val} {components : Entries}
    (hwf : clusterModel.WellFormed)
    (h : (attrPath clusterModel ["specification", "components"]).bind Val.asDict =
      .ok components) : ∀ component ∈ components, component.2.WellFormed := by
  obtain ⟨value, hvalue, hdict⟩ := Lib.bind_eq_ok.mp h
  have hvaluewf := attrPath_wellFormed hwf hvalue
  rw [Val.asDict_eq_ok.mp hdict] at hvaluewf
  exact (Val.wellFormed_dict_iff.mp hvaluewf).2

end

end LambdaStack
