/-
# The versions of the documents a builder emits

A builder assigns to specifications, so the version of a document stays as it is. A
default document is stamped when it is loaded; the first document of a kind the user
has and the machine definition a component selects are taken as they are, and what is
taken is emitted.
-/

import Mathlib.Data.List.Find
import LambdaStack.Engine.Providers.BuilderFrame
import LambdaStack.Engine.Providers.DocFrame
import LambdaStack.Engine.Schema.MergedVersions

namespace LambdaStack

open Lib BuildM

theorem Val.stamped_setItem {version : String} {x y : Val}
    (h : x.setItem "version" (.str version) = .ok y) : y.Stamped version := by
  rw [Val.Stamped, Val.attrStr?, Val.attr?_setItem h, if_pos rfl]
  rfl

/-- All attributes but the specification stay. -/
def KeepsHead (x y : Val) : Prop := ∀ key, key ≠ "specification" → y.attr? key = x.attr? key

instance : Std.Refl KeepsHead := ⟨fun _ _ _ => rfl⟩

instance : IsTrans Val KeepsHead := ⟨fun _ _ _ h h' key hne => (h' key hne).trans (h key hne)⟩

theorem KeepsHead.symm {x y : Val} (h : KeepsHead x y) : KeepsHead y x :=
  fun key hne => (h key hne).symm

theorem KeepsHead.withSpecAttr {x y value : Val} {key : String}
    (h : x.withSpecAttr key value = .ok y) : KeepsHead x y :=
  fun _ hne => Val.attr?_withSpecAttr h hne

theorem KeepsHead.noOtherVersion {version : String} {x y : Val} (h : KeepsHead x y)
    (hx : x.NoOtherVersion version) : y.NoOtherVersion version := by
  intro v hv
  exact hx v (h "version" (by decide) ▸ hv)

/-- Every document keeps its attributes but the specification. -/
abbrev HeadsKept : Store → Store → Prop := Store.Evolves KeepsHead

theorem preserves_heads_setSpecAttr (id : DocId) (key : String) (value : Val) :
    Preserves HeadsKept (setSpecAttr id key value) :=
  preserves_setSpecAttr id fun _ _ h => .withSpecAttr h

theorem builderFrame_heads (provider : CloudProvider) : BuilderFrame provider HeadsKept :=
  ⟨preserves_newDoc, fun id key value _ _ => preserves_heads_setSpecAttr id key value⟩

/-- The document is there and has no version but the one that runs. -/
def IsCurrent (version : String) (s : Store) (id : DocId) : Prop :=
  id < s.next ∧ (s.doc id).NoOtherVersion version

section

variable {version : String} {env : BuilderEnv} {provider : CloudProvider} {s s' : Store}
  {id : DocId} {docs : List DocId} {kind : String}

theorem IsCurrent.mono (hid : IsCurrent version s id) (h : HeadsKept s s') :
    IsCurrent version s' id :=
  ⟨hid.1.trans_le h.next_le, (h.doc id hid.1).noOtherVersion hid.2⟩

theorem allocated_mono (hdocs : ∀ id ∈ docs, id < s.next) (h : HeadsKept s s') :
    ∀ id ∈ docs, id < s'.next :=
  fun id hid => (hdocs id hid).trans_le h.next_le

theorem isCurrent_alloc {v : Val} (hv : v.NoOtherVersion version) :
    IsCurrent version (s.alloc v) s.next := by
  refine ⟨Nat.lt_succ_self _, ?_⟩
  rwa [s.alloc_doc_self]

/-- All of the documents are. -/
def AllCurrent (version : String) (s : Store) (ids : List DocId) : Prop :=
  ∀ id ∈ ids, IsCurrent version s id

theorem AllCurrent.mono {ids : List DocId} (hids : AllCurrent version s ids)
    (h : HeadsKept s s') : AllCurrent version s' ids := fun id hid => (hids id hid).mono h

theorem AllCurrent.append {ids ids' : List DocId} (hids : AllCurrent version s ids)
    (hids' : AllCurrent version s ids') : AllCurrent version s (ids ++ ids') := fun id hid =>
  (List.mem_append.mp hid).elim (hids id) (hids' id)

theorem allCurrent_singleton (hid : IsCurrent version s id) : AllCurrent version s [id] :=
  fun _ hother => List.mem_singleton.mp hother ▸ hid

end

/-! ## What a builder looks up in the input -/

/-- A search in the input documents: the first of a kind, or of a kind and a name. -/
structure DocQuery where
  kind : String
  name : Option Val

namespace DocQuery

/-- The question a document is asked. -/
def holds (q : DocQuery) (x : Val) : Res Bool :=
  match q.name with
  | none => kindIs q.kind x
  | some name => kindAndNameAre q.kind name x

/-- The document that is found. -/
def find (q : DocQuery) (docs : List DocId) (s : Store) : Option DocId :=
  docs.find? (Holds? ∘ q.holds ∘ s.doc)

theorem holds_heads {x y : Val} (h : KeepsHead x y) (q : DocQuery) : q.holds y = q.holds x := by
  have hattr : ∀ key, key ≠ "specification" → ∀ value, attrIs key value y = attrIs key value x := by
    intro key hne value
    simp only [attrIs, Val.getAttr, h key hne]
  unfold holds
  cases q.name with
  | none => exact hattr "kind" (by decide) _
  | some name =>
      simp only [kindAndNameAre, kindIs, hattr "kind" (by decide), hattr "name" (by decide)]

theorem holds_of_find {q : DocQuery} {docs : List DocId} {s : Store} {id : DocId}
    (h : q.find docs s = some id) : Holds? (q.holds (s.doc id)) = true := by
  have hholds := List.find?_some h
  exact hholds

theorem isKind_of_holds {q : DocQuery} {x : Val} (h : Holds? (q.holds x) = true) :
    x.IsKind q.kind := by
  rw [holds?_eq_true] at h
  rcases q with ⟨kind, name⟩
  cases name with
  | none => exact kindIs_eq_ok_true.mp h
  | some name => exact (kindAndNameAre_eq_ok_true.mp h).1

end DocQuery

/-- The searches for one kind each. -/
def kindQueries (kinds : List String) : List DocQuery := kinds.map (⟨·, none⟩)

theorem mem_kindQueries {kind : String} {kinds : List String} (h : kind ∈ kinds) :
    (⟨kind, none⟩ : DocQuery) ∈ kindQueries kinds :=
  List.mem_map_of_mem h

/-- The input documents are there, and what the searches find has no version but the one
that runs. -/
structure Ready (version : String) (docs : List DocId) (queries : List DocQuery) (s : Store) :
    Prop where
  allocated : ∀ id ∈ docs, id < s.next
  found : ∀ q ∈ queries, ∀ id, q.find docs s = some id → (s.doc id).NoOtherVersion version

section

variable {version : String} {env : BuilderEnv} {provider : CloudProvider} {s s' : Store}
  {id : DocId} {docs : List DocId} {kind : String} {queries : List DocQuery}

theorem Ready.isCurrent (h : Ready version docs queries s) {q : DocQuery} (hq : q ∈ queries)
    (hid : q.find docs s = some id) : IsCurrent version s id :=
  ⟨h.allocated id (List.mem_of_find?_eq_some hid), h.found q hq id hid⟩

/-- No step of a builder changes what is found. -/
theorem DocQuery.find_heads (hdocs : ∀ id ∈ docs, id < s.next) (hheads : HeadsKept s s')
    (q : DocQuery) : q.find docs s' = q.find docs s := by
  apply List.find?_congr
  intro id hid
  simp only [Function.comp_apply, q.holds_heads (hheads.doc id (hdocs id hid))]

theorem Ready.mono (h : Ready version docs queries s) (hheads : HeadsKept s s') :
    Ready version docs queries s' := by
  refine ⟨fun id hid => (h.allocated id hid).trans_le hheads.next_le, fun q hq id hfind => ?_⟩
  rw [q.find_heads h.allocated hheads] at hfind
  exact ((h.isCurrent hq hfind).mono hheads).2

/-- The tree of the single document of a kind. -/
theorem selectSingle_tree {query : Val → Res Bool} {x : Val}
    (h : (selectSingle docs (query ∘ s.doc)).map s.doc = .ok x) :
    selectSingle (docs.map s.doc) query = .ok x := by
  cases hsingle : selectSingle docs (query ∘ s.doc) with
  | error e =>
      rw [hsingle] at h
      cases h
  | ok id =>
      rw [hsingle] at h
      cases h
      exact selectSingle_map hsingle

theorem selectFirst_find {query : Val → Res Bool} {found : Option DocId} (q : DocQuery)
    (hq : q.holds = query) (h : selectFirst docs (query ∘ s.doc) = .ok found) :
    found = q.find docs s := by
  rw [DocQuery.find, hq]
  exact selectFirst_eq_ok h

/-- `get_config_or_default` takes the document that is found or stamps a new one. -/
theorem getConfigOrDefault_taken
    (hrun : getConfigOrDefault provider env docs kind s = .ok (id, s')) :
    ((⟨kind, none⟩ : DocQuery).find docs s = some id ∧ s' = s) ∨ IsCurrent env.version s' id := by
  rw [getConfigOrDefault, BuildM.bind_eq_ok] at hrun
  obtain ⟨found, _, hread, hrun⟩ := hrun
  obtain ⟨hfound, rfl⟩ := reads_eq_ok.mp hread
  have hfind := selectFirst_find ⟨kind, none⟩ rfl hfound
  cases found with
  | some own =>
      obtain ⟨rfl, rfl⟩ := BuildM.pure_eq_ok.mp hrun
      exact Or.inl ⟨hfind.symm, rfl⟩
  | none =>
      simp only [BuildM.bind_eq_ok, lift_eq_ok, newDoc_eq_ok] at hrun
      obtain ⟨loaded, _, ⟨-, rfl⟩, config, _, ⟨hset, rfl⟩, rfl, rfl⟩ := hrun
      exact Or.inr (isCurrent_alloc (Val.stamped_setItem hset).noOtherVersion)

theorem getConfigOrDefault_current (h : Ready env.version docs queries s)
    (hq : ⟨kind, none⟩ ∈ queries)
    (hrun : getConfigOrDefault provider env docs kind s = .ok (id, s')) :
    IsCurrent env.version s' id := by
  rcases getConfigOrDefault_taken hrun with ⟨hfind, rfl⟩ | hcurrent
  · exact h.isCurrent hq hfind
  · exact hcurrent

/-- A getter returns the document it was given. -/
theorem GetsThen.current {config getter : BuildM DocId} (hgets : GetsThen HeadsKept config getter)
    (hconfig : ∀ id s', config s = .ok (id, s') → IsCurrent version s' id)
    (hrun : getter s = .ok (id, s')) : IsCurrent version s' id := by
  obtain ⟨f, rfl, hf⟩ := hgets
  obtain ⟨own, s₁, hown, hrest⟩ := BuildM.bind_eq_ok.mp hrun
  obtain rfl := (hf own).eq hrest
  exact (hconfig _ _ hown).mono ((hf _).rel hrest)

theorem preserves_heads_setSpecAttrs (id : DocId) (fields : List (String × Val)) :
    Preserves HeadsKept (setSpecAttrs id fields) := by
  induction fields with
  | nil => exact preserves_pure ()
  | cons field rest ih =>
      apply (preserves_heads_setSpecAttr id field.1 field.2).bind
      intro _
      exact ih

theorem preserves_heads_configWith (provider : CloudProvider) (env : BuilderEnv)
    (docs : List DocId) (kind : String) (fields : List (String × Val)) :
    Preserves HeadsKept (configWith provider env docs kind fields) := by
  apply (preserves_loadConfig preserves_newDoc provider env docs kind).bind
  intro config
  apply (preserves_heads_setSpecAttrs config fields).bind
  intro _
  exact preserves_pure config

theorem configWith_current {fields : List (String × Val)} (h : Ready env.version docs queries s)
    (hq : ⟨kind, none⟩ ∈ queries)
    (hrun : configWith provider env docs kind fields s = .ok (id, s')) :
    IsCurrent env.version s' id ∧ HeadsKept s s' := by
  refine ⟨?_, (preserves_heads_configWith _ _ _ _ _).rel hrun⟩
  have hgets : GetsThen HeadsKept (getConfigOrDefault provider env docs kind)
      (configWith provider env docs kind fields) := by
    refine ⟨_, rfl, fun config => ?_⟩
    apply (preserves_heads_setSpecAttrs config fields).bindReturns
    intro _
    exact returns_pure config
  exact hgets.current (fun _ _ => getConfigOrDefault_current h hq) hrun

/-- A getter takes the user's document, where it changes its own fields only, or a new one. -/
theorem configWith_taken {fields : List (String × Val)} (hdocs : ∀ id ∈ docs, id < s.next)
    (hkind : ConfigKind kind) (hfields : (dictKeys fields).Nodup)
    (hrun : configWith provider env docs kind fields s = .ok (id, s')) :
    ((⟨kind, none⟩ : DocQuery).find docs s = some id ∧
      ∀ key, key ∉ dictKeys fields → (s'.doc id).specAttr? key = (s.doc id).specAttr? key) ∨
    IsCurrent env.version s' id := by
  rw [configWith, BuildM.bind_eq_ok] at hrun
  obtain ⟨config, s₁, hconfig, hrun⟩ := hrun
  obtain ⟨_, s₂, hset, hret⟩ := BuildM.bind_eq_ok.mp hrun
  obtain ⟨rfl, rfl⟩ := BuildM.pure_eq_ok.mp hret
  rcases getConfigOrDefault_taken hconfig with ⟨hfind, rfl⟩ | hcurrent
  · obtain ⟨-, -, hisKind, -⟩ := getConfigOrDefault_keeps hdocs hkind.2 hconfig
    obtain ⟨-, -, hread⟩ := setSpecAttrs_eq_ok hisKind (fun hvm => absurd hvm hkind.1) hfields hset
    refine Or.inl ⟨hfind, fun key hkey => ?_⟩
    rw [hread, lookup_eq_none_iff_not_mem_dictKeys.mpr hkey, Option.none_or]
  · exact Or.inr (hcurrent.mono ((preserves_heads_setSpecAttrs config fields).rel hset))

/-! ## Components and machine definitions -/

/-- The components of the cluster model, none where it has none. -/
def modelComponents (clusterModel : Val) : Entries :=
  ((attrPath clusterModel ["specification", "components"]).bind Val.asDict).toOption.getD []

/-- The search for the machine definition of a component. -/
def machineQuery (componentValue : Val) : List DocQuery :=
  match componentValue.getAttr "machine" with
  | .ok machineSelector => [⟨vmKind, some machineSelector⟩]
  | .error _ => []

/-- No default document has a version but the one that runs. -/
def DefaultsCurrent (schema : SchemaDir) (version : String) : Prop :=
  ∀ provider kind docs, schema.file provider kind = some docs →
    ∀ doc ∈ docs, doc.NoOtherVersion version

theorem noOtherVersion_null (version : String) : Val.NoOtherVersion version .null := by
  intro v hv
  cases hv

/-- What is merged with the defaults is stamped, unless it is a default document itself. -/
theorem mergeWithDefaults_current {schema : SchemaDir} {clusterProvider : String}
    {selector merged : Val} {trees : List Val} (hdefaults : DefaultsCurrent schema version)
    (h : mergeWithDefaults schema version clusterProvider kind selector trees = .ok merged) :
    merged.NoOtherVersion version := by
  simp only [mergeWithDefaults, Lib.bind_eq_ok] at h
  obtain ⟨files, hfiles, configSpec, hspec, h⟩ := h
  obtain ⟨directory, hfile, -⟩ := SchemaDir.docsOf_eq_ok hfiles
  split at h
  · cases h
    cases configSpec with
    | none => exact noOtherVersion_null version
    | some doc =>
        exact hdefaults _ _ _ hfile doc
          (List.mem_of_find?_eq_some (selectFirst_eq_ok hspec).symm)
  · simp only [Lib.bind_eq_ok] at h
    obtain ⟨_, -, _, -, _, -, _, -, hset⟩ := h
    exact (Val.stamped_setItem hset).noOtherVersion

theorem getVirtualMachine_current {b : BuilderDocs} {componentValue : Val}
    (hdefaults : DefaultsCurrent env.schema env.version)
    (h : Ready env.version b.docs queries s)
    (hq : ∀ q ∈ machineQuery componentValue, q ∈ queries)
    (hrun : getVirtualMachine provider env b componentValue s = .ok (id, s')) :
    IsCurrent env.version s' id := by
  obtain ⟨machineSelector, s₁, hselector, hselect, hheads⟩ :=
    getVirtualMachine_selected preserves_newDoc
      (fun id value => preserves_heads_setSpecAttr id provider.imageField value) hrun
  refine IsCurrent.mono ?_ hheads
  rw [selectMachine, BuildM.bind_eq_ok] at hselect
  obtain ⟨found, _, hread, hselect⟩ := hselect
  obtain ⟨hfound, rfl⟩ := reads_eq_ok.mp hread
  have hfind := selectFirst_find ⟨vmKind, some machineSelector⟩ rfl hfound
  cases found with
  | some own =>
      obtain ⟨rfl, rfl⟩ := BuildM.pure_eq_ok.mp hselect
      refine h.isCurrent (hq _ ?_) hfind.symm
      simp [machineQuery, hselector]
  | none =>
      simp only [BuildM.bind_eq_ok, lift_eq_ok, reads_eq_ok, newDoc_eq_ok] at hselect
      obtain ⟨_, _, ⟨-, rfl⟩, _, _, ⟨-, rfl⟩, merged, _, ⟨hmerged, rfl⟩, rfl, rfl⟩ := hselect
      exact isCurrent_alloc (mergeWithDefaults_current hdefaults hmerged)

/-! ## What is taken is emitted -/

/-- The document or a copy of it is among the given ones, its specification aside. -/
def EmitsHead (s : Store) (ids : List DocId) (id : DocId) : Prop :=
  ∃ e ∈ ids, e < s.next ∧ KeepsHead (s.doc id) (s.doc e)

theorem EmitsHead.of_mem {ids : List DocId} (hmem : id ∈ ids) (hlt : id < s.next) :
    EmitsHead s ids id :=
  ⟨id, hmem, hlt, Std.Refl.refl _⟩

theorem EmitsHead.subset {ids ids' : List DocId} (h : EmitsHead s ids id) (hsub : ids ⊆ ids') :
    EmitsHead s ids' id := by
  obtain ⟨e, he, hkept⟩ := h
  exact ⟨e, hsub he, hkept⟩

theorem EmitsHead.mono {ids : List DocId} (h : EmitsHead s ids id) (hid : id < s.next)
    (hheads : HeadsKept s s') : EmitsHead s' ids id := by
  obtain ⟨e, he, hlt, hkept⟩ := h
  refine ⟨e, he, hlt.trans_le hheads.next_le, ?_⟩
  exact Trans.trans (hheads.doc id hid).symm (Trans.trans hkept (hheads.doc e hlt))

/-- Whatever the searches find is emitted. -/
def EmitsFound (docs : List DocId) (queries : List DocQuery) (s : Store) (ids : List DocId) :
    Prop :=
  ∀ q ∈ queries, ∀ id, q.find docs s = some id → EmitsHead s ids id

theorem EmitsFound.subset {ids ids' : List DocId} (h : EmitsFound docs queries s ids)
    (hsub : ids ⊆ ids') : EmitsFound docs queries s ids' :=
  fun q hq id hfind => (h q hq id hfind).subset hsub

theorem EmitsFound.mono {ids : List DocId} (h : EmitsFound docs queries s ids)
    (hdocs : ∀ id ∈ docs, id < s.next) (hheads : HeadsKept s s') :
    EmitsFound docs queries s' ids := by
  intro q hq id hfind
  rw [q.find_heads hdocs hheads] at hfind
  exact (h q hq id hfind).mono (hdocs id (List.mem_of_find?_eq_some hfind)) hheads

theorem emitsFound_append {queries' : List DocQuery} {ids : List DocId} :
    EmitsFound docs (queries ++ queries') s ids ↔
      EmitsFound docs queries s ids ∧ EmitsFound docs queries' s ids := by
  simp only [EmitsFound, List.mem_append, or_imp, forall_and]

/-- A document more, of one search more. -/
theorem EmitsFound.add {q : DocQuery} {ids : List DocId} (h : EmitsFound docs queries s ids)
    (hdocs : ∀ id ∈ docs, id < s.next) (hheads : HeadsKept s s')
    (hnew : EmitsFound docs [q] s' [id]) : EmitsFound docs (queries ++ [q]) s' (ids ++ [id]) :=
  emitsFound_append.mpr ⟨(h.mono hdocs hheads).subset (List.subset_append_left _ _),
    hnew.subset (List.subset_append_right _ _)⟩

theorem emitsFound_cons {q : DocQuery} {ids : List DocId} :
    EmitsFound docs (q :: queries) s ids ↔
      (∀ id, q.find docs s = some id → EmitsHead s ids id) ∧ EmitsFound docs queries s ids := by
  simp only [EmitsFound, List.forall_mem_cons]

theorem emitsFound_nil {ids : List DocId} : EmitsFound docs [] s ids :=
  fun _ hq => absurd hq List.not_mem_nil

/-- `get_config_or_default` takes the document that is found. -/
theorem getConfigOrDefault_found {own : DocId}
    (hfind : (⟨kind, none⟩ : DocQuery).find docs s = some own)
    (hrun : getConfigOrDefault provider env docs kind s = .ok (id, s')) : id = own := by
  rw [getConfigOrDefault, BuildM.bind_eq_ok] at hrun
  obtain ⟨found, _, hread, hrun⟩ := hrun
  obtain ⟨hfound, rfl⟩ := reads_eq_ok.mp hread
  rw [selectFirst_find ⟨kind, none⟩ rfl hfound, hfind] at hrun
  exact (BuildM.pure_eq_ok.mp hrun).1.symm

theorem configWith_found {fields : List (String × Val)} {own : DocId}
    (hfind : (⟨kind, none⟩ : DocQuery).find docs s = some own)
    (hrun : configWith provider env docs kind fields s = .ok (id, s')) : id = own := by
  rw [configWith, BuildM.bind_eq_ok] at hrun
  obtain ⟨config, s₁, hconfig, hrun⟩ := hrun
  obtain ⟨_, s₂, -, hret⟩ := BuildM.bind_eq_ok.mp hrun
  obtain ⟨rfl, rfl⟩ := BuildM.pure_eq_ok.mp hret
  exact getConfigOrDefault_found hfind hconfig

theorem GetsThen.found {config getter : BuildM DocId} {own : DocId}
    (hgets : GetsThen HeadsKept config getter)
    (hconfig : ∀ id s', config s = .ok (id, s') → id = own) (hrun : getter s = .ok (id, s')) :
    id = own := by
  obtain ⟨f, rfl, hf⟩ := hgets
  obtain ⟨config, s₁, hown, hrest⟩ := BuildM.bind_eq_ok.mp hrun
  rw [(hf config).eq hrest]
  exact hconfig config s₁ hown

/-- A getter that takes the document that is found emits it. -/
theorem emitsFound_of_found {q : DocQuery} (hdocs : ∀ id ∈ docs, id < s.next)
    (hheads : HeadsKept s s') (hfound : ∀ own, q.find docs s = some own → id = own) :
    EmitsFound docs [q] s' [id] := by
  rw [emitsFound_cons]
  refine ⟨fun own hfind => ?_, emitsFound_nil⟩
  rw [q.find_heads hdocs hheads] at hfind
  obtain rfl := hfound own hfind
  exact .of_mem (List.mem_singleton_self _)
    ((hdocs _ (List.mem_of_find?_eq_some hfind)).trans_le hheads.next_le)

theorem configWith_emits {fields : List (String × Val)} (hdocs : ∀ id ∈ docs, id < s.next)
    (hrun : configWith provider env docs kind fields s = .ok (id, s')) :
    EmitsFound docs [⟨kind, none⟩] s' [id] :=
  emitsFound_of_found hdocs ((preserves_heads_configWith _ _ _ _ _).rel hrun)
    fun _ hfind => configWith_found hfind hrun

/-- The machine definition a component selects has the head of the one that is found. -/
theorem getVirtualMachine_found {b : BuilderDocs} {componentValue : Val} {q : DocQuery}
    {own : DocId} (hq : q ∈ machineQuery componentValue)
    (hfind : q.find b.docs s = some own)
    (hrun : getVirtualMachine provider env b componentValue s = .ok (id, s')) : id = own := by
  obtain ⟨machineSelector, s₁, hselector, hselect, -⟩ :=
    getVirtualMachine_selected (R := HeadsKept) preserves_newDoc
      (fun id value => preserves_heads_setSpecAttr id provider.imageField value) hrun
  rw [machineQuery, hselector] at hq
  obtain rfl := List.mem_singleton.mp hq
  rw [selectMachine, BuildM.bind_eq_ok] at hselect
  obtain ⟨found, _, hread, hselect⟩ := hselect
  obtain ⟨hfound, rfl⟩ := reads_eq_ok.mp hread
  rw [selectFirst_find ⟨vmKind, some machineSelector⟩ rfl hfound, hfind] at hselect
  exact (BuildM.pure_eq_ok.mp hselect).1.symm

end

end LambdaStack
