/-
# The configuration documents are complete

What one iteration of each loop of `ConfigurationAppender` does to the configuration
documents, read as the names they have: the iterations for the features answer
requests, so the documents of a run are complete and distinct exactly when no
document of the user answers two of them.
-/

import LambdaStack.Engine.Schema.ConfigurationDocs

namespace LambdaStack

open Lib BuildM

namespace ConfigurationAppender

/-! ## Documents get a version -/

/-- The documents differ in the version at most. -/
def SameButVersion (x y : Val) : Prop := ∀ key, key ≠ "version" → y.attr? key = x.attr? key

/-- Documents get a version and there are new ones, nothing else changes. -/
structure Stamps (s s' : Store) : Prop where
  next_le : s.next ≤ s'.next
  same : ∀ id < s.next, SameButVersion (s.doc id) (s'.doc id)
  unique : ∀ id < s.next, (s.doc id).KeysUnique → (s'.doc id).KeysUnique

namespace Stamps

variable {s s₁ s₂ : Store}

theorem refl (s : Store) : Stamps s s :=
  ⟨le_rfl, fun _ _ _ _ => rfl, fun _ _ h => h⟩

theorem trans (h : Stamps s s₁) (h' : Stamps s₁ s₂) : Stamps s s₂ where
  next_le := h.next_le.trans h'.next_le
  same id hid key hkey :=
    (h'.same id (hid.trans_le h.next_le) key hkey).trans (h.same id hid key hkey)
  unique id hid hunique := h'.unique id (hid.trans_le h.next_le) (h.unique id hid hunique)

theorem alloc (s : Store) (v : Val) : Stamps s (s.alloc v) where
  next_le := Nat.le_succ _
  same id hid key _ := by rw [s.alloc_doc_of_lt hid]
  unique id hid h := by rwa [s.alloc_doc_of_lt hid]

theorem setVersion {id : DocId} {version : Val} {u : Unit}
    (h : setDocItem id "version" version s = .ok (u, s₁)) : Stamps s s₁ := by
  obtain ⟨doc, hset, rfl⟩ := setDocItem_eq_ok.mp h
  refine ⟨le_rfl, fun other _ key hkey => ?_, fun other _ hunique => ?_⟩
  · by_cases hother : other = id
    · subst hother
      rw [s.write_doc_self, Val.attr?_setItem hset, if_neg hkey]
    · rw [s.write_doc_ne hother]
  · by_cases hother : other = id
    · subst hother
      rw [s.write_doc_self]
      constructor
      · rintro entries rfl
        obtain ⟨old, hold, hnew⟩ := Val.setItem_eq_ok.mp hset
        cases hnew
        exact nodup_dictKeys_dictSet (hunique.top old hold) _
      · intro entries hentries
        rw [Val.attr?_setItem hset, if_neg (by decide)] at hentries
        exact hunique.spec entries hentries
    · rwa [s.write_doc_ne hother]

end Stamps

theorem DocName.Describes.congr {d : DocName} {x y : Val} (h : SameButVersion x y) :
    d.Describes y ↔ d.Describes x := by
  rw [Describes, Describes, h "kind" (by decide), h "name" (by decide)]

/-- The documents have these kinds and names, one after the other. -/
def Described (s : Store) (docs : List DocId) (names : List DocName) : Prop :=
  List.Forall₂ (fun id d => id < s.next ∧ d.Describes (s.doc id)) docs names

section Described

variable {s s' : Store} {docs : List DocId} {names : List DocName}

theorem Described.stamps (h : Described s docs names) (hstamps : Stamps s s') :
    Described s' docs names := by
  refine h.imp fun id d hid => ?_
  exact ⟨hid.1.trans_le hstamps.next_le,
    (DocName.Describes.congr (hstamps.same id hid.1)).mpr hid.2⟩

theorem exists_described (hids : ∀ id ∈ docs, id < s.next)
    (hwf : ∀ id ∈ docs, (s.doc id).WellFormed) : ∃ names, Described s docs names := by
  induction docs with
  | nil => exact ⟨[], .nil⟩
  | cons id rest ih =>
      rw [List.forall_mem_cons] at hids hwf
      obtain ⟨names, hnames⟩ := ih hids.2 hwf.2
      exact ⟨.ofDoc _ hwf.1 :: names, .cons ⟨hids.1, rfl, rfl⟩ hnames⟩

/-- A search for a request finds nothing, or what the names say. -/
theorem Described.search (h : Described s docs names) (q : Request) {found : Option DocId}
    (hfound : selectFirst docs (kindAndNameAre q.kind q.selector ∘ s.doc) = .ok found) :
    (found = none ∧ names.find? (·.fits q) = none) ∨
      ∃ id d, found = some id ∧ names.find? (·.fits q) = some d ∧ id < s.next ∧
        d.Describes (s.doc id) := by
  rw [selectFirst_eq_ok hfound]
  have hsame : ∀ id ∈ docs, ∀ d ∈ names, id < s.next ∧ d.Describes (s.doc id) →
      (Holds? ∘ kindAndNameAre q.kind q.selector ∘ s.doc) id = d.fits q :=
    fun id _ d _ hd => hd.2.named_eq q
  rcases find?_forall₂ h hsame with hnone | ⟨id, d, hid, hd, hdescribes⟩
  · exact Or.inl hnone
  · exact Or.inr ⟨id, d, hid, hd, hdescribes⟩

end Described

/-! ## What a merged document is called -/

section MergeWithDefaults

variable {schema : SchemaDir} {version provider kind : String} {selector merged : Val}
  {files docs : List Val}

/-- The merged default document still is called default. -/
theorem name_of_mergeDefaultConfig {default start : Val} {config : Option Val}
    (hdefault : default.attrStr? "name" = some "default")
    (hconfig : ∀ x, config = some x → x.KeysUnique ∧ x.attrStr? "name" = some "default")
    (h : mergeDefaultConfig (some default) config = .ok start) :
    start.attrStr? "name" = some "default" := by
  cases config with
  | none =>
      cases h
      exact hdefault
  | some config =>
      obtain ⟨hunique, hname⟩ := hconfig config rfl
      obtain ⟨own, hown, htext⟩ := Val.attrStr?_eq_some.mp hname
      obtain ⟨type, rfl⟩ := Val.str?_eq_some.mp htext
      have hout := mergeDocs_outcome hunique h "name"
      rw [hown] at hout
      exact Val.attrStr?_eq_some.mpr ⟨_, hout.of_scalar, htext⟩

/-- What `merge_with_defaults` returns has the kind and the name asked for. -/
theorem mergeWithDefaults_named (hdocs : ∀ doc ∈ docs, doc.KeysUnique)
    (h : mergeWithDefaults schema version "common" kind selector docs = .ok merged)
    (hmerged : merged ≠ .null) :
    merged.IsKind kind ∧
      ∃ name, merged.attr? "name" = some name ∧ name.WellFormed ∧ name.pyEq selector = true := by
  simp only [mergeWithDefaults, Lib.bind_eq_ok] at h
  obtain ⟨files, hfiles, configSpec, hspec, h⟩ := h
  obtain ⟨directory, hfile, -⟩ := SchemaDir.docsOf_eq_ok hfiles
  have hkinds := SchemaDir.kinds_of_docsOf (Or.inl rfl) hfiles
  have hselected : ∀ {selector : Val} {spec : Val},
      files.find? (Holds? ∘ attrIs "name" selector) = some spec → spec.WellFormed ∧
        spec.IsKind kind ∧ ∃ name, spec.attr? "name" = some name ∧ name.pyEq selector = true := by
    intro selector spec hfind
    have hmem := List.mem_of_find?_eq_some hfind
    have hname := List.find?_some hfind
    exact ⟨schema.wellFormed hfile spec hmem, hkinds spec hmem,
      attrIs_eq_ok.mp (holds?_eq_true.mp hname)⟩
  have hspec := selectFirst_eq_ok hspec
  split at h
  · cases h
    cases configSpec with
    | none => exact absurd rfl hmerged
    | some spec =>
        obtain ⟨hwf, hkind, name, hname, heq⟩ := hselected hspec.symm
        exact ⟨hkind, name, hname, hwf.attr? hname, heq⟩
  · simp only [Lib.bind_eq_ok] at h
    obtain ⟨config, hconfig, default, hdefault, start, hstart, doc, hmerge, hset⟩ := h
    cases configSpec with
    | none => simp [mergeDocs, Val.asDict] at hmerge
    | some spec =>
        obtain ⟨hwf, hkind, name, hname, heq⟩ := hselected hspec.symm
        have hout := mergeDocs_outcome hwf.keysUnique hmerge
        have hstartname : start.attrStr? "name" = some "default" := by
          cases default with
          | none =>
              -- there is nothing to merge into
              exfalso
              cases config with
              | none =>
                  cases hstart
                  simp [mergeDocs, Val.asDict, Lib.bind_eq_ok] at hmerge
              | some config =>
                  simp [mergeDefaultConfig, mergeDocs, Val.asDict, Lib.bind_eq_ok] at hstart
          | some default =>
              obtain ⟨-, -, own, hown, howneq⟩ := hselected (selectFirst_eq_ok hdefault).symm
              have hdefaultname := Val.attrStr?_eq_some.mpr ⟨own, hown, pyEq_str_eq_true.mp howneq⟩
              refine name_of_mergeDefaultConfig hdefaultname ?_ hstart
              rintro x rfl
              have hfind := (selectFirst_eq_ok hconfig).symm
              have hholds := List.find?_some hfind
              refine ⟨hdocs x (List.mem_of_find?_eq_some hfind), ?_⟩
              obtain ⟨-, hx⟩ := nameAndKindAre_eq_ok_true.mp (holds?_eq_true.mp hholds)
              obtain ⟨own, hown, heq⟩ := attrIs_eq_ok.mp hx
              exact Val.attrStr?_eq_some.mpr ⟨own, hown, pyEq_str_eq_true.mp heq⟩
        obtain ⟨own, hown, htext⟩ := Val.attrStr?_eq_some.mp hstartname
        obtain ⟨type, rfl⟩ := Val.str?_eq_some.mp htext
        have hmergedname := hout "name"
        rw [Option.getD_some, hown, hname] at hmergedname
        refine ⟨?_, name, ?_, hwf.attr? hname, heq⟩
        · rw [Val.IsKind, Val.attr?_setItem hset, if_neg (by decide)]
          exact isKind_of_mergeDocs hwf.keysUnique hmerge hkind
        · rw [Val.attr?_setItem hset, if_neg (by decide)]
          exact hmergedname.over_scalar

end MergeWithDefaults

/-! ## One request -/

/-- The documents between two iterations: the user's and the configuration documents
have these names, and the first configuration document is the feature mapping. -/
structure Stage (mapping : Val) (inputDocs : List DocId) (names : List DocName) (s : Store)
    (configurationDocs : List DocId) (log : List DocName) : Prop where
  inputs : Described s inputDocs names
  unique : ∀ id ∈ inputDocs, (s.doc id).KeysUnique
  logged : Described s configurationDocs log
  isMapping : mapping.IsKind "configuration/feature-mapping"
  first : ∃ id rest, configurationDocs = id :: rest ∧ id < s.next ∧
    SameButVersion mapping (s.doc id)

section Stage

variable {schema : SchemaDir} {version : String} {mapping : Val} {names log : List DocName}
  {inputDocs configurationDocs configurationDocs' : List DocId} {s s' : Store}

theorem Stage.stamps (h : Stage mapping inputDocs names s configurationDocs log)
    (hstamps : Stamps s s') : Stage mapping inputDocs names s' configurationDocs log where
  inputs := h.inputs.stamps hstamps
  unique id hid := by
    obtain ⟨d, -, hlt, -⟩ : ∃ d, d ∈ names ∧ id < s.next ∧ d.Describes (s.doc id) :=
      exists_of_mem_forall₂ h.inputs hid
    exact hstamps.unique id hlt (h.unique id hid)
  logged := h.logged.stamps hstamps
  isMapping := h.isMapping
  first := by
    obtain ⟨id, rest, hdocs, hlt, hsame⟩ := h.first
    refine ⟨id, rest, hdocs, hlt.trans_le hstamps.next_le, fun key hkey => ?_⟩
    rw [hstamps.same id hlt key hkey, hsame key hkey]

theorem appendConfig_eq_ok {doc : DocId}
    (h : appendConfig version configurationDocs doc s = .ok (configurationDocs', s')) :
    configurationDocs' = configurationDocs ++ [doc] ∧ Stamps s s' := by
  simp only [appendConfig, BuildM.bind_eq_ok, BuildM.pure_eq_ok] at h
  obtain ⟨_, _, hset, rfl, rfl⟩ := h
  exact ⟨rfl, .setVersion hset⟩

theorem Stage.append {doc : DocId} {d : DocName}
    (h : Stage mapping inputDocs names s configurationDocs log) (hlt : doc < s.next)
    (hd : d.Describes (s.doc doc))
    (happend : appendConfig version configurationDocs doc s = .ok (configurationDocs', s')) :
    Stage mapping inputDocs names s' configurationDocs' (log ++ [d]) := by
  obtain ⟨rfl, hstamps⟩ := appendConfig_eq_ok happend
  have hlater := h.stamps hstamps
  obtain ⟨id, rest, hdocs, hfirst⟩ := hlater.first
  refine { hlater with logged := ?_, first := ⟨id, rest ++ [doc], by rw [hdocs]; rfl, hfirst⟩ }
  apply List.rel_append hlater.logged
  exact .cons ⟨hlt.trans_le hstamps.next_le,
    (DocName.Describes.congr (hstamps.same doc hlt)).mpr hd⟩ .nil

/-- An iteration of the loop over the features answers the request. -/
theorem appendFeature_step {configSelector featureKey : Val}
    (h : Stage mapping inputDocs names s configurationDocs log)
    (hselector : configSelector.WellFormed)
    (hrun : appendFeature schema version inputDocs configSelector configurationDocs featureKey s =
      .ok (configurationDocs', s')) :
    ∃ q : WfRequest, featureRequest configSelector featureKey = .ok q.1 ∧
      ∃ log', (answering names).Step q log log' ∧ Stamps s s' ∧
        Stage mapping inputDocs names s' configurationDocs' log' := by
  simp only [appendFeature, BuildM.bind_eq_ok, lift_eq_ok, reads_eq_ok] at hrun
  obtain ⟨key, _, ⟨hkey, rfl⟩, own, _, ⟨hown, rfl⟩, hrun⟩ := hrun
  refine ⟨⟨⟨"configuration/" ++ key, configSelector⟩, hselector⟩, ?_, ?_⟩
  · rw [featureRequest, hkey]
    rfl
  rcases h.inputs.search ⟨"configuration/" ++ key, configSelector⟩ hown with
    ⟨rfl, hnone⟩ | ⟨doc, d, rfl, hfind, hlt, hd⟩
  · simp only [BuildM.bind_eq_ok, reads_eq_ok] at hrun
    obtain ⟨known, _, ⟨hknown, rfl⟩, hrun⟩ := hrun
    rcases h.logged.search ⟨"configuration/" ++ key, configSelector⟩ hknown with
      ⟨rfl, hunknown⟩ | ⟨doc, d, rfl, hfind, hlt, hd⟩
    · simp only [BuildM.bind_eq_ok, reads_eq_ok, lift_eq_ok, newDoc_eq_ok] at hrun
      obtain ⟨merged, _, ⟨hmerged, rfl⟩, kind, _, ⟨hkind, rfl⟩, doc, _, ⟨rfl, rfl⟩, hrun⟩ := hrun
      have hne : merged ≠ .null := by
        rintro rfl
        cases hkind
      obtain ⟨hmergedkind, name, hname, hwf, heq⟩ := mergeWithDefaults_named
        (by simpa using h.unique) hmerged hne
      -- the merged document is what the request asks for
      let d : DocName := ⟨merged.attr? "kind", merged.attr? "name", fun x hx => by
        rw [hname] at hx
        cases hx
        exact hwf⟩
      refine ⟨log ++ [d], .fresh hnone ?_ ?_, ?_, ?_⟩
      · intro x hx hfits
        exact List.find?_eq_none.mp hunknown x hx hfits
      · exact DocName.fits_eq_true.mpr ⟨hmergedkind, name, hname, heq⟩
      · exact (Stamps.alloc _ merged).trans (appendConfig_eq_ok hrun).2
      · apply (h.stamps (.alloc _ merged)).append (Nat.lt_succ_self _) _ hrun
        rw [Store.alloc_doc_self]
        exact ⟨rfl, rfl⟩
    · rw [BuildM.pure_eq_ok] at hrun
      obtain ⟨rfl, rfl⟩ := hrun
      exact ⟨log, .known hnone (List.mem_of_find?_eq_some hfind) (List.find?_some hfind),
        .refl _, h⟩
  · exact ⟨log ++ [d], .own hfind, (appendConfig_eq_ok hrun).2, h.append hlt hd hrun⟩

/-- The loop over the features answers the requests of the component. -/
theorem appendFeatures_run {configSelector : Val} {features : List Val}
    (h : Stage mapping inputDocs names s configurationDocs log)
    (hselector : configSelector.WellFormed)
    (hrun : appendFeatures schema version inputDocs configSelector configurationDocs features s =
      .ok (configurationDocs', s')) :
    ∃ requests : List WfRequest,
      features.mapM (featureRequest configSelector) = .ok (requests.map (·.1)) ∧
      ∃ log', (answering names).Run requests log log' ∧ Stamps s s' ∧
        Stage mapping inputDocs names s' configurationDocs' log' := by
  induction features generalizing s configurationDocs log with
  | nil =>
      rw [appendFeatures, BuildM.pure_eq_ok] at hrun
      obtain ⟨rfl, rfl⟩ := hrun
      exact ⟨[], rfl, log, .nil log, .refl _, h⟩
  | cons featureKey rest ih =>
      rw [appendFeatures, BuildM.bind_eq_ok] at hrun
      obtain ⟨docs₁, s₁, hfirst, hrest⟩ := hrun
      obtain ⟨q, hq, log₁, hstep, hstamps, hstage⟩ := appendFeature_step h hselector hfirst
      obtain ⟨requests, hrequests, log₂, hrun, hlater, hlast⟩ := ih hstage hrest
      refine ⟨q :: requests, ?_, log₂, .cons hstep hrun, hstamps.trans hlater, hlast⟩
      rw [List.mapM_cons, hq, hrequests]
      rfl

/-- The mapping an iteration of the loop over the components reads is the required one. -/
theorem Stage.featuresOf_eq_ok {componentKey : String} {features : List Val}
    (h : Stage mapping inputDocs names s configurationDocs log)
    (hrun : featuresOf configurationDocs componentKey s = .ok (features, s')) :
    s = s' ∧ ∃ rolesMapping mapped,
      attrPath mapping ["specification", "roles_mapping"] = .ok rolesMapping ∧
      rolesMapping.getItem componentKey = .ok mapped ∧ mapped.asList = .ok features := by
  obtain ⟨id, rest, rfl, -, hsame⟩ := h.first
  simp only [featuresOf, reads_eq_ok, Lib.bind_eq_ok] at hrun
  obtain ⟨⟨found, hfound, rolesMapping, hmapping, mapped, hmapped, hfeatures⟩, rfl⟩ := hrun
  have hkind : (kindIs "configuration/feature-mapping" ∘ s.doc) id = .ok true := by
    rw [Function.comp_apply, kindIs_eq_ok_true, Val.IsKind, hsame "kind" (by decide)]
    exact h.isMapping
  rw [selectFirst, hkind] at hfound
  cases hfound
  refine ⟨rfl, rolesMapping, mapped, ?_, hmapped, hfeatures⟩
  have hspec : (s.doc id).getAttr "specification" = mapping.getAttr "specification" := by
    unfold Val.getAttr
    rw [hsame "specification" (by decide)]
  rw [← hmapping, Option.map_some, Option.getD_some, attrPath, attrPath,
    List.foldlM_cons, List.foldlM_cons, hspec]

/-- An iteration of the loop over the components answers the requests of one. -/
theorem appendComponent_run {component : String × Val}
    (h : Stage mapping inputDocs names s configurationDocs log)
    (hcomponent : component.2.WellFormed)
    (hrun : appendComponent schema version inputDocs configurationDocs component s =
      .ok (configurationDocs', s')) :
    ∃ requests : List WfRequest,
      componentRequests mapping component = .ok (requests.map (·.1)) ∧
      ∃ log', (answering names).Run requests log log' ∧ Stamps s s' ∧
        Stage mapping inputDocs names s' configurationDocs' log' := by
  simp only [appendComponent, BuildM.bind_eq_ok, lift_eq_ok] at hrun
  obtain ⟨count, _, ⟨hcount, rfl⟩, inactive, _, ⟨hinactive, rfl⟩, hrun⟩ := hrun
  unfold componentRequests
  rw [hcount, ok_bind, hinactive, ok_bind]
  cases inactive with
  | true =>
      rw [if_pos rfl, BuildM.pure_eq_ok] at hrun
      obtain ⟨rfl, rfl⟩ := hrun
      exact ⟨[], rfl, log, .nil log, .refl _, h⟩
  | false =>
      simp only [Bool.false_eq_true, if_false, BuildM.bind_eq_ok, lift_eq_ok] at hrun ⊢
      obtain ⟨selector, _, ⟨hselector, rfl⟩, features, _, hfeatures, hrun⟩ := hrun
      obtain ⟨rfl, rolesMapping, mapped, hmapping, hmapped, hlist⟩ := h.featuresOf_eq_ok hfeatures
      rw [hselector, ok_bind, hmapping, ok_bind, hmapped, ok_bind, hlist, ok_bind]
      exact appendFeatures_run h (hcomponent.attr? (Val.getAttr_eq_ok.mp hselector)) hrun

/-- The loop over the components answers all requests. -/
theorem appendComponents_run {components : Entries}
    (h : Stage mapping inputDocs names s configurationDocs log)
    (hcomponents : ∀ component ∈ components, component.2.WellFormed)
    (hrun : appendComponents schema version inputDocs configurationDocs components s =
      .ok (configurationDocs', s')) :
    ∃ requests : List (List WfRequest),
      components.mapM (componentRequests mapping) = .ok (requests.map (·.map (·.1))) ∧
      ∃ log', (answering names).Run requests.flatten log log' ∧ Stamps s s' ∧
        Stage mapping inputDocs names s' configurationDocs' log' := by
  induction components generalizing s configurationDocs log with
  | nil =>
      rw [appendComponents, BuildM.pure_eq_ok] at hrun
      obtain ⟨rfl, rfl⟩ := hrun
      exact ⟨[], rfl, log, .nil log, .refl _, h⟩
  | cons component rest ih =>
      rw [appendComponents, BuildM.bind_eq_ok] at hrun
      obtain ⟨docs₁, s₁, hfirst, hrest⟩ := hrun
      rw [List.forall_mem_cons] at hcomponents
      obtain ⟨own, hown, log₁, hownrun, hstamps, hstage⟩ :=
        appendComponent_run h hcomponents.1 hfirst
      obtain ⟨requests, hrequests, log₂, hrun, hlater, hlast⟩ := ih hstage hcomponents.2 hrest
      refine ⟨own :: requests, ?_, log₂, hownrun.append hrun, hstamps.trans hlater, hlast⟩
      rw [List.mapM_cons, hown, hrequests]
      rfl

end Stage

/-! ## The required documents -/

section Required

variable {schema : SchemaDir} {version : String} {inputDocs docs docs' : List DocId}
  {s₀ s s' : Store}

theorem requiredTree_eq_ok {trees : List Val} {kind : String} {tree : Val}
    (htrees : ∀ x ∈ trees, x.WellFormed) (h : requiredTree schema trees kind = .ok tree)
    (hne : tree ≠ .null) : tree.WellFormed ∧ tree.IsKind kind := by
  rw [requiredTree, Lib.bind_eq_ok] at h
  obtain ⟨doc, hdoc, h⟩ := h
  cases doc with
  | some doc =>
      cases h
      have hfind := (selectFirst_eq_ok hdoc).symm
      have hholds := List.find?_some hfind
      exact ⟨htrees _ (List.mem_of_find?_eq_some hfind), holds?_kindIs.mp hholds⟩
  | none =>
      refine ⟨?_, (SchemaDir.kind_of_loadSchemaObj (Or.inl rfl) h).resolve_left hne⟩
      simp only [SchemaDir.loadSchemaObj, Lib.bind_eq_ok] at h
      obtain ⟨files, hfiles, h⟩ := h
      obtain ⟨directory, hfile, -⟩ := SchemaDir.docsOf_eq_ok hfiles
      rcases files with _ | ⟨doc, _ | ⟨other, rest⟩⟩
      · exact absurd (Except.ok.inj h).symm hne
      · cases h
        exact schema.wellFormed hfile _ (by simp)
      · cases h

/-- The document is the required one of its kind, with a version. -/
def IsRequired (schema : SchemaDir) (trees : List Val) (s : Store) (kind : String)
    (id : DocId) : Prop :=
  id < s.next ∧ ∃ tree, requiredTree schema trees kind = .ok tree ∧ tree ≠ .null ∧
    SameButVersion tree (s.doc id)

theorem IsRequired.stamps {trees : List Val} {kind : String} {id : DocId}
    (h : IsRequired schema trees s kind id) (hstamps : Stamps s s') :
    IsRequired schema trees s' kind id := by
  obtain ⟨hlt, tree, htree, hne, hsame⟩ := h
  refine ⟨hlt.trans_le hstamps.next_le, tree, htree, hne, fun key hkey => ?_⟩
  rw [hstamps.same id hlt key hkey, hsame key hkey]

/-- The search for a required kind is not changed by versions. -/
theorem selectFirst_kindIs_stamps {kind : String} (hids : ∀ id ∈ inputDocs, id < s₀.next)
    (hstamps : Stamps s₀ s) :
    selectFirst inputDocs (kindIs kind ∘ s.doc) =
      selectFirst inputDocs (kindIs kind ∘ s₀.doc) := by
  induction inputDocs with
  | nil => rfl
  | cons id rest ih =>
      rw [List.forall_mem_cons] at hids
      have hkind : kindIs kind (s.doc id) = kindIs kind (s₀.doc id) := by
        unfold kindIs attrIs Val.getAttr
        rw [hstamps.same id hids.1 "kind" (by decide)]
      rw [selectFirst, selectFirst, Function.comp_apply, Function.comp_apply, hkind, ih hids.2]

theorem appendRequired_eq_ok {kind : String} (hids : ∀ id ∈ inputDocs, id < s₀.next)
    (hstamps : Stamps s₀ s)
    (h : appendRequired schema version inputDocs docs kind s = .ok (docs', s')) :
    Stamps s s' ∧ ∃ id, docs' = docs ++ [id] ∧
      IsRequired schema (inputDocs.map s₀.doc) s' kind id := by
  simp only [appendRequired, BuildM.bind_eq_ok, reads_eq_ok] at h
  obtain ⟨found, _, ⟨hfound, rfl⟩, h⟩ := h
  rw [selectFirst_kindIs_stamps hids hstamps] at hfound
  cases found with
  | some doc =>
      obtain ⟨rfl, hset⟩ := appendConfig_eq_ok h
      have hfind := (selectFirst_eq_ok hfound).symm
      have hlt := hids doc (List.mem_of_find?_eq_some hfind)
      have hholds := List.find?_some hfind
      refine ⟨hset, doc, rfl, (hlt.trans_le hstamps.next_le).trans_le hset.next_le, s₀.doc doc,
        ?_, ?_, (hstamps.trans hset).same doc hlt⟩
      · rw [requiredTree, selectFirst_map, hfound]
        rfl
      · intro hnull
        have hkind : (s₀.doc doc).IsKind kind := holds?_kindIs.mp hholds
        rw [hnull] at hkind
        cases hkind
  | none =>
      simp only [BuildM.bind_eq_ok, lift_eq_ok, newDoc_eq_ok] at h
      obtain ⟨loaded, _, ⟨hloaded, rfl⟩, hkind, _, ⟨hhas, rfl⟩, doc, _, ⟨rfl, rfl⟩, h⟩ := h
      obtain ⟨rfl, hset⟩ := appendConfig_eq_ok h
      refine ⟨(Stamps.alloc _ loaded).trans hset, _, rfl,
        (Nat.lt_succ_self _).trans_le hset.next_le, loaded, ?_, ?_, ?_⟩
      · rw [requiredTree, selectFirst_map, hfound]
        exact hloaded
      · rintro rfl
        cases hhas
      · have hsame := hset.same _ (Nat.lt_succ_self _)
        rwa [Store.alloc_doc_self] at hsame

/-- The loop over the required kinds appends one document for each. -/
theorem appendAllRequired_eq_ok {kinds : List String} (hids : ∀ id ∈ inputDocs, id < s₀.next)
    (hstamps : Stamps s₀ s)
    (h : appendAllRequired schema version inputDocs docs kinds s = .ok (docs', s')) :
    Stamps s s' ∧ ∃ added, docs' = docs ++ added ∧
      List.Forall₂ (IsRequired schema (inputDocs.map s₀.doc) s') kinds added := by
  induction kinds generalizing docs s with
  | nil =>
      rw [appendAllRequired, BuildM.pure_eq_ok] at h
      obtain ⟨rfl, rfl⟩ := h
      exact ⟨.refl _, [], by simp, .nil⟩
  | cons kind rest ih =>
      rw [appendAllRequired, BuildM.bind_eq_ok] at h
      obtain ⟨docs₁, s₁, hfirst, hrest⟩ := h
      obtain ⟨hstep, id, rfl, hid⟩ := appendRequired_eq_ok hids hstamps hfirst
      obtain ⟨hlater, added, rfl, hadded⟩ := ih (hstamps.trans hstep) hrest
      exact ⟨hstep.trans hlater, id :: added, by simp, .cons (hid.stamps hlater) hadded⟩

/-- The name belongs to the required document of the kind. -/
def NamesRequired (schema : SchemaDir) (trees : List Val) (kind : String) (d : DocName) : Prop :=
  ∃ tree, requiredTree schema trees kind = .ok tree ∧ tree.IsKind kind ∧ d.Describes tree

theorem exists_described_required {trees : List Val} {kinds : List String}
    (htrees : ∀ x ∈ trees, x.WellFormed)
    (h : List.Forall₂ (IsRequired schema trees s) kinds docs) :
    ∃ names, Described s docs names ∧ List.Forall₂ (NamesRequired schema trees) kinds names := by
  induction h with
  | nil => exact ⟨[], .nil, .nil⟩
  | @cons kind id kinds docs hid _ ih =>
      obtain ⟨names, hdescribed, hnames⟩ := ih
      obtain ⟨hlt, tree, htree, hne, hsame⟩ := hid
      obtain ⟨hwf, hkind⟩ := requiredTree_eq_ok htrees htree hne
      refine ⟨.ofDoc tree hwf :: names, .cons ⟨hlt, ?_⟩ hdescribed,
        .cons ⟨tree, htree, hkind, rfl, rfl⟩ hnames⟩
      exact (DocName.Describes.congr hsame).mpr ⟨rfl, rfl⟩

end Required

/-! ## The whole run -/

section Run

variable {schema : SchemaDir} {version : String} {names log₀ log : List DocName}
  {trees : List Val}

theorem alike_iff {q q' : WfRequest} :
    (answering names).Alike q q' ↔
      q.1.kind = q'.1.kind ∧ q.1.selector.pyEq q'.1.selector = true := by
  constructor
  · rintro ⟨d, hq, hq'⟩
    exact selector_pyEq_of_fits hq hq'
  · rintro ⟨hkind, heq⟩
    let d : DocName := ⟨some (.str q.1.kind), some q.1.selector, fun x hx => by
      cases hx
      exact q.2⟩
    refine ⟨d, ?_, ?_⟩
    · exact DocName.fits_eq_true.mpr ⟨rfl, _, rfl, Val.pyEq_refl q.2⟩
    · exact DocName.fits_eq_true.mpr ⟨congrArg some hkind, _, rfl, heq⟩

/-- The kind of a name. -/
def DocName.hasKind (kind : String) (d : DocName) : Bool := bothEq d.kind (some (.str kind))

theorem DocName.hasKind_eq_true {kind : String} {d : DocName} :
    d.hasKind kind = true ↔ d.kind.bind Val.str? = some kind := bothEq_str_iff

theorem NamesRequired.kind_eq {kind : String} {d : DocName}
    (h : NamesRequired schema trees kind d) :
    d.kind.bind Val.str? = some kind := by
  obtain ⟨tree, -, hkind, hd⟩ := h
  rw [← hd.1]
  exact hkind

theorem hasKind_congr {kind kind' : String} {d : DocName} (h : NamesRequired schema trees kind' d) :
    d.hasKind kind = decide (kind' = kind) := by
  rw [Bool.eq_iff_iff, DocName.hasKind_eq_true, h.kind_eq]
  simp

/-- The names of the required documents: one of each kind, no two alike. -/
theorem required_names (h : List.Forall₂ (NamesRequired schema trees) requiredDocs log₀) :
    (log₀.Pairwise fun d e => ¬ d.like e = true) ∧
      ∀ kind ∈ requiredDocs, log₀.countP (·.hasKind kind) = 1 := by
  constructor
  · have hnodup : requiredDocs.Pairwise (· ≠ ·) := by decide
    have hkinds : log₀.Pairwise fun d e => ¬ bothEq d.kind e.kind = true := by
      refine (pairwise_forall₂ h ?_).mp hnodup
      intro kind d kind' d' hd hd'
      rw [bothEq_iff_of_str? hd'.kind_eq, hd.kind_eq]
      simp
    refine hkinds.imp fun hne hlike => hne ?_
    rw [DocName.like, Bool.and_eq_true] at hlike
    exact hlike.1
  · intro kind hkind
    rw [← countP_forall₂ h fun kind' d hd => (hasKind_congr hd).symm]
    revert kind
    decide

/-- The documents are complete exactly when no document of the user answers two
requests and the requests for required kinds find the required documents. -/
theorem complete_iff {requests : List WfRequest} {docs : List Val}
    (hrequired : List.Forall₂ (NamesRequired schema trees) requiredDocs log₀)
    (hrun : (answering names).Run requests log₀ log)
    (htrees : List.Forall₂ (fun x d => d.Describes x) trees names)
    (hdocs : List.Forall₂ (fun x d => d.Describes x) docs log) :
    Complete (requests.map (·.1)) docs ↔
      SelectsOnce schema trees (requests.map (·.1)) := by
  obtain ⟨hlog₀, hsingle⟩ := required_names hrequired
  have hdistinct : (docs.Pairwise fun x y => ¬ sameConfig x y = true) ↔
      (answering names).OwnOnce requests log₀ := by
    rw [← hrun.pairwise_iff hlog₀]
    refine pairwise_forall₂ hdocs fun x d y e hd he => ?_
    rw [hd.sameConfig_eq he]
    rfl
  have hcount : ∀ kind ∈ requiredDocs, (docs.countP (isOfKind kind) = 1 ↔
      ∀ q ∈ requests, q.1.kind = kind →
        (answering names).own q = none ∧ ∃ d ∈ log₀, d.fits q.1 = true) := by
    intro kind hkind
    rw [countP_forall₂ hdocs fun x d hd => hd.isOfKind_eq kind]
    refine hrun.countP_iff (fun {q d} hfits => ?_) (hsingle kind hkind)
    obtain ⟨hd, -⟩ := DocName.fits_eq_true.mp hfits
    rw [← DocName.hasKind, DocName.hasKind_eq_true, hd]
    simp
  have hown : ∀ q : WfRequest, (answering names).own q = none ↔ trees.find? (named q.1) = none := by
    intro q
    rcases find?_forall₂ htrees fun x _ d _ hd => hd.named_eq q.1 with
      ⟨hx, hd⟩ | ⟨x, d, hx, hd, -⟩ <;> simp [answering, hx, hd]
  have hnamed : ∀ q : WfRequest, q.1.kind ∈ requiredDocs → ((∃ d ∈ log₀, d.fits q.1 = true) ↔
      ∃ doc, requiredTree schema trees q.1.kind = .ok doc ∧ named q.1 doc = true) := by
    intro q hkind
    constructor
    · rintro ⟨d, hmem, hfits⟩
      obtain ⟨kind, -, hd⟩ := exists_of_mem_forall₂ hrequired.flip hmem
      have hd : NamesRequired schema trees kind d := hd
      obtain ⟨hdkind, -⟩ := DocName.fits_eq_true.mp hfits
      have hkindeq : q.1.kind = kind := by simpa [hd.kind_eq] using hdkind.symm
      obtain ⟨tree, htree, -, hdescribes⟩ := hd
      exact ⟨tree, by rw [hkindeq, htree], by rwa [hdescribes.named_eq]⟩
    · rintro ⟨doc, hdoc, hdocnamed⟩
      obtain ⟨d, hmem, tree, htree, -, hd⟩ := exists_of_mem_forall₂ hrequired hkind
      cases hdoc.symm.trans htree
      exact ⟨d, hmem, by rwa [← hd.named_eq]⟩
  constructor
  · rintro ⟨-, hrequireddocs, hpairs⟩
    obtain ⟨honce, -⟩ := hdistinct.mp hpairs
    constructor
    · rw [List.pairwise_map]
      refine honce.imp fun {q q'} hne hsome hsame => ?_
      apply hne _ (alike_iff.mpr hsame)
      rw [ne_eq, hown]
      intro hnone
      rw [hnone] at hsome
      cases hsome
    · rw [List.forall_mem_map]
      intro q hq hkind
      obtain ⟨hnone, hknown⟩ := (hcount _ hkind).mp (hrequireddocs _ hkind) q hq rfl
      exact ⟨(hown q).mp hnone, (hnamed q hkind).mp hknown⟩
  · rintro ⟨honce, hreq⟩
    rw [List.pairwise_map] at honce
    rw [List.forall_mem_map] at hreq
    have hknown : ∀ q ∈ requests, q.1.kind ∈ requiredDocs →
        (answering names).own q = none ∧ ∃ d ∈ log₀, d.fits q.1 = true := by
      intro q hq hkind
      obtain ⟨hnone, hdoc⟩ := hreq q hq hkind
      exact ⟨(hown q).mpr hnone, (hnamed q hkind).mpr hdoc⟩
    have hpairs : (answering names).OwnOnce requests log₀ := by
      constructor
      · refine honce.imp fun {q q'} hne hsome hsame => hne ?_ (alike_iff.mp hsame)
        rw [ne_eq, hown] at hsome
        exact Option.isSome_iff_ne_none.mpr hsome
      · intro q hq hsome d hmem hfits
        -- the document would be one of the required ones
        obtain ⟨kind, hkind, hd⟩ := exists_of_mem_forall₂ hrequired.flip hmem
        have hd : NamesRequired schema trees kind d := hd
        obtain ⟨hdkind, -⟩ := DocName.fits_eq_true.mp hfits
        have hkindeq : q.1.kind = kind := by simpa [hd.kind_eq] using hdkind.symm
        exact hsome (hknown q hq (by rwa [hkindeq])).1
    have hlog := (hrun.pairwise_iff hlog₀).mpr hpairs
    refine ⟨?_, ?_, hdistinct.mpr hpairs⟩
    · rw [List.forall_mem_map]
      intro q hq
      rw [countP_forall₂ hdocs fun x d hd => hd.named_eq q.1]
      refine countP_eq_one (hrun.answered q hq) (hlog.imp fun {d e} hne hboth => hne ?_)
      exact ((answering names).fits_iff_like hboth.2).mp hboth.1
    · intro kind hkind
      refine (hcount kind hkind).mpr fun q hq hq' => hknown q hq ?_
      rwa [hq']

/-- A run answers the requests, after the required documents. -/
structure Answered (schema : SchemaDir) (inputDocs : List DocId) (s : Store)
    (configurationDocs : List DocId) (s' : Store) (requests : List WfRequest)
    (names log₀ log : List DocName) : Prop where
  requestsOf : requestsOf schema (inputDocs.map s.doc) = .ok (requests.map (·.1))
  stamps : Stamps s s'
  inputs : Described s inputDocs names
  required : List.Forall₂ (NamesRequired schema (inputDocs.map s.doc)) requiredDocs log₀
  run : (answering names).Run requests log₀ log
  logged : Described s' configurationDocs log

theorem run_answers {inputDocs configurationDocs : List DocId} {s s' : Store}
    (hids : ∀ id ∈ inputDocs, id < s.next) (hwf : ∀ id ∈ inputDocs, (s.doc id).WellFormed)
    (h : run schema version inputDocs s = .ok (configurationDocs, s')) :
    ∃ requests names log₀ log,
      Answered schema inputDocs s configurationDocs s' requests names log₀ log := by
  simp only [run, BuildM.bind_eq_ok, reads_eq_ok, lift_eq_ok] at h
  obtain ⟨clusterModel, _, ⟨hmodel, rfl⟩, docs, s₁, hdocs, components, _, ⟨hcomponents, rfl⟩,
    entries, _, ⟨hentries, rfl⟩, h⟩ := h
  obtain ⟨hstamps, added, hadd, hadded⟩ := appendAllRequired_eq_ok hids (.refl s) hdocs
  rw [List.nil_append] at hadd
  subst hadd
  have htrees : ∀ x ∈ inputDocs.map s.doc, x.WellFormed := List.forall_mem_map.mpr hwf
  obtain ⟨log₀, hlog₀, hrequired⟩ := exists_described_required htrees hadded
  obtain ⟨names, hnames⟩ := exists_described hids hwf
  obtain ⟨mapping, hmapping, hmappingne, hfirst⟩ : ∃ mapping,
      requiredTree schema (inputDocs.map s.doc) "configuration/feature-mapping" = .ok mapping ∧
      mapping ≠ .null ∧ ∃ id rest, docs = id :: rest ∧ id < s₁.next ∧
        SameButVersion mapping (s₁.doc id) := by
    cases hadded with
    | cons hid hrest =>
        obtain ⟨hlt, tree, htree, hne, hsame⟩ := hid
        exact ⟨tree, htree, hne, _, _, rfl, hlt, hsame⟩
  obtain ⟨hmappingwf, hmappingkind⟩ := requiredTree_eq_ok htrees hmapping hmappingne
  have hstage : Stage mapping inputDocs names s₁ docs log₀ :=
    { inputs := hnames.stamps hstamps
      unique := fun id hid => hstamps.unique id (hids id hid) (hwf id hid).keysUnique
      logged := hlog₀
      isMapping := hmappingkind
      first := hfirst }
  -- the components are those of the document before it got its version
  have hmem : clusterModel ∈ inputDocs := by
    have hfilter := selectSingle_eq_ok hmodel
    exact List.mem_of_mem_filter (hfilter ▸ List.mem_singleton_self clusterModel)
  have hspec : (s₁.doc clusterModel).getAttr "specification" =
      (s.doc clusterModel).getAttr "specification" := by
    unfold Val.getAttr
    rw [hstamps.same _ (hids _ hmem) "specification" (by decide)]
  rw [attrPath, List.foldlM_cons, hspec] at hcomponents
  have hcomponentswf : ∀ component ∈ entries, component.2.WellFormed := by
    have hpath :
        attrPath (s.doc clusterModel) ["specification", "components"] = .ok components := by
      rw [attrPath, List.foldlM_cons, hcomponents]
    have hwfcomponents := attrPath_wellFormed (hwf _ hmem) hpath
    rw [Val.asDict_eq_ok.mp hentries] at hwfcomponents
    exact (Val.wellFormed_dict_iff.mp hwfcomponents).2
  obtain ⟨requests, hrequests, log, hrun, hlater, hlast⟩ :=
    appendComponents_run hstage hcomponentswf h
  refine ⟨requests.flatten, names, log₀, log, ?_, hstamps.trans hlater, hnames, hrequired, hrun,
    hlast.logged⟩
  rw [ConfigurationAppender.requestsOf, selectSingle_map hmodel, ok_bind, hmapping, ok_bind,
    attrPath, List.foldlM_cons, hcomponents, ok_bind, hentries, ok_bind, hrequests, ok_bind,
    List.map_flatten]

/-- The first document of a required kind is the required one. -/
theorem Answered.first_required {inputDocs configurationDocs : List DocId} {s s' : Store}
    {requests : List WfRequest} (h : Answered schema inputDocs s configurationDocs s' requests
      names log₀ log) {kind : String} (hkind : kind ∈ requiredDocs) :
    ∃ d, log.find? (·.hasKind kind) = some d ∧
      NamesRequired schema (inputDocs.map s.doc) kind d := by
  obtain ⟨d, hmem, hd⟩ := exists_of_mem_forall₂ h.required hkind
  have hhas : ∃ d ∈ log₀, d.hasKind kind = true :=
    ⟨d, hmem, DocName.hasKind_eq_true.mpr hd.kind_eq⟩
  obtain ⟨first, hfirst⟩ := Option.isSome_iff_exists.mp (List.find?_isSome.mpr hhas)
  obtain ⟨kind', -, hd'⟩ := exists_of_mem_forall₂ h.required.flip
    (List.mem_of_find?_eq_some hfirst)
  have hd' : NamesRequired schema (inputDocs.map s.doc) kind' first := hd'
  have hkindeq : kind' = kind := by
    have hhas := List.find?_some hfirst
    rw [hasKind_congr hd'] at hhas
    simpa using hhas
  obtain ⟨later, rfl⟩ := h.run.isPrefix
  refine ⟨first, by rw [List.find?_append, hfirst, Option.some_or], hkindeq ▸ hd'⟩

/-- The first document of any other kind answers the first request for it. -/
theorem Answered.first_requested {inputDocs configurationDocs : List DocId} {s s' : Store}
    {requests : List WfRequest} (h : Answered schema inputDocs s configurationDocs s' requests
      names log₀ log) {q : WfRequest} (hq : q ∈ requests) (hkind : q.1.kind ∉ requiredDocs) :
    ∃ d, log.find? (·.hasKind q.1.kind) = some d ∧
      ∃ first ∈ requests, first.1.kind = q.1.kind ∧ d.fits first.1 = true := by
  have hnone : log₀.find? (·.hasKind q.1.kind) = none := by
    rw [List.find?_eq_none]
    intro d hd hhas
    obtain ⟨kind', hmem, hd'⟩ := exists_of_mem_forall₂ h.required.flip hd
    have hd' : NamesRequired schema (inputDocs.map s.doc) kind' d := hd'
    rw [hasKind_congr hd', decide_eq_true_eq] at hhas
    exact hkind (hhas ▸ hmem)
  have hsome : ∃ q' ∈ requests, decide (q'.1.kind = q.1.kind) = true := ⟨q, hq, by simp⟩
  obtain ⟨first, hfirst⟩ := Option.isSome_iff_exists.mp (List.find?_isSome.mpr hsome)
  have hfirstkind := List.find?_some hfirst
  obtain ⟨d, hfind, hfits⟩ := h.run.find?_some (R := fun d => d.hasKind q.1.kind)
    (fun {q' d} hfits => by
      obtain ⟨hd, -⟩ := DocName.fits_eq_true.mp hfits
      rw [Bool.eq_iff_iff, DocName.hasKind_eq_true, hd]
      simp) hnone hfirst
  exact ⟨d, hfind, first, List.mem_of_find?_eq_some hfirst, by simpa using hfirstkind, hfits⟩

/-- The documents of a run are complete and distinct exactly when no document of
the user answers two requests. -/
theorem run_complete_iff {inputDocs configurationDocs : List DocId} {s s' : Store}
    (hids : ∀ id ∈ inputDocs, id < s.next) (hwf : ∀ id ∈ inputDocs, (s.doc id).WellFormed)
    (h : run schema version inputDocs s = .ok (configurationDocs, s')) :
    ∃ requests, requestsOf schema (inputDocs.map s.doc) = .ok requests ∧
      (Complete requests (configurationDocs.map s'.doc) ↔
        SelectsOnce schema (inputDocs.map s.doc) requests) := by
  obtain ⟨requests, names, log₀, log, hanswered⟩ := run_answers hids hwf h
  refine ⟨requests.map (·.1), hanswered.requestsOf, ?_⟩
  have hinput : List.Forall₂ (fun x d => d.Describes x) (inputDocs.map s.doc) names :=
    List.forall₂_map_left_iff.mpr (hanswered.inputs.imp fun _ _ hd => hd.2)
  have hlogged : List.Forall₂ (fun x d => d.Describes x) (configurationDocs.map s'.doc) log :=
    List.forall₂_map_left_iff.mpr (hanswered.logged.imp fun _ _ hd => hd.2)
  exact complete_iff hanswered.required hanswered.run hinput hlogged

end Run

/-! ## One document for two components -/

namespace ConfigSample

/-- A component with one machine and the default configuration. -/
def component : Val := .dict [("count", .int 1), ("configuration", .str "default")]

/-- A document of the user. -/
def config (kind : String) (specification : Entries) : Val :=
  .dict [("kind", .str kind), ("name", .str "default"), ("specification", .dict specification)]

/-- The documents of the user: the configurations of `firewall` and `filebeat` are
among them. The master has the first feature and the node has `nodeFeature`. -/
def trees (nodeFeature : String) : List Val :=
  [config "lambdastack-cluster" [("components", .dict
      [("kubernetes_master", component), ("kubernetes_node", component)])],
    config "configuration/feature-mapping" [("roles_mapping", .dict
      [("kubernetes_master", .list [.str "firewall"]),
        ("kubernetes_node", .list [.str nodeFeature])])],
    config "configuration/shared-config" [],
    config "configuration/firewall" [],
    config "configuration/filebeat" []]

def store (nodeFeature : String) : Store where
  next := 5
  doc id := ((trees nodeFeature)[id]?).getD .null

/-- No defaults are needed. -/
def schema : SchemaDir where
  file _ _ := none
  kind_eq := by simp
  wellFormed := by simp

def requests (nodeFeature : String) : List Request :=
  [⟨"configuration/firewall", .str "default"⟩,
    ⟨"configuration/" ++ nodeFeature, .str "default"⟩]

theorem allocated (nodeFeature : String) :
    ∀ id ∈ [0, 1, 2, 3, 4], id < (store nodeFeature).next := by
  simp [store]

theorem wellFormed (nodeFeature : String) :
    ∀ id ∈ [0, 1, 2, 3, 4], ((store nodeFeature).doc id).WellFormed := by
  simp [store, trees, config, component, dictKeys]

theorem requestsOf_trees (nodeFeature : String) :
    requestsOf schema ([0, 1, 2, 3, 4].map (store nodeFeature).doc) =
      .ok (requests nodeFeature) := rfl

theorem run_filebeat : ∃ s', run schema "v" [0, 1, 2, 3, 4] (store "filebeat") =
    .ok ([1, 2, 0, 3, 4], s') :=
  ⟨_, rfl⟩

/-- Each document of the user is selected once. -/
theorem selectsOnce_filebeat :
    SelectsOnce schema ([0, 1, 2, 3, 4].map (store "filebeat").doc) (requests "filebeat") where
  once := by simp [requests]
  required := by simp [requests, requiredDocs]

end ConfigSample

open ConfigSample in
/-- A document of the user that two components select is there twice. -/
theorem shared_config_twice :
    ¬ ∀ schema version inputDocs s configurationDocs s' requests,
      (∀ id ∈ inputDocs, id < s.next) → (∀ id ∈ inputDocs, (s.doc id).WellFormed) →
      run schema version inputDocs s = .ok (configurationDocs, s') →
      requestsOf schema (inputDocs.map s.doc) = .ok requests →
      Complete requests (configurationDocs.map s'.doc) := by
  intro h
  have hcomplete := h schema "v" [0, 1, 2, 3, 4] (store "firewall") [1, 2, 0, 3, 3] _
    (requests "firewall") (allocated _) (wellFormed _) rfl rfl
  have hcount := hcomplete.features ⟨"configuration/firewall", .str "default"⟩ List.mem_cons_self
  exact absurd hcount (by decide)

open ConfigSample in
theorem run_complete_iff_sample :
    ∃ configurationDocs s', run schema "v" [0, 1, 2, 3, 4] (store "filebeat") =
        .ok (configurationDocs, s') ∧
      Complete (requests "filebeat") (configurationDocs.map s'.doc) := by
  obtain ⟨s', hrun⟩ := run_filebeat
  obtain ⟨found, hfound, hiff⟩ := run_complete_iff (allocated _) (wellFormed _) hrun
  cases hfound.symm.trans (requestsOf_trees "filebeat")
  exact ⟨_, s', hrun, hiff.mpr selectsOnce_filebeat⟩

end ConfigurationAppender

end LambdaStack
