/-
# The documents during an apply

What processes the documents of an apply assigns to specifications, versions and words
for yes and no, so a document stays one of its kind, and the cluster model is among the
documents whenever a manifest is saved. The cloud-init documents that Terraform is given
name the file the builder has assigned.
-/

import LambdaStack.Engine.Ansible.RoleVars
import LambdaStack.Engine.Providers.CloudInit
import LambdaStack.Engine.StampedManifest
import LambdaStack.Engine.Terraform.TerraformFileCopier

namespace LambdaStack

open Lib BuildM

theorem KeepsHead.keepsKind {x y : Val} (h : KeepsHead x y) : KeepsKind x y :=
  .of_attr?_eq (h "kind" (by decide))

theorem KeepsKind.setVersion {x y : Val} {version : String}
    (h : x.setItem "version" (.str version) = .ok y) : KeepsKind x y :=
  .of_attr?_eq ((Val.attr?_setItem h).trans (if_neg (by decide)))

namespace ApplyEngine

variable (env : Env)

theorem preserves_setVersions {R : Val → Val → Prop} [Std.Refl R] [IsTrans Val R]
    {version : String} (hR : ∀ x y : Val, x.setItem "version" (.str version) = .ok y → R x y)
    (ids : List DocId) : Preserves (Store.Evolves R) (Any.setVersions version ids) := by
  induction ids with
  | nil => exact preserves_pure ()
  | cons id rest ih =>
      apply (preserves_setDocItem id hR).bind
      intro _
      exact ih

/-- Every builder keeps the kinds. -/
theorem preserves_kind_buildInfrastructure (provider : String) (docs : List DocId)
    (manifestDocs : List Val) :
    Preserves (Store.Evolves KeepsKind) (buildInfrastructure env provider docs manifestDocs) := by
  have hheads : ∀ {s s' : Store}, HeadsKept s s' → Store.Evolves KeepsKind s s' :=
    fun h => ⟨h.next_le, fun id hid => (h.doc id hid).keepsKind⟩
  have haws : Preserves (Store.Evolves KeepsKind) (do
      let b ← Aws.init env.builder docs manifestDocs
      b.run env.builder env.keys) := by
    refine ⟨fun {s ids s'} hrun => ?_⟩
    obtain ⟨b, s₁, hinit, hbuild⟩ := BuildM.bind_eq_ok.mp hrun
    obtain ⟨rfl, -, -⟩ := Aws.init_eq_ok hinit
    exact hheads ((Aws.preserves_heads_run env.keys).rel hbuild)
  have hazure : Preserves (Store.Evolves KeepsKind) (do
      let b ← Azure.init env.builder.toBuilderEnv docs manifestDocs
      let emitted ← b.run env.builder.toBuilderEnv
      pure (emitted.map Azure.Emitted.doc)) := by
    refine ⟨fun {s ids s'} hrun => ?_⟩
    obtain ⟨b, s₁, hinit, hrun⟩ := BuildM.bind_eq_ok.mp hrun
    obtain ⟨emitted, s₂, hbuild, hret⟩ := BuildM.bind_eq_ok.mp hrun
    obtain ⟨-, rfl⟩ := BuildM.pure_eq_ok.mp hret
    obtain ⟨rfl, -, -, -, -⟩ := Azure.init_eq_ok hinit
    exact hheads (Azure.preserves_heads_run.rel hbuild)
  unfold buildInfrastructure
  split
  · exact haws
  · exact haws
  · exact hazure
  · apply (preserves_reads _).bind
    intro clusterModel
    apply (preserves_reads _).bind
    intro infrastructureDocs
    apply (preserves_setVersions (fun _ _ => KeepsKind.setVersion) infrastructureDocs).bind
    intro _
    exact preserves_pure _
  · exact preserves_lift _

theorem preserves_kind_processInfrastructureDocs (docs : InputDocs) (manifestDocs : List Val) :
    Preserves (Store.Evolves KeepsKind) (processInfrastructureDocs env docs manifestDocs) := by
  apply (preserves_reads _).bind
  intro provider
  apply (preserves_lift _).bind
  intro name
  apply (preserves_kind_buildInfrastructure env name docs.docs manifestDocs).bind
  intro infrastructureDocs
  apply (SchemaValidator.preserves_run env.validator KeepsKind.replaceYesno provider
    infrastructureDocs).bind
  intro _
  exact preserves_pure _

end ApplyEngine

/-! ## The configuration documents -/

namespace ConfigurationAppender

/-- What only appends to the configuration documents, and relates the documents in memory. -/
structure Appends (R : Val → Val → Prop) (configurationDocs : List DocId)
    (x : BuildM (List DocId)) : Prop where
  rel : ∀ {s docs s'}, x s = .ok (docs, s') →
    configurationDocs ⊆ docs ∧ Store.Evolves R s s'

variable {schema : SchemaDir} {version : String} {inputDocs configurationDocs : List DocId}
  {s s' : Store} {id : DocId} {kind : String}

theorem appendConfig_eq {docs : List DocId}
    (hrun : appendConfig version configurationDocs id s = .ok (docs, s')) :
    docs = configurationDocs ++ [id] ∧ ∃ u, setDocItem id "version" (.str version) s =
      .ok (u, s') := by
  obtain ⟨u, s₁, hset, hret⟩ := BuildM.bind_eq_ok.mp hrun
  obtain ⟨rfl, rfl⟩ := BuildM.pure_eq_ok.mp hret
  exact ⟨rfl, u, hset⟩

section

variable {R : Val → Val → Prop}

theorem appends_pure [Std.Refl R] (configurationDocs : List DocId) :
    Appends R configurationDocs (pure configurationDocs) := by
  refine ⟨fun hrun => ?_⟩
  obtain ⟨rfl, rfl⟩ := BuildM.pure_eq_ok.mp hrun
  exact ⟨List.Subset.refl _, Std.Refl.refl _⟩

theorem Appends.bind [IsTrans Val R] {x : BuildM (List DocId)}
    {f : List DocId → BuildM (List DocId)}
    (hx : Appends R configurationDocs x) (hf : ∀ docs, Appends R docs (f docs)) :
    Appends R configurationDocs (x >>= f) := by
  refine ⟨fun hrun => ?_⟩
  obtain ⟨docs, s₁, hfirst, hrest⟩ := BuildM.bind_eq_ok.mp hrun
  obtain ⟨hsub, hkeep⟩ := hx.rel hfirst
  obtain ⟨hsub', hkeep'⟩ := (hf docs).rel hrest
  exact ⟨List.Subset.trans hsub hsub', Trans.trans hkeep hkeep'⟩

/-- A step before. -/
theorem Appends.after [IsTrans Val R] {α : Type} {x : BuildM α} {f : α → BuildM (List DocId)}
    (hx : Preserves (Store.Evolves R) x) (hf : ∀ a, Appends R configurationDocs (f a)) :
    Appends R configurationDocs (x >>= f) := by
  refine ⟨fun hrun => ?_⟩
  obtain ⟨a, s₁, hfirst, hrest⟩ := BuildM.bind_eq_ok.mp hrun
  obtain ⟨hsub, hkeep⟩ := (hf a).rel hrest
  exact ⟨hsub, Trans.trans (hx.rel hfirst) hkeep⟩

variable [Std.Refl R] [IsTrans Val R]
  (hR : ∀ x y : Val, x.setItem "version" (.str version) = .ok y → R x y)

include hR

omit [IsTrans Val R] in
theorem appends_appendConfig (configurationDocs : List DocId) (id : DocId) :
    Appends R configurationDocs (appendConfig version configurationDocs id) := by
  refine ⟨fun hrun => ?_⟩
  obtain ⟨rfl, u, hset⟩ := appendConfig_eq hrun
  exact ⟨List.subset_append_left _ _, (preserves_setDocItem id hR).rel hset⟩

theorem appends_appendRequired (configurationDocs : List DocId) (kind : String) :
    Appends R configurationDocs
      (appendRequired schema version inputDocs configurationDocs kind) := by
  refine .after (preserves_reads _) fun found => ?_
  cases found with
  | some id => exact appends_appendConfig hR configurationDocs id
  | none =>
      exact .after (preserves_lift _) fun loaded => .after (preserves_lift _) fun _ =>
        .after (preserves_newDoc loaded) fun id => appends_appendConfig hR configurationDocs id

theorem appends_appendAllRequired (configurationDocs : List DocId) (kinds : List String) :
    Appends R configurationDocs
      (appendAllRequired schema version inputDocs configurationDocs kinds) := by
  induction kinds generalizing configurationDocs with
  | nil => exact appends_pure configurationDocs
  | cons kind rest ih => exact (appends_appendRequired hR configurationDocs kind).bind ih

theorem appends_appendFeature (configSelector : Val) (configurationDocs : List DocId)
    (featureKey : Val) :
    Appends R configurationDocs
      (appendFeature schema version inputDocs configSelector configurationDocs featureKey) := by
  refine .after (preserves_lift _) fun featureKey => .after (preserves_reads _) fun own => ?_
  cases own with
  | some id => exact appends_appendConfig hR configurationDocs id
  | none =>
      refine .after (preserves_reads _) fun known => ?_
      cases known with
      | some _ => exact appends_pure configurationDocs
      | none =>
          exact .after (preserves_reads _) fun merged => .after (preserves_lift _) fun _ =>
            .after (preserves_newDoc merged) fun id => appends_appendConfig hR configurationDocs id

theorem appends_appendFeatures (configSelector : Val) (configurationDocs : List DocId)
    (features : List Val) :
    Appends R configurationDocs
      (appendFeatures schema version inputDocs configSelector configurationDocs features) := by
  induction features generalizing configurationDocs with
  | nil => exact appends_pure configurationDocs
  | cons featureKey rest ih =>
      exact (appends_appendFeature hR configSelector configurationDocs featureKey).bind ih

theorem appends_appendComponents (configurationDocs : List DocId) (components : Entries) :
    Appends R configurationDocs
      (appendComponents schema version inputDocs configurationDocs components) := by
  induction components generalizing configurationDocs with
  | nil => exact appends_pure configurationDocs
  | cons component rest ih =>
      refine Appends.bind ?_ ih
      refine .after (preserves_lift _) fun count => .after (preserves_lift _) fun inactive => ?_
      cases inactive with
      | true => exact appends_pure configurationDocs
      | false =>
          exact .after (preserves_lift _) fun configSelector =>
            .after (preserves_reads _) fun features =>
              appends_appendFeatures hR configSelector configurationDocs features

/-- A run only stamps versions. -/
theorem run_evolves {docs : List DocId} (hrun : run schema version inputDocs s = .ok (docs, s')) :
    Store.Evolves R s s' := by
  simp only [run, BuildM.bind_eq_ok, lift_eq_ok] at hrun
  obtain ⟨_, _, hmodel, required, s₁, hrequired, _, _, hread, components, _, ⟨-, rfl⟩,
    hcomponents⟩ := hrun
  obtain ⟨-, rfl⟩ := reads_eq_ok.mp hmodel
  obtain ⟨-, rfl⟩ := reads_eq_ok.mp hread
  exact Trans.trans ((appends_appendAllRequired hR [] requiredDocs).rel hrequired).2
    ((appends_appendComponents hR required components).rel hcomponents).2

end

/-- The first document of a kind stays the first one. -/
theorem ownDoc_kept (hkeep : Store.Evolves KeepsKind s s') (hkind : 3 < kind.length)
    (hids : ∀ id ∈ inputDocs, id < s.next) :
    ownDoc inputDocs kind s' = ownDoc inputDocs kind s := by
  refine List.find?_congr fun id hid => ?_
  rw [Bool.eq_iff_iff, holds?_kindIs, holds?_kindIs]
  exact hkeep.doc id (hids id hid) kind hkind

/-- The document of the user of a required kind is appended. -/
theorem mem_appendAllRequired {kinds : List String} {docs : List DocId} (hmem : kind ∈ kinds)
    (hkind : 3 < kind.length) (hids : ∀ id ∈ inputDocs, id < s.next)
    (hown : ownDoc inputDocs kind s = some id)
    (hrun : appendAllRequired schema version inputDocs configurationDocs kinds s =
      .ok (docs, s')) : id ∈ docs := by
  induction kinds generalizing configurationDocs s with
  | nil => cases hmem
  | cons first rest ih =>
      obtain ⟨docs₁, s₁, hfirst, hrest⟩ := BuildM.bind_eq_ok.mp hrun
      rcases List.mem_cons.mp hmem with rfl | hmem
      · refine ((appends_appendAllRequired (fun _ _ => KeepsKind.setVersion) docs₁ rest).rel
          hrest).1 ?_
        obtain ⟨found, s₂, hselect, happend⟩ := BuildM.bind_eq_ok.mp hfirst
        obtain ⟨hfound, rfl⟩ := reads_eq_ok.mp hselect
        obtain rfl : found = some id := (selectFirst_eq_ok hfound).trans hown
        obtain ⟨rfl, -⟩ := appendConfig_eq happend
        exact List.mem_append_right _ (List.mem_singleton_self id)
      · have hkeep := ((appends_appendRequired (fun _ _ => KeepsKind.setVersion) configurationDocs
          first).rel hfirst).2
        exact ih hmem (fun other hother => (hids other hother).trans_le hkeep.next_le)
          ((ownDoc_kept hkeep hkind hids).trans hown) hrest

/-- The cluster model is one of the configuration documents. -/
theorem mem_run {clusterModel : DocId} {docs : List DocId} (hids : ∀ id ∈ inputDocs, id < s.next)
    (hown : ownDoc inputDocs "lambdastack-cluster" s = some clusterModel)
    (hrun : run schema version inputDocs s = .ok (docs, s')) :
    clusterModel ∈ docs := by
  simp only [run, BuildM.bind_eq_ok, lift_eq_ok] at hrun
  obtain ⟨_, _, hmodel, required, s₁, hrequired, _, _, hread, components, _, ⟨-, rfl⟩,
    hcomponents⟩ := hrun
  obtain ⟨-, rfl⟩ := reads_eq_ok.mp hmodel
  obtain ⟨-, rfl⟩ := reads_eq_ok.mp hread
  obtain ⟨hsub, -⟩ := (appends_appendComponents (fun _ _ => KeepsKind.setVersion) required
    components).rel hcomponents
  have hmem : "lambdastack-cluster" ∈ requiredDocs := by decide
  exact hsub (mem_appendAllRequired hmem (by decide) hids hown hrequired)

end ConfigurationAppender

/-! ## The cluster model -/

namespace SchemaValidator

/-- A schema that compares the provider with the four there are. -/
structure PatternsProvider (schema : Val) : Prop where
  reference : attrPath schema ["properties", "provider", "$ref"] =
    .ok (.str "#/definitions/provider")
  pattern : attrPath schema ["definitions", "provider", "pattern"] =
    .ok (.str "^(aws|azure|any|gcp)$")

/-- What the validation schemas say of a provider, and what jsonschema makes of it. -/
structure ChecksProvider (env : ValidatorEnv) (lower : String → String) : Prop where
  base : ∀ {provider base}, env.loadSchema provider "core/base" = .ok base →
    attrPath base ["properties", "provider", "$ref"] = .ok (.str "#/definitions/provider")
  definitions : ∀ {provider definitions},
    env.loadSchema provider "core/definitions" = .ok definitions →
    attrPath definitions ["provider", "pattern"] = .ok (.str "^(aws|azure|any|gcp)$")
  /-- Of the spellings of `any` the pattern matches one. -/
  accepts : ∀ {schema document provider}, env.accepts schema document = true →
    PatternsProvider schema → document.attrStr? "provider" = some provider →
    lower provider = "any" → provider = "any"

variable {env : ValidatorEnv} {lower : String → String} {s s' : Store} {id : DocId}

/-- What an iteration writes into a schema is not about the provider. -/
theorem PatternsProvider.prepare {base schema specification : Val} {kind : String}
    (hbase : PatternsProvider base) (h : prepare base kind specification = .ok schema) :
    PatternsProvider schema := by
  obtain ⟨entries, properties, kindEntries, rfl, hproperties, -, rfl⟩ := prepare_eq_ok.mp h
  obtain ⟨hreference, hpattern⟩ := hbase
  simp only [attrPath, List.foldlM_cons, List.foldlM_nil, Lib.bind_eq_ok, Val.getAttr_eq_ok,
    Lib.pure_eq_ok] at hreference hpattern
  constructor
  · obtain ⟨_, hfirst, provider, hprovider, text, htext, rfl⟩ := hreference
    rw [Val.attr?, hproperties] at hfirst
    cases hfirst
    simp only [attrPath, List.foldlM_cons, List.foldlM_nil, Lib.bind_eq_ok, Val.getAttr_eq_ok,
      Lib.pure_eq_ok]
    refine ⟨_, lookup_dictSet_self .., provider, ?_, _, htext, rfl⟩
    rw [Val.attr?, propertiesFor, lookup_dictSet_ne (by decide), lookup_dictSet_ne (by decide)]
    exact hprovider
  · obtain ⟨definitions, hdefinitions, provider, hprovider, text, htext, rfl⟩ := hpattern
    simp only [attrPath, List.foldlM_cons, List.foldlM_nil, Lib.bind_eq_ok, Val.getAttr_eq_ok,
      Lib.pure_eq_ok]
    refine ⟨definitions, ?_, provider, hprovider, _, htext, rfl⟩
    rw [Val.attr?, lookup_dictSet_ne (by decide)]
    exact hdefinitions

theorem init_patternsProvider {v : SchemaValidator} {provider : String}
    (hchecks : ChecksProvider env lower) (h : init env provider = .ok v) :
    PatternsProvider v.baseSchema := by
  simp only [init, Lib.bind_eq_ok] at h
  obtain ⟨base, hbase, definitions, hdefinitions, baseSchema, hset, noProvider, -, hv⟩ := h
  cases hv
  have hreference := hchecks.base hbase
  have hpattern := hchecks.definitions hdefinitions
  rw [attrPath, List.foldlM_cons] at hreference
  constructor
  · rw [attrPath, List.foldlM_cons, Val.getAttr, Val.attr?_setItem hset, if_neg (by decide)]
    exact hreference
  · rw [attrPath, List.foldlM_cons, Val.getAttr, Val.attr?_setItem hset, if_pos rfl]
    exact hpattern

/-- A validated document has its words for yes and no replaced. -/
theorem run_replaced {provider : Val} {u : Unit} (hrun : run env provider [id] s = .ok (u, s')) :
    ∃ x, s'.doc id = replaceYesno x := by
  rw [run_single hrun]
  exact ⟨_, s.write_doc_self ..⟩

/-- An accepted cluster model spells `any` as it is. -/
theorem run_provider {provider : Val} {u : Unit} (hchecks : ChecksProvider env lower)
    (hkind : (s.doc id).IsKind "lambdastack-cluster")
    (hrun : run env provider [id] s = .ok (u, s')) {own : String}
    (hown : (s'.doc id).attrStr? "provider" = some own) (hany : lower own = "any") :
    own = "any" := by
  simp only [run, BuildM.bind_eq_ok, lift_eq_ok] at hrun
  obtain ⟨_, _, ⟨-, rfl⟩, v, _, ⟨hinit, rfl⟩, hrun⟩ := hrun
  obtain ⟨v₁, s₁, hfirst, hret⟩ := BuildM.bind_eq_ok.mp hrun
  obtain ⟨-, rfl⟩ := BuildM.pure_eq_ok.mp hret
  obtain ⟨kind, schema, hverdict, -, rfl⟩ := validate_eq_ok.mp hfirst
  obtain ⟨hkind', ⟨specification, -, hprepare⟩, -, haccepts⟩ := verdict_eq_ok.mp hverdict
  obtain rfl : kind = "lambdastack-cluster" := by simpa using hkind'.symm.trans hkind
  have hpatterns : PatternsProvider schema := (init_patternsProvider hchecks hinit).prepare hprepare
  rw [s.write_doc_self] at hown
  exact hchecks.accepts haccepts hpatterns hown hany

end SchemaValidator

namespace ApplyEngine

/-- The documents of the input file are in memory, with their cluster model. -/
structure InputDocs.InMemory (lower : String → String) (docs : InputDocs) (s : Store) :
    Prop where
  allocated : ∀ id ∈ docs.docs, id < s.next
  unique : ∀ id ∈ docs.docs, (s.doc id).KeysUnique
  clusterModel : ownDoc docs.docs "lambdastack-cluster" s = some docs.clusterModel
  /-- The provider is `any` if it is one of its spellings. -/
  provider : ∀ provider, (s.doc docs.clusterModel).attrStr? "provider" = some provider →
    lower provider = "any" → provider = "any"
  /-- The cluster model was validated. -/
  replaced : ∃ x, s.doc docs.clusterModel = replaceYesno x

section

variable {env : Env} {input : Input} {docs : InputDocs} {s s' : Store}

theorem InputDocs.InMemory.mem {lower : String → String} (h : docs.InMemory lower s) :
    docs.clusterModel ∈ docs.docs :=
  List.mem_of_find?_eq_some h.clusterModel

theorem InputDocs.InMemory.isKind {lower : String → String} (h : docs.InMemory lower s) :
    (s.doc docs.clusterModel).IsKind "lambdastack-cluster" := by
  have hholds := List.find?_some h.clusterModel
  exact holds?_kindIs.mp hholds

/-- What `process_input_docs` leaves. -/
theorem processInputDocs_inMemory
    (hchecks : SchemaValidator.ChecksProvider env.validator env.builder.lower)
    (hinput : ∀ file, input.file = some file → ∀ v ∈ file, v.WellFormed)
    (hword : Objects.yesno? env.builder.version = none)
    (hrun : processInputDocs env input s = .ok (docs, s')) :
    docs.InMemory env.builder.lower s' := by
  obtain ⟨file, hfile⟩ := exists_file hrun
  have hprocessed := processInputDocs_processed hfile (hinput file hfile) hword hrun
  simp only [processInputDocs, BuildM.bind_eq_ok, lift_eq_ok] at hrun
  obtain ⟨_, _, ⟨-, rfl⟩, merged, _, ⟨-, rfl⟩, ids, s₁, hnew, clusterModel, _, hmodel,
    provider, _, hprovider, _, s₂, hvalidate, hret⟩ := hrun
  obtain ⟨hsingle, rfl⟩ := reads_eq_ok.mp hmodel
  obtain ⟨-, rfl⟩ := reads_eq_ok.mp hprovider
  obtain ⟨rfl, rfl⟩ := BuildM.pure_eq_ok.mp hret
  obtain ⟨-, -, htrees⟩ := newDocs_eq_ok hnew
  have hallocated : ∀ id ∈ ids, id < s₁.next := fun id hid => by
    obtain ⟨tree, -, hlt, -⟩ := exists_of_mem_forall₂ htrees.flip hid
    exact hlt
  have hkeep : Store.Evolves KeepsKind s₁ s₂ :=
    (SchemaValidator.preserves_run env.validator KeepsKind.replaceYesno provider
      [clusterModel]).rel hvalidate
  have hfilter := selectSingle_eq_ok hsingle
  have hown : ownDoc ids "lambdastack-cluster" s₁ = some clusterModel := by
    rw [ownDoc, ← List.head?_filter]
    exact congrArg List.head? hfilter
  have hholds := List.find?_some hown
  have hkind : (s₁.doc clusterModel).IsKind "lambdastack-cluster" := holds?_kindIs.mp hholds
  exact ⟨hprocessed.allocated, hprocessed.unique,
    (ConfigurationAppender.ownDoc_kept hkeep (by decide) hallocated).trans hown,
    fun own hown hany => SchemaValidator.run_provider hchecks hkind hvalidate hown hany,
    SchemaValidator.run_replaced hvalidate⟩

/-! ## The cloud-init documents -/

/-- A cloud-init document names the file the builder has assigned. -/
def NamesOwnFile (x : Val) : Prop :=
  x.IsKind TerraformTemplateGenerator.cloudInitKind →
    x.specAttr? "file_name" = some (.str TerraformFileCopier.cloudConfigName)

/-- What is done to a document leaves the file it names. -/
theorem NamesOwnFile.replaceYesno {x : Val} (h : NamesOwnFile x) :
    NamesOwnFile (replaceYesno x) := by
  intro hkind
  have hown := h ((KeepsKind.replaceYesno x _ (by decide)).mp hkind)
  obtain ⟨spec, hspec, hname⟩ := Option.bind_eq_some_iff.mp hown
  rw [Val.specAttr?, Val.attr?_replaceYesno, hspec, Option.map_some, Option.bind_some,
    Val.attr?_entryYesno, hname]
  rfl

theorem buildInfrastructure_namesOwnFile {provider : String} {docs ids : List DocId}
    {manifestDocs : List Val} (hdocs : ∀ id ∈ docs, id < s.next)
    (hunique : ∀ id ∈ docs, (s.doc id).KeysUnique) (hany : env.builder.lower provider ≠ "any")
    (hrun : buildInfrastructure env provider docs manifestDocs s = .ok (ids, s')) :
    ∀ id ∈ ids, id < s'.next ∧ NamesOwnFile (s'.doc id) := by
  have haws : (do
      let b ← Aws.init env.builder docs manifestDocs
      b.run env.builder env.keys) s = .ok (ids, s') →
      ∀ id ∈ ids, id < s'.next ∧ NamesOwnFile (s'.doc id) := by
    intro hrun id hid
    obtain ⟨b, s₁, hinit, hbuild⟩ := BuildM.bind_eq_ok.mp hrun
    obtain ⟨rfl, rfl, -⟩ := Aws.init_eq_ok hinit
    exact ⟨((Aws.run_kinds hdocs hunique hbuild).2 id hid).1,
      fun hkind => absurd hkind (Aws.run_no_cloudInit hdocs hunique hbuild id hid)⟩
  unfold buildInfrastructure at hrun
  generalize env.builder.lower provider = name at hrun hany
  revert hrun
  split
  · exact haws
  · exact haws
  · intro hrun id hid
    obtain ⟨b, s₁, hinit, hrun⟩ := BuildM.bind_eq_ok.mp hrun
    obtain ⟨emitted, s₂, hbuild, hret⟩ := BuildM.bind_eq_ok.mp hrun
    obtain ⟨rfl, rfl⟩ := BuildM.pure_eq_ok.mp hret
    obtain ⟨rfl, rfl, -, -, -⟩ := Azure.init_eq_ok hinit
    obtain ⟨-, others, cloudInit, hids, hlt, hothers, -, hname⟩ :=
      Azure.Emission.run_cloudInit hdocs hunique hbuild
    rw [hids] at hid
    refine ⟨hlt id hid, fun hkind => ?_⟩
    rcases List.mem_append.mp hid with hid | hid
    · exact absurd hkind (hothers id hid)
    · rw [List.mem_singleton.mp hid]
      exact hname
  · exact absurd rfl hany
  · intro hrun
    obtain ⟨habsurd, -⟩ := lift_eq_ok.mp hrun
    cases habsurd

/-- The infrastructure documents name the files the builder has assigned, unless the
provider is the one Terraform does not run for. -/
theorem processInfrastructureDocs_namesOwnFile {ids : List DocId} {manifestDocs : List Val}
    (h : docs.InMemory env.builder.lower s)
    (hrun : processInfrastructureDocs env docs manifestDocs s = .ok (ids, s')) :
    (s'.doc docs.clusterModel).attrStr? "provider" = some "any" ∨
      ∀ id ∈ ids, NamesOwnFile (s'.doc id) := by
  simp only [processInfrastructureDocs, BuildM.bind_eq_ok, lift_eq_ok] at hrun
  obtain ⟨provider, _, hread, name, _, ⟨hname, rfl⟩, infrastructure, s₁, hbuild, _, s₂, hvalidate,
    hret⟩ := hrun
  obtain ⟨hprovider, rfl⟩ := reads_eq_ok.mp hread
  obtain ⟨rfl, rfl⟩ := BuildM.pure_eq_ok.mp hret
  rw [Val.getAttr_eq_ok] at hprovider
  have hprovider : (s.doc docs.clusterModel).attrStr? "provider" = some name :=
    Val.attrStr?_eq_some.mpr ⟨provider, hprovider, Val.asStr_eq_ok.mp hname⟩
  by_cases hany : env.builder.lower name = "any"
  · obtain rfl := h.provider name hprovider hany
    let stays (x y : Val) : Prop :=
      x.attrStr? "provider" = some "any" → y.attrStr? "provider" = some "any"
    have : Std.Refl stays := ⟨fun _ => id⟩
    have : IsTrans Val stays := ⟨fun _ _ _ h h' => h' ∘ h⟩
    have hversion : ∀ x y : Val, x.setItem "version" (.str env.builder.version) = .ok y →
        stays x y := fun x y hset hx => by
      rwa [Val.attrStr?, Val.attr?_setItem hset, if_neg (by decide)]
    have hbuilt : Store.Evolves stays s s₁ := by
      rw [buildInfrastructure, hany] at hbuild
      exact ((preserves_reads _).bind fun _ => (preserves_reads _).bind fun ids =>
        (preserves_setVersions hversion ids).bind fun _ => preserves_pure _).rel hbuild
    have hreplace : ∀ x, stays x (replaceYesno x) := fun x hx => by
      obtain ⟨own, hown, htext⟩ := Val.attrStr?_eq_some.mp hx
      rw [Val.attrStr?, Val.attr?_replaceYesno, hown, Option.map_some, Option.bind_some]
      exact (str?_entryYesno_iff (by decide)).mpr htext
    have hvalidated : Store.Evolves stays s₁ s₂ :=
      (SchemaValidator.preserves_run env.validator hreplace provider infrastructure).rel hvalidate
    have hlt := h.allocated _ h.mem
    exact Or.inl (hvalidated.doc _ (hlt.trans_le hbuilt.next_le) (hbuilt.doc _ hlt hprovider))
  · have hnames := buildInfrastructure_namesOwnFile h.allocated h.unique hany hbuild
    have : Std.Refl fun x y => NamesOwnFile x → NamesOwnFile y := ⟨fun _ => id⟩
    have : IsTrans Val fun x y => NamesOwnFile x → NamesOwnFile y := ⟨fun _ _ _ h h' => h' ∘ h⟩
    have hvalidated : Store.Evolves (fun x y => NamesOwnFile x → NamesOwnFile y) s₁ s₂ :=
      (SchemaValidator.preserves_run env.validator (fun _ => NamesOwnFile.replaceYesno) provider
        infrastructure).rel hvalidate
    exact Or.inr fun id hid => hvalidated.doc id (hnames id hid).1 (hnames id hid).2

/-- The configuration documents have the cluster model. -/
theorem processConfigurationDocs_mem {ids : List DocId} (hids : ∀ id ∈ docs.docs, id < s.next)
    (hown : ownDoc docs.docs "lambdastack-cluster" s = some docs.clusterModel)
    (hrun : processConfigurationDocs env docs s = .ok (ids, s')) :
    docs.clusterModel ∈ ids ∧ Store.Evolves KeepsKind s s' := by
  simp only [processConfigurationDocs, BuildM.bind_eq_ok] at hrun
  obtain ⟨configurationDocs, s₁, happend, provider, _, hread, _, s₂, hvalidate, hret⟩ := hrun
  obtain ⟨-, rfl⟩ := reads_eq_ok.mp hread
  obtain ⟨rfl, rfl⟩ := BuildM.pure_eq_ok.mp hret
  have hkeep : Store.Evolves KeepsKind s s₁ :=
    ConfigurationAppender.run_evolves (fun _ _ => KeepsKind.setVersion) happend
  have hvalidated : Store.Evolves KeepsKind s₁ s₂ :=
    (SchemaValidator.preserves_run env.validator KeepsKind.replaceYesno provider
      configurationDocs).rel hvalidate
  exact ⟨ConfigurationAppender.mem_run hids hown happend, Trans.trans hkeep hvalidated⟩

variable (env) in
theorem preserves_kind_collectInfrastructureConfig (clusterModel : DocId) (docs : List DocId) :
    Preserves (Store.Evolves KeepsKind)
      (collectInfrastructureConfig env clusterModel docs) :=
  preserves_collectInfrastructureConfig env
    (fun _ _ _ h => .of_attr?_eq (Val.attr?_setAttrPath h (by decide))) clusterModel docs

end

/-! ## The name of the cluster -/

/-- A cluster model with the name. -/
structure IsCluster (name : String) (x : Val) : Prop where
  kind : x.IsKind "lambdastack-cluster"
  name : (x.specAttr? "name").bind Val.str? = some name

/-- A cluster model keeps the name. -/
def KeepsCluster (name : String) (x y : Val) : Prop := IsCluster name x → IsCluster name y

instance (name : String) : Std.Refl (KeepsCluster name) := ⟨fun _ => id⟩

instance (name : String) : IsTrans Val (KeepsCluster name) := ⟨fun _ _ _ h h' => h' ∘ h⟩

section

variable {env : Env} {name : String} {docs : InputDocs} {s s' : Store}

theorem KeepsCluster.setVersion {x y : Val} {version : String}
    (h : x.setItem "version" (.str version) = .ok y) : KeepsCluster name x y := by
  rintro ⟨hkind, hname⟩
  rw [← Val.specAttr?_setItem h (by decide)] at hname
  refine ⟨?_, hname⟩
  rw [Val.IsKind, Val.attr?_setItem h, if_neg (by decide)]
  exact hkind

theorem KeepsCluster.setStorage {x y value : Val}
    (h : setAttrPath x ["specification", "storage"] "data" value = .ok y) :
    KeepsCluster name x y := by
  rintro ⟨hkind, hname⟩
  refine ⟨by rwa [Val.IsKind, Val.attr?_setAttrPath h (by decide)], ?_⟩
  simp only [setAttrPath, Lib.bind_eq_ok, Val.getAttr_eq_ok] at h
  obtain ⟨spec, hspec, spec', hstorage, hset⟩ := h
  rw [Val.specAttr?, hspec, Option.bind_some] at hname
  have hstorage : setAttrPath spec ["storage"] "data" value = .ok spec' := by
    simpa only [setAttrPath, Lib.bind_eq_ok, Val.getAttr_eq_ok] using hstorage
  rw [Val.specAttr?, Val.attr?_setAttr hset, if_pos rfl, Option.bind_some,
    Val.attr?_setAttrPath hstorage (by decide)]
  exact hname

/-- The replacement of yes and no keeps a name that is no word for them. -/
theorem KeepsCluster.replaceYesno (hword : Objects.yesno? name = none) (x : Val) :
    KeepsCluster name x (replaceYesno x) := by
  rintro ⟨hkind, hname⟩
  refine ⟨(KeepsKind.replaceYesno x _ (by decide)).mpr hkind, ?_⟩
  obtain ⟨own, hown, htext⟩ := Option.bind_eq_some_iff.mp hname
  obtain ⟨spec, hspec, hown⟩ := Option.bind_eq_some_iff.mp hown
  rw [Val.specAttr?, Val.attr?_replaceYesno, hspec, Option.map_some, Option.bind_some,
    Val.attr?_entryYesno, hown, Option.map_some]
  exact (str?_entryYesno_iff hword).mpr htext

/-- A name that is left by the replacement is no word for yes or no. -/
theorem yesno?_of_replaced {x : Val}
    (h : ((LambdaStack.replaceYesno x).specAttr? "name").bind Val.str? = some name) :
    Objects.yesno? name = none := by
  obtain ⟨own', hown', htext⟩ := Option.bind_eq_some_iff.mp h
  obtain ⟨spec', hspec', hown'⟩ := Option.bind_eq_some_iff.mp hown'
  rw [Val.attr?_replaceYesno, Option.map_eq_some_iff] at hspec'
  obtain ⟨spec, -, rfl⟩ := hspec'
  rw [Val.attr?_entryYesno, Option.map_eq_some_iff] at hown'
  obtain ⟨own, -, rfl⟩ := hown'
  obtain ⟨type, rfl⟩ := Val.str?_eq_some.mp (Val.str?_of_entryYesno htext)
  rw [Val.entryYesno_str] at htext
  rw [Objects.yesno?]
  split at htext
  · cases htext
  · next hyes =>
      rw [if_neg hyes]
      split at htext
      · cases htext
      · next hno => rw [if_neg hno]

/-- No builder changes the cluster model, but for its version. -/
theorem buildInfrastructure_keepsCluster {provider : String} {docs ids : List DocId}
    {manifestDocs : List Val} (hdocs : ∀ id ∈ docs, id < s.next)
    (hunique : ∀ id ∈ docs, (s.doc id).KeysUnique)
    (hrun : buildInfrastructure env provider docs manifestDocs s = .ok (ids, s')) :
    Store.Evolves (KeepsCluster name) s s' := by
  have hkeeps : Keeps otherKinds s s' → Store.Evolves (KeepsCluster name) s s' := fun hkeep =>
    ⟨hkeep.next, fun id hid hcluster => by
      rw [hkeep.same hid hcluster.kind fun hmem => hmem rfl]
      exact hcluster⟩
  have haws : (do
      let b ← Aws.init env.builder docs manifestDocs
      b.run env.builder env.keys) s = .ok (ids, s') →
      Store.Evolves (KeepsCluster name) s s' := by
    intro hrun
    obtain ⟨b, s₁, hinit, hbuild⟩ := BuildM.bind_eq_ok.mp hrun
    obtain ⟨rfl, rfl, -⟩ := Aws.init_eq_ok hinit
    exact hkeeps (Aws.run_kinds hdocs hunique hbuild).1
  unfold buildInfrastructure at hrun
  generalize env.builder.lower provider = lowered at hrun
  revert hrun
  split
  · exact haws
  · exact haws
  · intro hrun
    obtain ⟨b, s₁, hinit, hrun⟩ := BuildM.bind_eq_ok.mp hrun
    obtain ⟨emitted, s₂, hbuild, hret⟩ := BuildM.bind_eq_ok.mp hrun
    obtain ⟨rfl, rfl⟩ := BuildM.pure_eq_ok.mp hret
    obtain ⟨rfl, rfl, -, -, -⟩ := Azure.init_eq_ok hinit
    exact hkeeps (Azure.Emission.run_cloudInit hdocs hunique hbuild).1
  · intro hrun
    have hversions : ∀ ids, Preserves (Store.Evolves (KeepsCluster name))
        (Any.setVersions env.builder.version ids) :=
      preserves_setVersions fun _ _ => KeepsCluster.setVersion
    exact ((preserves_reads _).bind fun _ => (preserves_reads _).bind fun ids =>
      (hversions ids).bind fun _ => preserves_pure _).rel hrun
  · intro hrun
    obtain ⟨habsurd, -⟩ := lift_eq_ok.mp hrun
    cases habsurd

variable (hword : Objects.yesno? name = none)

include hword

theorem processInfrastructureDocs_keepsCluster {ids : List DocId} {manifestDocs : List Val}
    (h : docs.InMemory env.builder.lower s)
    (hrun : processInfrastructureDocs env docs manifestDocs s = .ok (ids, s')) :
    Store.Evolves (KeepsCluster name) s s' := by
  simp only [processInfrastructureDocs, BuildM.bind_eq_ok, lift_eq_ok] at hrun
  obtain ⟨provider, _, hread, own, _, ⟨-, rfl⟩, infrastructure, s₁, hbuild, _, s₂, hvalidate,
    hret⟩ := hrun
  obtain ⟨-, rfl⟩ := reads_eq_ok.mp hread
  obtain ⟨rfl, rfl⟩ := BuildM.pure_eq_ok.mp hret
  have hvalidated : Store.Evolves (KeepsCluster name) s₁ s₂ :=
    (SchemaValidator.preserves_run env.validator (KeepsCluster.replaceYesno hword) provider
      infrastructure).rel hvalidate
  have hbuilt : Store.Evolves (KeepsCluster name) s s₁ :=
    buildInfrastructure_keepsCluster h.allocated h.unique hbuild
  exact Trans.trans hbuilt hvalidated

theorem processConfigurationDocs_keepsCluster {ids : List DocId}
    (hrun : processConfigurationDocs env docs s = .ok (ids, s')) :
    Store.Evolves (KeepsCluster name) s s' := by
  simp only [processConfigurationDocs, BuildM.bind_eq_ok] at hrun
  obtain ⟨configurationDocs, s₁, happend, provider, _, hread, _, s₂, hvalidate, hret⟩ := hrun
  obtain ⟨-, rfl⟩ := reads_eq_ok.mp hread
  obtain ⟨rfl, rfl⟩ := BuildM.pure_eq_ok.mp hret
  have happended : Store.Evolves (KeepsCluster name) s s₁ :=
    ConfigurationAppender.run_evolves (fun _ _ => KeepsCluster.setVersion) happend
  have hvalidated : Store.Evolves (KeepsCluster name) s₁ s₂ :=
    (SchemaValidator.preserves_run env.validator (KeepsCluster.replaceYesno hword) provider
      configurationDocs).rel hvalidate
  exact Trans.trans happended hvalidated

end

end ApplyEngine

end LambdaStack
