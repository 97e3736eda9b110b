/-
# What the steps of an apply leave

The work on the documents is that of `ApplyEngine`, so the documents are what it leaves:
the cluster model is one of those a manifest is saved with, and the files that are copied
for Terraform are the ones the builder has named.
-/

import LambdaStack.Engine.ApplyDocs
import LambdaStack.Engine.ApplyRun

namespace LambdaStack

open Lib BuildM

namespace ApplyRun

section

variable {env : Env} {options : Options} {w w' : World}

theorem onDocs_eq_ok {α : Type} {x : ApplyEngine.Env → BuildM α} {a : α} :
    (onDocs env x).exec w = (.ok a, w') ↔
      ∃ s, x (env.engine w.files (.ok ()) (.ok ())) w.store = .ok (a, s) ∧
        w' = { w with store := s } :=
  onStore_eq_ok

theorem onDocs_reads {α : Type} {f : ApplyEngine.Env → (DocId → Val) → Res α} {a : α}
    (h : (onDocs env fun engine => reads (f engine)).exec w = (.ok a, w')) : w' = w := by
  obtain ⟨s, hread, rfl⟩ := onDocs_eq_ok.mp h
  obtain ⟨-, rfl⟩ := reads_eq_ok.mp hread
  rfl

/-- What a successful preparation leaves: the cluster model is one of the documents, and
the files that are copied for Terraform are the builder's. -/
structure Prepared (input : ApplyEngine.Input) (docs : ApplyEngine.InputDocs)
    (infrastructureDocs : List DocId) (s : Store) : Prop where
  allocated : ∀ id ∈ docs.docs, id < s.next
  clusterModel : ownDoc docs.docs "lambdastack-cluster" s = some docs.clusterModel
  files : skipsTerraform input (s.doc docs.clusterModel) = .ok false →
    TerraformFileCopier.NamesCloudConfig
      (s.doc docs.clusterModel :: infrastructureDocs.map s.doc)

theorem Prepared.mem {input : ApplyEngine.Input} {docs : ApplyEngine.InputDocs}
    {infrastructureDocs : List DocId} {s : Store} (h : Prepared input docs infrastructureDocs s) :
    docs.clusterModel ∈ docs.docs :=
  List.mem_of_find?_eq_some h.clusterModel

theorem Prepared.isKind {input : ApplyEngine.Input} {docs : ApplyEngine.InputDocs}
    {infrastructureDocs : List DocId} {s : Store} (h : Prepared input docs infrastructureDocs s) :
    (s.doc docs.clusterModel).IsKind "lambdastack-cluster" := by
  have hholds := List.find?_some h.clusterModel
  exact holds?_kindIs.mp hholds

variable (env) in
theorem quiet_loadManifest (clusterModel : DocId) :
    Quiet (fun w : World => w) (loadManifest env clusterModel) := by
  refine (relates_read _).bind fun name => (relates_read _).bind fun file => ?_
  cases file with
  | none => exact relates_pure []
  | some content => exact relates_read _

theorem prepare_prepared
    (hchecks : SchemaValidator.ChecksProvider env.validator env.builder.lower)
    (hword : Objects.yesno? env.builder.version = none)
    (hinput : ∀ file, options.file = some file → ∀ v ∈ file, v.WellFormed)
    {prepared : ApplyEngine.InputDocs × List DocId}
    (hrun : (prepare env options).exec w = (.ok prepared, w')) :
    Prepared options.toInput prepared.1 prepared.2 w'.store := by
  simp only [prepare, Action.bind_eq_ok] at hrun
  obtain ⟨docs, w₁, hdocs, _, w₂, hmaster, _, w₃, hpostgres, manifestDocs, w₄, hmanifest, ids, w₅,
    hinfrastructure, hret⟩ := hrun
  cases hret
  obtain ⟨s₁, hread, rfl⟩ := onDocs_eq_ok.mp hdocs
  obtain rfl := onDocs_reads hmaster
  obtain rfl := onDocs_reads hpostgres
  have hsame := (quiet_loadManifest env docs.clusterModel).rel { w with store := s₁ }
  rw [hmanifest] at hsame
  obtain rfl : w₄ = { w with store := s₁ } := hsame
  obtain ⟨s₂, hbuild, rfl⟩ := onDocs_eq_ok.mp hinfrastructure
  have hmemory : docs.InMemory env.builder.lower s₁ := by
    refine ApplyEngine.processInputDocs_inMemory ?_ hinput ?_ hread
    · exact hchecks
    · exact hword
  have hkeep := (ApplyEngine.preserves_kind_processInfrastructureDocs _ docs manifestDocs).rel
    hbuild
  have hown := (ConfigurationAppender.ownDoc_kept hkeep (by decide) hmemory.allocated).trans
    hmemory.clusterModel
  refine ⟨fun id hid => (hmemory.allocated id hid).trans_le hkeep.next_le, hown, fun hskip => ?_⟩
  have hholds := List.find?_some hown
  have hkind : (s₂.doc docs.clusterModel).IsKind "lambdastack-cluster" := holds?_kindIs.mp hholds
  rcases ApplyEngine.processInfrastructureDocs_namesOwnFile hmemory hbuild with hany | hnames
  · -- Terraform is skipped for this provider
    obtain ⟨provider, hprovider, htext⟩ := Val.attrStr?_eq_some.mp hany
    have hsame : provider.pyEq (.str "any") = true := pyEq_str_eq_true.mpr htext
    rw [skipsTerraform, Val.getItem_eq_ok.mpr hprovider] at hskip
    simp [hsame] at hskip
  · intro doc hdoc hcloud
    rw [AnsibleInventoryCreator.attrPath_spec_eq_ok]
    rcases List.mem_cons.mp hdoc with rfl | hdoc
    · have hsame := hkind.symm.trans hcloud
      simp [TerraformTemplateGenerator.cloudInitKind] at hsame
    · obtain ⟨id, hid, rfl⟩ := List.mem_map.mp hdoc
      exact hnames id hid hcloud

/-- The cluster model is one of the configuration documents, and it stays a cluster model. -/
theorem configurationDocs_mem {docs : ApplyEngine.InputDocs} {infrastructureDocs ids : List DocId}
    {w₁ w₂ : World} {u : Unit} (h : Prepared options.toInput docs infrastructureDocs w.store)
    (hrun : (onDocs env fun engine =>
      ApplyEngine.processConfigurationDocs engine docs).exec w = (.ok ids, w₁))
    (hcollect : (onDocs env fun engine => ApplyEngine.collectInfrastructureConfig engine
      docs.clusterModel (ids ++ infrastructureDocs)).exec w₁ = (.ok u, w₂)) :
    docs.clusterModel ∈ ids ∧ (w₂.store.doc docs.clusterModel).IsKind "lambdastack-cluster" := by
  obtain ⟨s₁, hconfiguration, rfl⟩ := onDocs_eq_ok.mp hrun
  obtain ⟨s₂, hstorage, rfl⟩ := onDocs_eq_ok.mp hcollect
  obtain ⟨hmem, hkeep⟩ :=
    ApplyEngine.processConfigurationDocs_mem h.allocated h.clusterModel hconfiguration
  have hkeep' := (ApplyEngine.preserves_kind_collectInfrastructureConfig _ _ _).rel hstorage
  have hlt := h.allocated _ h.mem
  have hisKind := (hkeep.doc _ hlt _ (by decide)).mpr h.isKind
  exact ⟨hmem, (hkeep'.doc _ (hlt.trans_le hkeep.next_le) _ (by decide)).mpr hisKind⟩

end

end ApplyRun

end LambdaStack
