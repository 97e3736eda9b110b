/-
# What the providers know after the infrastructure is built

The `InfrastructureConfigCollector` of each provider writes where the storage of
the Kubernetes volumes is into the configuration of the masters; the builder of
the provider `any` only stamps the user's documents. The answers of the cloud
providers are parameters.
-/

import LambdaStack.Engine.Providers.DocStore
import LambdaStack.Helpers.DocListHelpers

namespace LambdaStack

open Lib BuildM

/-- The answers of the providers' proxies about storage. -/
structure StorageProxy where
  /-- `get_efs_id_for_given_token` of AWS. -/
  getEfsIdForGivenToken : Val → Res String
  /-- `get_storage_account_primary_key` of Azure. -/
  getStorageAccountPrimaryKey : Val → Res Val

variable (proxy : StorageProxy)

/-- `select_first` of a kind in the collected documents. -/
def selectKind (docs : List DocId) (kind : String) : BuildM (Option DocId) :=
  reads fun doc => selectFirst docs (kindIs kind ∘ doc)

namespace Aws

/-- `get_efs_server_url`. -/
def getEfsServerUrl (clusterModel : Val) (filesystemId : String) : Res Val := do
  let region ← attrPath clusterModel ["specification", "cloud", "region"]
  let region ← region.asStr
  .ok (.str (filesystemId ++ ".efs." ++ region ++ ".amazonaws.com"))

/-- `InfrastructureConfigCollector(docs).run()` of AWS. -/
def collect (docs : List DocId) : BuildM Unit := do
  let clusterModel ← reads fun doc => selectSingle docs (kindIs "lambdastack-cluster" ∘ doc)
  let efsStorageConfig ← selectKind docs "infrastructure/efs-storage"
  let kubernetesConfig ← selectKind docs "configuration/kubernetes-master"
  match efsStorageConfig, kubernetesConfig with
  | some efs, some kubernetes => do
      let mountTargets ← specAttr efs "mount_targets"
      let mountTargets ← lift mountTargets.asList
      if mountTargets.isEmpty then pure ()
      else do
        let token ← specAttr efs "token"
        let fsId ← lift (proxy.getEfsIdForGivenToken token)
        let url ← reads fun doc => getEfsServerUrl (doc clusterModel) fsId
        setDocPath kubernetes ["specification", "storage"] "data" (.dict [("server", url)])
  | _, _ => pure ()

end Aws

namespace Azure

/-- `InfrastructureConfigCollector(docs).run()` of Azure. -/
def collect (docs : List DocId) : BuildM Unit := do
  let _ ← reads fun doc => selectSingle docs (kindIs "lambdastack-cluster" ∘ doc)
  let storageShareConfig ← selectKind docs "infrastructure/storage-share"
  let kubernetesConfig ← selectKind docs "configuration/kubernetes-master"
  match storageShareConfig, kubernetesConfig with
  | some share, some kubernetes => do
      let accountName ← specAttr share "storage_account_name"
      let primaryKey ← lift (proxy.getStorageAccountPrimaryKey accountName)
      setDocPath kubernetes ["specification", "storage"] "data"
        (.dict [("storage_account_name", accountName), ("storage_account_key", primaryKey)])
  | _, _ => pure ()

end Azure

namespace Any

/-- `InfrastructureConfigCollector(docs).run()` of `any`. -/
def collect (docs : List DocId) : BuildM Unit := do
  let _ ← reads fun doc => selectSingle docs (kindIs "lambdastack-cluster" ∘ doc)
  pure ()

/-- `x.kind.startswith('infrastructure/')`. -/
def isInfrastructure (x : Val) : Res Bool := do
  let kind ← x.getAttr "kind"
  let kind ← kind.asStr
  .ok ("infrastructure/".toList.isPrefixOf kind.toList)

/-- The loop that stamps the documents. -/
def setVersions (version : String) : List DocId → BuildM Unit
  | [] => pure ()
  | id :: rest => do
      setDocItem id "version" (.str version)
      setVersions version rest

/-- `InfrastructureBuilder(docs, manifest_docs).run()` of `any`. -/
def build (version : String) (docs : List DocId) : BuildM (List DocId) := do
  let _ ← reads fun doc => selectSingle docs (kindIs "lambdastack-cluster" ∘ doc)
  let infrastructureDocs ← reads fun doc => selectAll docs (isInfrastructure ∘ doc)
  setVersions version infrastructureDocs
  pure infrastructureDocs

end Any

/-! ## What collecting keeps -/

section

variable {R : Val → Val → Prop} [Std.Refl R] [IsTrans Val R]

variable (hR : ∀ x y value : Val,
  setAttrPath x ["specification", "storage"] "data" value = .ok y → R x y)

include hR

theorem Aws.preserves_collect (docs : List DocId) :
    Preserves (Store.Evolves R) (Aws.collect proxy docs) := by
  apply (preserves_reads _).bind
  intro clusterModel
  apply (preserves_reads _).bind
  intro efs
  apply (preserves_reads _).bind
  intro kubernetes
  cases efs with
  | none => exact preserves_pure ()
  | some efs =>
      cases kubernetes with
      | none => exact preserves_pure ()
      | some kubernetes =>
          apply (preserves_reads _).bind
          intro mountTargets
          apply (preserves_lift _).bind
          intro mountTargets
          refine Preserves.ite (preserves_pure _) ?_
          apply (preserves_reads _).bind
          intro token
          apply (preserves_lift _).bind
          intro fsId
          apply (preserves_reads _).bind
          intro url
          exact preserves_setDocPath kubernetes fun _ _ h => hR _ _ _ h

theorem Azure.preserves_collect (docs : List DocId) :
    Preserves (Store.Evolves R) (Azure.collect proxy docs) := by
  apply (preserves_reads _).bind
  intro _
  apply (preserves_reads _).bind
  intro share
  apply (preserves_reads _).bind
  intro kubernetes
  cases share with
  | none => exact preserves_pure ()
  | some share =>
      cases kubernetes with
      | none => exact preserves_pure ()
      | some kubernetes =>
          apply (preserves_reads _).bind
          intro accountName
          apply (preserves_lift _).bind
          intro primaryKey
          exact preserves_setDocPath kubernetes fun _ _ h => hR _ _ _ h

omit hR in
theorem Any.preserves_collect (docs : List DocId) :
    Preserves (Store.Evolves R) (Any.collect docs) := by
  apply (preserves_reads _).bind
  intro _
  exact preserves_pure ()

end

end LambdaStack
