/-
# An apply with its files and processes

`ApplyEngine.apply` on the files of the output directory, with the processes it starts.
The work on the documents in memory is that of `ApplyEngine`; what the steps around it
read and write is a file here, and Terraform and Ansible are the processes their
runners start.
-/

import LambdaStack.Engine.Ansible.AnsibleRunner
import LambdaStack.Engine.ApplyEngine
import LambdaStack.Engine.Terraform.TerraformFileCopier
import LambdaStack.Engine.Terraform.TerraformRunner

namespace LambdaStack

open Lib
open ApplyEngine (Input InputDocs ScalingEnv processInputDocs assertOn assertNoMasterDownscale
  assertNoPostgresNodesNumberChange processInfrastructureDocs assertConsistentOsFamily
  processConfigurationDocs collectInfrastructureConfig)

namespace ApplyRun

/-- What an apply reads besides the input file and the output directory. -/
structure Env extends toRunner : AnsibleRunner.Env where
  builder : Aws.Env
  keys : Aws.KeySource
  /-- The recursion limit of the interpreter. -/
  depth : Nat
  validator : ValidatorEnv
  storage : StorageProxy
  /-- The integer a string denotes, for `int`. -/
  parseInt : String → Option Int
  /-- `InventoryManager`, on the content of a file. -/
  readInventory : List Chunk → InventoryManager
  /-- `load_yamls_file`, on the content of a file. -/
  loadYamls : List Chunk → Res (List Val)
  /-- `load_yaml_file`, on the content of a file. -/
  loadYaml : List Chunk → Res Val
  /-- The template of a document's provider and kind, rendered with the document. -/
  render : Val → Res String
  /-- `TERRAFORM_BASE_PATH`. -/
  terraformBase : FilePath
  /-- `do_retry` after the last process. -/
  doRetry : List Entry → Bool
  /-- `json.loads`, with `none` for its exceptions. -/
  loads : List Char → Option Val
  /-- `str`. -/
  str : Val → String

/-- The command line. -/
structure Options extends Input where
  profileTasks : Bool
  pingRetries : Int

namespace Env

variable (env : Env)

/-- What the Terraform runner reads. -/
def terraform : TerraformRunner.Env where
  execute := env.execute
  debug := env.debug
  doRetry := env.doRetry
  output := env.output
  lower := env.builder.lower
  loads := env.loads
  loadYaml := env.loadYaml
  str := env.str

/-- What the scaling assertions read. -/
def scaling (files : Tree) : ScalingEnv where
  parseInt := env.parseInt
  inventories clusterName :=
    (files (inventoryFilePath env.output clusterName)).map env.readInventory

/-- What the work on the documents reads, with given ends of Terraform and Ansible. -/
def engine (files : Tree) (terraform ansible : Res Unit) : ApplyEngine.Env where
  builder := env.builder
  keys := env.keys
  depth := env.depth
  validator := env.validator
  scaling := env.scaling files
  storage := env.storage
  terraform _ _ := terraform
  ansible _ _ := ansible

end Env

variable (env : Env)

/-- A part of an apply on the documents. -/
def onDocs {α : Type} (x : ApplyEngine.Env → BuildM α) : Cli α := fun w =>
  onStore (x (env.engine w.files (.ok ()) (.ok ()))) w

/-- `self.cluster_model.specification.name`. -/
def clusterName (clusterModel : DocId) : Cli String :=
  readDocs fun doc => specName (doc clusterModel)

/-- `load_manifest`: no documents when there is no file. -/
def loadManifest (clusterModel : DocId) : Cli (List Val) := do
  let name ← clusterName clusterModel
  let file ← Action.read fun w => .ok (w.files (manifestFilePath env.output name))
  match file with
  | none => pure []
  | some content => Action.read fun _ => env.loadYamls content

/-- `save_manifest`. -/
def saveManifest (docs : List DocId) (clusterModel : DocId) : Cli Unit := do
  let name ← clusterName clusterModel
  let trees ← readDocs fun doc => .ok (docs.map doc)
  writeFile (manifestFilePath env.output name) (.yaml trees)

theorem exec_clusterName {clusterModel : DocId} {name : String} {w : World}
    (h : specName (w.store.doc clusterModel) = .ok name) :
    (clusterName clusterModel).exec w = (.ok name, w) := Prod.ext h rfl

/-- The world with a manifest that was saved. -/
def withManifest (name : String) (docs : List DocId) (w : World) : World :=
  { w with
    files := w.files.write (manifestFilePath env.output name) [.yaml (docs.map w.store.doc)] }

variable {env} in
theorem exec_saveManifest {docs : List DocId} {clusterModel : DocId} {name : String} {w : World}
    (h : specName (w.store.doc clusterModel) = .ok name) :
    (saveManifest env docs clusterModel).exec w = (.ok (), withManifest env name docs w) := by
  rw [saveManifest, Action.exec_bind_ok (exec_clusterName h)]
  rfl

/-- The Terraform steps. -/
def provisionInfrastructure (clusterModel : Val) (infrastructure : List Val) : Cli Unit := do
  TerraformTemplateGenerator.run ⟨env.output, env.render⟩ clusterModel infrastructure
  TerraformFileCopier.run ⟨env.output, env.terraformBase⟩ clusterModel infrastructure
  let runner ← TerraformRunner.init env.terraform clusterModel
  TerraformRunner.build env.terraform runner

/-- `self.skip_infrastructure or self.is_provider_any(self.cluster_model)`. -/
def skipsTerraform (input : Input) (clusterModel : Val) : Res Bool := do
  let provider ← clusterModel.getItem "provider"
  .ok (input.skipInfrastructure || provider.pyEq (.str "any"))

/-- The Terraform steps, unless they are skipped. -/
def runTerraform (input : Input) (clusterModel : DocId) (infrastructureDocs : List DocId) :
    Cli Unit := do
  let skips ← readDocs fun doc => skipsTerraform input (doc clusterModel)
  if skips then pure ()
  else do
    let docs ← readDocs fun doc => .ok (doc clusterModel, infrastructureDocs.map doc)
    provisionInfrastructure env docs.1 docs.2

/-- The Ansible run, unless it is skipped. -/
def runAnsible (options : Options) (clusterModel : DocId) (docs : List DocId) : Cli Unit :=
  if options.skipConfig then pure ()
  else AnsibleRunner.apply env.toRunner
    ⟨clusterModel, docs, options.profileTasks, options.pingRetries⟩

/-- The part of `apply` before the first `save_manifest`. -/
def prepare (options : Options) : Cli (InputDocs × List DocId) := do
  let docs ← onDocs env fun engine => processInputDocs engine options.toInput
  onDocs env fun engine => assertOn engine assertNoMasterDownscale docs.clusterModel
  onDocs env fun engine => assertOn engine assertNoPostgresNodesNumberChange docs.clusterModel
  let manifestDocs ← loadManifest env docs.clusterModel
  let infrastructureDocs ← onDocs env fun engine =>
    processInfrastructureDocs engine docs manifestDocs
  pure (docs, infrastructureDocs)

/-- The part of `apply` between the two `save_manifest`. -/
def configure (options : Options) (docs : InputDocs) (infrastructureDocs : List DocId) :
    Cli (List DocId) := do
  onDocs env fun engine => assertConsistentOsFamily engine infrastructureDocs
  runTerraform env options.toInput docs.clusterModel infrastructureDocs
  let configurationDocs ← onDocs env fun engine => processConfigurationDocs engine docs
  onDocs env fun engine => collectInfrastructureConfig engine docs.clusterModel
    (configurationDocs ++ infrastructureDocs)
  pure configurationDocs

/-- `apply`. -/
def apply (options : Options) : Cli Unit := do
  let prepared ← prepare env options
  saveManifest env (prepared.1.docs ++ prepared.2) prepared.1.clusterModel
  let configurationDocs ← configure env options prepared.1 prepared.2
  saveManifest env (configurationDocs ++ prepared.2) prepared.1.clusterModel
  runAnsible env options prepared.1.clusterModel (configurationDocs ++ prepared.2)

end ApplyRun

end LambdaStack
