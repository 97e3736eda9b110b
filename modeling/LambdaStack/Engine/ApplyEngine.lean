/-
# Applying a configuration

`ApplyEngine.apply`: the steps of an apply in their order, on the documents in
memory and the manifest in the build directory. A step that raises ends the run;
what the steps before it have written stays. The steps that run Terraform and
Ansible write other files of the build directory, so only whether they raise is
modelled.
-/

import LambdaStack.Engine.Providers.Aws.InfrastructureBuilder
import LambdaStack.Engine.Providers.Azure.InfrastructureBuilder
import LambdaStack.Engine.Providers.InfrastructureConfigCollector
import LambdaStack.Engine.ScalingAssertions
import LambdaStack.Engine.Schema.ConfigurationAppender
import LambdaStack.Engine.Schema.DefaultMerger
import LambdaStack.Engine.Schema.SchemaValidator
import LambdaStack.Lib.Action

namespace LambdaStack

open Lib BuildM

namespace ApplyEngine

/-- What an apply reads besides the input file and the manifest. -/
structure Env where
  /-- The environment of the builders; the AWS builder reads the most. -/
  builder : Aws.Env
  keys : Aws.KeySource
  /-- The recursion limit of the interpreter. -/
  depth : Nat
  validator : ValidatorEnv
  scaling : ScalingEnv
  storage : StorageProxy
  /-- Whether the Terraform steps raise, for the cluster model and the
  infrastructure documents. -/
  terraform : Val → List Val → Res Unit
  /-- Whether the Ansible run raises, for the cluster model and all documents. -/
  ansible : Val → List Val → Res Unit

/-- The command line: the input file and the two switches. -/
structure Input where
  path : String
  /-- The documents of the file, if it is one. -/
  file : Option (List Val)
  skipInfrastructure : Bool
  skipConfig : Bool

/-- The steps of `apply` that raise. -/
inductive Stage
  | inputDocs
  | masterDownscale
  | postgresChange
  | infrastructureDocs
  | osFamily
  | terraform
  | configurationDocs
  | infrastructureConfig
  | ansible
  deriving DecidableEq, Repr

/-- The documents in memory, and the manifest in the build directory. -/
structure World where
  store : Store
  manifest : Option (List Val)

/-- A part of an apply: a result, or an exception with the step that raised it,
and the world it leaves. -/
abbrev ApplyM := Action World (Stage × Exc)

section

variable {α : Type}

/-- A step that works on the documents in memory. -/
def atStage (stage : Stage) (x : BuildM α) : ApplyM α := fun w =>
  match x w.store with
  | .ok (a, s) => (.ok a, { w with store := s })
  | .error e => (.error (stage, e), w)

/-- `save_manifest`. -/
def saveManifest (docs : List DocId) : ApplyM Unit := fun w =>
  (.ok (), { w with manifest := some (docs.map w.store.doc) })

/-- `load_manifest`: no documents when there is no file. -/
def loadManifest : ApplyM (List Val) := fun w => (.ok (w.manifest.getD []), w)

variable {w w' : World} {e : Stage × Exc}

theorem atStage_eq_ok {stage : Stage} {x : BuildM α} {a : α} :
    (atStage stage x).exec w = (.ok a, w') ↔
      ∃ s, x w.store = .ok (a, s) ∧ w' = { w with store := s } := by
  rcases h : x w.store with e | ⟨a, s⟩ <;> simp [Action.exec, atStage, h, eq_comm]

theorem atStage_eq_error {stage : Stage} {x : BuildM α} :
    (atStage stage x).exec w = (.error e, w') ↔
      ∃ exc, x w.store = .error exc ∧ e = (stage, exc) ∧ w' = w := by
  rcases h : x w.store with exc | ⟨a, s⟩ <;> simp [Action.exec, atStage, h, eq_comm]

theorem saveManifest_exec (docs : List DocId) (w : World) :
    (saveManifest docs).exec w =
      (.ok (), { w with manifest := some (docs.map w.store.doc) }) := rfl

theorem loadManifest_exec (w : World) :
    loadManifest.exec w = (.ok (w.manifest.getD []), w) := rfl

end

variable (env : Env)

/-- Put documents into memory. -/
def newDocs : List Val → BuildM (List DocId)
  | [] => pure []
  | doc :: rest => do
      let id ← newDoc doc
      let ids ← newDocs rest
      pure (id :: ids)

/-- The documents of the input file. -/
def loadInput (input : Input) : Res (List Val) :=
  match input.file with
  | some docs => .ok docs
  | none => .error (.fileNotFoundError input.path)

/-- The attributes `input_docs` and `cluster_model`. -/
structure InputDocs where
  docs : List DocId
  clusterModel : DocId

/-- `process_input_docs`. -/
def processInputDocs (input : Input) : BuildM InputDocs := do
  let docs ← lift (loadInput input)
  let merged ← lift (DefaultMerger.run
    ⟨env.builder.schema, env.builder.version, env.depth⟩ docs)
  let docs ← newDocs merged
  let clusterModel ← reads fun doc => selectSingle docs (kindIs "lambdastack-cluster" ∘ doc)
  let provider ← reads fun doc => (doc clusterModel).getAttr "provider"
  SchemaValidator.run env.validator provider [clusterModel]
  pure ⟨docs, clusterModel⟩

/-- A scaling assertion on the cluster model. -/
def assertOn (assertion : ScalingEnv → Val → Res Unit) (clusterModel : DocId) : BuildM Unit :=
  reads fun doc => assertion env.scaling (doc clusterModel)

/-- `InfrastructureBuilder(docs, manifest_docs).run()` of the provider. The
builder of `gcp` is that of AWS. -/
def buildInfrastructure (provider : String) (docs : List DocId) (manifestDocs : List Val) :
    BuildM (List DocId) :=
  match env.builder.lower provider with
  | "aws" | "gcp" => do
      let b ← Aws.init env.builder docs manifestDocs
      b.run env.builder env.keys
  | "azure" => do
      let b ← Azure.init env.builder.toBuilderEnv docs manifestDocs
      let emitted ← b.run env.builder.toBuilderEnv
      pure (emitted.map Azure.Emitted.doc)
  | "any" => Any.build env.builder.version docs
  | _ => lift (.error (.exception ("No InfrastructureBuilder for " ++ provider)))

/-- `process_infrastructure_docs`, after the manifest has been loaded. -/
def processInfrastructureDocs (input : InputDocs) (manifestDocs : List Val) :
    BuildM (List DocId) := do
  let provider ← reads fun doc => (doc input.clusterModel).getAttr "provider"
  let name ← lift provider.asStr
  let infrastructureDocs ← buildInfrastructure env name input.docs manifestDocs
  SchemaValidator.run env.validator provider infrastructureDocs
  pure infrastructureDocs

/-- `len(os_indicators) > 1`: some indicator is not the first one. -/
def mixed : List Val → Bool
  | [] => false
  | first :: rest => rest.any fun indicator => !indicator.pyEq first

/-- `assert_consistent_os_family`. -/
def assertConsistentOsFamily (infrastructureDocs : List DocId) : BuildM Unit :=
  reads fun doc => do
    let virtualMachineDocs ← selectAll infrastructureDocs
      (kindIs "infrastructure/virtual-machine" ∘ doc)
    let osIndicators ← virtualMachineDocs.mapM fun id =>
      getOsDistroNormalized env.builder.lower (doc id)
    if mixed osIndicators then
      .error (.exception ("Detected mixed Linux distros in config, lsrepo will not work " ++
        "properly. Please inspect your config manifest. Forgot to define repository VM document?"))
    else .ok ()

/-- The Terraform steps, unless they are skipped. -/
def runTerraform (input : Input) (clusterModel : DocId) (infrastructureDocs : List DocId) :
    BuildM Unit :=
  reads fun doc => do
    let isProviderAny ← do
      let provider ← (doc clusterModel).getItem "provider"
      .ok (provider.pyEq (.str "any"))
    if input.skipInfrastructure || isProviderAny then .ok ()
    else env.terraform (doc clusterModel) (infrastructureDocs.map doc)

/-- `process_configuration_docs`. -/
def processConfigurationDocs (input : InputDocs) : BuildM (List DocId) := do
  let configurationDocs ← ConfigurationAppender.run env.builder.schema env.builder.version
    input.docs
  let provider ← reads fun doc => (doc input.clusterModel).getAttr "provider"
  SchemaValidator.run env.validator provider configurationDocs
  pure configurationDocs

/-- `collect_infrastructure_config`. -/
def collectInfrastructureConfig (clusterModel : DocId) (docs : List DocId) : BuildM Unit := do
  let provider ← reads fun doc => (doc clusterModel).getAttr "provider"
  let name ← lift provider.asStr
  match env.builder.lower name with
  | "aws" | "gcp" => Aws.collect env.storage docs
  | "azure" => Azure.collect env.storage docs
  | "any" => Any.collect docs
  | _ => lift (.error (.exception ("No InfrastructureConfigCollector for " ++ name)))

/-- Collecting does what setting the storage does. -/
theorem preserves_collectInfrastructureConfig {R : Val → Val → Prop} [Std.Refl R] [IsTrans Val R]
    (hR : ∀ x y value : Val,
      setAttrPath x ["specification", "storage"] "data" value = .ok y → R x y)
    (clusterModel : DocId) (docs : List DocId) :
    Preserves (Store.Evolves R) (collectInfrastructureConfig env clusterModel docs) := by
  apply (preserves_reads _).bind
  intro provider
  apply (preserves_lift _).bind
  intro name
  split
  · exact Aws.preserves_collect env.storage hR docs
  · exact Aws.preserves_collect env.storage hR docs
  · exact Azure.preserves_collect env.storage hR docs
  · exact Any.preserves_collect docs
  · exact preserves_lift _

/-- The Ansible run, unless it is skipped. -/
def runAnsible (input : Input) (clusterModel : DocId) (docs : List DocId) : BuildM Unit :=
  reads fun doc =>
    if input.skipConfig then .ok () else env.ansible (doc clusterModel) (docs.map doc)

/-- The documents an apply has when it ends. -/
structure Applied where
  inputDocs : List DocId
  configurationDocs : List DocId
  infrastructureDocs : List DocId

/-- The part of `apply` before the first `save_manifest`. -/
def prepare (input : Input) : ApplyM (InputDocs × List DocId) := do
  let docs ← atStage .inputDocs (processInputDocs env input)
  atStage .masterDownscale (assertOn env assertNoMasterDownscale docs.clusterModel)
  atStage .postgresChange (assertOn env assertNoPostgresNodesNumberChange docs.clusterModel)
  let manifestDocs ← loadManifest
  let infrastructureDocs ← atStage .infrastructureDocs
    (processInfrastructureDocs env docs manifestDocs)
  pure (docs, infrastructureDocs)

/-- The part of `apply` between the two `save_manifest`. -/
def configure (input : Input) (docs : InputDocs) (infrastructureDocs : List DocId) :
    ApplyM (List DocId) := do
  atStage .osFamily (assertConsistentOsFamily env infrastructureDocs)
  atStage .terraform (runTerraform env input docs.clusterModel infrastructureDocs)
  let configurationDocs ← atStage .configurationDocs (processConfigurationDocs env docs)
  atStage .infrastructureConfig (collectInfrastructureConfig env docs.clusterModel
    (configurationDocs ++ infrastructureDocs))
  pure configurationDocs

/-- `apply`. -/
def apply (input : Input) : ApplyM Applied := do
  let (docs, infrastructureDocs) ← prepare env input
  saveManifest (docs.docs ++ infrastructureDocs)
  let configurationDocs ← configure env input docs infrastructureDocs
  saveManifest (configurationDocs ++ infrastructureDocs)
  atStage .ansible (runAnsible env input docs.clusterModel
    (configurationDocs ++ infrastructureDocs))
  pure ⟨docs.docs, configurationDocs, infrastructureDocs⟩

end ApplyEngine

end LambdaStack
