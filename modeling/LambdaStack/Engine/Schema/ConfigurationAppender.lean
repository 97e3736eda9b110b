/-
# The configuration documents of a cluster

`ConfigurationAppender`: the required documents first, then for each active
component the configuration of every feature mapped to it. A document of the
user is appended again for each component that selects it.
-/

import LambdaStack.Engine.Providers.DocStore
import LambdaStack.Helpers.ConfigMerger

namespace LambdaStack

open Lib BuildM

namespace ConfigurationAppender

/-- `REQUIRED_DOCS`. -/
def requiredDocs : List String :=
  ["configuration/feature-mapping", "configuration/shared-config", "lambdastack-cluster"]

variable (schema : SchemaDir) (version : String)

/-- `append_config`. -/
def appendConfig (configurationDocs : List DocId) (doc : DocId) : BuildM (List DocId) := do
  setDocItem doc "version" (.str version)
  pure (configurationDocs ++ [doc])

/-- The body of the loop over the required kinds. -/
def appendRequired (inputDocs configurationDocs : List DocId) (kind : String) :
    BuildM (List DocId) := do
  let doc ← reads fun doc => selectFirst inputDocs (kindIs kind ∘ doc)
  match doc with
  | some doc => appendConfig version configurationDocs doc
  | none => do
      let loaded ← lift (schema.loadSchemaObj "common" kind)
      let _ ← lift (loaded.getAttr "kind")
      let doc ← newDoc loaded
      appendConfig version configurationDocs doc

/-- The loop over the required kinds. -/
def appendAllRequired (inputDocs configurationDocs : List DocId) :
    List String → BuildM (List DocId)
  | [] => pure configurationDocs
  | kind :: rest => do
      let configurationDocs ← appendRequired schema version inputDocs configurationDocs kind
      appendAllRequired inputDocs configurationDocs rest

/-- The body of the loop over the features of a component. -/
def appendFeature (inputDocs : List DocId) (configSelector : Val)
    (configurationDocs : List DocId) (featureKey : Val) : BuildM (List DocId) := do
  let featureKey ← lift featureKey.asStr
  let kind := "configuration/" ++ featureKey
  let own ← reads fun doc => selectFirst inputDocs (kindAndNameAre kind configSelector ∘ doc)
  match own with
  | some doc => appendConfig version configurationDocs doc
  | none => do
      let known ← reads fun doc =>
        selectFirst configurationDocs (kindAndNameAre kind configSelector ∘ doc)
      match known with
      | some _ => pure configurationDocs
      | none => do
          let merged ← reads fun doc => mergeWithDefaults schema version "common" kind
            configSelector (inputDocs.map doc)
          let _ ← lift (merged.getAttr "kind")
          let doc ← newDoc merged
          appendConfig version configurationDocs doc

/-- The loop over the features of a component. -/
def appendFeatures (inputDocs : List DocId) (configSelector : Val)
    (configurationDocs : List DocId) : List Val → BuildM (List DocId)
  | [] => pure configurationDocs
  | featureKey :: rest => do
      let configurationDocs ← appendFeature schema version inputDocs configSelector
        configurationDocs featureKey
      appendFeatures inputDocs configSelector configurationDocs rest

/-- The features the mapping among the configuration documents maps a component to. -/
def featuresOf (configurationDocs : List DocId) (componentKey : String) : BuildM (List Val) :=
  reads fun doc => do
    let featuresMap ← selectFirst configurationDocs (kindIs "configuration/feature-mapping" ∘ doc)
    let featuresMap ← attrPath ((featuresMap.map doc).getD .null) ["specification", "roles_mapping"]
    let features ← featuresMap.getItem componentKey
    features.asList

/-- The body of the loop over the components. -/
def appendComponent (inputDocs configurationDocs : List DocId) (component : String × Val) :
    BuildM (List DocId) := do
  let count ← lift (component.2.getAttr "count")
  let inactive ← lift count.ltOne
  if inactive then pure configurationDocs
  else do
    let configSelector ← lift (component.2.getAttr "configuration")
    let features ← featuresOf configurationDocs component.1
    appendFeatures schema version inputDocs configSelector configurationDocs features

/-- The loop over the components. -/
def appendComponents (inputDocs configurationDocs : List DocId) : Entries → BuildM (List DocId)
  | [] => pure configurationDocs
  | component :: rest => do
      let configurationDocs ← appendComponent schema version inputDocs configurationDocs component
      appendComponents inputDocs configurationDocs rest

/-- `ConfigurationAppender(input_docs).run()`. -/
def run (inputDocs : List DocId) : BuildM (List DocId) := do
  let clusterModel ← reads fun doc => selectSingle inputDocs (kindIs "lambdastack-cluster" ∘ doc)
  let configurationDocs ← appendAllRequired schema version inputDocs [] requiredDocs
  let components ← reads fun doc => attrPath (doc clusterModel) ["specification", "components"]
  let components ← lift components.asDict
  appendComponents schema version inputDocs configurationDocs components

end ConfigurationAppender

end LambdaStack
