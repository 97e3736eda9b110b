/-
# The variables of the Ansible roles

`AnsibleVarsGenerator` of an apply: for each enabled role the first document of
the role's kind is dumped to the role's `main.yml`, without its name and with the
provider added. The search does not look at the name, so a component's
configuration reaches its roles exactly when every component with the role
selects the same one.
-/

import LambdaStack.Engine.Ansible.AnsibleInventoryCreator
import LambdaStack.Engine.ApplyEngine
import LambdaStack.Engine.Schema.ConfigurationRun
import LambdaStack.Helpers.YesnoBooleans

namespace LambdaStack

open Lib BuildM

namespace AnsibleInventoryCreator

/-- `get_available_roles`. -/
def getAvailableRoles (configDocs : List Val) : Res Val := do
  let featuresMap ← selectSingle configDocs (kindIs "configuration/feature-mapping")
  attrPath featuresMap ["specification", "available_roles"]

/-- `[role["name"] for role in roles if role["enabled"]]`. -/
def enabledNames : List Val → Res (List Val)
  | [] => .ok []
  | role :: rest => do
      let enabled ← role.getItem "enabled"
      if enabled.truthy then do
        let name ← role.getItem "name"
        let names ← enabledNames rest
        .ok (name :: names)
      else enabledNames rest

/-- `get_enabled_roles`. -/
def getEnabledRoles (configDocs : List Val) : Res (List Val) := do
  let roles ← getAvailableRoles configDocs
  let roles ← roles.asList
  enabledNames roles

end AnsibleInventoryCreator

namespace AnsibleVarsGenerator

/-- What the generator reads of `Config` and `build_io`. -/
structure Env where
  schema : SchemaDir
  validateCerts : Val
  offlineRequirements : Val
  waitForPods : Val
  upgradeComponents : Val
  vaultPasswordLocation : Val
  /-- `get_ansible_vault_path`. -/
  getAnsibleVaultPath : Val → Res Val

mutual

/-- `clear_object`. -/
def clearObject (keyToClean : String) : Val → Val
  | .dict entries => .dict (clearEntries keyToClean entries)
  | x => x

def clearEntries (keyToClean : String) : Entries → Entries
  | [] => []
  | entry :: rest => clearEntry keyToClean entry :: clearEntries keyToClean rest

def clearEntry (keyToClean : String) : String × Val → String × Val
  | (key, value) => (key, if key = keyToClean then .str "" else clearObject keyToClean value)

end

/-- What clearing a shallow copy does to the copied object: the objects it holds are
those of the copy. -/
def clearShared (keyToClean : String) : Val → Val
  | .dict entries => .dict (entries.map fun (key, value) =>
      (key, if key = keyToClean then value else clearObject keyToClean value))
  | x => x

/-- `if 'name' in document: del document['name']`. -/
def withoutName : Val → Val
  | .dict entries => .dict (entries.filter fun entry => entry.1 ≠ "name")
  | x => x

/-- `document.specification[key] = value`. -/
def withSpecItem (document : Val) (key : String) (value : Val) : Res Val := do
  let spec ← document.getAttr "specification"
  let spec ← spec.setItem key value
  document.setAttr "specification" spec

def setSpecItem (document : DocId) (key : String) (value : Val) : BuildM Unit := fun s =>
  (withSpecItem (s.doc document) key value).map fun x => ((), s.write document x)

/-- A `main.yml`: the document that was dumped, where it is one in memory, and what
the file holds. -/
structure VarsFile where
  document : Option DocId
  content : Val

/-- The `main.yml` files by the directory of their role, and the attribute
`roles_with_generated_vars`. -/
structure RoleVars where
  files : List (String × VarsFile)
  rolesWithGeneratedVars : List String

/-- `write_role_vars`. -/
def writeRoleVars (vars : RoleVars) (role : String) (document : DocId) : BuildM RoleVars := do
  modifyDoc document withoutName
  let content ← readDoc document
  pure ⟨dictSet (toRoleName role) ⟨some document, content⟩ vars.files,
    vars.rolesWithGeneratedVars ++ [toRoleName role]⟩

/-- The kind of a role's configuration. -/
def kindOf (role : String) : String := "configuration/" ++ toFeatureName role

/-- The body of the loop over the roles. -/
def generateRole (clusterModel : DocId) (configDocs : List DocId) (vars : RoleVars) (role : Val) :
    BuildM RoleVars := do
  let role ← lift role.asStr
  let document ← reads fun doc => selectFirst configDocs (kindIs (kindOf role) ∘ doc)
  match document with
  | none => pure vars
  | some document => do
      let provider ← reads fun doc => (doc clusterModel).getAttr "provider"
      setSpecItem document "provider" provider
      writeRoleVars vars role document

/-- The loop over the roles. -/
def generateRoles (clusterModel : DocId) (configDocs : List DocId) (vars : RoleVars) :
    List Val → BuildM RoleVars
  | [] => pure vars
  | role :: rest => do
      let vars ← generateRole clusterModel configDocs vars role
      generateRoles clusterModel configDocs vars rest

variable (env : Env)

/-- `get_cluster_name`, without an inventory to upgrade. -/
def getClusterName (clusterModel : Val) : Res Val := do
  let specification ← clusterModel.getAttr "specification"
  match specification.attr? "name" with
  | some name => .ok name
  | none => .ok (.str "default")

/-- `set_vault_path`. -/
def setVaultPath (clusterModel sharedConfig : DocId) : BuildM Unit := do
  let location ← specAttr sharedConfig "vault_location"
  if location.pyEq (.str "") then do
    setSpecAttr sharedConfig "vault_tmp_file_location" env.vaultPasswordLocation
    let name ← reads fun doc => getClusterName (doc clusterModel)
    let path ← lift (env.getAnsibleVaultPath name)
    setSpecAttr sharedConfig "vault_location" path
  else pure ()

/-- `main_vars['k8s_as_cloud_service']`. -/
def k8sAsCloudService (clusterModel : Val) : Res Val := do
  let provider ← clusterModel.getAttr "provider"
  if provider.pyEq (.str "any") then .ok (.bool false)
  else attrPath clusterModel ["specification", "cloud", "k8s_as_cloud_service"]

/-- `populate_group_vars`: what is appended to `all.yml`. -/
def populateGroupVars (clusterModel : DocId) (configDocs : List DocId)
    (rolesWithGeneratedVars : List String) : BuildM Val := do
  let adminUser ← reads fun doc => attrPath (doc clusterModel) ["specification", "admin_user"]
  let k8s ← reads fun doc => k8sAsCloudService (doc clusterModel)
  let found ← reads fun doc => selectFirst configDocs (kindIs "configuration/shared-config" ∘ doc)
  let sharedConfig ← match found with
    | some sharedConfig => pure sharedConfig
    | none => do
        let loaded ← lift (env.schema.loadSchemaObj "common" "configuration/shared-config")
        newDoc loaded
  setVaultPath env clusterModel sharedConfig
  let specification ← spec sharedConfig
  let entries ← lift specification.asDict
  let mainVars : Entries := [("admin_user", adminUser), ("validate_certs", env.validateCerts),
    ("offline_requirements", env.offlineRequirements), ("wait_for_pods", env.waitForPods),
    ("is_upgrade_run", .bool false),
    ("roles_with_generated_vars",
      .list ((rolesWithGeneratedVars.mergeSort fun x y => decide (x ≤ y)).map Val.str)),
    ("upgrade_components", env.upgradeComponents), ("k8s_as_cloud_service", k8s)]
  pure (.dict (entries.foldl (fun vars (key, value) => dictSet key value vars) mainVars))

/-- What `generate` writes: the roles' files, and the addition to `all.yml`. -/
structure Generated where
  vars : RoleVars
  groupVars : Val

/-- `AnsibleVarsGenerator(inventory_creator).generate()`, where the inventory creator
has the cluster model and `docs`. -/
def generate (clusterModel : DocId) (docs : List DocId) : BuildM Generated := do
  let configDocs := clusterModel :: docs
  let _ ← reads fun doc => attrPath (doc clusterModel) ["specification", "name"]
  let model ← readDoc clusterModel
  modifyDoc clusterModel (clearShared "credentials")
  let common : VarsFile := ⟨none, withoutName (clearObject "credentials" model)⟩
  let enabledRoles ← reads fun doc => AnsibleInventoryCreator.getEnabledRoles (docs.map doc)
  let vars ← generateRoles clusterModel configDocs ⟨[("common", common)], []⟩ enabledRoles
  let groupVars ← populateGroupVars env clusterModel configDocs vars.rolesWithGeneratedVars
  pure ⟨vars, groupVars⟩

end AnsibleVarsGenerator

end LambdaStack
