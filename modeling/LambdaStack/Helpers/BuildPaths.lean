/-
# The paths of a build directory

The directories and files `build_io` names for a cluster. A directory that is asked
for is made; here it is there as far as it holds a file.
-/

import LambdaStack.Helpers.Processes

namespace LambdaStack

open Lib

/-- `cluster_model.specification.name`, where it is joined with a path. -/
def specName (clusterModel : Val) : Res String := do
  let name ← attrPath clusterModel ["specification", "name"]
  name.asStr

theorem specName_eq_ok {clusterModel : Val} {name : String} :
    specName clusterModel = .ok name ↔ ∃ value,
      attrPath clusterModel ["specification", "name"] = .ok value ∧ value.str? = some name := by
  simp only [specName, Lib.bind_eq_ok, Val.asStr_eq_ok]

section

variable (output : Dir) (clusterName : String)

/-- `get_build_path`. -/
def getBuildPath : Dir := output.join clusterName

/-- `get_terraform_path`. -/
def getTerraformPath : Dir := (getBuildPath output clusterName).joinSlash "terraform"

/-- `get_ansible_path`. -/
def getAnsiblePath : Dir := (getBuildPath output clusterName).joinSlash "ansible"

/-- `get_inventory_path`. -/
def getInventoryPath : String := (getBuildPath output clusterName).fileText ansibleInventoryFile

/-- Where the inventory is. -/
def inventoryFilePath : FilePath := (getBuildPath output clusterName).path ++ [ansibleInventoryFile]

/-- Where `get_manifest_path` is. -/
def manifestFilePath : FilePath := (getBuildPath output clusterName).path ++ [manifestFileName]

/-- `SP_FILE_NAME`. -/
def spFileName : String := "sp.yml"

/-- Where `save_sp` writes. -/
def spFilePath : FilePath := (getTerraformPath output clusterName).path ++ [spFileName]

/-- The file Terraform keeps its state in. -/
def stateFileName : String := "terraform.tfstate"

/-- Where the state of a cluster is. -/
def stateFilePath : FilePath := (getTerraformPath output clusterName).path ++ [stateFileName]

end

/-- Joining paths that are not absolute is injective. -/
theorem pathJoin_inj {first second second' : String}
    (hsecond : ['/'].isPrefixOf second.toList = false)
    (hsecond' : ['/'].isPrefixOf second'.toList = false)
    (h : pathJoin first second = pathJoin first second') : second = second' := by
  unfold pathJoin at h
  rw [hsecond, hsecond'] at h
  simp only [Bool.false_eq_true, if_false] at h
  split at h
  · exact String.append_right_inj _ |>.mp h
  · rw [String.append_assoc, String.append_assoc] at h
    exact String.append_right_inj _ |>.mp (String.append_right_inj _ |>.mp h)

end LambdaStack
