/-
# Deleting a cluster

`DeleteEngine.delete`: the cluster of the manifest is destroyed, and then the build
directory is removed. The directory is that of the command line, while Terraform works
on the one the cluster's name leads to.
-/

import LambdaStack.Engine.Terraform.StateFile

namespace LambdaStack

open Lib

namespace DeleteEngine

/-- What a deletion reads. -/
structure Env extends TerraformRunner.Env where
  /-- `load_yamls_file`, on the content of a file. -/
  loadYamls : List Chunk → Res (List Val)

variable (env : Env)

/-- `load_manifest`. -/
def loadManifest (buildDirectory : Dir) : Cli (List Val) :=
  Action.read fun w =>
    match w.files (buildDirectory.path ++ [manifestFileName]) with
    | none => .error (.exception "No manifest.yml inside the build folder")
    | some content => env.loadYamls content

variable {env} in
theorem loadManifest_eq_ok {buildDirectory : Dir} {docs : List Val} {w w' : World}
    (h : (loadManifest env buildDirectory).exec w = (.ok docs, w')) :
    w' = w ∧ ∃ content, w.files (buildDirectory.path ++ [manifestFileName]) = some content ∧
      env.loadYamls content = .ok docs := by
  obtain ⟨hread, rfl⟩ := Prod.ext_iff.mp h
  refine ⟨rfl, ?_⟩
  rw [loadManifest, Action.exec_read] at hread
  dsimp only at hread
  split at hread
  · cases hread
  · next content hcontent => exact ⟨content, hcontent, hread⟩

/-- The part of `delete` before the directory is removed. -/
def destroy (buildDirectory : Dir) : Cli Unit := do
  let docs ← loadManifest env buildDirectory
  let clusterModel ← Action.read fun _ => selectSingle docs (kindIs "lambdastack-cluster")
  let provider ← Action.read fun _ => clusterModel.getAttr "provider"
  if provider.pyEq (.str "any") then
    Action.raise (.exception "Delete works only for cloud providers")
  else do
    let runner ← TerraformRunner.init env.toEnv clusterModel
    TerraformRunner.delete env.toEnv runner

/-- `delete`. -/
def delete (buildDirectory : Dir) : Cli Unit := do
  destroy env buildDirectory
  deleteDirectory buildDirectory

end DeleteEngine

end LambdaStack
