/-
# The life of the clusters

Clusters are applied and deleted in any order, with any input files and whatever the
processes return, and between two commands the user edits files. The state file of
each cluster always records all that exists of the cluster, so a cluster that was
applied, however the run has ended, can be deleted; and a build directory is removed
only after its cluster is gone.
-/

import LambdaStack.Engine.ConsistentClusters
import LambdaStack.Lib.Machine

namespace LambdaStack

open Lib

namespace Lifecycle

section

/-- What happens to an output directory. -/
inductive Command (env : ApplyRun.Env)
  /-- `apply`, with any input file. -/
  | apply (options : ApplyRun.Options)
      (input : ∀ file, options.file = some file → ∀ v ∈ file, v.WellFormed)
  /-- `delete`, with a build directory of the output directory. -/
  | delete (clusterName : String)
  /-- Some file changes that is neither a state file nor a manifest. -/
  | edit (path : FilePath) (content : Option (List Chunk))
      (spared : ∀ clusterName, stateFilePath env.output clusterName ≠ path ∧
        manifestFilePath env.output clusterName ≠ path)

/-- What a deletion reads. -/
def deletion (env : ApplyRun.Env) : DeleteEngine.Env :=
  { env.terraform with loadYamls := env.loadYamls }

/-- A command starts without documents in memory and with no environment variables set. -/
def start (w : World) : World := { w with store := ⟨0, fun _ => .null⟩, environ := [] }

variable {env : ApplyRun.Env}

/-- The world after a command, however it has ended. -/
def Command.run (w : World) : Command env → World
  | .apply options _ => ((ApplyRun.apply env options).exec (start w)).2
  | .delete clusterName =>
      ((DeleteEngine.delete (deletion env) (env.output.join clusterName)).exec (start w)).2
  | .edit path content _ => { w with files := Function.update w.files path content }

/-- The runs of commands, from an output directory in which nothing was applied yet. -/
def machine (env : ApplyRun.Env) (files : Tree) : Machine World (Command env) where
  init := ⟨⟨0, fun _ => .null⟩, files, [], []⟩
  step w command := some (command.run w)

variable {ρ : Type} {cloud : Cloud ρ} {files : Tree} {w : World}

/-- In the beginning nothing exists of a cluster, and no cluster has a manifest. -/
structure Begins (cloud : Cloud ρ) (env : ApplyRun.Env) (files : Tree) : Prop where
  resources : ∀ clusterName, cloud.resources [] clusterName = ∅
  manifests : ∀ clusterName, files (manifestFilePath env.output clusterName) = none

theorem Command.run_clusters (h : cloud.Trusted env)
    (hw : cloud.Clusters env.output env.loadYamls w) (command : Command env) :
    cloud.Clusters env.output env.loadYamls (command.run w) := by
  have hstart : cloud.Clusters env.output env.loadYamls (start w) :=
    ⟨hw.tracked, hw.manifests, trivial⟩
  cases command with
  | apply options input => exact Cloud.rel_apply h input (start w) hstart
  | delete clusterName =>
      have hdeletion : cloud.Documented (deletion env).execute (deletion env).output :=
        h.processes
      exact Cloud.rel_delete hdeletion (start w) hstart
  | edit path content spared =>
      refine ⟨fun clusterName => ?_, fun clusterName => ?_, trivial⟩
      · have hsame : Function.update w.files path content (stateFilePath env.output clusterName) =
            w.files (stateFilePath env.output clusterName) :=
          Function.update_of_ne (spared clusterName).1 ..
        exact (hw.tracked clusterName).trans_eq (Cloud.recordedIn_congr hsame).symm
      · exact (Cloud.ownManifest_congr (Function.update_of_ne (spared clusterName).2 ..)).mpr
          (hw.manifests clusterName)

/-- The clusters are consistent in every reachable world. -/
theorem reachable_clusters (h : cloud.Trusted env) (hbegins : Begins cloud env files)
    (hreach : (machine env files).Reachable (fun _ _ => true) w) :
    cloud.Clusters env.output env.loadYamls w := by
  have hinit : cloud.Clusters env.output env.loadYamls (machine env files).init := by
    constructor
    · intro clusterName
      change cloud.resources [] clusterName ⊆ _
      rw [hbegins.resources]
      exact Set.empty_subset _
    · intro clusterName content docs clusterModel hcontent
      cases (hbegins.manifests clusterName).symm.trans hcontent
    · trivial
  refine hreach.invariant hinit ?_
  intro w w' command hw _ hstep
  cases hstep
  exact command.run_clusters h hw

/-- In every reachable world the state file of each cluster records all that exists of
the cluster. -/
theorem reachable_tracked (h : cloud.Trusted env) (hbegins : Begins cloud env files)
    (hreach : (machine env files).Reachable (fun _ _ => true) w) (clusterName : String) :
    cloud.resources w.history clusterName ⊆ cloud.recordedIn env.output clusterName w.files :=
  (reachable_clusters h hbegins hreach).tracked clusterName

/-- In every reachable world the manifest in a build directory is that of the cluster the
directory is named after. -/
theorem reachable_ownManifest (h : cloud.Trusted env) (hbegins : Begins cloud env files)
    (hreach : (machine env files).Reachable (fun _ _ => true) w) (clusterName : String) :
    Cloud.OwnManifest env.output env.loadYamls w.files clusterName :=
  (reachable_clusters h hbegins hreach).manifests clusterName

/-- A deletion that ends without an exception leaves nothing of the cluster, neither
outside nor in its build directory. -/
theorem delete_leaves_nothing (h : cloud.Trusted env) (hbegins : Begins cloud env files)
    (hreach : (machine env files).Reachable (fun _ _ => true) w) {clusterName : String}
    {w' : World} {u : Unit}
    (hrun : (DeleteEngine.delete (deletion env) (env.output.join clusterName)).exec (start w) =
      (.ok u, w')) :
    cloud.resources w'.history clusterName = ∅ ∧
      ∀ path, FileTree.isBelow (env.output.join clusterName).path path = true →
        w'.files path = none := by
  have hw := reachable_clusters h hbegins hreach
  have hstart : cloud.Clusters (deletion env).output (deletion env).loadYamls (start w) :=
    ⟨hw.tracked, hw.manifests, trivial⟩
  have hdeletion : cloud.Documented (deletion env).execute (deletion env).output := h.processes
  obtain ⟨_, w₁, hdestroy, hremove⟩ := Action.bind_eq_ok.mp hrun
  have hnone := Cloud.resources_of_destroy hdeletion hstart hdestroy
  cases hremove
  exact ⟨hnone, fun path hpath => FileTree.removeTree_below hpath⟩

end

/-! ## A cluster that is applied and deleted -/

namespace LifecycleSample

open ApplyEngine.ApplySample (document schema hasRequired)

/-- The base schema, as far as it is about providers. -/
def baseSchema : Val :=
  .dict [("required", .list (baseRequired.map Val.str)),
    ("properties", .dict [("kind", .dict []),
      ("provider", .dict [("$ref", .str "#/definitions/provider")])])]

def definitions : Val :=
  .dict [("provider", .dict [("pattern", .str "^(aws|azure|any|gcp)$")])]

def hasProvider (document : Val) : Bool :=
  match document.attr? "provider" with
  | some (.scalar (.str provider _)) => provider ∈ ["aws", "azure", "any", "gcp"]
  | _ => true

def validator : ValidatorEnv where
  loadSchema _ kind := .ok (if kind = "core/base" then baseSchema
    else if kind = "core/definitions" then definitions else .dict [])
  accepts schema document := hasRequired schema document && hasProvider document
  base_required := by
    intro provider base h
    cases h
    rfl
  accepts_required := by
    intro schema entries key h hkey
    rw [Bool.and_eq_true] at h
    exact ApplyEngine.ApplySample.validator.accepts_required h.1 hkey

def output : Dir := ⟨"/shared", ["shared"]⟩

/-- Terraform writes the state of the one cluster, and the other processes do nothing. -/
def execute (_ : List Entry) (call : Call) : Exit where
  returncode := 0
  stdout := ""
  files :=
    if call.argv = Cloud.applyLine output "demo" then
      call.files.write (stateFilePath output "demo") [.text "instance"]
    else call.files

/-- The instance of the cluster is there after a process. -/
def isUpAfter (isUp : Bool) : Entry → Bool
  | .ran call returncode =>
      if call.argv = Cloud.applyLine output "demo" then true
      else if call.argv = Cloud.destroyLine output "demo" ∧ returncode = 0 then false
      else isUp
  | .slept _ => isUp

def isUp (history : List Entry) : Bool := history.foldl isUpAfter false

def isInstance : Chunk → Bool
  | .text content => content == "instance"
  | _ => false

def cloud : Cloud Unit where
  resources history clusterName := {_r | clusterName = "demo" ∧ isUp history = true}
  recorded content := {_r | content.any isInstance = true}

def env : ApplyRun.Env where
  toRunner := { AnsibleRunner.RunnerSample.env with
    execute := execute
    output := output }
  builder := ApplyEngine.ApplySample.env.builder
  keys := ApplyEngine.ApplySample.env.keys
  depth := ApplyEngine.ApplySample.env.depth
  validator := validator
  storage := ApplyEngine.ApplySample.env.storage
  parseInt _ := none
  readInventory _ := .ofInventory []
  loadYamls content := match content with
    | [.yaml docs] => .ok docs
    | _ => .error .typeError
  loadYaml _ := .error .typeError
  render _ := .ok "resource"
  terraformBase := ["terraform"]
  doRetry _ := false
  loads _ := none
  str _ := ""

/-- An apply of Terraform alone. -/
def options : ApplyRun.Options where
  path := "/demo.yml"
  file := some
    [document "lambdastack-cluster" "default" [("name", .str "demo")],
      document "infrastructure/default-security-group" "default" [("name", .str "default")]]
  skipInfrastructure := false
  skipConfig := true
  profileTasks := false
  pingRetries := 5

theorem wellFormed_options : ∀ file, options.file = some file → ∀ v ∈ file, v.WellFormed := by
  intro file hfile
  cases hfile
  simp [document, dictKeys]

theorem isUp_append (history : List Entry) (entry : Entry) :
    isUp (history ++ [entry]) = isUpAfter (isUp history) entry := by
  rw [isUp, List.foldl_append]
  rfl

theorem files_of_apply {history : List Entry} {call : Call}
    (h : call.argv = Cloud.applyLine output "demo") : (execute history call).files =
      call.files.write (stateFilePath output "demo") [.text "instance"] :=
  if_pos h

theorem files_of_other {history : List Entry} {call : Call}
    (h : call.argv ≠ Cloud.applyLine output "demo") : (execute history call).files = call.files :=
  if_neg h

theorem files_of_ne {history : List Entry} {call : Call} {path : FilePath}
    (h : path ≠ stateFilePath output "demo") :
    (execute history call).files path = call.files path := by
  by_cases happly : call.argv = Cloud.applyLine output "demo"
  · rw [files_of_apply happly, FileTree.write_ne h]
  · rw [files_of_other happly]

theorem documented : cloud.Documented execute output where
  slept history seconds clusterName := by
    rintro r ⟨hname, hup⟩
    rw [isUp_append] at hup
    exact ⟨hname, hup⟩
  others history call clusterName happly hdestroy := by
    by_cases hname : clusterName = "demo"
    · subst hname
      refine ⟨?_, by rw [files_of_other happly]⟩
      rintro r ⟨-, hup⟩
      rw [isUp_append, isUpAfter, if_neg happly, if_neg fun h => hdestroy h.1] at hup
      exact ⟨rfl, hup⟩
    · refine ⟨fun r hr => absurd hr.1 hname, files_of_ne fun heq => hname ?_⟩
      simpa [stateFilePath, getTerraformPath, getBuildPath, Dir.join, Dir.joinSlash] using heq
  records history call clusterName _ hbefore := by
    rintro r ⟨rfl, hup⟩
    by_cases happly : call.argv = Cloud.applyLine output "demo"
    · rw [files_of_apply happly]
      exact ⟨_, FileTree.write_self, rfl⟩
    · rw [files_of_other happly]
      rw [isUp_append, isUpAfter, if_neg happly] at hup
      split at hup
      · cases hup
      · exact hbefore ⟨rfl, hup⟩
  destroys history call clusterName hline _ hcode := by
    rw [Set.eq_empty_iff_forall_notMem]
    rintro r ⟨rfl, hup⟩
    have happly : call.argv ≠ Cloud.applyLine output "demo" := by
      intro happly
      exact absurd (hline.symm.trans happly) (by decide +kernel)
    rw [isUp_append, isUpAfter, if_neg happly, if_pos ⟨hline, hcode⟩] at hup
    cases hup
  manifests history call clusterName :=
    files_of_ne fun heq => Cloud.stateFilePath_ne_manifest heq.symm

theorem trusted : cloud.Trusted env where
  processes := documented
  checks :=
    { base := by
        intro provider base h
        cases h
        rfl
      definitions := by
        intro provider definitions h
        cases h
        rfl
      accepts := by
        intro schema document provider h _ hown hany
        exact hany }
  version := by decide
  loads := by
    intro trees docs h
    cases h
    rfl

theorem begins : Begins cloud env FileTree.empty where
  resources clusterName := by
    rw [Set.eq_empty_iff_forall_notMem]
    rintro r ⟨-, hup⟩
    cases hup
  manifests _ := rfl

/-- The world after an apply. -/
def applied : World :=
  Command.run (machine env FileTree.empty).init (.apply options wellFormed_options : Command env)

theorem reachable_applied : (machine env FileTree.empty).Reachable (fun _ _ => true) applied :=
  .step (.apply options wellFormed_options) .init rfl rfl

/-- Whether an action ends without an exception. -/
def isOk {α : Type} : Except Exc α → Bool
  | .ok _ => true
  | .error _ => false

end LifecycleSample

open LifecycleSample in
theorem reachable_tracked_sample : () ∈ cloud.resources applied.history "demo" ∧
    () ∈ cloud.recordedIn env.output "demo" applied.files := by
  have hup : isUp applied.history = true := by decide +kernel
  have hmem : () ∈ cloud.resources applied.history "demo" := ⟨rfl, hup⟩
  exact ⟨hmem, reachable_tracked trusted begins reachable_applied "demo" hmem⟩

open LifecycleSample in
theorem reachable_ownManifest_sample :
    (applied.files (manifestFilePath env.output "demo")).isSome = true ∧
      Cloud.OwnManifest env.output env.loadYamls applied.files "demo" :=
  ⟨by decide +kernel, reachable_ownManifest trusted begins reachable_applied "demo"⟩

open LifecycleSample in
theorem delete_leaves_nothing_sample : () ∈ cloud.resources applied.history "demo" ∧
    cloud.resources ((DeleteEngine.delete (deletion env) (env.output.join "demo")).exec
      (start applied)).2.history "demo" = ∅ := by
  have hup : isUp applied.history = true := by decide +kernel
  have hok : isOk ((DeleteEngine.delete (deletion env) (env.output.join "demo")).exec
      (start applied)).1 = true := by
    decide +kernel
  rcases hrun : (DeleteEngine.delete (deletion env) (env.output.join "demo")).exec
    (start applied) with ⟨e | u, w'⟩
  · rw [hrun] at hok
    cases hok
  · exact ⟨⟨rfl, hup⟩, (delete_leaves_nothing trusted begins reachable_applied hrun).1⟩

end Lifecycle

end LambdaStack
