/-
# The state files of Terraform

Terraform can only destroy what a state file records, so the program must not lose the
file of a cluster while something that was made for the cluster exists. What the
processes do is documented behaviour of Terraform, stated for any measure of what
exists and any reading of a state file; nothing the program does to files itself may
break it.
-/

import LambdaStack.Engine.RunnerSteps

namespace LambdaStack

open Lib

/-- What exists outside, and what a state file records. -/
structure Cloud (ρ : Type) where
  /-- What was made for a cluster and not destroyed yet. -/
  resources : List Entry → String → Set ρ
  recorded : List Chunk → Set ρ

namespace Cloud

variable {ρ : Type} (cloud : Cloud ρ) (execute : Execute) (output : Dir)

/-- What the state file of a cluster records. -/
def recordedIn (clusterName : String) (files : Tree) : Set ρ :=
  {r | ∃ content, files (stateFilePath output clusterName) = some content ∧
    r ∈ cloud.recorded content}

/-- The command that builds a cluster. -/
def applyLine (clusterName : String) : List String :=
  shell (TerraformCommand.apply (getTerraformPath output clusterName).text true).line

/-- The command that destroys a cluster. -/
def destroyLine (clusterName : String) : List String :=
  shell (TerraformCommand.destroy (getTerraformPath output clusterName).text true).line

/-- What the processes are documented to do. -/
structure Documented : Prop where
  /-- Nothing is made while the program sleeps. -/
  slept : ∀ history seconds clusterName,
    cloud.resources (history ++ [.slept seconds]) clusterName ⊆ cloud.resources history clusterName
  /-- Only Terraform makes something for a cluster and writes its state file. -/
  others : ∀ history call clusterName, call.argv ≠ applyLine output clusterName →
    call.argv ≠ destroyLine output clusterName →
    cloud.resources (history ++ [.ran call (execute history call).returncode]) clusterName ⊆
        cloud.resources history clusterName ∧
      (execute history call).files (stateFilePath output clusterName) =
        call.files (stateFilePath output clusterName)
  /-- Terraform records what it makes, also when it fails. -/
  records : ∀ history call clusterName, call.argv = applyLine output clusterName ∨
      call.argv = destroyLine output clusterName →
    cloud.resources history clusterName ⊆ cloud.recordedIn output clusterName call.files →
    cloud.resources (history ++ [.ran call (execute history call).returncode]) clusterName ⊆
      cloud.recordedIn output clusterName (execute history call).files
  /-- When it succeeds, `terraform destroy` has destroyed all that is recorded. -/
  destroys : ∀ history call clusterName, call.argv = destroyLine output clusterName →
    cloud.resources history clusterName ⊆ cloud.recordedIn output clusterName call.files →
    (execute history call).returncode = 0 →
    cloud.resources (history ++ [.ran call (execute history call).returncode]) clusterName = ∅
  /-- No process writes a manifest. -/
  manifests : ∀ history call clusterName,
    (execute history call).files (manifestFilePath output clusterName) =
      call.files (manifestFilePath output clusterName)

/-- The manifest in the build directory of a cluster is that cluster's. -/
def OwnManifest (loadYamls : List Chunk → Res (List Val)) (files : Tree) (clusterName : String) :
    Prop :=
  ∀ content docs clusterModel, files (manifestFilePath output clusterName) = some content →
    loadYamls content = .ok docs →
    selectSingle docs (kindIs "lambdastack-cluster") = .ok clusterModel →
    specName clusterModel = .ok clusterName

variable (loadYamls : List Chunk → Res (List Val)) (known : Store → Prop)

/-- What every run leaves the clusters of an output directory in, with what is known of
the documents in memory. -/
structure Consistent (w : World) : Prop where
  /-- The state file of every cluster records what exists of it. -/
  tracked : ∀ clusterName, cloud.resources w.history clusterName ⊆
    cloud.recordedIn output clusterName w.files
  manifests : ∀ clusterName, OwnManifest output loadYamls w.files clusterName
  store : known w.store

variable {cloud execute output loadYamls known}

theorem recordedIn_congr {clusterName : String} {files files' : Tree}
    (h : files' (stateFilePath output clusterName) = files (stateFilePath output clusterName)) :
    cloud.recordedIn output clusterName files' = cloud.recordedIn output clusterName files := by
  rw [recordedIn, recordedIn, h]

theorem ownManifest_congr {clusterName : String} {files files' : Tree}
    (h : files' (manifestFilePath output clusterName) =
      files (manifestFilePath output clusterName)) :
    OwnManifest output loadYamls files' clusterName ↔
      OwnManifest output loadYamls files clusterName := by
  rw [OwnManifest, OwnManifest, h]

/-- What leaves the history, the state files and the manifests as they are. -/
theorem maintains_of_around {α : Type} {p : FilePath → Bool} {x : Cli α}
    (hx : Quiet (World.around p) x) (hp : Spares output p) :
    Maintains (cloud.Consistent output loadYamls known) x := by
  refine hx.maintains fun w w' hsame hw => ?_
  obtain ⟨hstore, hhistory, hfiles⟩ := World.around_eq_iff.mp hsame
  refine ⟨fun clusterName => ?_, fun clusterName => ?_, hstore ▸ hw.store⟩
  · rw [hhistory, recordedIn_congr (hfiles _ (hp.stateFile clusterName))]
    exact hw.tracked clusterName
  · exact (ownManifest_congr (hfiles _ (hp.manifest clusterName))).mpr (hw.manifests clusterName)

theorem maintains_sleep (h : cloud.Documented execute output) (seconds : Nat) :
    Maintains (cloud.Consistent output loadYamls known) (sleep seconds) :=
  ⟨fun w hw => ⟨fun clusterName => (h.slept w.history seconds clusterName).trans
    (hw.tracked clusterName), hw.manifests, hw.store⟩⟩

theorem maintains_popen (h : cloud.Documented execute output) (argv : List String)
    (environ : World → Environ) :
    Maintains (cloud.Consistent output loadYamls known) (popen execute argv environ) := by
  refine ⟨fun w hw => ⟨fun clusterName => ?_, fun clusterName => ?_, hw.store⟩⟩
  · have hbefore := hw.tracked clusterName
    rw [exec_popen]
    change cloud.resources (w.history ++ [.ran (callIn argv environ w)
      (execute w.history (callIn argv environ w)).returncode]) clusterName ⊆
        cloud.recordedIn output clusterName (execute w.history (callIn argv environ w)).files
    by_cases hline : argv = applyLine output clusterName ∨ argv = destroyLine output clusterName
    · exact h.records w.history (callIn argv environ w) clusterName hline hbefore
    · rw [not_or] at hline
      obtain ⟨hresources, hfiles⟩ :=
        h.others w.history (callIn argv environ w) clusterName hline.1 hline.2
      rw [recordedIn_congr hfiles]
      exact hresources.trans hbefore
  · exact (ownManifest_congr (h.manifests w.history (callIn argv environ w) clusterName)).mpr
      (hw.manifests clusterName)

/-- What the runners may do keeps the clusters consistent. -/
theorem Documented.allowed (h : cloud.Documented execute output) :
    Allowed execute output (Carries (cloud.Consistent output loadYamls known)) :=
  ⟨maintains_popen h, maintains_sleep h, fun hx hp => maintains_of_around hx hp⟩

/-- After a deletion that ends nothing of the cluster is left. -/
theorem resources_of_delete {env : TerraformRunner.Env}
    (h : cloud.Documented env.execute env.output) {r : TerraformRunner} {clusterName : String}
    {w w' : World} {u : Unit}
    (hterraform : r.terraform = (getTerraformPath env.output clusterName).text)
    (hw : cloud.Consistent env.output loadYamls known w)
    (hrun : (TerraformRunner.delete env r).exec w = (.ok u, w')) :
    cloud.resources w'.history clusterName = ∅ := by
  rw [TerraformRunner.delete, Action.bind_eq_ok] at hrun
  obtain ⟨newEnv, w₁, hcommand, hret⟩ := hrun
  cases hret
  rw [TerraformRunner.runCommand, Action.bind_eq_ok] at hcommand
  obtain ⟨environ, w₂, hread, hcommand⟩ := hcommand
  obtain ⟨-, rfl⟩ := Prod.ext_iff.mp hread
  rw [Action.bind_eq_ok] at hcommand
  obtain ⟨returncode, w₃, hattempt, hend⟩ := hcommand
  -- `destroy` has one attempt
  change (popen env.execute (shell (TerraformCommand.destroy r.terraform true).line)
    (fun _ => environ) >>= fun exit => pure exit.returncode).exec w = _ at hattempt
  rw [Action.exec_bind_ok exec_popen] at hattempt
  cases hattempt
  split at hend
  · cases hend
  · next hcode =>
      cases hend
      rw [hterraform] at hcode ⊢
      exact h.destroys w.history _ clusterName rfl (hw.tracked clusterName) (not_not.mp hcode)

end Cloud

end LambdaStack
