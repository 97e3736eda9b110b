/-
# What the runners do

The runners of Terraform and Ansible start processes, wait, and write files of the build
directory that are neither the state of Terraform nor the manifest. What is not lost by
these is not lost by a runner, however it ends.
-/

import LambdaStack.Engine.ApplyRun

namespace LambdaStack

open Lib

/-- The files with the property are no state files and no manifests. -/
structure Spares (output : Dir) (p : FilePath → Bool) : Prop where
  stateFile : ∀ clusterName, p (stateFilePath output clusterName) = false
  manifest : ∀ clusterName, p (manifestFilePath output clusterName) = false

/-- What the parts of a runner may do to the world. -/
structure Allowed (execute : Execute) (output : Dir) (R : World → World → Prop) : Prop where
  popen : ∀ argv environ, Relates R (popen execute argv environ)
  sleep : ∀ seconds, Relates R (sleep seconds)
  /-- Other files may change. -/
  around : ∀ {α : Type} {p : FilePath → Bool} {x : Cli α}, Quiet (World.around p) x →
    Spares output p → Relates R x

variable {execute : Execute} {output : Dir} {R : World → World → Prop}

theorem Allowed.mono {S : World → World → Prop} (h : Allowed execute output R)
    (hRS : ∀ w w', R w w' → S w w') : Allowed execute output S where
  popen argv environ := (h.popen argv environ).mono hRS
  sleep seconds := (h.sleep seconds).mono hRS
  around hx hp := (h.around hx hp).mono hRS

/-! ## Other files -/

theorem stateFilePath_ne {clusterName other file : String} (h : file ≠ stateFileName) :
    stateFilePath output clusterName ≠ (getTerraformPath output other).path ++ [file] := by
  intro heq
  have hfile : [stateFileName] = [file] := List.append_inj_right' heq rfl
  exact h (List.singleton_inj.mp hfile).symm

theorem manifestFilePath_ne {clusterName other file : String} :
    manifestFilePath output clusterName ≠ (getTerraformPath output other).path ++ [file] := by
  intro heq
  have hlength := congrArg List.length heq
  simp [manifestFilePath, getTerraformPath, getBuildPath, Dir.join, Dir.joinSlash] at hlength

/-- The files of a glob that no state file matches. -/
theorem spares_isChild {p : String → Bool} (hp : p stateFileName = false) (clusterName : String) :
    Spares output (FileTree.isChild (getTerraformPath output clusterName).path p) := by
  refine ⟨fun other => ?_, fun other => ?_⟩
  · rw [Bool.eq_false_iff, ne_eq, FileTree.isChild_iff]
    rintro ⟨file, hfile, heq⟩
    refine stateFilePath_ne ?_ heq
    rintro rfl
    rw [hp] at hfile
    cases hfile
  · rw [Bool.eq_false_iff, ne_eq, FileTree.isChild_iff]
    rintro ⟨file, -, heq⟩
    exact manifestFilePath_ne heq

theorem stateFilePath_ne_ansible {clusterName other : String} (rest : FilePath) :
    stateFilePath output clusterName ≠ (getAnsiblePath output other).path ++ rest := by
  simp [stateFilePath, getTerraformPath, getAnsiblePath, getBuildPath, Dir.join, Dir.joinSlash]

theorem manifestFilePath_ne_ansible {clusterName other : String} (rest : FilePath) :
    manifestFilePath output clusterName ≠ (getAnsiblePath output other).path ++ rest := by
  simp [manifestFilePath, manifestFileName, getAnsiblePath, getBuildPath, Dir.join, Dir.joinSlash]

/-- No state file and no manifest is in a directory of Ansible. -/
theorem spares_ansible (output : Dir) (clusterName : String) :
    Spares output (getAnsiblePath output clusterName).path.isPrefixOf := by
  refine ⟨fun other => ?_, fun other => ?_⟩
  · rw [Bool.eq_false_iff, ne_eq, List.isPrefixOf_iff_prefix]
    rintro ⟨rest, heq⟩
    exact stateFilePath_ne_ansible rest heq.symm
  · rw [Bool.eq_false_iff, ne_eq, List.isPrefixOf_iff_prefix]
    rintro ⟨rest, heq⟩
    exact manifestFilePath_ne_ansible rest heq.symm

theorem Allowed.writeFile (h : Allowed execute output R) {path : FilePath}
    (hstate : ∀ clusterName, stateFilePath output clusterName ≠ path)
    (hmanifest : ∀ clusterName, manifestFilePath output clusterName ≠ path) (chunk : Chunk) :
    Relates R (writeFile path chunk) := by
  have hquiet : Quiet (World.around fun other => decide (other = path)) (LambdaStack.writeFile path
      chunk) := quiet_around_writeFile (decide_eq_true rfl) chunk
  exact h.around hquiet ⟨fun clusterName => decide_eq_false (hstate clusterName),
    fun clusterName => decide_eq_false (hmanifest clusterName)⟩

theorem Allowed.writeAnsible (h : Allowed execute output R) (name : String) (rest : FilePath)
    (chunk : Chunk) :
    Relates R (LambdaStack.writeFile ((getAnsiblePath output name).path ++ rest) chunk) :=
  h.writeFile (fun _ => stateFilePath_ne_ansible rest) (fun _ => manifestFilePath_ne_ansible rest)
    chunk

theorem Allowed.copyResources {env : AnsibleRunner.Env} (h : Allowed execute env.output R)
    (name : String) :
    Relates R (AnsibleRunner.copyResources env (getAnsiblePath env.output name)) := by
  refine h.around (quiet_of_eq fun w => ?_) (spares_ansible env.output name)
  refine World.around_eq_iff.mpr ⟨rfl, rfl, fun path hpath => ?_⟩
  have hprefix : (getAnsiblePath env.output name).path.isPrefixOf? path = none := by
    rw [Option.eq_none_iff_forall_ne_some]
    intro rest hrest
    obtain rfl := List.isPrefixOf?_eq_some_iff_append_eq.mp hrest
    rw [List.isPrefixOf_iff_prefix.mpr (List.prefix_append _ rest)] at hpath
    cases hpath
  have hbelow : FileTree.isBelow (getAnsiblePath env.output name).path path = false := by
    rw [FileTree.isBelow, hpath, Bool.false_and]
  rw [AnsibleRunner.exec_copyResources]
  change FileTree.copyTree _ _ _ _ = _
  rw [FileTree.copyTree, hprefix]
  exact FileTree.removeTree_of_not_below hbelow

/-! ## Terraform -/

variable [Std.Refl R]

theorem Allowed.generate {env : TerraformTemplateGenerator.Env}
    (h : Allowed execute env.output R) (clusterModel : Val) (infrastructure : List Val) :
    Relates R (TerraformTemplateGenerator.run env clusterModel infrastructure) := by
  cases hname : specName clusterModel with
  | error e =>
      refine relates_read_bind fun _ name hown => ?_
      rw [hname] at hown
      cases hown
  | ok name =>
      exact h.around (TerraformTemplateGenerator.quiet_run env hname infrastructure)
        (spares_isChild (by decide) name)

theorem Allowed.copy {env : TerraformFileCopier.Env} (h : Allowed execute env.output R)
    {clusterModel : Val} {infrastructure : List Val}
    (hfiles : TerraformFileCopier.NamesCloudConfig (clusterModel :: infrastructure)) :
    Relates R (TerraformFileCopier.run env clusterModel infrastructure) := by
  cases hname : specName clusterModel with
  | error e =>
      refine relates_read_bind fun _ name hown => ?_
      rw [hname] at hown
      cases hown
  | ok name =>
      exact h.around (TerraformFileCopier.quiet_run env hname hfiles)
        (spares_isChild (by decide) name)

section

variable [IsTrans World R] {env : TerraformRunner.Env} (h : Allowed env.execute env.output R)

include h

theorem Allowed.attempt (argv : List String) (environ : Environ) (left : Nat) :
    Relates R (TerraformRunner.attempt env argv environ left) := by
  induction left with
  | zero => exact (h.popen argv _).bind fun exit => relates_pure exit.returncode
  | succ left ih =>
      refine (h.popen argv _).bind fun exit => (relates_read _).bind fun doRetry => ?_
      exact ih.ite (relates_pure exit.returncode)

theorem Allowed.runCommand (c : TerraformCommand.Command) (newEnv : TerraformRunner.NewEnv) :
    Relates R (TerraformRunner.runCommand env c newEnv) :=
  (relates_read _).bind fun environ => (h.attempt _ environ _).bind fun _ =>
    (relates_raise _).ite (relates_pure _)

theorem Allowed.az (cmd : String) (logCmd : Bool) :
    Relates R (TerraformRunner.az env cmd logCmd) :=
  (h.popen _ _).bind fun _ => (relates_raise _).ite (relates_pure _)

theorem Allowed.loginAccount (clusterModel : Val) :
    Relates R (TerraformRunner.loginAccount env clusterModel) := by
  refine (relates_read _).bind fun subscriptionName => (h.az _ _).bind fun all =>
    (relates_read _).bind fun subscription => ?_
  cases subscription with
  | none => exact relates_raise _
  | some subscription => exact relates_pure subscription

theorem Allowed.setActiveSubscribtion (subscriptionId : Val) :
    Relates R (TerraformRunner.setActiveSubscribtion env subscriptionId) :=
  (h.az _ _).bind fun _ => relates_pure ()

theorem Allowed.newServicePrincipal (clusterModel : Val) (name : String) :
    Relates R (TerraformRunner.newServicePrincipal env clusterModel name) := by
  refine (h.loginAccount clusterModel).bind fun subscription => ?_
  refine (relates_read _).bind fun id => (h.setActiveSubscribtion id).bind fun _ => ?_
  refine (relates_read _).bind fun pre => ?_
  have hcreate : Relates R (TerraformRunner.createSp env
        (resourceName env.lower (env.lower pre) (env.lower name) "rg" none) id) :=
    (h.az _ _).bind fun sp =>
      (relates_forM fun _ _ => h.sleep 1).bind fun _ => relates_pure sp
  refine hcreate.bind fun sp => (relates_read _).bind fun sp => ?_
  exact (h.writeFile (fun _ => stateFilePath_ne (by decide))
    (fun _ => manifestFilePath_ne) _).bind fun _ => relates_pure sp

theorem Allowed.servicePrincipal (clusterModel : Val) (name : String) :
    Relates R (TerraformRunner.servicePrincipal env clusterModel name) := by
  refine (relates_read _).bind fun file => ?_
  cases file with
  | none => exact h.newServicePrincipal clusterModel name
  | some content => exact relates_read _

theorem Allowed.azureLogin (clusterModel : Val) (newEnv : TerraformRunner.NewEnv) :
    Relates R (TerraformRunner.azureLogin env clusterModel newEnv) := by
  refine (relates_read _).bind fun name => (relates_read _).bind fun _ =>
    (relates_read _).bind fun useServicePrincipal => Relates.ite ?_ ?_
  · have hlogin : ∀ sp, Relates R (TerraformRunner.loginSp env sp) := fun sp =>
      (relates_read _).bind fun _ => (relates_read _).bind fun _ => (relates_read _).bind fun _ =>
        h.az _ _
    have hactive : ∀ sp subscription, Relates R
        (TerraformRunner.activeSubscription env sp subscription) := fun sp subscription =>
      (relates_read _).bind fun _ => Relates.ite ((relates_read _).bind fun id =>
        (h.setActiveSubscribtion id).bind fun _ => relates_pure id) (relates_read _)
    exact (h.servicePrincipal clusterModel name).bind fun sp =>
      (hlogin sp).bind fun subscription => (hactive sp subscription).bind fun _ =>
        (relates_read _).bind fun _ => (relates_read _).bind fun _ =>
          (relates_read _).bind fun _ => relates_pure _
  · exact (h.loginAccount clusterModel).bind fun subscription =>
      (relates_read _).bind fun id => (h.setActiveSubscribtion id).bind fun _ =>
        relates_pure newEnv

theorem Allowed.login (clusterModel : Val) (newEnv : TerraformRunner.NewEnv) :
    Relates R (TerraformRunner.login env clusterModel newEnv) :=
  (relates_read _).bind fun _ =>
    (h.azureLogin clusterModel newEnv).ite (relates_pure newEnv)

theorem Allowed.init (clusterModel : Val) :
    Relates R (TerraformRunner.init env clusterModel) :=
  (relates_read _).bind fun _ => (relates_read _).bind fun _ =>
    (h.runCommand _ _).bind fun newEnv =>
      (h.login clusterModel newEnv).bind fun _ => relates_pure _

theorem Allowed.build (r : TerraformRunner) :
    Relates R (TerraformRunner.build env r) :=
  (h.runCommand _ _).bind fun _ => relates_pure ()

theorem Allowed.delete (r : TerraformRunner) :
    Relates R (TerraformRunner.delete env r) :=
  (h.runCommand _ _).bind fun _ => relates_pure ()

end

/-! ## Ansible -/

section

variable [IsTrans World R] {env : AnsibleRunner.Env} (h : Allowed env.execute env.output R)

include h

theorem Allowed.createInventory (r : AnsibleRunner) (name : String) :
    Relates R (AnsibleRunner.createInventory env r name) := by
  refine (relates_read _).bind fun file => h.writeFile (fun other heq => ?_)
    (fun other heq => ?_) _
  · have hlength := congrArg List.length heq
    simp [inventoryFilePath, stateFilePath, getTerraformPath, getBuildPath, Dir.join,
      Dir.joinSlash] at hlength
  · simp [inventoryFilePath, manifestFilePath, getBuildPath, Dir.join, ansibleInventoryFile,
      manifestFileName] at heq

theorem Allowed.createConfig (profileTasks : Bool) (name : String) :
    Relates R (AnsibleConfigFileCreator.create profileTasks
      ((getAnsiblePath env.output name).path ++ ["ansible.cfg"])
      ((getAnsiblePath env.output name).fileText "ansible.cfg")) := by
  have henviron : ∀ name value, Quiet (World.around fun _ => false) (setEnviron name value) :=
    fun _ _ => quiet_of_eq fun _ => rfl
  exact (relates_read _).bind fun _ => (h.writeAnsible name ["ansible.cfg"] _).bind fun _ =>
    h.around (henviron _ _) ⟨fun _ => rfl, fun _ => rfl⟩

/-- Generating the variables changes the documents in memory, too. -/
theorem Allowed.generateVars (hstore : ∀ w s, R w { w with store := s }) (r : AnsibleRunner)
    (name : String) :
    Relates R (AnsibleRunner.generateVars env r (getAnsiblePath env.output name)) := by
  refine (relates_onStore hstore _).bind fun generated => ?_
  have hvars : Quiet (World.around (getAnsiblePath env.output name).path.isPrefixOf)
      (appendFile (AnsibleRunner.groupVarsPath (getAnsiblePath env.output name))
        (.yaml [generated.groupVars])) :=
    quiet_of_eq fun w => World.around_eq_iff.mpr ⟨rfl, rfl, FileTree.removeWhere_eq_iff.mp
      (FileTree.removeWhere_write (by simp [AnsibleRunner.groupVarsPath]))⟩
  exact (relates_forM fun file _ =>
    h.writeAnsible name ["roles", file.1, "vars", "main.yml"] _).bind fun _ =>
      h.around hvars (spares_ansible env.output name)

/-- The Ansible run of an apply. -/
theorem Allowed.ansible (hstore : ∀ w s, R w { w with store := s }) (r : AnsibleRunner) :
    Relates R (AnsibleRunner.apply env r) := by
  have hprocess : ∀ argv, Relates R (runProcess env.execute argv World.environ) := fun argv =>
    (h.popen argv _).bind fun _ => (relates_raise _).ite (relates_pure ())
  have hretried : ∀ inventory playbook, Relates R
      (AnsibleCommand.runPlaybookWithRetries env.toEnv inventory playbook 1 10) :=
    fun inventory playbook => (hprocess _).retrying (fun _ => h.sleep 10) _
  have htask : ∀ inventory, Relates R
      (AnsibleCommand.runTaskWithRetries env.toEnv inventory "ping" "all" r.pingRetries 10 none) :=
    fun inventory => (hprocess _).retrying (fun _ => h.sleep 10) _
  have hprepare : Relates R (AnsibleRunner.prepare env r) :=
    ((relates_read _).bind fun _ => relates_read _).bind fun name =>
      (h.copyResources name).bind fun _ => (h.createInventory r name).bind fun _ =>
        (h.sleep 10).bind fun _ => (h.createConfig _ name).bind fun _ =>
          (h.generateVars hstore r name).bind fun _ => relates_pure name
  refine hprepare.bind fun name => ?_
  refine Relates.bind ((htask _).bind fun _ => (hretried _ _).bind fun _ =>
    (hretried _ _).bind fun _ => (hretried _ _).bind fun _ => (hretried _ _).bind fun _ =>
      hprocess _) fun _ => (relates_read _).bind fun roles => ?_
  refine (relates_forM fun role _ => (relates_read _).bind fun role => hprocess _).bind fun _ => ?_
  exact (hretried _ _).bind fun _ => (hretried _ _).bind fun _ => (hprocess _).bind fun _ =>
    hprocess _

end

/-! ## The Terraform steps of an apply -/

section

variable [IsTrans World R] {env : ApplyRun.Env} (h : Allowed env.execute env.output R)

include h

theorem Allowed.provisionInfrastructure {clusterModel : Val} {infrastructure : List Val}
    (hfiles : TerraformFileCopier.NamesCloudConfig (clusterModel :: infrastructure)) :
    Relates R (ApplyRun.provisionInfrastructure env clusterModel infrastructure) := by
  have hterraform : Allowed env.terraform.execute env.terraform.output R := h
  have hgenerate : Relates R
      (TerraformTemplateGenerator.run ⟨env.output, env.render⟩ clusterModel infrastructure) :=
    Allowed.generate h clusterModel infrastructure
  have hcopy : Relates R
      (TerraformFileCopier.run ⟨env.output, env.terraformBase⟩ clusterModel infrastructure) :=
    Allowed.copy h hfiles
  exact hgenerate.bind fun _ => hcopy.bind fun _ =>
    (hterraform.init _).bind fun r => hterraform.build r

/-- The files are only copied for a provider that Terraform provisions. -/
theorem Allowed.rel_runTerraform {input : ApplyEngine.Input} {clusterModel : DocId}
    {infrastructureDocs : List DocId} {w : World}
    (hfiles : ApplyRun.skipsTerraform input (w.store.doc clusterModel) = .ok false →
      TerraformFileCopier.NamesCloudConfig
        (w.store.doc clusterModel :: infrastructureDocs.map w.store.doc)) :
    R w ((ApplyRun.runTerraform env input clusterModel infrastructureDocs).exec w).2 := by
  cases hskips : ApplyRun.skipsTerraform input (w.store.doc clusterModel) with
  | error e =>
      have hrun : (readDocs fun doc => ApplyRun.skipsTerraform input
          (doc clusterModel)).exec w = (.error e, w) := Prod.ext hskips rfl
      rw [ApplyRun.runTerraform, Action.exec_bind_error hrun]
      exact Std.Refl.refl w
  | ok skips =>
      have hrun : (readDocs fun doc => ApplyRun.skipsTerraform input
          (doc clusterModel)).exec w = (.ok skips, w) := Prod.ext hskips rfl
      rw [ApplyRun.runTerraform, Action.exec_bind_ok hrun]
      cases skips with
      | true => exact Std.Refl.refl w
      | false =>
          have hdocs : (readDocs fun doc => .ok (doc clusterModel,
              infrastructureDocs.map doc)).exec w = (.ok (w.store.doc clusterModel,
                infrastructureDocs.map w.store.doc), w) := rfl
          rw [if_neg Bool.false_ne_true, Action.exec_bind_ok hdocs]
          exact (h.provisionInfrastructure (hfiles hskips)).rel w

end

end LambdaStack
