/-
# Applying and deleting keep the clusters consistent

Wherever an apply or a deletion ends, the state file of each cluster records what exists
of it, and the manifest in a build directory is that of the directory's cluster. The
files the program writes, removes and copies itself are no state files, and a manifest is
only saved with the cluster model it is named after.
-/

import LambdaStack.Engine.DeleteEngine
import LambdaStack.Engine.PreparedApply

namespace LambdaStack

open Lib BuildM
open ApplyRun (Prepared prepare_prepared onDocs_eq_ok onDocs_reads quiet_loadManifest
  configurationDocs_mem)

namespace Cloud

variable {ρ : Type} {cloud : Cloud ρ} {output : Dir} {loadYamls : List Chunk → Res (List Val)}
  {known : Store → Prop}

/-- The clusters of an output directory are consistent, whatever is in memory. -/
abbrev Clusters (cloud : Cloud ρ) (output : Dir) (loadYamls : List Chunk → Res (List Val)) :
    World → Prop :=
  cloud.Consistent output loadYamls fun _ => True

theorem Consistent.knowing {w : World} (h : Clusters cloud output loadYamls w)
    (hstore : known w.store) : cloud.Consistent output loadYamls known w :=
  ⟨h.tracked, h.manifests, hstore⟩

/-- Work on the documents leaves the clusters as they are. -/
theorem clusters_store (w : World) (s : Store) :
    Carries (Clusters cloud output loadYamls) w { w with store := s } :=
  fun hw => ⟨hw.tracked, hw.manifests, trivial⟩

/-! ## The manifest -/

/-- What the commands rely on: the processes, the validation schemas, the version and the
files they have written themselves. -/
structure Trusted (cloud : Cloud ρ) (env : ApplyRun.Env) : Prop where
  processes : cloud.Documented env.execute env.output
  checks : SchemaValidator.ChecksProvider env.validator env.builder.lower
  version : Objects.yesno? env.builder.version = none
  /-- What is read back is what was dumped. -/
  loads : ∀ trees docs, env.loadYamls [.yaml trees] = .ok docs → docs = trees

theorem manifestFilePath_inj {clusterName other : String}
    (h : manifestFilePath output clusterName = manifestFilePath output other) :
    clusterName = other := by
  simpa [manifestFilePath, getBuildPath, Dir.join] using h

theorem stateFilePath_eq {clusterName : String} : stateFilePath output clusterName =
    (output.join clusterName).path ++ ["terraform", stateFileName] :=
  List.append_assoc ..

theorem stateFilePath_ne_manifest {clusterName other : String} :
    stateFilePath output clusterName ≠ manifestFilePath output other := by
  intro heq
  exact manifestFilePath_ne heq.symm

section

variable {env : ApplyRun.Env} (h : Trusted cloud env)

include h in
/-- A manifest that is saved with its cluster model is that of the cluster. -/
theorem rel_saveManifest {docs : List DocId} {clusterModel : DocId} {w : World}
    (hmem : clusterModel ∈ docs)
    (hkind : (w.store.doc clusterModel).IsKind "lambdastack-cluster") :
    Carries (Clusters cloud env.output env.loadYamls) w
      ((ApplyRun.saveManifest env docs clusterModel).exec w).2 := by
  intro hw
  cases hname : specName (w.store.doc clusterModel) with
  | error e =>
      have hrun : (ApplyRun.clusterName clusterModel).exec w = (.error e, w) :=
        Prod.ext hname rfl
      rw [ApplyRun.saveManifest, Action.exec_bind_error hrun]
      exact hw
  | ok name =>
      rw [ApplyRun.exec_saveManifest hname]
      refine ⟨fun other => ?_, fun other => ?_, trivial⟩
      · have hsame : (ApplyRun.withManifest env name docs w).files
            (stateFilePath env.output other) = w.files (stateFilePath env.output other) :=
          FileTree.write_ne stateFilePath_ne_manifest
        exact (hw.tracked other).trans_eq (recordedIn_congr hsame).symm
      · by_cases heq : other = name
        · subst heq
          intro content loaded own hcontent hloaded hown
          change FileTree.write _ _ _ _ = _ at hcontent
          rw [FileTree.write_self] at hcontent
          cases hcontent
          obtain rfl := h.loads _ _ hloaded
          obtain ⟨id, hid, hselected, rfl, -⟩ := AnsibleInventoryCreator.selectSingle_of_map hown
          have hsingle : clusterModel ∈ [id] := by
            rw [← selectSingle_eq_ok hselected]
            exact List.mem_filter.mpr ⟨hmem, holds?_kindIs.mpr hkind⟩
          rwa [← List.mem_singleton.mp hsingle]
        · exact (ownManifest_congr (FileTree.write_ne
            fun hpath => heq (manifestFilePath_inj hpath))).mpr (hw.manifests other)

variable (env) in
theorem quiet_store_saveManifest (docs : List DocId) (clusterModel : DocId) :
    Quiet World.store (ApplyRun.saveManifest env docs clusterModel) :=
  (relates_read _).bind fun _ => (relates_read _).bind fun _ => quiet_of_eq fun _ => rfl

/-! ## An apply -/

theorem maintains_onDocs {α : Type} (x : ApplyEngine.Env → BuildM α) :
    Maintains (Clusters cloud output loadYamls) (ApplyRun.onDocs env x) :=
  ⟨fun w => (relates_onStore clusters_store _).rel w⟩

variable {options : ApplyRun.Options} {w w' : World}

include h

theorem rel_configure {docs : ApplyEngine.InputDocs} {infrastructureDocs : List DocId}
    (hprepared : Prepared options.toInput docs infrastructureDocs w.store) :
    Carries (Clusters cloud env.output loadYamls) w
      ((ApplyRun.configure env options docs infrastructureDocs).exec w).2 := by
  refine rel_bind ((maintains_onDocs _).rel w) fun _ w₁ hrun => ?_
  obtain rfl := onDocs_reads hrun
  refine rel_bind (h.processes.allowed.rel_runTerraform hprepared.files) fun _ w₂ _ => ?_
  exact ((maintains_onDocs _).bind fun ids => (maintains_onDocs _).bind fun _ =>
    relates_pure ids).rel w₂

/-- What a successful configuration leaves of the cluster model. -/
theorem configure_mem {docs : ApplyEngine.InputDocs} {infrastructureDocs ids : List DocId}
    (hprepared : Prepared options.toInput docs infrastructureDocs w.store)
    (hw : Clusters cloud env.output loadYamls w)
    (hrun : (ApplyRun.configure env options docs infrastructureDocs).exec w = (.ok ids, w')) :
    docs.clusterModel ∈ ids ∧ (w'.store.doc docs.clusterModel).IsKind "lambdastack-cluster" := by
  simp only [ApplyRun.configure, Action.bind_eq_ok] at hrun
  obtain ⟨_, w₁, hfamily, _, w₂, hterraform, ids', w₃, hconfiguration, _, w₄, hcollect,
    hret⟩ := hrun
  cases hret
  obtain rfl := onDocs_reads hfamily
  have hknowing : cloud.Consistent env.output loadYamls (fun s => s = w₁.store) w₁ :=
    hw.knowing rfl
  have hknown := h.processes.allowed.rel_runTerraform hprepared.files hknowing
  rw [hterraform] at hknown
  have hstore : w₂.store = w₁.store := hknown.store
  rw [← hstore] at hprepared
  exact configurationDocs_mem hprepared hconfiguration hcollect

/-- An apply keeps the clusters consistent, wherever it ends. -/
theorem rel_apply (hinput : ∀ file, options.file = some file → ∀ v ∈ file, v.WellFormed)
    (w : World) :
    Carries (Clusters cloud env.output env.loadYamls) w
      ((ApplyRun.apply env options).exec w).2 := by
  have hprepare : Maintains (Clusters cloud env.output env.loadYamls)
      (ApplyRun.prepare env options) :=
    (maintains_onDocs _).bind fun docs => (maintains_onDocs _).bind fun _ =>
      (maintains_onDocs _).bind fun _ =>
        ((quiet_loadManifest env docs.clusterModel).maintains fun _ _ hsame hw => hsame ▸ hw).bind
          fun _ => (maintains_onDocs _).bind fun _ => relates_pure _
  refine carries_bind (hprepare.rel w) fun prepared w₁ hrun hw₁ => ?_
  have hprepared := prepare_prepared h.checks h.version hinput hrun
  refine carries_bind (rel_saveManifest h (List.mem_append_left _ hprepared.mem)
    hprepared.isKind) (fun _ w₂ hsaved hw₂ => ?_) hw₁
  have hstore := (quiet_store_saveManifest env (prepared.1.docs ++ prepared.2)
    prepared.1.clusterModel).rel w₁
  rw [hsaved] at hstore
  change w₂.store = w₁.store at hstore
  rw [← hstore] at hprepared
  refine carries_bind (rel_configure h hprepared) (fun ids w₃ hconfigure hw₃ => ?_) hw₂
  obtain ⟨hmem, hkind⟩ := configure_mem h hprepared hw₂ hconfigure
  refine carries_bind (rel_saveManifest h (List.mem_append_left _ hmem) hkind)
    (fun _ w₄ _ hw₄ => ?_) hw₃
  rw [ApplyRun.runAnsible]
  split
  · exact hw₄
  · have hansible : Allowed env.toRunner.execute env.toRunner.output
        (Carries (Clusters cloud env.output env.loadYamls)) := h.processes.allowed
    exact (hansible.ansible clusters_store _).rel w₄ hw₄

end

/-! ## A deletion -/

section

variable {env : DeleteEngine.Env} {w w' : World} {name : String} {u : Unit}

theorem init_terraform {env : TerraformRunner.Env} {clusterModel : Val} {r : TerraformRunner}
    (hname : specName clusterModel = .ok name)
    (hrun : (TerraformRunner.init env clusterModel).exec w = (.ok r, w')) :
    r.terraform = (getTerraformPath env.output name).text := by
  simp only [TerraformRunner.init, Action.bind_eq_ok] at hrun
  obtain ⟨own, w₁, hread, environ, w₂, -, newEnv, w₃, -, login, w₄, -, hret⟩ := hrun
  obtain ⟨hown, -⟩ := Prod.ext_iff.mp hread
  cases hret
  obtain rfl : own = name := Except.ok.inj (hown.symm.trans hname)
  rfl

variable (h : cloud.Documented env.execute env.output)

include h

theorem maintains_destroy (buildDirectory : Dir) :
    Maintains (Clusters cloud env.output env.loadYamls)
      (DeleteEngine.destroy env buildDirectory) :=
  (relates_read _).bind fun _ => (relates_read _).bind fun clusterModel =>
    (relates_read _).bind fun _ => (relates_raise _).ite
      ((h.allowed.init clusterModel).bind fun r => h.allowed.delete r)

/-- Where the destruction ends, nothing of the cluster whose manifest it is is left. -/
theorem resources_of_destroy (hw : Clusters cloud env.output env.loadYamls w)
    (hrun : (DeleteEngine.destroy env (env.output.join name)).exec w = (.ok u, w')) :
    cloud.resources w'.history name = ∅ := by
  simp only [DeleteEngine.destroy, Action.bind_eq_ok] at hrun
  obtain ⟨docs, w₁, hload, clusterModel, w₂, hselect, provider, w₃, hprovider, hrun⟩ := hrun
  obtain ⟨rfl, content, hcontent, hloaded⟩ := DeleteEngine.loadManifest_eq_ok hload
  obtain ⟨hmodel, rfl⟩ := Prod.ext_iff.mp hselect
  obtain ⟨-, rfl⟩ := Prod.ext_iff.mp hprovider
  split at hrun
  · cases hrun
  · obtain ⟨r, w₄, hinit, hdelete⟩ := Action.bind_eq_ok.mp hrun
    have hname : specName clusterModel = .ok name :=
      hw.manifests name content docs clusterModel hcontent hloaded hmodel
    have hw₄ := Maintains.of_ok (h.allowed.init clusterModel) hinit hw
    exact resources_of_delete h (init_terraform hname hinit) hw₄ hdelete

/-- A deletion keeps the clusters consistent, wherever it ends. -/
theorem rel_delete (w : World) : Carries (Clusters cloud env.output env.loadYamls) w
    ((DeleteEngine.delete env (env.output.join name)).exec w).2 := by
  intro hw
  refine carries_bind ((maintains_destroy h _).rel w) (fun _ w₁ hdestroy hw₁ => ?_) hw
  have hnone := resources_of_destroy h hw hdestroy
  change Clusters cloud env.output env.loadYamls
    { w₁ with files := w₁.files.removeTree (env.output.join name).path }
  have hother : ∀ other rest, other ≠ name →
      FileTree.isBelow (env.output.join name).path ((env.output.join other).path ++ rest) =
        false := by
    intro other rest hne
    rw [Bool.eq_false_iff, ne_eq, FileTree.isBelow_iff]
    rintro ⟨below, -, heq⟩
    simp only [Dir.join, List.append_assoc, List.append_cancel_left_eq, List.cons_append,
      List.nil_append, List.cons.injEq] at heq
    exact hne heq.1
  refine ⟨fun other => ?_, fun other => ?_, trivial⟩
  · by_cases hname : other = name
    · subst hname
      change cloud.resources w₁.history other ⊆ _
      rw [hnone]
      exact Set.empty_subset _
    · have hsame : w₁.files.removeTree (env.output.join name).path
          (stateFilePath env.output other) = w₁.files (stateFilePath env.output other) :=
        FileTree.removeTree_of_not_below (stateFilePath_eq ▸ hother other _ hname)
      rw [recordedIn_congr hsame]
      exact hw₁.tracked other
  · by_cases hname : other = name
    · subst hname
      intro content docs clusterModel hcontent
      have hgone : w₁.files.removeTree (env.output.join other).path
          (manifestFilePath env.output other) = none :=
        FileTree.removeTree_below (FileTree.isBelow_append (List.cons_ne_nil _ []))
      cases hgone.symm.trans hcontent
    · exact (ownManifest_congr (FileTree.removeTree_of_not_below
        (hother other [manifestFileName] hname))).mpr (hw₁.manifests other)

end

end Cloud

end LambdaStack
