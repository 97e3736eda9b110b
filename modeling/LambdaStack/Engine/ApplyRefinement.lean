/-
# An apply refines its plan

`ApplyEngine.apply` is an apply without files and processes: its manifest is a field of
the world, and of Terraform and Ansible only the ends are left. The apply that writes
files and starts processes ends like it, and what it leaves in the manifest file reads as
the manifest of the plan. A cluster keeps its name during an apply, and no step but
`save_manifest` writes the file of that name.
-/

import LambdaStack.Engine.ClusterLifecycle
import LambdaStack.Lib.Simulation

namespace LambdaStack

open Lib BuildM
open ApplyEngine (IsCluster KeepsCluster)

namespace ApplyRun

/-- What the refinement relies on: the validation schemas, the version, what is read back
of a dump, and processes that leave the manifest of the cluster alone. -/
structure Modelled (env : Env) (name : String) : Prop where
  checks : SchemaValidator.ChecksProvider env.validator env.builder.lower
  version : Objects.yesno? env.builder.version = none
  loads : ∀ trees, env.loadYamls [.yaml trees] = .ok trees
  manifest : ∀ history call, (env.execute history call).files (manifestFilePath env.output name) =
    call.files (manifestFilePath env.output name)

/-- The manifest file of the cluster reads as the manifest of the plan. -/
def ShowsManifest (env : Env) (name : String) (w : World) (v : ApplyEngine.World) : Prop :=
  (w.files (manifestFilePath env.output name)).map env.loadYamls = v.manifest.map .ok

/-- The documents in memory are the same, and so is the manifest. -/
structure Shows (env : Env) (name : String) (w : World) (v : ApplyEngine.World) : Prop where
  store : v.store = w.store
  manifest : ShowsManifest env name w v

section

variable {env : Env} {name : String} {options : Options} {w w' : World} {v v' : ApplyEngine.World}

theorem ShowsManifest.of_same (h : ShowsManifest env name w v)
    (hfile : w'.files (manifestFilePath env.output name) =
      w.files (manifestFilePath env.output name)) (hmanifest : v'.manifest = v.manifest) :
    ShowsManifest env name w' v' := by
  rw [ShowsManifest, hfile, hmanifest]
  exact h

/-! ## The steps -/

/-- What a part on the documents does in both applies. -/
structure Continues {α : Type} (env : Env) (name : String) (y : BuildM α) (w : World) (a : α)
    (w' : World) (b : α) (v' : ApplyEngine.World) : Prop where
  same : a = b
  run : y w.store = .ok (a, w'.store)
  files : w'.files = w.files
  shows : Shows env name w' v'

/-- A part on the documents is the same in both applies. -/
theorem onDocs_alike {α : Type} {stage : ApplyEngine.Stage} {x : ApplyEngine.Env → BuildM α}
    {y : BuildM α} (h : Shows env name w v)
    (hsame : x (env.engine w.files (.ok ()) (.ok ())) = y) :
    EndAlike Prod.snd (Continues env name y w) (ShowsManifest env name)
      ((onDocs env x).exec w) ((ApplyEngine.atStage stage y).exec v) := by
  subst hsame
  rcases hrun : x (env.engine w.files (.ok ()) (.ok ())) w.store with e | ⟨a, s⟩
  · have hw : (onDocs env x).exec w = (.error e, w) := by
      simp [Action.exec, onDocs, onStore, hrun]
    have hv : (ApplyEngine.atStage stage (x (env.engine w.files (.ok ()) (.ok ())))).exec v =
        (.error (stage, e), v) :=
      ApplyEngine.atStage_eq_error.mpr ⟨e, h.store ▸ hrun, rfl, rfl⟩
    rw [hw, hv]
    exact EndAlike.raised (e := (stage, e)) h.manifest
  · have hw : (onDocs env x).exec w = (.ok a, { w with store := s }) :=
      onDocs_eq_ok.mpr ⟨s, hrun, rfl⟩
    have hv : (ApplyEngine.atStage stage (x (env.engine w.files (.ok ()) (.ok ())))).exec v =
        (.ok a, { v with store := s }) :=
      ApplyEngine.atStage_eq_ok.mpr ⟨s, h.store ▸ hrun, rfl⟩
    rw [hw, hv]
    exact .returned ⟨rfl, hrun, rfl, rfl, h.manifest⟩

theorem specName_of_isCluster {x : Val} (h : IsCluster name x) : specName x = .ok name := by
  obtain ⟨own, hown, htext⟩ := Option.bind_eq_some_iff.mp h.name
  exact specName_eq_ok.mpr ⟨own, AnsibleInventoryCreator.attrPath_spec_eq_ok.mpr hown, htext⟩

/-- A manifest is loaded as it is in the plan. -/
theorem exec_loadManifest {clusterModel : DocId} (h : Shows env name w v)
    (hcluster : IsCluster name (w.store.doc clusterModel)) :
    (loadManifest env clusterModel).exec w = (.ok (v.manifest.getD []), w) := by
  have hname := exec_clusterName (specName_of_isCluster hcluster)
  have hmanifest := h.manifest
  rw [ShowsManifest] at hmanifest
  cases hfile : w.files (manifestFilePath env.output name) with
  | none =>
      have hread : (Action.read fun w : World => (.ok (w.files (manifestFilePath env.output name)) :
          Res (Option (List Chunk)))).exec w = (.ok none, w) :=
        Prod.ext (congrArg Except.ok hfile) rfl
      rw [hfile, Option.map_none, eq_comm, Option.map_eq_none_iff] at hmanifest
      rw [loadManifest, Action.exec_bind_ok hname, Action.exec_bind_ok hread, hmanifest]
      rfl
  | some content =>
      have hread : (Action.read fun w : World => (.ok (w.files (manifestFilePath env.output name)) :
          Res (Option (List Chunk)))).exec w = (.ok (some content), w) :=
        Prod.ext (congrArg Except.ok hfile) rfl
      rw [hfile, Option.map_some, eq_comm, Option.map_eq_some_iff] at hmanifest
      obtain ⟨docs, hdocs, hloaded⟩ := hmanifest
      rw [loadManifest, Action.exec_bind_ok hname, Action.exec_bind_ok hread, hdocs]
      exact Prod.ext hloaded.symm rfl

/-- A manifest is saved as it is in the plan. -/
theorem saveManifest_shows (hloads : ∀ trees, env.loadYamls [.yaml trees] = .ok trees)
    (h : Shows env name w v) (docs : List DocId) :
    Shows env name (withManifest env name docs w)
      { v with manifest := some (docs.map v.store.doc) } := by
  have hwritten : w.files.write (manifestFilePath env.output name)
      [.yaml (docs.map w.store.doc)] (manifestFilePath env.output name) =
        some [.yaml (docs.map w.store.doc)] := FileTree.write_self
  refine ⟨h.store, ?_⟩
  change Option.map env.loadYamls (w.files.write _ _ _) = some (.ok (docs.map v.store.doc))
  rw [hwritten, Option.map_some, hloads, h.store]

/-! ## The preparation -/

/-- The cluster model of the input file has the name. -/
def Names (env : Env) (name : String) (options : Options) (w : World) : Prop :=
  ∀ docs s, ApplyEngine.processInputDocs (env.engine w.files (.ok ()) (.ok ())) options.toInput
    w.store = .ok (docs, s) →
      ((s.doc docs.clusterModel).specAttr? "name").bind Val.str? = some name

/-- What a preparation leaves in both applies. -/
structure PreparedAlike (env : Env) (name : String) (prepared : ApplyEngine.InputDocs × List DocId)
    (w : World) (plan : ApplyEngine.InputDocs × List DocId) (v : ApplyEngine.World) : Prop where
  same : prepared = plan
  shows : Shows env name w v
  cluster : IsCluster name (w.store.doc prepared.1.clusterModel)
  word : Objects.yesno? name = none

theorem prepare_alike (h : Modelled env name)
    (hinput : ∀ file, options.file = some file → ∀ v ∈ file, v.WellFormed)
    (hnames : Names env name options w) (hshows : Shows env name w v)
    (terraform ansible : Res Unit) :
    EndAlike Prod.snd (PreparedAlike env name) (ShowsManifest env name)
      ((prepare env options).exec w)
      ((ApplyEngine.prepare (env.engine w.files terraform ansible) options.toInput).exec v) := by
  refine EndAlike.bind (onDocs_alike hshows rfl) fun docs w₁ _ v₁ _ h₁ => ?_
  obtain ⟨rfl, hdocs, hfiles₁, hshows₁⟩ := h₁
  have hmemory : docs.InMemory env.builder.lower w₁.store := by
    refine ApplyEngine.processInputDocs_inMemory ?_ hinput ?_ hdocs
    · exact h.checks
    · exact h.version
  have hname := hnames docs w₁.store hdocs
  have hcluster₁ : IsCluster name (w₁.store.doc docs.clusterModel) := ⟨hmemory.isKind, hname⟩
  have hword : Objects.yesno? name = none := by
    obtain ⟨x, hx⟩ := hmemory.replaced
    exact ApplyEngine.yesno?_of_replaced (hx ▸ hname)
  refine EndAlike.bind (onDocs_alike hshows₁ (hfiles₁ ▸ rfl)) fun _ w₂ _ v₂ _ h₂ => ?_
  obtain ⟨rfl, hmaster, hfiles₂, hshows₂⟩ := h₂
  obtain ⟨-, hstore₂⟩ := reads_eq_ok.mp hmaster
  refine EndAlike.bind (onDocs_alike hshows₂ (hfiles₂ ▸ hfiles₁ ▸ rfl)) fun _ w₃ _ v₃ _ h₃ => ?_
  obtain ⟨rfl, hpostgres, hfiles₃, hshows₃⟩ := h₃
  obtain ⟨-, hstore₃⟩ := reads_eq_ok.mp hpostgres
  have hstore : w₃.store = w₁.store := hstore₃.symm.trans hstore₂.symm
  have hcluster₃ : IsCluster name (w₃.store.doc docs.clusterModel) := hstore ▸ hcluster₁
  refine EndAlike.stepLeft (exec_loadManifest hshows₃ hcluster₃) (EndAlike.stepRight
    (ApplyEngine.loadManifest_exec v₃) ?_)
  refine EndAlike.bind (onDocs_alike hshows₃ rfl) fun ids w₄ _ v₄ _ h₄ => ?_
  obtain ⟨rfl, hbuild, -, hshows₄⟩ := h₄
  have hkeep : Store.Evolves (KeepsCluster name) w₃.store w₄.store :=
    ApplyEngine.processInfrastructureDocs_keepsCluster hword (hstore ▸ hmemory) hbuild
  have hlt : docs.clusterModel < w₃.store.next := hstore ▸ hmemory.allocated _ hmemory.mem
  exact .returned ⟨rfl, hshows₄, hkeep.doc _ hlt hcluster₃, hword⟩

/-! ## Terraform and Ansible -/

/-- Where the plan raises what a run has raised, they end alike. -/
theorem ends_alike {stage : ApplyEngine.Stage} {x : Cli Unit} {f : (DocId → Val) → Res Unit}
    {P : World → ApplyEngine.World → Prop} (hend : f v.store.doc = (x.exec w).1)
    (hP : P (x.exec w).2 v) :
    EndAlike Prod.snd (fun _ w' _ v' => P w' v') P (x.exec w)
      ((ApplyEngine.atStage stage (reads f)).exec v) := by
  rcases hrun : x.exec w with ⟨e | u, w'⟩
  · rw [hrun] at hend hP
    have hv : (ApplyEngine.atStage stage (reads f)).exec v = (.error (stage, e), v) :=
      ApplyEngine.atStage_eq_error.mpr ⟨e, by rw [reads, hend]; rfl, rfl, rfl⟩
    rw [hv]
    exact EndAlike.raised (e := (stage, e)) hP
  · rw [hrun] at hend hP
    have hv : (ApplyEngine.atStage stage (reads f)).exec v = (.ok u, v) :=
      ApplyEngine.atStage_eq_ok.mpr ⟨v.store, by rw [reads, hend]; rfl, rfl⟩
    rw [hv]
    exact .returned hP

/-- Terraform leaves the documents in memory and the manifest alone. -/
theorem Modelled.allowed (h : Modelled env name) : Allowed env.execute env.output
    (Same fun w : World => (w.store, w.files (manifestFilePath env.output name))) where
  popen argv environ := quiet_of_eq fun w => Prod.ext rfl (h.manifest w.history _)
  sleep seconds := quiet_of_eq fun _ => rfl
  around hx hp := hx.mono fun w w' hsame => by
    obtain ⟨hstore, -, hfiles⟩ := World.around_eq_iff.mp hsame
    exact Prod.ext hstore (hfiles _ (hp.manifest name))

theorem runTerraform_alike (h : Modelled env name) {docs : ApplyEngine.InputDocs}
    {infrastructureDocs : List DocId} {files : Tree} {ansible : Res Unit}
    (hprepared : Prepared options.toInput docs infrastructureDocs w.store)
    (hshows : Shows env name w v) :
    EndAlike Prod.snd (fun _ w' _ v' => w'.store = w.store ∧ Shows env name w' v')
      (ShowsManifest env name)
      ((runTerraform env options.toInput docs.clusterModel infrastructureDocs).exec w)
      ((ApplyEngine.atStage .terraform (ApplyEngine.runTerraform (env.engine files
        ((runTerraform env options.toInput docs.clusterModel infrastructureDocs).exec w).1 ansible)
          options.toInput docs.clusterModel infrastructureDocs)).exec v) := by
  have hrel := h.allowed.rel_runTerraform hprepared.files
  obtain ⟨hstore, hfile⟩ := Prod.ext_iff.mp hrel
  refine EndAlike.mono (ends_alike (P := fun w' v' => w'.store = w.store ∧ Shows env name w' v') ?_
    ⟨hstore, hshows.store.trans hstore.symm, hshows.manifest.of_same hfile rfl⟩)
      (fun _ _ _ _ => id) fun _ _ hleft => hleft.2.manifest
  rw [hshows.store]
  cases hprovider : (w.store.doc docs.clusterModel).getItem "provider" with
  | error e =>
      have hskips : skipsTerraform options.toInput (w.store.doc docs.clusterModel) = .error e := by
        rw [skipsTerraform, hprovider]
        rfl
      have hrun : (readDocs fun doc => skipsTerraform options.toInput
          (doc docs.clusterModel)).exec w = (.error e, w) := Prod.ext hskips rfl
      rw [runTerraform, Action.exec_bind_error hrun]
      rfl
  | ok provider =>
      have hskips : skipsTerraform options.toInput (w.store.doc docs.clusterModel) =
          .ok (options.skipInfrastructure || provider.pyEq (.str "any")) := by
        rw [skipsTerraform, hprovider]
        rfl
      have hrun : (readDocs fun doc => skipsTerraform options.toInput
          (doc docs.clusterModel)).exec w =
            (.ok (options.skipInfrastructure || provider.pyEq (.str "any")), w) :=
        Prod.ext hskips rfl
      change ite ((options.skipInfrastructure || provider.pyEq (.str "any")) = true) _ _ = _
      split
      · next hskip =>
          rw [runTerraform, Action.exec_bind_ok hrun, if_pos hskip]
          rfl
      · rfl

theorem runAnsible_alike (h : Modelled env name) {clusterModel : DocId} {docs : List DocId}
    {files : Tree} {terraform : Res Unit} (hshows : Shows env name w v) :
    EndAlike Prod.snd (fun _ w' _ v' => ShowsManifest env name w' v') (ShowsManifest env name)
      ((runAnsible env options clusterModel docs).exec w)
      ((ApplyEngine.atStage .ansible (ApplyEngine.runAnsible (env.engine files terraform
        ((runAnsible env options clusterModel docs).exec w).1) options.toInput clusterModel
          docs)).exec v) := by
  have hallowed : Allowed env.toRunner.execute env.toRunner.output
      (Same fun w : World => w.files (manifestFilePath env.output name)) :=
    h.allowed.mono fun _ _ hsame => (Prod.ext_iff.mp hsame).2
  have hquiet : Quiet (fun w : World => w.files (manifestFilePath env.output name))
      (runAnsible env options clusterModel docs) := by
    rw [runAnsible]
    exact (relates_pure ()).ite (hallowed.ansible (fun _ _ => rfl) _)
  refine ends_alike ?_ (hshows.manifest.of_same (hquiet.rel w) rfl)
  split
  · next hskip =>
      rw [runAnsible, if_pos hskip]
      rfl
  · rfl

/-! ## The whole apply -/

/-- What the steps between the two manifests leave in both applies. -/
structure ConfiguredAlike (env : Env) (name : String) (clusterModel : DocId) (ids : List DocId)
    (w : World) (plan : List DocId) (v : ApplyEngine.World) : Prop where
  same : ids = plan
  shows : Shows env name w v
  cluster : IsCluster name (w.store.doc clusterModel)

theorem configure_alike (h : Modelled env name) {docs : ApplyEngine.InputDocs}
    {infrastructureDocs : List DocId} {files : Tree} {ansible : Res Unit}
    (hprepared : Prepared options.toInput docs infrastructureDocs w.store)
    (hshows : Shows env name w v) (hcluster : IsCluster name (w.store.doc docs.clusterModel))
    (hword : Objects.yesno? name = none) :
    EndAlike Prod.snd (ConfiguredAlike env name docs.clusterModel) (ShowsManifest env name)
      ((configure env options docs infrastructureDocs).exec w)
      ((ApplyEngine.configure (env.engine files
        ((runTerraform env options.toInput docs.clusterModel infrastructureDocs).exec w).1 ansible)
          options.toInput docs infrastructureDocs).exec v) := by
  have hlt : docs.clusterModel < w.store.next := hprepared.allocated _ hprepared.mem
  refine EndAlike.bind (onDocs_alike hshows rfl) fun _ w₁ _ v₁ hrun h₁ => ?_
  obtain ⟨rfl, -, -, hshows₁⟩ := h₁
  obtain rfl := onDocs_reads hrun
  refine EndAlike.bind (runTerraform_alike h hprepared hshows₁) fun _ w₂ _ v₂ _ h₂ => ?_
  obtain ⟨hstore, hshows₂⟩ := h₂
  refine EndAlike.bind (onDocs_alike hshows₂ rfl) fun ids w₃ _ v₃ _ h₃ => ?_
  obtain ⟨rfl, hconfiguration, -, hshows₃⟩ := h₃
  rw [hstore] at hconfiguration
  have hkeep₃ : Store.Evolves (KeepsCluster name) w₁.store w₃.store :=
    ApplyEngine.processConfigurationDocs_keepsCluster hword hconfiguration
  have hcluster₃ := hkeep₃.doc _ hlt hcluster
  refine EndAlike.bind (onDocs_alike hshows₃ rfl) fun _ w₄ _ v₄ _ h₄ => ?_
  obtain ⟨rfl, hcollect, -, hshows₄⟩ := h₄
  have hstorage : ∀ x y value : Val, setAttrPath x ["specification", "storage"] "data" value =
      .ok y → KeepsCluster name x y := fun _ _ _ => KeepsCluster.setStorage
  have hkeep₄ : Store.Evolves (KeepsCluster name) w₃.store w₄.store :=
    (ApplyEngine.preserves_collectInfrastructureConfig _ hstorage _ _).rel hcollect
  exact .returned ⟨rfl, hshows₄, hkeep₄.doc _ (hlt.trans_le hkeep₃.next_le) hcluster₃⟩

/-- An apply ends like its plan for some ends of Terraform and Ansible, and the manifest
file it leaves reads as the manifest of the plan. -/
theorem apply_refines (h : Modelled env name)
    (hinput : ∀ file, options.file = some file → ∀ v ∈ file, v.WellFormed)
    (hnames : Names env name options w) (hshows : Shows env name w v) :
    ∃ terraform ansible, EndAlike Prod.snd (fun _ w' _ v' => ShowsManifest env name w' v')
      (ShowsManifest env name) ((apply env options).exec w)
      ((ApplyEngine.apply (env.engine w.files terraform ansible) options.toInput).exec v) := by
  have hprepare := prepare_alike h hinput hnames hshows
  rcases hrun : (prepare env options).exec w with ⟨e | ⟨docs, infrastructureDocs⟩, w₁⟩
  · refine ⟨.ok (), .ok (), EndAlike.bind (hprepare _ _) fun _ _ _ _ hok => ?_⟩
    cases hrun.symm.trans hok
  · let w₂ := withManifest env name (docs.docs ++ infrastructureDocs) w₁
    refine ⟨((runTerraform env options.toInput docs.clusterModel infrastructureDocs).exec w₂).1,
      ((apply env options).exec w).1, EndAlike.bind (hprepare _ _) fun a w₁' b v₁ hok h₁ => ?_⟩
    cases hrun.symm.trans hok
    obtain ⟨rfl, hshows₁, hcluster₁, hword⟩ := h₁
    have hprepared : Prepared options.toInput docs infrastructureDocs w₂.store :=
      prepare_prepared h.checks h.version hinput hrun
    have hsave₁ : (saveManifest env (docs.docs ++ infrastructureDocs) docs.clusterModel).exec w₁ =
        (.ok (), w₂) := exec_saveManifest (specName_of_isCluster hcluster₁)
    refine EndAlike.stepLeft hsave₁ (EndAlike.stepRight (ApplyEngine.saveManifest_exec _ v₁) ?_)
    have hshows₂ : Shows env name w₂ _ :=
      saveManifest_shows h.loads hshows₁ (docs.docs ++ infrastructureDocs)
    refine EndAlike.bind (configure_alike h hprepared hshows₂ hcluster₁ hword)
      fun ids w₃ _ v₃ hconfigure h₃ => ?_
    obtain ⟨rfl, hshows₃, hcluster₃⟩ := h₃
    have hsave₂ : (saveManifest env (ids ++ infrastructureDocs) docs.clusterModel).exec w₃ =
        (.ok (), withManifest env name (ids ++ infrastructureDocs) w₃) :=
      exec_saveManifest (specName_of_isCluster hcluster₃)
    refine EndAlike.stepLeft hsave₂ (EndAlike.stepRight (ApplyEngine.saveManifest_exec _ v₃) ?_)
    have hall : (apply env options).exec w =
        (runAnsible env options docs.clusterModel (ids ++ infrastructureDocs)).exec
          (withManifest env name (ids ++ infrastructureDocs) w₃) := by
      rw [apply, Action.exec_bind_ok hrun, Action.exec_bind_ok hsave₁,
        Action.exec_bind_ok hconfigure, Action.exec_bind_ok hsave₂]
    rw [hall]
    have hshows₄ := saveManifest_shows h.loads hshows₃ (ids ++ infrastructureDocs)
    exact EndAlike.returnRight (runAnsible_alike h hshows₄)

end

namespace RefinementSample

open Lifecycle LifecycleSample

/-- Before the first apply. -/
def begin : World := start (machine env FileTree.empty).init

/-- Whether the cluster model of the input file has the name. -/
def namesDemo (docs : Res (ApplyEngine.InputDocs × Store)) : Bool :=
  match docs with
  | .ok (docs, s) => ((s.doc docs.clusterModel).specAttr? "name").bind Val.str? == some "demo"
  | .error _ => true

theorem modelled : Modelled env "demo" where
  checks := trusted.checks
  version := trusted.version
  loads _ := rfl
  manifest history call := documented.manifests history call "demo"

theorem names : Names env "demo" options begin := by
  intro docs s hrun
  have h : namesDemo (ApplyEngine.processInputDocs (env.engine begin.files (.ok ()) (.ok ()))
      options.toInput begin.store) = true := by decide +kernel
  rw [hrun] at h
  exact beq_iff_eq.mp h

end RefinementSample

open RefinementSample Lifecycle.LifecycleSample in
theorem apply_refines_sample : isOk ((apply env options).exec begin).1 = true ∧
    ∃ terraform ansible, EndAlike Prod.snd (fun _ w' _ v' => ShowsManifest env "demo" w' v')
      (ShowsManifest env "demo") ((apply env options).exec begin)
      ((ApplyEngine.apply (env.engine begin.files terraform ansible) options.toInput).exec
        ⟨begin.store, none⟩) := by
  refine ⟨by decide +kernel, ?_⟩
  exact apply_refines modelled wellFormed_options names ⟨rfl, rfl⟩

end ApplyRun

end LambdaStack
