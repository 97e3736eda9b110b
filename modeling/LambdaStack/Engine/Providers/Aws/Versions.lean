/-
# The versions of the AWS infrastructure

A run takes from the input the first document of each kind it needs a document of and
the machine definitions of the active components; all other documents it emits are new.
It emits what it takes. The file system is emitted when it has mount targets: its own, or
those of a component whose machines mount it.
-/

import LambdaStack.Engine.Providers.Aws.MountTargets
import LambdaStack.Engine.Providers.Versions

namespace LambdaStack

open Lib BuildM

namespace Aws

/-! ## What a run looks up -/

/-- The kinds of the documents every run emits. -/
def alwaysEmitted : List String :=
  ["infrastructure/public-key", "infrastructure/vpc", "infrastructure/default-security-group",
    "infrastructure/resource-group", "infrastructure/internet-gateway",
    "infrastructure/route-table"]

/-- The kinds a subnet needs a document of. -/
def emittedForSubnet : List String :=
  ["infrastructure/subnet", "infrastructure/security-group",
    "infrastructure/route-table-association"]

/-- The searches for a component: none when it is not active. -/
def componentQueries (componentValue : Val) : List DocQuery :=
  if isActive componentValue then
    kindQueries ["infrastructure/launch-configuration"] ++ machineQuery componentValue ++
      if (subnetDefinitions componentValue).isEmpty then [] else kindQueries emittedForSubnet
  else []

/-- A component that is active, has subnets and machines that mount the file system. -/
def mountsEfs (env : BuilderEnv) (clusterModel : Val) (trees : List Val)
    (componentValue : Val) : Bool :=
  isActive componentValue && !(subnetDefinitions componentValue).isEmpty &&
    (((componentValue.getAttr "machine").toOption.bind
      (machinePart "mount_efs" env clusterModel trees)).any Val.truthy)

/-- The document has mount targets. -/
def hasTargets (x : Val) : Bool :=
  match x.specAttr? "mount_targets" with
  | some (.list []) => false
  | _ => true

/-- The search for the file system, where a run emits one. -/
def efsQuery : DocQuery := ⟨"infrastructure/efs-storage", none⟩

def efsQueries (env : BuilderEnv) (clusterModel : Val) (trees : List Val) : List DocQuery :=
  if (trees.find? (Holds? ∘ efsQuery.holds)).any hasTargets ||
      (modelComponents clusterModel).any fun component =>
        mountsEfs env clusterModel trees component.2
  then [efsQuery] else []

/-- The searches of a run for documents it emits. -/
def queries (env : BuilderEnv) (clusterModel : Val) (trees : List Val) : List DocQuery :=
  kindQueries alwaysEmitted ++
    (modelComponents clusterModel).flatMap (fun component => componentQueries component.2) ++
    efsQueries env clusterModel trees

section

variable {env : Env} {b : InfrastructureBuilder} {s s' : Store} {asked : List DocQuery}

/-! ## Before the loop -/

theorem init_eq_ok {docs : List DocId} {manifestDocs : List Val}
    (hrun : init env docs manifestDocs s = .ok (b, s')) :
    s = s' ∧ b.docs = docs ∧
      selectSingle (docs.map s.doc) (kindIs "lambdastack-cluster") = .ok b.clusterModel := by
  simp only [init, BuildM.bind_eq_ok, lift_eq_ok] at hrun
  obtain ⟨clusterModel, _, hread, _, _, ⟨-, rfl⟩, _, _, ⟨-, rfl⟩, _, _, ⟨-, rfl⟩, _, _, ⟨-, rfl⟩,
    _, _, ⟨-, rfl⟩, hret⟩ := hrun
  obtain ⟨hmodel, rfl⟩ := reads_eq_ok.mp hread
  obtain ⟨rfl, rfl⟩ := BuildM.pure_eq_ok.mp hret
  exact ⟨rfl, rfl, selectSingle_tree hmodel⟩

theorem config_current {kind : String} {fields : List (String × Val)} {id : DocId}
    (h : Ready env.version b.docs asked s) (hq : ⟨kind, none⟩ ∈ asked)
    (hrun : b.config env kind fields s = .ok (id, s')) :
    IsCurrent env.version s' id ∧ HeadsKept s s' :=
  configWith_current h hq hrun

theorem getsThen_current {config getter : BuildM DocId} {id : DocId}
    (hgets : GetsThen HeadsKept config getter) (hpreserves : Preserves HeadsKept config)
    (hconfig : ∀ id s', config s = .ok (id, s') → IsCurrent env.version s' id)
    (hrun : getter s = .ok (id, s')) : IsCurrent env.version s' id ∧ HeadsKept s s' :=
  ⟨hgets.current hconfig hrun, (hgets.preserves hpreserves).rel hrun⟩

theorem getPublicKey_current {keys : KeySource} {id : DocId}
    (h : Ready env.version b.docs asked s)
    (hq : ⟨"infrastructure/public-key", none⟩ ∈ asked)
    (hrun : b.getPublicKey env keys s = .ok (id, s')) :
    IsCurrent env.version s' id ∧ HeadsKept s s' := by
  obtain ⟨x, f, heq, hx, hf⟩ :=
    @InfrastructureBuilder.getsThen_getPublicKey env b _ _ _ (builderFrame_heads .aws) keys
  rw [heq] at hrun
  obtain ⟨adminName, s₁, hname, hrun⟩ := BuildM.bind_eq_ok.mp hrun
  have hheads := hx.rel hname
  obtain ⟨hcurrent, hheads'⟩ := getsThen_current (hf adminName)
    (preserves_heads_configWith _ _ _ _ _)
    (fun _ _ hconfig => (configWith_current (h.mono hheads) hq hconfig).1) hrun
  exact ⟨hcurrent, Trans.trans hheads hheads'⟩

theorem getRoutingTable_current {vpcName gatewayName : Val} {id : DocId}
    (h : Ready env.version b.docs asked s)
    (hq : ⟨"infrastructure/route-table", none⟩ ∈ asked)
    (hrun : b.getRoutingTable env vpcName gatewayName s = .ok (id, s')) :
    IsCurrent env.version s' id ∧ HeadsKept s s' :=
  getsThen_current (InfrastructureBuilder.getsThen_getRoutingTable (builderFrame_heads .aws) _ _)
    (preserves_heads_configWith _ _ _ _ _)
    (fun _ _ hconfig => (configWith_current h hq hconfig).1) hrun

/-- The documents before the loop. -/
theorem start_current {keys : KeySource} {start : InfrastructureBuilder.Start}
    (h : Ready env.version b.docs asked s) (hasked : kindQueries alwaysEmitted ⊆ asked)
    (hrun : b.start env keys s = .ok (start, s')) :
    AllCurrent env.version s' start.infrastructure := by
  have hq : ∀ {kind}, kind ∈ alwaysEmitted → ⟨kind, none⟩ ∈ asked := fun hkind =>
    hasked (mem_kindQueries hkind)
  obtain ⟨s₁, s₂, s₃, s₄, s₅, s₆, vpc, resourceGroup, gateway, pool, groupVpcName, gatewayName,
    hrun⟩ := start_steps hrun
  obtain ⟨hcurrent₁, hheads₁⟩ := getPublicKey_current h (hq (by decide)) hrun.getsPublicKey
  have h₁ := h.mono hheads₁
  obtain ⟨hcurrent₂, hheads₂⟩ := config_current h₁ (hq (by decide)) hrun.getsVpc
  have h₂ := h₁.mono hheads₂
  obtain ⟨hcurrent₃, hheads₃⟩ := config_current h₂ (hq (by decide)) hrun.getsGroup
  have h₃ := h₂.mono hheads₃
  obtain ⟨hcurrent₄, hheads₄⟩ := config_current h₃ (hq (by decide)) hrun.getsResourceGroup
  have h₄ := h₃.mono hheads₄
  obtain ⟨hcurrent₅, hheads₅⟩ := config_current h₄ (hq (by decide)) hrun.getsGateway
  have h₅ := h₄.mono hheads₅
  obtain ⟨hcurrent₆, hheads₆⟩ := getRoutingTable_current h₅ (hq (by decide)) hrun.getsRouteTable
  have hheads₇ : HeadsKept s₆ s' := (preserves_heads_configWith _ _ _ _ _).rel hrun.getsEfs
  rw [hrun.emits]
  have hall₂ := ((allCurrent_singleton hcurrent₁).mono hheads₂).append
    (allCurrent_singleton hcurrent₂)
  have hall₃ := (hall₂.mono hheads₃).append (allCurrent_singleton hcurrent₃)
  have hall₄ := (hall₃.mono hheads₄).append (allCurrent_singleton hcurrent₄)
  have hall₅ := (hall₄.mono hheads₅).append (allCurrent_singleton hcurrent₅)
  exact ((hall₅.mono hheads₆).append (allCurrent_singleton hcurrent₆)).mono hheads₇

/-- The file system before the loop: the user's with the mount targets the user gave it, or
a new one. The machine definitions mount what they did. -/
theorem start_efsConfig {keys : KeySource} {start : InfrastructureBuilder.Start}
    (hdocs : ∀ id ∈ b.docs, id < s.next) (hrun : b.start env keys s = .ok (start, s')) :
    EfsPartsKept s s' ∧ (∀ own, efsQuery.find b.docs s = some own →
        start.shared.efsConfig = own ∧ (s'.doc own).specAttr? "mount_targets" =
          (s.doc own).specAttr? "mount_targets") ∧
      (efsQuery.find b.docs s = none → IsCurrent env.version s' start.shared.efsConfig) := by
  obtain ⟨vpc, resourceGroup, gateway, hbuilt, -⟩ := start_built hdocs hrun
  have hdoc := hbuilt.docs
  simp only [startDocs, List.forall_mem_cons] at hdoc
  obtain ⟨-, -, -, -, -, -, ⟨-, -, hloaded⟩, -⟩ := hdoc
  obtain ⟨s₁, s₂, s₃, s₄, s₅, s₆, vpc, resourceGroup, gateway, pool, groupVpcName, gatewayName,
    hsteps⟩ := start_steps hrun
  have hframe := builderFrame_heads .aws
  have hheads : HeadsKept s s₆ :=
    Trans.trans
      ((InfrastructureBuilder.preserves_getPublicKey hframe keys).rel hsteps.getsPublicKey)
      (Trans.trans ((preserves_heads_configWith _ _ _ _ _).rel hsteps.getsVpc)
      (Trans.trans ((preserves_heads_configWith _ _ _ _ _).rel hsteps.getsGroup)
      (Trans.trans ((preserves_heads_configWith _ _ _ _ _).rel hsteps.getsResourceGroup)
      (Trans.trans ((preserves_heads_configWith _ _ _ _ _).rel hsteps.getsGateway)
      ((InfrastructureBuilder.preserves_getRoutingTable hframe _ _).rel hsteps.getsRouteTable)))))
  have hfind := efsQuery.find_heads hdocs hheads
  refine ⟨efsPartsKept_of_keeps hbuilt.keep (kind_notMem_startKinds .machine),
    fun own hown => ?_, fun hnone => ?_⟩
  · obtain rfl := configWith_found (hfind.trans hown) hsteps.getsEfs
    have hself : ownDoc b.docs "infrastructure/efs-storage" s = some start.shared.efsConfig := hown
    exact ⟨rfl, by rw [hloaded, loadedPart, hself]⟩
  · rcases configWith_taken (fun id hid => (hdocs id hid).trans_le hheads.next_le) (by decide)
      (by simp) hsteps.getsEfs with ⟨hsome, -⟩ | hcurrent
    · cases (hfind.trans hnone).symm.trans hsome
    · exact hcurrent

/-! ## What a run takes it emits -/

theorem getsThen_emits {getter : BuildM DocId} {kind : String} {fields : List (String × Val)}
    {id : DocId} (hgets : GetsThen HeadsKept (b.config env kind fields) getter)
    (hdocs : ∀ id ∈ b.docs, id < s.next) (hrun : getter s = .ok (id, s')) :
    EmitsFound b.docs [⟨kind, none⟩] s' [id] := by
  refine emitsFound_of_found hdocs
    ((hgets.preserves (preserves_heads_configWith _ _ _ _ _)).rel hrun) fun own hfind => ?_
  exact hgets.found (fun id s' hconfig => configWith_found hfind hconfig) hrun

theorem getPublicKey_emits {keys : KeySource} {id : DocId} (hdocs : ∀ id ∈ b.docs, id < s.next)
    (hrun : b.getPublicKey env keys s = .ok (id, s')) :
    EmitsFound b.docs [⟨"infrastructure/public-key", none⟩] s' [id] := by
  obtain ⟨x, f, heq, hx, hf⟩ :=
    @InfrastructureBuilder.getsThen_getPublicKey env b _ _ _ (builderFrame_heads .aws) keys
  rw [heq] at hrun
  obtain ⟨adminName, s₁, hname, hrun⟩ := BuildM.bind_eq_ok.mp hrun
  exact getsThen_emits (hf adminName)
    (fun id hid => (hdocs id hid).trans_le (hx.rel hname).next_le) hrun

/-- The documents before the loop. -/
theorem start_emits {keys : KeySource} {start : InfrastructureBuilder.Start}
    (hdocs : ∀ id ∈ b.docs, id < s.next) (hrun : b.start env keys s = .ok (start, s')) :
    EmitsFound b.docs (kindQueries alwaysEmitted) s' start.infrastructure := by
  have hframe := builderFrame_heads .aws
  obtain ⟨s₁, s₂, s₃, s₄, s₅, s₆, vpc, resourceGroup, gateway, pool, groupVpcName, gatewayName,
    hrun⟩ := start_steps hrun
  have hheads₁ : HeadsKept s s₁ :=
    (InfrastructureBuilder.preserves_getPublicKey hframe keys).rel hrun.getsPublicKey
  have hheads₂ : HeadsKept s₁ s₂ := (preserves_heads_configWith _ _ _ _ _).rel hrun.getsVpc
  have hheads₃ : HeadsKept s₂ s₃ := (preserves_heads_configWith _ _ _ _ _).rel hrun.getsGroup
  have hheads₄ : HeadsKept s₃ s₄ :=
    (preserves_heads_configWith _ _ _ _ _).rel hrun.getsResourceGroup
  have hheads₅ : HeadsKept s₄ s₅ := (preserves_heads_configWith _ _ _ _ _).rel hrun.getsGateway
  have hheads₆ : HeadsKept s₅ s₆ :=
    (InfrastructureBuilder.preserves_getRoutingTable hframe _ _).rel hrun.getsRouteTable
  have hheads₇ : HeadsKept s₆ s' := (preserves_heads_configWith _ _ _ _ _).rel hrun.getsEfs
  have hdocs₁ := allocated_mono hdocs hheads₁
  have hdocs₂ := allocated_mono hdocs₁ hheads₂
  have hdocs₃ := allocated_mono hdocs₂ hheads₃
  have hdocs₄ := allocated_mono hdocs₃ hheads₄
  have hdocs₅ := allocated_mono hdocs₄ hheads₅
  have h₁ := getPublicKey_emits hdocs hrun.getsPublicKey
  have h₂ := h₁.add hdocs₁ hheads₂ (configWith_emits hdocs₁ hrun.getsVpc)
  have h₃ := h₂.add hdocs₂ hheads₃ (configWith_emits hdocs₂ hrun.getsGroup)
  have h₄ := h₃.add hdocs₃ hheads₄ (configWith_emits hdocs₃ hrun.getsResourceGroup)
  have h₅ := h₄.add hdocs₄ hheads₅ (configWith_emits hdocs₄ hrun.getsGateway)
  have h₆ := h₅.add hdocs₅ hheads₆ (getsThen_emits
    (InfrastructureBuilder.getsThen_getRoutingTable hframe _ _) hdocs₅ hrun.getsRouteTable)
  rw [hrun.emits]
  exact h₆.mono (allocated_mono hdocs₅ hheads₆) hheads₇

/-! ## A component -/

theorem buildSubnet_current {lp lp' : InfrastructureBuilder.SubnetLoop} {routeTable : DocId}
    {vpcName subnetDefinition : Val} {componentKey : String}
    (h : Ready env.version b.docs asked s) (hasked : kindQueries emittedForSubnet ⊆ asked)
    (hids : AllCurrent env.version s lp.infrastructure)
    (hrun : b.buildSubnet env routeTable vpcName componentKey lp subnetDefinition s =
      .ok (lp', s')) : AllCurrent env.version s' lp'.infrastructure := by
  have hq : ∀ {kind}, kind ∈ emittedForSubnet → ⟨kind, none⟩ ∈ asked := fun hkind =>
    hasked (mem_kindQueries hkind)
  simp only [InfrastructureBuilder.buildSubnet, BuildM.bind_eq_ok] at hrun
  obtain ⟨found, _, hread, foundGroup, _, hread', hrun⟩ := hrun
  obtain ⟨-, rfl⟩ := reads_eq_ok.mp hread
  obtain ⟨-, rfl⟩ := reads_eq_ok.mp hread'
  cases found with
  | some subnet =>
      obtain ⟨rfl, rfl⟩ := BuildM.pure_eq_ok.mp hrun
      exact hids
  | none =>
      simp only [BuildM.bind_eq_ok, InfrastructureBuilder.getSubnet, lift_eq_ok,
        InfrastructureBuilder.getSecurityGroup] at hrun
      obtain ⟨subnet, s₁, ⟨_, _, ⟨-, rfl⟩, _, _, ⟨-, rfl⟩, hsubnet⟩, group, s₂,
        ⟨_, _, hcidr, hgroup⟩, _, _, hroute, _, _, hname, association, s₃, hassociation, hrun⟩ :=
        hrun
      obtain ⟨-, rfl⟩ := specAttr_eq_ok.mp hcidr
      obtain ⟨-, rfl⟩ := specAttr_eq_ok.mp hroute
      obtain ⟨-, rfl⟩ := specAttr_eq_ok.mp hname
      obtain ⟨rfl, rfl⟩ := BuildM.pure_eq_ok.mp hrun
      obtain ⟨hcurrent₁, hheads₁⟩ := config_current h (hq (by decide)) hsubnet
      have h₁ := h.mono hheads₁
      obtain ⟨hcurrent₂, hheads₂⟩ := config_current h₁ (hq (by decide)) hgroup
      obtain ⟨hcurrent₃, hheads₃⟩ :=
        config_current (h₁.mono hheads₂) (hq (by decide)) hassociation
      have hall₂ := ((allCurrent_singleton hcurrent₁).mono hheads₂).append
        (allCurrent_singleton hcurrent₂)
      have hall₃ := (hall₂.mono hheads₃).append (allCurrent_singleton hcurrent₃)
      exact (hids.mono (Trans.trans hheads₁ (Trans.trans hheads₂ hheads₃))).append hall₃

theorem buildSubnets_current {lp lp' : InfrastructureBuilder.SubnetLoop} {routeTable : DocId}
    {vpcName : Val} {componentKey : String} {subnets : List Val}
    (h : Ready env.version b.docs asked s)
    (hasked : subnets ≠ [] → kindQueries emittedForSubnet ⊆ asked)
    (hids : AllCurrent env.version s lp.infrastructure)
    (hrun : b.buildSubnets env routeTable vpcName componentKey lp subnets s = .ok (lp', s')) :
    AllCurrent env.version s' lp'.infrastructure ∧ HeadsKept s s' := by
  induction subnets generalizing lp s with
  | nil =>
      obtain ⟨rfl, rfl⟩ := BuildM.pure_eq_ok.mp hrun
      exact ⟨hids, Std.Refl.refl _⟩
  | cons subnetDefinition rest ih =>
      obtain ⟨lp₁, s₁, hfirst, hrest⟩ := BuildM.bind_eq_ok.mp hrun
      have hasked := hasked (List.cons_ne_nil _ _)
      have hheads₁ := (InfrastructureBuilder.preserves_buildSubnet (builderFrame_heads .aws)
        routeTable vpcName componentKey lp subnetDefinition).rel hfirst
      obtain ⟨hids', hheads₂⟩ := ih (h.mono hheads₁) (fun _ => hasked)
        (buildSubnet_current h hasked hids hfirst) hrest
      exact ⟨hids', Trans.trans hheads₁ hheads₂⟩

theorem preserves_heads_setGroupFields (componentKey : String) (componentValue : Val)
    (subnets : List DocId) (index : Nat) (autoscalingGroup : DocId) :
    Preserves HeadsKept (b.setGroupFields env componentKey componentValue subnets index
      autoscalingGroup) := by
  apply (preserves_lift _).bind
  intro count
  apply (InfrastructureBuilder.preserves_specAttrs "name" subnets).bind
  intro names
  apply (InfrastructureBuilder.preserves_specAttrs "availability_zone" subnets).bind
  intro zones
  apply (preserves_heads_setSpecAttrs autoscalingGroup _).bind
  intro _
  apply (preserves_reads _).bind
  intro tags
  apply (preserves_lift _).bind
  intro tags
  exact preserves_heads_setSpecAttr autoscalingGroup _ _

/-- The autoscaling group is a copy of the machine definition. -/
theorem getAutoscalingGroup_current {componentKey : String} {componentValue : Val}
    {subnets : List DocId} {index : Nat} {autoscalingGroup : DocId}
    (hdefaults : DefaultsCurrent env.schema env.version)
    (h : Ready env.version b.docs asked s)
    (hq : ∀ q ∈ machineQuery componentValue, q ∈ asked)
    (hrun : b.getAutoscalingGroup env componentKey componentValue subnets index s =
      .ok (autoscalingGroup, s')) :
    IsCurrent env.version s' autoscalingGroup ∧ HeadsKept s s' := by
  simp only [InfrastructureBuilder.getAutoscalingGroup, BuildM.bind_eq_ok] at hrun
  obtain ⟨model, s₁, hmachine, copy, _, hread, id, _, hnew, _, s₃, hset, hret⟩ := hrun
  obtain ⟨rfl, rfl⟩ := BuildM.pure_eq_ok.mp hret
  obtain ⟨hcopy, rfl⟩ := reads_eq_ok.mp hread
  cases hcopy
  obtain ⟨rfl, rfl⟩ := newDoc_eq_ok.mp hnew
  have hheads₁ := (preserves_machineDefinition preserves_newDoc
    (fun id value => preserves_heads_setSpecAttr id _ value) componentValue).rel hmachine
  have hmodel := getVirtualMachine_current hdefaults h hq hmachine
  have hheads₃ := (preserves_heads_setGroupFields componentKey componentValue subnets index
    s₁.next).rel hset
  refine ⟨(isCurrent_alloc hmodel.2).mono hheads₃, ?_⟩
  exact Trans.trans hheads₁ (Trans.trans (Store.evolves_alloc (R := KeepsHead) s₁ _) hheads₃)

theorem launch_current {shared : InfrastructureBuilder.Shared} {componentKey : String}
    {lp : InfrastructureBuilder.SubnetLoop} {autoscalingGroup : DocId} {emitted : List DocId}
    (h : Ready env.version b.docs asked s)
    (hq : ⟨"infrastructure/launch-configuration", none⟩ ∈ asked)
    (hids : AllCurrent env.version s lp.infrastructure)
    (hgroup : IsCurrent env.version s autoscalingGroup)
    (hrun : b.launch env shared componentKey lp autoscalingGroup s = .ok (emitted, s')) :
    AllCurrent env.version s' emitted ∧ HeadsKept s s' := by
  simp only [InfrastructureBuilder.launch, BuildM.bind_eq_ok] at hrun
  obtain ⟨_, s₁, hrules, launch, s₂, hlaunch, keyName, _, hkeyName, _, s₃, hsetKey, _, s₄,
    himage, name, _, hname, _, s₅, hsetName, mountEfs, _, hmount, hmounts⟩ := hrun
  obtain ⟨-, rfl⟩ := specAttr_eq_ok.mp hkeyName
  obtain ⟨-, rfl⟩ := specAttr_eq_ok.mp hname
  obtain ⟨-, rfl⟩ := specAttr_eq_ok.mp hmount
  have hframe := builderFrame_heads .aws
  have hheads₁ := (InfrastructureBuilder.preserves_addRules hframe _ _).rel hrules
  have h₁ := h.mono hheads₁
  obtain ⟨hcurrent, hheads₂⟩ := getsThen_current
    (InfrastructureBuilder.getsThen_getLaunchConfiguration hframe _ _ _)
    (preserves_heads_configWith _ _ _ _ _)
    (fun _ _ hconfig => (configWith_current h₁ hq hconfig).1) hlaunch
  have hheads₅ : HeadsKept s₂ s₅ :=
    Trans.trans ((preserves_heads_setSpecAttr launch _ _).rel hsetKey)
      (Trans.trans ((InfrastructureBuilder.preserves_setImageId hframe _ _).rel himage)
        ((preserves_heads_setSpecAttr autoscalingGroup _ _).rel hsetName))
  obtain ⟨hheads₆, rfl⟩ : HeadsKept s₅ s' ∧
      emitted = lp.infrastructure ++ [autoscalingGroup, launch] := by
    split at hmounts
    · obtain ⟨_, s₆, hefs, hret⟩ := BuildM.bind_eq_ok.mp hmounts
      obtain ⟨rfl, rfl⟩ := BuildM.pure_eq_ok.mp hret
      exact ⟨(InfrastructureBuilder.preserves_efsAddMountTargets hframe _ _).rel hefs, rfl⟩
    · obtain ⟨rfl, rfl⟩ := BuildM.pure_eq_ok.mp hmounts
      exact ⟨Std.Refl.refl _, rfl⟩
  have hrest : HeadsKept s₂ s' := Trans.trans hheads₅ hheads₆
  have hheads : HeadsKept s s' := Trans.trans hheads₁ (Trans.trans hheads₂ hrest)
  refine ⟨(hids.mono hheads).append ?_, hheads⟩
  exact (allCurrent_singleton (hgroup.mono hheads)).append
    (allCurrent_singleton (hcurrent.mono hrest))

theorem buildComponent_current {shared : InfrastructureBuilder.Shared} {ids emitted : List DocId}
    {component : String × Val} (hdefaults : DefaultsCurrent env.schema env.version)
    (h : Ready env.version b.docs asked s) (hasked : componentQueries component.2 ⊆ asked)
    (hids : AllCurrent env.version s ids)
    (hrun : b.buildComponent env shared ids component s = .ok (emitted, s')) :
    AllCurrent env.version s' emitted ∧ HeadsKept s s' := by
  rcases buildComponent_cases hrun with ⟨-, rfl, rfl⟩ |
    ⟨hactive, lp, s₁, autoscalingGroup, s₂, hbuild, hmachine, hlaunch⟩
  · exact ⟨hids, Std.Refl.refl _⟩
  · rw [componentQueries, if_pos hactive, List.append_subset, List.append_subset] at hasked
    obtain ⟨⟨haskedLaunch, haskedMachine⟩, haskedSubnets⟩ := hasked
    obtain ⟨hids₁, hheads₁⟩ := buildSubnets_current h (fun hne => by
      rwa [List.isEmpty_eq_false_iff.mpr hne, if_neg (by decide)] at haskedSubnets) hids hbuild
    have h₁ := h.mono hheads₁
    obtain ⟨hcurrent, hheads₂⟩ :=
      getAutoscalingGroup_current hdefaults h₁ (fun q hq => haskedMachine hq) hmachine
    obtain ⟨hids', hheads₃⟩ := launch_current (h₁.mono hheads₂)
      (haskedLaunch (mem_kindQueries (List.mem_singleton_self _))) (hids₁.mono hheads₂) hcurrent
      hlaunch
    exact ⟨hids', Trans.trans hheads₁ (Trans.trans hheads₂ hheads₃)⟩

theorem buildComponents_current {shared : InfrastructureBuilder.Shared} {ids emitted : List DocId}
    {components : Entries} (hdefaults : DefaultsCurrent env.schema env.version)
    (h : Ready env.version b.docs asked s)
    (hasked : components.flatMap (fun component => componentQueries component.2) ⊆ asked)
    (hids : AllCurrent env.version s ids)
    (hrun : b.buildComponents env shared ids components s = .ok (emitted, s')) :
    AllCurrent env.version s' emitted ∧ HeadsKept s s' := by
  induction components generalizing s ids with
  | nil =>
      obtain ⟨rfl, rfl⟩ := BuildM.pure_eq_ok.mp hrun
      exact ⟨hids, Std.Refl.refl _⟩
  | cons component rest ih =>
      obtain ⟨ids₁, s₁, hfirst, hrest⟩ := BuildM.bind_eq_ok.mp hrun
      rw [List.flatMap_cons, List.append_subset] at hasked
      obtain ⟨hids₁, hheads₁⟩ := buildComponent_current hdefaults h hasked.1 hids hfirst
      obtain ⟨hids', hheads₂⟩ := ih (h.mono hheads₁) hasked.2 hids₁ hrest
      exact ⟨hids', Trans.trans hheads₁ hheads₂⟩

/-! ## The file system -/

theorem mountsEfs_eq (trees : List Val) (componentValue : Val) :
    mountsEfs env.toBuilderEnv b.clusterModel trees componentValue =
      (isActive componentValue && !(subnetDefinitions componentValue).isEmpty &&
        hasPart env b trees "mount_efs" componentValue) := rfl

/-- A mount target is added, unless there is one. -/
theorem efsAddMountTargetConfig_targets {efsConfig subnet : DocId} {u : Unit}
    (hrun : InfrastructureBuilder.efsAddMountTargetConfig efsConfig subnet s = .ok (u, s')) :
    hasTargets (s'.doc efsConfig) = true := by
  simp only [InfrastructureBuilder.efsAddMountTargetConfig, BuildM.bind_eq_ok, lift_eq_ok] at hrun
  obtain ⟨value, _, hread, items, _, ⟨hitems, rfl⟩, zone, _, hread', found, _, ⟨hfound, rfl⟩,
    hrun⟩ := hrun
  obtain ⟨hvalue, rfl⟩ := specAttr_eq_ok.mp hread
  obtain ⟨-, rfl⟩ := specAttr_eq_ok.mp hread'
  cases found with
  | some item =>
      obtain ⟨-, rfl⟩ := BuildM.pure_eq_ok.mp hrun
      have hmem := List.mem_of_find?_eq_some (selectFirst_eq_ok hfound).symm
      rw [hasTargets, hvalue, Val.asList_eq_ok.mp hitems]
      cases items with
      | nil => cases hmem
      | cons first rest => rfl
  | none =>
      simp only [BuildM.bind_eq_ok, lift_eq_ok] at hrun
      obtain ⟨subnetName, _, hname, name, _, ⟨-, rfl⟩, hset⟩ := hrun
      obtain ⟨-, rfl⟩ := specAttr_eq_ok.mp hname
      obtain ⟨doc, hdoc, rfl⟩ := setSpecAttr_eq_ok.mp hset
      rw [hasTargets, s.write_doc_self, Val.specAttr?_withSpecAttr hdoc, if_pos rfl]
      cases items <;> rfl

/-- The file system has mount targets after those of some subnets have been added, or if it
had some. -/
theorem efsAddMountTargets_targets {efsConfig : DocId} {subnets : List DocId} {u : Unit}
    (hrun : InfrastructureBuilder.efsAddMountTargets efsConfig subnets s = .ok (u, s'))
    (hne : subnets ≠ []) : hasTargets (s'.doc efsConfig) = true := by
  induction subnets generalizing s with
  | nil => exact absurd rfl hne
  | cons subnet rest ih =>
      obtain ⟨_, s₁, hfirst, hrest⟩ := BuildM.bind_eq_ok.mp hrun
      cases rest with
      | nil =>
          obtain ⟨-, rfl⟩ := BuildM.pure_eq_ok.mp hrest
          exact efsAddMountTargetConfig_targets hfirst
      | cons next others => exact ih hrest (List.cons_ne_nil _ _)

/-- The subnets of a component: one for each definition, the emitted documents first. -/
theorem buildSubnets_subnets {lp lp' : InfrastructureBuilder.SubnetLoop} {routeTable : DocId}
    {vpcName : Val} {componentKey : String} {subnets : List Val}
    (hrun : b.buildSubnets env routeTable vpcName componentKey lp subnets s = .ok (lp', s')) :
    lp.infrastructure ⊆ lp'.infrastructure ∧
      lp'.subnetsToCreate.length = lp.subnetsToCreate.length + subnets.length := by
  induction subnets generalizing lp s with
  | nil =>
      obtain ⟨rfl, -⟩ := BuildM.pure_eq_ok.mp hrun
      exact ⟨List.Subset.refl _, rfl⟩
  | cons subnetDefinition rest ih =>
      obtain ⟨lp₁, s₁, hfirst, hrest⟩ := BuildM.bind_eq_ok.mp hrun
      obtain ⟨hsub, hlength⟩ := ih hrest
      suffices hstep : lp.infrastructure ⊆ lp₁.infrastructure ∧
          lp₁.subnetsToCreate.length = lp.subnetsToCreate.length + 1 by
        refine ⟨List.Subset.trans hstep.1 hsub, ?_⟩
        rw [hlength, hstep.2, List.length_cons, Nat.add_assoc, Nat.add_comm 1]
      simp only [InfrastructureBuilder.buildSubnet, BuildM.bind_eq_ok] at hfirst
      obtain ⟨found, _, -, foundGroup, _, -, hfirst⟩ := hfirst
      cases found with
      | some subnet =>
          obtain ⟨rfl, -⟩ := BuildM.pure_eq_ok.mp hfirst
          exact ⟨List.Subset.refl _, List.length_append⟩
      | none =>
          simp only [BuildM.bind_eq_ok] at hfirst
          obtain ⟨subnet, _, -, group, _, -, _, _, -, _, _, -, association, _, -, hret⟩ := hfirst
          obtain ⟨rfl, -⟩ := BuildM.pure_eq_ok.mp hret
          exact ⟨List.subset_append_left _ _, List.length_append⟩

/-- A component leaves the file system as it is, unless its machines mount it. -/
theorem Represents.buildComponent_efs {fixed : Fixed} {ids emitted : List DocId}
    {requests : Requests} {p : Plan} (h : Represents env b fixed s ids requests p)
    {component : String × Val}
    (hrun : b.buildComponent env fixed.shared ids component s = .ok (emitted, s')) :
    EfsPartsKept s s' ∧
      if mountsEfs env.toBuilderEnv b.clusterModel (b.docs.map s.doc) component.2 then
        hasTargets (s'.doc fixed.shared.efsConfig) = true
      else s'.doc fixed.shared.efsConfig = s.doc fixed.shared.efsConfig := by
  rcases buildComponent_cases hrun with ⟨hactive, rfl, rfl⟩ |
    ⟨hactive, lp, s₁, autoscalingGroup, s₂, hbuild, hmachine, hlaunch⟩
  · refine ⟨Std.Refl.refl _, ?_⟩
    rw [mountsEfs, hactive, Bool.false_and, Bool.false_and, if_neg (by decide)]
  · have hstart : InLoop env b fixed s ⟨ids, [], [], 0⟩ requests p.placed
        ⟨p.requests, [], 0⟩ := { h with
      subnetsToCreate := .nil
      groupsToCreate := .nil
      index := rfl }
    obtain ⟨requests₁, hkeep₁, -, h₁, -⟩ := hstart.buildSubnets hbuild
    obtain ⟨mountEfs, s₃, hmade, hend⟩ := h₁.machineMade h.toTracked hkeep₁ hmachine hlaunch
    have hpart : hasPart env b (b.docs.map s.doc) "mount_efs" component.2 = mountEfs.truthy := by
      rw [hasPart, hmade.mounts]
      rfl
    rw [mountsEfs_eq, hactive, Bool.true_and, hpart]
    have hlength := (buildSubnets_subnets hbuild).2
    split at hend
    · next htruthy =>
        have hefsKind : (s₃.doc fixed.shared.efsConfig).IsKind "infrastructure/efs-storage" :=
          hmade.efs.symm ▸ h.efsKind
        refine ⟨Trans.trans hmade.parts (efsPartsKept_of_keeps
          (efsAddMountTargets_keeps hmade.efsLt hefsKind hend) (by decide)), ?_⟩
        rw [htruthy, Bool.and_true]
        cases hsubnets : subnetDefinitions component.2 with
        | nil =>
            rw [hsubnets] at hlength
            rw [List.length_eq_zero_iff.mp hlength] at hend
            obtain ⟨-, rfl⟩ := BuildM.pure_eq_ok.mp hend
            exact hmade.efs
        | cons first rest =>
            apply efsAddMountTargets_targets hend
            intro hnil
            rw [hsubnets, hnil] at hlength
            simp at hlength
    · next hfalse =>
        subst hend
        refine ⟨hmade.parts, ?_⟩
        rw [Bool.eq_false_iff.mpr hfalse, Bool.and_false, if_neg (by decide)]
        exact hmade.efs

/-- After the loop the file system has mount targets if it had some or a component's
machines mount it. -/
theorem Represents.buildComponents_efs {fixed : Fixed} {ids emitted : List DocId}
    {requests : Requests} {p : Plan} (h : Represents env b fixed s ids requests p)
    {components : Entries}
    (hrun : b.buildComponents env fixed.shared ids components s = .ok (emitted, s')) :
    hasTargets (s'.doc fixed.shared.efsConfig) =
      (hasTargets (s.doc fixed.shared.efsConfig) || components.any fun component =>
        mountsEfs env.toBuilderEnv b.clusterModel (b.docs.map s.doc) component.2) := by
  induction components generalizing s ids requests p with
  | nil =>
      obtain ⟨-, rfl⟩ := BuildM.pure_eq_ok.mp hrun
      rw [List.any_nil, Bool.or_false]
  | cons component rest ih =>
      obtain ⟨ids₁, s₁, hfirst, hrest⟩ := BuildM.bind_eq_ok.mp hrun
      obtain ⟨hparts, hefs⟩ := h.buildComponent_efs hfirst
      obtain ⟨requests₁, -, -, h₁, -⟩ := h.buildComponent hfirst
      have hkept : ∀ componentValue,
          mountsEfs env.toBuilderEnv b.clusterModel (b.docs.map s₁.doc) componentValue =
            mountsEfs env.toBuilderEnv b.clusterModel (b.docs.map s.doc) componentValue := by
        intro componentValue
        rw [mountsEfs_eq, mountsEfs_eq, hasPart, hasPart,
          componentPart_kept h.docs hparts (by simp [efsParts])]
      simp only [ih h₁ hrest, hkept, List.any_cons, ← Bool.or_assoc]
      congr 1
      split at hefs
      · next hmounts => rw [hefs, hmounts, Bool.or_true]
      · next hidle => rw [hefs, Bool.eq_false_iff.mpr hidle, Bool.or_false]

/-- The file system is emitted if it has mount targets. -/
theorem addEfs_emitted {efsConfig defaultSecurityGroup : DocId} {ids emitted : List DocId}
    (hrun : b.addEfs env efsConfig defaultSecurityGroup ids s = .ok (emitted, s')) :
    emitted = if hasTargets (s.doc efsConfig) then ids ++ [efsConfig] else ids := by
  simp only [InfrastructureBuilder.addEfs, InfrastructureBuilder.hasEfsAnyMounts,
    BuildM.bind_eq_ok, lift_eq_ok] at hrun
  obtain ⟨mounts, _, ⟨value, _, hread, targets, _, ⟨htargets, rfl⟩, hmounts⟩, hrun⟩ := hrun
  obtain ⟨hvalue, rfl⟩ := specAttr_eq_ok.mp hread
  obtain ⟨rfl, rfl⟩ := BuildM.pure_eq_ok.mp hmounts
  rw [Val.asList_eq_ok] at htargets
  rw [hasTargets, hvalue, htargets]
  cases targets with
  | nil =>
      obtain ⟨rfl, -⟩ := BuildM.pure_eq_ok.mp hrun
      rfl
  | cons target rest =>
      obtain ⟨_, s₁, -, hret⟩ := BuildM.bind_eq_ok.mp hrun
      obtain ⟨rfl, -⟩ := BuildM.pure_eq_ok.mp hret
      rfl

/-! ## The machines -/

theorem preserves_heads_getAutoscalingGroup (componentKey : String) (componentValue : Val)
    (subnets : List DocId) (index : Nat) : Preserves HeadsKept
      (b.getAutoscalingGroup env componentKey componentValue subnets index) := by
  apply (preserves_machineDefinition preserves_newDoc
    (fun id value => preserves_heads_setSpecAttr id _ value) componentValue).bind
  intro model
  apply (preserves_reads _).bind
  intro copy
  apply (preserves_newDoc copy).bind
  intro autoscalingGroup
  apply (preserves_heads_setGroupFields componentKey componentValue subnets index
    autoscalingGroup).bind
  intro _
  exact preserves_pure autoscalingGroup

/-- The copy of the machine definition that is found. -/
theorem getAutoscalingGroup_emits {componentKey : String} {componentValue : Val}
    {subnets : List DocId} {index : Nat} {autoscalingGroup : DocId}
    (hdocs : ∀ id ∈ b.docs, id < s.next)
    (hrun : b.getAutoscalingGroup env componentKey componentValue subnets index s =
      .ok (autoscalingGroup, s')) :
    EmitsFound b.docs (machineQuery componentValue) s' [autoscalingGroup] := by
  have hheads : HeadsKept s s' :=
    (preserves_heads_getAutoscalingGroup componentKey componentValue subnets index).rel hrun
  simp only [InfrastructureBuilder.getAutoscalingGroup, BuildM.bind_eq_ok] at hrun
  obtain ⟨model, s₁, hmachine, copy, _, hread, id, _, hnew, _, s₃, hset, hret⟩ := hrun
  obtain ⟨rfl, rfl⟩ := BuildM.pure_eq_ok.mp hret
  obtain ⟨hcopy, rfl⟩ := reads_eq_ok.mp hread
  cases hcopy
  obtain ⟨rfl, rfl⟩ := newDoc_eq_ok.mp hnew
  have hheads₁ : HeadsKept s s₁ := (preserves_machineDefinition preserves_newDoc
    (fun id value => preserves_heads_setSpecAttr id _ value) componentValue).rel hmachine
  have hheads₃ : HeadsKept (s₁.alloc (s₁.doc model)) s₃ := (preserves_heads_setGroupFields
    componentKey componentValue subnets index s₁.next).rel hset
  intro q hq own hfind
  rw [q.find_heads hdocs hheads] at hfind
  obtain rfl := getVirtualMachine_found hq hfind hmachine
  have hlt : model < s₁.next :=
    (hdocs model (List.mem_of_find?_eq_some hfind)).trans_le hheads₁.next_le
  have hcopied : EmitsHead (s₁.alloc (s₁.doc model)) [s₁.next] model := by
    refine ⟨s₁.next, List.mem_singleton_self _, Nat.lt_succ_self _, ?_⟩
    rw [s₁.alloc_doc_self, s₁.alloc_doc_of_lt hlt]
    exact Std.Refl.refl _
  exact hcopied.mono (hlt.trans (Nat.lt_succ_self _)) hheads₃

/-- The end of the loop body emits the machine and what was emitted before. -/
theorem launch_emits {shared : InfrastructureBuilder.Shared} {componentKey : String}
    {lp : InfrastructureBuilder.SubnetLoop} {autoscalingGroup : DocId} {emitted : List DocId}
    (hrun : b.launch env shared componentKey lp autoscalingGroup s = .ok (emitted, s')) :
    lp.infrastructure ⊆ emitted ∧ autoscalingGroup ∈ emitted := by
  simp only [InfrastructureBuilder.launch, BuildM.bind_eq_ok] at hrun
  obtain ⟨_, _, -, launch, _, -, _, _, -, _, _, -, _, _, -, _, _, -, _, _, -, mountEfs, _, -,
    hmounts⟩ := hrun
  have hemitted : emitted = lp.infrastructure ++ [autoscalingGroup, launch] := by
    split at hmounts
    · obtain ⟨_, _, -, hret⟩ := BuildM.bind_eq_ok.mp hmounts
      exact (BuildM.pure_eq_ok.mp hret).1.symm
    · exact (BuildM.pure_eq_ok.mp hmounts).1.symm
  rw [hemitted]
  exact ⟨List.subset_append_left _ _, by simp⟩

theorem preserves_heads_buildComponent (shared : InfrastructureBuilder.Shared) (ids : List DocId)
    (component : String × Val) :
    Preserves HeadsKept (b.buildComponent env shared ids component) :=
  InfrastructureBuilder.preserves_buildComponent (builderFrame_heads .aws)
    preserves_heads_getAutoscalingGroup shared ids component

/-- The loop emits the machine definitions of the active components, or copies of them. -/
theorem buildComponents_emits {shared : InfrastructureBuilder.Shared} {ids emitted : List DocId}
    {components : Entries} (hdocs : ∀ id ∈ b.docs, id < s.next)
    (hrun : b.buildComponents env shared ids components s = .ok (emitted, s')) :
    ids ⊆ emitted ∧ HeadsKept s s' ∧ ∀ component ∈ components, isActive component.2 = true →
      EmitsFound b.docs (machineQuery component.2) s' emitted := by
  induction components generalizing s ids with
  | nil =>
      obtain ⟨rfl, rfl⟩ := BuildM.pure_eq_ok.mp hrun
      exact ⟨List.Subset.refl _, Std.Refl.refl _, fun _ h => absurd h List.not_mem_nil⟩
  | cons component rest ih =>
      obtain ⟨ids₁, s₁, hfirst, hrest⟩ := BuildM.bind_eq_ok.mp hrun
      have hheads₁ : HeadsKept s s₁ :=
        (preserves_heads_buildComponent shared ids component).rel hfirst
      have hdocs₁ := allocated_mono hdocs hheads₁
      obtain ⟨hsub, hheads₂, hothers⟩ := ih hdocs₁ hrest
      suffices hstep : ids ⊆ ids₁ ∧ (isActive component.2 = true →
          EmitsFound b.docs (machineQuery component.2) s₁ ids₁) by
        refine ⟨List.Subset.trans hstep.1 hsub, Trans.trans hheads₁ hheads₂, ?_⟩
        rw [List.forall_mem_cons]
        exact ⟨fun hactive => ((hstep.2 hactive).mono hdocs₁ hheads₂).subset hsub, hothers⟩
      rcases buildComponent_cases hfirst with ⟨hidle, rfl, rfl⟩ |
        ⟨hactive, lp, s₂, autoscalingGroup, s₃, hbuild, hmachine, hlaunch⟩
      · refine ⟨List.Subset.refl _, fun hactive => ?_⟩
        rw [hidle] at hactive
        cases hactive
      · obtain ⟨hemitted, hgroup⟩ := launch_emits hlaunch
        have hframe := builderFrame_heads .aws
        have hheads₂ : HeadsKept s s₂ :=
          (InfrastructureBuilder.preserves_buildSubnets hframe _ _ _ _ _).rel hbuild
        have hheads₃ : HeadsKept s₂ s₃ :=
          (preserves_heads_getAutoscalingGroup _ _ _ _).rel hmachine
        have hheads₄ : HeadsKept s₃ s₁ :=
          (InfrastructureBuilder.preserves_launch hframe _ _ _ _).rel hlaunch
        have hdocs₂ := allocated_mono hdocs hheads₂
        refine ⟨List.Subset.trans (buildSubnets_subnets hbuild).1 hemitted, fun _ => ?_⟩
        exact ((getAutoscalingGroup_emits hdocs₂ hmachine).mono (allocated_mono hdocs₂ hheads₃)
          hheads₄).subset (by simpa using hgroup)

/-! ## The whole run -/

theorem mem_efsQueries {env : BuilderEnv} {clusterModel : Val} {trees : List Val} :
    efsQuery ∈ efsQueries env clusterModel trees ↔
      (trees.find? (Holds? ∘ efsQuery.holds)).any hasTargets = true ∨
        ∃ component ∈ modelComponents clusterModel,
          mountsEfs env clusterModel trees component.2 = true := by
  rw [← List.any_eq_true, ← Bool.or_eq_true, efsQueries]
  split
  · next h => exact iff_of_true (List.mem_singleton_self _) h
  · next h => exact iff_of_false List.not_mem_nil h

theorem efsQuery_find (docs : List DocId) (s : Store) :
    (docs.map s.doc).find? (Holds? ∘ efsQuery.holds) = (efsQuery.find docs s).map s.doc := by
  rw [List.find?_map]
  rfl

/-- A run asks for the user's file system where it has mount targets after the loop. -/
theorem efsQuery_mem_iff {keys : KeySource} {start : InfrastructureBuilder.Start}
    {ids : List DocId} {own : DocId} {s₁ s₂ : Store} (hdocs : ∀ id ∈ b.docs, id < s.next)
    (hunique : ∀ id ∈ b.docs, (s.doc id).KeysUnique)
    (hstart : b.start env keys s = .ok (start, s₁))
    (hloop : b.buildComponents env start.shared start.infrastructure start.components s₁ =
      .ok (ids, s₂))
    (hfind : efsQuery.find b.docs s = some own) :
    efsQuery ∈ efsQueries env.toBuilderEnv b.clusterModel (b.docs.map s.doc) ↔
      hasTargets (s₂.doc start.shared.efsConfig) = true := by
  obtain ⟨fixed, hshared, -, -, hcomponents, -, hrepresents⟩ :=
    start_represents hdocs hunique hstart
  obtain ⟨hparts, hfound, -⟩ := start_efsConfig hdocs hstart
  obtain ⟨rfl, hsame⟩ := hfound own hfind
  have hmodel : modelComponents b.clusterModel = start.components := by
    rw [modelComponents, hcomponents]
    rfl
  have hkept : ∀ componentValue,
      mountsEfs env.toBuilderEnv b.clusterModel (b.docs.map s₁.doc) componentValue =
        mountsEfs env.toBuilderEnv b.clusterModel (b.docs.map s.doc) componentValue := by
    intro componentValue
    rw [mountsEfs_eq, mountsEfs_eq, hasPart, hasPart,
      componentPart_kept hdocs hparts (by simp [efsParts])]
  rw [← hshared] at hloop hsame ⊢
  rw [mem_efsQueries, efsQuery_find, hfind, hmodel, hrepresents.buildComponents_efs hloop,
    Bool.or_eq_true, List.any_eq_true, Option.map_some, Option.any_some, hasTargets, hasTargets,
    hshared, ← hshared, hsame]
  simp only [hkept]

/-- The emitted documents have no version but the one that runs, where the documents of the
user that a run takes have none. -/
theorem run_current {keys : KeySource} {infrastructure : List DocId}
    (hdefaults : DefaultsCurrent env.schema env.version)
    (h : Ready env.version b.docs (queries env.toBuilderEnv b.clusterModel (b.docs.map s.doc)) s)
    (hunique : ∀ id ∈ b.docs, (s.doc id).KeysUnique)
    (hrun : b.run env keys s = .ok (infrastructure, s')) :
    AllCurrent env.version s' infrastructure ∧ HeadsKept s s' := by
  simp only [InfrastructureBuilder.run, BuildM.bind_eq_ok] at hrun
  obtain ⟨start, s₁, hstart, ids, s₂, hloop, hefs⟩ := hrun
  obtain ⟨fixed, -, -, -, hcomponents, -⟩ := start_represents h.allocated hunique hstart
  have hmodel : modelComponents b.clusterModel = start.components := by
    rw [modelComponents, hcomponents]
    rfl
  have halways : kindQueries alwaysEmitted ⊆
      queries env.toBuilderEnv b.clusterModel (b.docs.map s.doc) := by
    rw [queries, List.append_assoc]
    exact List.subset_append_left _ _
  have hframe := builderFrame_heads .aws
  have hheads₁ : HeadsKept s s₁ := (InfrastructureBuilder.preserves_start hframe keys).rel hstart
  have hcurrent₁ := start_current h halways hstart
  obtain ⟨hcurrent₂, hheads₂⟩ := buildComponents_current hdefaults (h.mono hheads₁) (by
    rw [queries, hmodel]
    exact List.subset_append_of_subset_left _ (List.subset_append_right _ _)) hcurrent₁ hloop
  have hheads₃ : HeadsKept s₂ s' :=
    (InfrastructureBuilder.preserves_addEfs hframe _ _ _).rel hefs
  refine ⟨?_, Trans.trans hheads₁ (Trans.trans hheads₂ hheads₃)⟩
  have hemitted := addEfs_emitted hefs
  split at hemitted
  · next htargets =>
      rw [hemitted]
      refine (hcurrent₂.append (allCurrent_singleton ?_)).mono hheads₃
      obtain ⟨-, hfound, hnew⟩ := start_efsConfig h.allocated hstart
      cases hfind : efsQuery.find b.docs s with
      | none => exact (hnew hfind).mono hheads₂
      | some own =>
          -- the user's file system is emitted, so a run asks for it
          have hq := (efsQuery_mem_iff h.allocated hunique hstart hloop hfind).mpr htargets
          obtain ⟨rfl, -⟩ := hfound own hfind
          exact ((h.isCurrent (List.mem_append_right _ hq) hfind).mono hheads₁).mono hheads₂
  · rw [hemitted]
    exact hcurrent₂.mono hheads₃

/-- A run that has requested a document of a kind emits the user's. -/
theorem Represents.emitsFound {fixed : Fixed} {infrastructure : List DocId} {requests : Requests}
    {p : Plan} (h : Represents env b fixed s' infrastructure requests p) {k : Requested}
    (hk : k ≠ .machine) (hown : fixed.own k.kind = ownDoc b.docs k.kind s')
    (hne : requests k ≠ []) : EmitsFound b.docs [⟨k.kind, none⟩] s' infrastructure := by
  rw [emitsFound_cons]
  refine ⟨fun own hfind => ?_, emitsFound_nil⟩
  have hself : ownDoc b.docs k.kind s' = some own := hfind
  have hshared : fixed.ownOf k = some own := by
    rw [hself] at hown
    cases k with
    | machine => exact absurd rfl hk
    | _ => exact hown
  have hledger := h.ledger k
  rw [hshared] at hledger
  have hmem := hledger.own_mem hne
  exact .of_mem hmem (h.allocated own hmem)

/-- What a run takes for one component it emits. -/
theorem Represents.component_emits {fixed : Fixed} {infrastructure : List DocId}
    {requests : Requests} {components : Entries} {component : String × Val}
    (h : Represents env b fixed s' infrastructure requests (plan fixed.replaced components))
    (hown : ∀ kind, fixed.own kind = ownDoc b.docs kind s') (hmem : component ∈ components)
    (hmachines : isActive component.2 = true →
      EmitsFound b.docs (machineQuery component.2) s' infrastructure) :
    EmitsFound b.docs (componentQueries component.2) s' infrastructure := by
  rw [componentQueries]
  split
  · next hactive =>
      rw [emitsFound_append, emitsFound_append]
      refine ⟨⟨?_, hmachines hactive⟩, ?_⟩
      · -- an active component has a launch configuration
        have hlaunch : requests .launch ≠ [] := by
          intro hnil
          have hplaced := plan_components fixed.replaced components
          rw [← h.launches, hnil] at hplaced
          exact List.not_mem_nil (hplaced.symm ▸ List.mem_filter.mpr ⟨hmem, hactive⟩)
        exact h.emitsFound (by decide) (hown _) hlaunch
      · split
        · exact emitsFound_nil
        · next hsubnets =>
            have hne := requests_planComponents_ne_nil fixed.replaced ⟨[], []⟩ hmem hactive
              (fun hnil => hsubnets (List.isEmpty_iff.mpr hnil))
            have hrequested : ∀ {entries : List (DocId × SubnetRequest)},
                entries.map Prod.snd = (plan fixed.replaced components).requests →
                entries ≠ [] := by
              rintro _ hmap rfl
              exact hne hmap.symm
            have hsubnet := h.emitsFound (k := .subnet) (by decide) (hown _)
              (hrequested h.subnets)
            have hgroup := h.emitsFound (k := .group) (by decide) (hown _)
              (hrequested h.groups)
            have hassociation := h.emitsFound (k := .association) (by decide) (hown _)
              (hrequested h.associations)
            exact emitsFound_append.mpr ⟨hsubnet, emitsFound_append.mpr ⟨hgroup, hassociation⟩⟩
  · exact emitsFound_nil

/-- The user's file system is emitted where a run asks for it. -/
theorem efsQueries_emits {keys : KeySource} {start : InfrastructureBuilder.Start}
    {ids infrastructure : List DocId} {s₁ s₂ : Store} (hdocs : ∀ id ∈ b.docs, id < s.next)
    (hunique : ∀ id ∈ b.docs, (s.doc id).KeysUnique)
    (hstart : b.start env keys s = .ok (start, s₁))
    (hloop : b.buildComponents env start.shared start.infrastructure start.components s₁ =
      .ok (ids, s₂))
    (hefs : b.addEfs env start.shared.efsConfig start.defaultSecurityGroup ids s₂ =
      .ok (infrastructure, s'))
    (hheads : HeadsKept s s') :
    EmitsFound b.docs (efsQueries env.toBuilderEnv b.clusterModel (b.docs.map s.doc)) s'
      infrastructure := by
  intro q hq own hfind
  have hq' : efsQuery ∈ efsQueries env.toBuilderEnv b.clusterModel (b.docs.map s.doc) ∧
      q = efsQuery := by
    have hcopy := hq
    rw [efsQueries] at hcopy
    split at hcopy
    · obtain rfl := List.mem_singleton.mp hcopy
      exact ⟨hq, rfl⟩
    · cases hcopy
  obtain ⟨hasks, rfl⟩ := hq'
  rw [efsQuery.find_heads hdocs hheads] at hfind
  have htargets := (efsQuery_mem_iff hdocs hunique hstart hloop hfind).mp hasks
  obtain ⟨rfl, -⟩ := (start_efsConfig hdocs hstart).2.1 own hfind
  refine .of_mem ?_ (allocated_mono hdocs hheads _ (List.mem_of_find?_eq_some hfind))
  rw [addEfs_emitted hefs, if_pos htargets]
  exact List.mem_append_right _ (List.mem_singleton_self _)

/-- A run only changes specifications. -/
theorem preserves_heads_run (keys : KeySource) : Preserves HeadsKept (b.run env keys) :=
  InfrastructureBuilder.preserves_run (builderFrame_heads .aws)
    preserves_heads_getAutoscalingGroup keys

/-- Whatever a run takes it emits. -/
theorem run_emits {keys : KeySource} {infrastructure : List DocId}
    (hdocs : ∀ id ∈ b.docs, id < s.next) (hunique : ∀ id ∈ b.docs, (s.doc id).KeysUnique)
    (hrun : b.run env keys s = .ok (infrastructure, s')) :
    HeadsKept s s' ∧ EmitsFound b.docs
      (queries env.toBuilderEnv b.clusterModel (b.docs.map s.doc)) s' infrastructure := by
  obtain ⟨fixed, components, requests, -, hown, hcomponents, hrep⟩ :=
    InfrastructureBuilder.run_represents hdocs hunique hrun
  have hmodel : modelComponents b.clusterModel = components := by
    rw [modelComponents, hcomponents]
    rfl
  have hframe := builderFrame_heads .aws
  have hheads : HeadsKept s s' := (preserves_heads_run keys).rel hrun
  simp only [InfrastructureBuilder.run, BuildM.bind_eq_ok] at hrun
  obtain ⟨start, s₁, hstart, ids, s₂, hloop, hefs⟩ := hrun
  have hheads₁ : HeadsKept s s₁ := (InfrastructureBuilder.preserves_start hframe keys).rel hstart
  have hdocs₁ := allocated_mono hdocs hheads₁
  obtain ⟨hsub, hheads₂, hmachines⟩ := buildComponents_emits hdocs₁ hloop
  have hdocs₂ := allocated_mono hdocs₁ hheads₂
  have hheads₃ : HeadsKept s₂ s' :=
    (InfrastructureBuilder.preserves_addEfs hframe _ _ _).rel hefs
  obtain ⟨-, -, -, -, hcomponents', -⟩ := start_represents hdocs hunique hstart
  cases hcomponents.symm.trans hcomponents'
  have hown' : ∀ kind, fixed.own kind = ownDoc b.docs kind s' := fun kind =>
    (hown kind).trans ((⟨kind, none⟩ : DocQuery).find_heads hdocs hheads).symm
  have hsubset : ids ⊆ infrastructure := by
    rw [addEfs_emitted hefs]
    split
    · exact List.subset_append_left _ _
    · exact List.Subset.refl _
  refine ⟨hheads, ?_⟩
  rw [queries, emitsFound_append, emitsFound_append]
  refine ⟨⟨?_, ?_⟩, ?_⟩
  · exact (((start_emits hdocs hstart).mono hdocs₁ hheads₂).mono hdocs₂ hheads₃).subset
      (List.Subset.trans hsub hsubset)
  · intro q hq
    obtain ⟨component, hmem, hq⟩ := List.mem_flatMap.mp hq
    rw [hmodel] at hmem
    exact hrep.component_emits hown' hmem (fun hactive =>
      ((hmachines component hmem hactive).mono hdocs₂ hheads₃).subset hsubset) q hq
  · exact efsQueries_emits hdocs hunique hstart hloop hefs hheads

end

end Aws

end LambdaStack
