/-
# The tags of the autoscaling groups

An autoscaling group is a copy of its component's machine definition with the tags
of the cluster and the component appended. It is the only document of its kind a
run emits for an active component, and no document in memory changes its tags.
-/

import LambdaStack.Engine.Providers.Aws.BuilderFrame
import LambdaStack.Engine.Providers.MachineTags

namespace LambdaStack

open Lib BuildM

namespace Aws

/-- The autoscaling groups of a component: one if the component is active. -/
def machineCount (componentValue : Val) : Nat :=
  match (componentValue.getItem "count").bind Val.ltOne with
  | .ok false => 1
  | _ => 0

namespace InfrastructureBuilder

/-- The tag of the cluster. -/
def tagOfCluster (b : InfrastructureBuilder) : Val := .dict [("cluster_name", .str b.clusterName)]

variable {env : Env} {b : InfrastructureBuilder} {s s' : Store}

/-! ## The documents that are no machines -/

theorem returnsNoMachine_config {kind : String} {fields : List (String × Val)}
    (hkind : ConfigKind kind)
    (hfields : ∀ field ∈ fields, field.1 ≠ "tags" ∧ field.1 ≠ "os_full_name") :
    ReturnsNoMachine b.docs (b.config env kind fields) :=
  returnsNoMachine_configWith hkind hfields

theorem returnsNoMachine_getPublicKey (keys : KeySource) :
    ReturnsNoMachine b.docs (b.getPublicKey env keys) := by
  obtain ⟨x, f, heq, hx, hf⟩ :=
    @getsThen_getPublicKey env b _ _ _ (builderFrame_tagsKept .aws) keys
  rw [heq]
  apply ReturnsNoMachine.after hx
  intro adminName
  exact (returnsNoMachine_config (by decide) (by simp)).getsThen (hf adminName)

theorem returnsNoMachine_getVpcConfig : ReturnsNoMachine b.docs (b.getVpcConfig env) := by
  apply ReturnsNoMachine.after (preserves_lift _)
  intro addressPool
  exact returnsNoMachine_config (by decide) (by simp)

theorem returnsNoMachine_getDefaultSecurityGroupConfig (vpcConfig : DocId) :
    ReturnsNoMachine b.docs (b.getDefaultSecurityGroupConfig env vpcConfig) := by
  apply ReturnsNoMachine.after (preserves_reads _)
  intro vpcName
  exact returnsNoMachine_config (by decide) (by simp)

theorem returnsNoMachine_getRoutingTable (vpcName internetGatewayName : Val) :
    ReturnsNoMachine b.docs (b.getRoutingTable env vpcName internetGatewayName) :=
  (returnsNoMachine_config (by decide) (by simp)).getsThen
    (getsThen_getRoutingTable (builderFrame_tagsKept .aws) vpcName internetGatewayName)

theorem returnsNoMachine_getSubnet (subnetDefinition : Val) (componentKey : String)
    (vpcName : Val) (index : Nat) :
    ReturnsNoMachine b.docs (b.getSubnet env subnetDefinition componentKey vpcName index) := by
  apply ReturnsNoMachine.after (preserves_lift _)
  intro addressPool
  apply ReturnsNoMachine.after (preserves_lift _)
  intro availabilityZone
  exact returnsNoMachine_config (by decide) (by simp)

theorem returnsNoMachine_getSecurityGroup (subnet : DocId) (componentKey : String)
    (vpcName : Val) (index : Nat) :
    ReturnsNoMachine b.docs (b.getSecurityGroup env subnet componentKey vpcName index) := by
  apply ReturnsNoMachine.after (preserves_reads _)
  intro cidrBlock
  exact returnsNoMachine_config (by decide) (by simp)

theorem returnsNoMachine_getLaunchConfiguration (autoscalingGroup : DocId)
    (componentKey : String) (groups : List (Option DocId)) :
    ReturnsNoMachine b.docs
      (b.getLaunchConfiguration env autoscalingGroup componentKey groups) :=
  (returnsNoMachine_config (by decide) (by simp)).getsThen
    (getsThen_getLaunchConfiguration (builderFrame_tagsKept .aws) autoscalingGroup componentKey
      groups)

/-! ## The autoscaling group -/

/-- The group of a component is a machine with the component's tags. -/
theorem getAutoscalingGroup_tags {componentKey : String} {componentValue : Val}
    {subnetsToCreate : List DocId} {index : Nat} {autoscalingGroup : DocId}
    (hdocs : ∀ id ∈ b.docs, id < s.next) (hunique : ∀ id ∈ b.docs, (s.doc id).KeysUnique)
    (h : b.getAutoscalingGroup env componentKey componentValue subnetsToCreate index s =
      .ok (autoscalingGroup, s')) :
    TagsKept s s' ∧ autoscalingGroup < s'.next ∧ (s'.doc autoscalingGroup).IsKind vmKind ∧
      (s'.doc autoscalingGroup).specAttr? "tags" = componentTags env.toBuilderEnv b.clusterModel
        (b.docs.map s.doc) b.tagOfCluster (componentKey, componentValue) := by
  simp only [getAutoscalingGroup, setGroupFields, BuildM.bind_eq_ok, lift_eq_ok] at h
  obtain ⟨model, s₁, hmachine, copy, _, hread, id, _, hnew, _, s₃, h, hret⟩ := h
  obtain ⟨rfl, rfl⟩ := BuildM.pure_eq_ok.mp hret
  obtain ⟨hcopy, rfl⟩ := reads_eq_ok.mp hread
  cases hcopy
  obtain ⟨rfl, rfl⟩ := newDoc_eq_ok.mp hnew
  obtain ⟨count, _, ⟨-, rfl⟩, names, s₄, hnames, zones, s₅, hzones, _, s₆, hset, happend⟩ := h
  obtain ⟨hkept, hlt, hmodel⟩ := getVirtualMachine_tags hdocs hunique hmachine
  have hassigned : TagsKept (s₁.alloc (s₁.doc model)) s₆ := by
    have hR := builderFrame_tagsKept .aws
    have hnames := (preserves_specAttrs (R := TagsKept) "name" subnetsToCreate).rel hnames
    have hzones :=
      (preserves_specAttrs (R := TagsKept) "availability_zone" subnetsToCreate).rel hzones
    have hset := (hR.setSpecAttrs _ (by simp [CloudProvider.imageField])).rel hset
    exact Trans.trans hnames (Trans.trans hzones hset)
  obtain ⟨hkept', hnext, hkind, htags⟩ :=
    copy_tags (componentKey, componentValue) hmodel hassigned happend
  exact ⟨Trans.trans hkept hkept', hnext, hkind, htags⟩

/-! ## The loops -/

theorem buildSubnet_tags {routeTable : DocId} {vpcName : Val} {componentKey : String}
    {p p' : SubnetLoop} {subnetDefinition : Val} {shown : List (Option Val)}
    (hdocs : ∀ id ∈ b.docs, id < s.next) (hp : ShowsTags s p.infrastructure shown)
    (h : b.buildSubnet env routeTable vpcName componentKey p subnetDefinition s = .ok (p', s')) :
    TagsKept s s' ∧ ShowsTags s' p'.infrastructure shown := by
  have hkept := (preserves_buildSubnet (builderFrame_tagsKept .aws) routeTable vpcName
    componentKey p subnetDefinition).rel h
  refine ⟨hkept, ?_⟩
  simp only [buildSubnet, BuildM.bind_eq_ok] at h
  obtain ⟨found, _, hread, group, _, hread', h⟩ := h
  obtain ⟨-, rfl⟩ := reads_eq_ok.mp hread
  obtain ⟨-, rfl⟩ := reads_eq_ok.mp hread'
  cases found with
  | some subnet =>
      obtain ⟨rfl, rfl⟩ := BuildM.pure_eq_ok.mp h
      exact hp
  | none =>
      simp only [BuildM.bind_eq_ok] at h
      obtain ⟨subnet, s₁, hsubnet, group, s₂, hgroup, routeTableName, _, hread, subnetName, _,
        hread', association, s₃, hassociation, h⟩ := h
      obtain ⟨-, rfl⟩ := specAttr_eq_ok.mp hread
      obtain ⟨-, rfl⟩ := specAttr_eq_ok.mp hread'
      obtain ⟨rfl, rfl⟩ := BuildM.pure_eq_ok.mp h
      obtain ⟨hkept₁, hsubnet⟩ := (returnsNoMachine_getSubnet subnetDefinition componentKey
        vpcName p.subnetIndex).run hdocs hsubnet
      have hdocs₁ : ∀ id ∈ b.docs, id < s₁.next :=
        fun id hid => (hdocs id hid).trans_le hkept₁.next_le
      obtain ⟨hkept₂, hgroup⟩ := (returnsNoMachine_getSecurityGroup subnet componentKey vpcName
        p.subnetIndex).run hdocs₁ hgroup
      obtain ⟨hkept₃, hassociation⟩ := (returnsNoMachine_config (by decide) (by simp)).run
        (fun id hid => (hdocs₁ id hid).trans_le hkept₂.next_le) hassociation
      apply (hp.keeps hkept).append_noMachine
      intro id hid
      simp only [List.mem_cons, List.not_mem_nil, or_false] at hid
      rcases hid with rfl | rfl | rfl
      · exact (hsubnet.keeps hkept₂).keeps hkept₃
      · exact hgroup.keeps hkept₃
      · exact hassociation

theorem buildSubnets_tags {routeTable : DocId} {vpcName : Val} {componentKey : String}
    {p p' : SubnetLoop} {subnets : List Val} {shown : List (Option Val)}
    (hdocs : ∀ id ∈ b.docs, id < s.next) (hp : ShowsTags s p.infrastructure shown)
    (h : b.buildSubnets env routeTable vpcName componentKey p subnets s = .ok (p', s')) :
    TagsKept s s' ∧ ShowsTags s' p'.infrastructure shown := by
  induction subnets generalizing p s with
  | nil =>
      obtain ⟨rfl, rfl⟩ := BuildM.pure_eq_ok.mp h
      exact ⟨Std.Refl.refl _, hp⟩
  | cons subnetDefinition rest ih =>
      obtain ⟨p₁, s₁, hfirst, hrest⟩ := BuildM.bind_eq_ok.mp h
      obtain ⟨hkept₁, hp₁⟩ := buildSubnet_tags hdocs hp hfirst
      obtain ⟨hkept₂, hp₂⟩ :=
        ih (fun id hid => (hdocs id hid).trans_le hkept₁.next_le) hp₁ hrest
      exact ⟨Trans.trans hkept₁ hkept₂, hp₂⟩

/-- A component is inactive and nothing happens, or its subnets are there. -/
theorem componentSubnets_tags {shared : Shared} {infrastructure : List DocId}
    {component : String × Val} {p : Option SubnetLoop} {shown : List (Option Val)}
    (hdocs : ∀ id ∈ b.docs, id < s.next) (hinfrastructure : ShowsTags s infrastructure shown)
    (h : b.componentSubnets env shared infrastructure component s = .ok (p, s')) :
    TagsKept s s' ∧ match p with
      | none => s' = s ∧ machineCount component.2 = 0
      | some p => machineCount component.2 = 1 ∧ ShowsTags s' p.infrastructure shown := by
  simp only [componentSubnets, BuildM.bind_eq_ok, lift_eq_ok] at h
  obtain ⟨count, _, ⟨hcount, rfl⟩, inactive, _, ⟨hinactive, rfl⟩, h⟩ := h
  cases inactive with
  | true =>
      obtain ⟨rfl, rfl⟩ := BuildM.pure_eq_ok.mp h
      exact ⟨Std.Refl.refl _, rfl, by simp [machineCount, hcount, Except.bind, hinactive]⟩
  | false =>
      simp only [Bool.false_eq_true, if_false, BuildM.bind_eq_ok, lift_eq_ok] at h
      obtain ⟨_, _, ⟨-, rfl⟩, subnets, _, ⟨-, rfl⟩, p, s₁, hsubnets, h⟩ := h
      obtain ⟨rfl, rfl⟩ := BuildM.pure_eq_ok.mp h
      obtain ⟨hkept, hp⟩ := buildSubnets_tags hdocs hinfrastructure hsubnets
      exact ⟨hkept, by simp [machineCount, hcount, Except.bind, hinactive], hp⟩

/-- The launch configuration joins the group, and neither has its tags changed. -/
theorem launch_tags {shared : Shared} {componentKey : String} {p : SubnetLoop}
    {autoscalingGroup : DocId} {infrastructure : List DocId} {shown : List (Option Val)}
    (hdocs : ∀ id ∈ b.docs, id < s.next) (hp : ShowsTags s p.infrastructure shown)
    (hlt : autoscalingGroup < s.next) (hkind : (s.doc autoscalingGroup).IsKind vmKind)
    (h : b.launch env shared componentKey p autoscalingGroup s = .ok (infrastructure, s')) :
    TagsKept s s' ∧ ShowsTags s' infrastructure
      (shown ++ [(s.doc autoscalingGroup).specAttr? "tags"]) := by
  have hR := builderFrame_tagsKept .aws
  have hkept := (preserves_launch hR shared componentKey p autoscalingGroup).rel h
  refine ⟨hkept, ?_⟩
  simp only [launch, BuildM.bind_eq_ok] at h
  obtain ⟨_, s₁, hrules, launchConfiguration, s₂, hlaunch, keyName, _, hread, _, s₃, hkey, _, s₄,
    himage, name, _, hread', _, s₅, hname, mountEfs, _, hread'', h⟩ := h
  obtain ⟨-, rfl⟩ := specAttr_eq_ok.mp hread
  obtain ⟨-, rfl⟩ := specAttr_eq_ok.mp hread'
  obtain ⟨-, rfl⟩ := specAttr_eq_ok.mp hread''
  have hkept₁ := (preserves_addRules hR autoscalingGroup p.securityGroupsToCreate).rel hrules
  obtain ⟨-, hconfiguration⟩ := (returnsNoMachine_getLaunchConfiguration autoscalingGroup
    componentKey p.securityGroupsToCreate).run
      (fun id hid => (hdocs id hid).trans_le hkept₁.next_le) hlaunch
  have hkept₃ := (preserves_tags_setSpecAttr launchConfiguration keyName (by decide)).rel hkey
  have hkept₄ := (preserves_setImageId hR launchConfiguration autoscalingGroup).rel himage
  have hkept₅ := (preserves_tags_setSpecAttr autoscalingGroup name (by decide)).rel hname
  have hend : TagsKept s₅ s' ∧
      infrastructure = p.infrastructure ++ [autoscalingGroup, launchConfiguration] := by
    split at h
    · obtain ⟨_, s₆, hmount, h⟩ := BuildM.bind_eq_ok.mp h
      obtain ⟨rfl, rfl⟩ := BuildM.pure_eq_ok.mp h
      exact ⟨(preserves_efsAddMountTargets hR shared.efsConfig p.subnetsToCreate).rel hmount, rfl⟩
    · obtain ⟨rfl, rfl⟩ := BuildM.pure_eq_ok.mp h
      exact ⟨Std.Refl.refl _, rfl⟩
  obtain ⟨hkept₆, rfl⟩ := hend
  have hgroup := hkept.doc autoscalingGroup hlt
  have hmachine := (hp.keeps hkept).append_machine (hlt.trans_le hkept.next_le)
    (show (s'.doc autoscalingGroup).IsKind vmKind by rw [Val.IsKind, hgroup.kind]; exact hkind)
  rw [hgroup.tags] at hmachine
  have hlast : ∀ id ∈ [launchConfiguration], NoMachine s' id := by
    intro id hid
    rw [List.mem_singleton.mp hid]
    exact (((hconfiguration.keeps hkept₃).keeps hkept₄).keeps hkept₅).keeps hkept₆
  simpa using hmachine.append_noMachine hlast

theorem buildComponent_tags {shared : Shared} {infrastructure infrastructure' : List DocId}
    {component : String × Val} {shown : List (Option Val)}
    (hdocs : ∀ id ∈ b.docs, id < s.next) (hunique : ∀ id ∈ b.docs, (s.doc id).KeysUnique)
    (hinfrastructure : ShowsTags s infrastructure shown)
    (h : b.buildComponent env shared infrastructure component s = .ok (infrastructure', s')) :
    TagsKept s s' ∧ ShowsTags s' infrastructure' (shown ++
      List.replicate (machineCount component.2) (componentTags env.toBuilderEnv b.clusterModel
        (b.docs.map s.doc) b.tagOfCluster component)) := by
  obtain ⟨p, s₁, hsubnets, hbuild⟩ := BuildM.bind_eq_ok.mp h
  obtain ⟨hkept₁, hp⟩ := componentSubnets_tags hdocs hinfrastructure hsubnets
  cases p with
  | none =>
      obtain ⟨rfl, hcount⟩ := hp
      obtain ⟨rfl, rfl⟩ := BuildM.pure_eq_ok.mp hbuild
      rw [hcount, List.replicate_zero, List.append_nil]
      exact ⟨hkept₁, hinfrastructure⟩
  | some p =>
      obtain ⟨hcount, hp⟩ := hp
      obtain ⟨autoscalingGroup, s₂, hgroup, hlaunch⟩ := BuildM.bind_eq_ok.mp hbuild
      have hdocs₁ : ∀ id ∈ b.docs, id < s₁.next :=
        fun id hid => (hdocs id hid).trans_le hkept₁.next_le
      have hunique₁ : ∀ id ∈ b.docs, (s₁.doc id).KeysUnique :=
        fun id hid => (hkept₁.doc id (hdocs id hid)).unique (hunique id hid)
      obtain ⟨hkept₂, hlt, hkind, htags⟩ := getAutoscalingGroup_tags hdocs₁ hunique₁ hgroup
      obtain ⟨hkept₃, hshown⟩ := launch_tags
        (fun id hid => (hdocs₁ id hid).trans_le hkept₂.next_le) (hp.keeps hkept₂) hlt hkind hlaunch
      rw [htags, componentTags_keeps hdocs hkept₁] at hshown
      rw [hcount, List.replicate_one]
      exact ⟨Trans.trans hkept₁ (Trans.trans hkept₂ hkept₃), hshown⟩

theorem buildComponents_tags {shared : Shared} {infrastructure infrastructure' : List DocId}
    {components : Entries} {shown : List (Option Val)}
    (hdocs : ∀ id ∈ b.docs, id < s.next) (hunique : ∀ id ∈ b.docs, (s.doc id).KeysUnique)
    (hinfrastructure : ShowsTags s infrastructure shown)
    (h : b.buildComponents env shared infrastructure components s = .ok (infrastructure', s')) :
    TagsKept s s' ∧ ShowsTags s' infrastructure' (shown ++ expectedTags env.toBuilderEnv
      b.clusterModel (b.docs.map s.doc) b.tagOfCluster machineCount components) := by
  induction components generalizing infrastructure shown s with
  | nil =>
      obtain ⟨rfl, rfl⟩ := BuildM.pure_eq_ok.mp h
      exact ⟨Std.Refl.refl _, by simpa [expectedTags] using hinfrastructure⟩
  | cons component rest ih =>
      obtain ⟨infrastructure₁, s₁, hfirst, hrest⟩ := BuildM.bind_eq_ok.mp h
      obtain ⟨hkept₁, hshown₁⟩ := buildComponent_tags hdocs hunique hinfrastructure hfirst
      obtain ⟨hkept₂, hshown₂⟩ := ih (fun id hid => (hdocs id hid).trans_le hkept₁.next_le)
        (fun id hid => (hkept₁.doc id (hdocs id hid)).unique (hunique id hid)) hshown₁ hrest
      refine ⟨Trans.trans hkept₁ hkept₂, ?_⟩
      rw [expectedTags_keeps hdocs hkept₁, List.append_assoc] at hshown₂
      exact hshown₂

/-! ## The run -/

/-- Nothing before the loop is a machine. -/
theorem start_tags {keys : KeySource} {start : Start} (hdocs : ∀ id ∈ b.docs, id < s.next)
    (h : b.start env keys s = .ok (start, s')) :
    TagsKept s s' ∧ NoMachine s' start.shared.efsConfig ∧
      ShowsTags s' start.infrastructure [] ∧
      (attrPath b.clusterModel ["specification", "components"]).bind Val.asDict =
        .ok start.components := by
  have hR := builderFrame_tagsKept .aws
  have hkept := (preserves_start hR keys).rel h
  simp only [InfrastructureBuilder.start, BuildM.bind_eq_ok, lift_eq_ok] at h
  obtain ⟨key, s₁, hkey, vpc, s₂, hvpc, group, s₃, hgroup, vpcName, _, hread, resource, s₄,
    hresource, gateway, s₅, hgateway, gatewayName, _, hread', table, s₆, htable, efs, s₇, hefs,
    value, _, ⟨hvalue, rfl⟩, components, _, ⟨hcomponents, rfl⟩, h⟩ := h
  obtain ⟨-, rfl⟩ := specAttr_eq_ok.mp hread
  obtain ⟨-, rfl⟩ := specAttr_eq_ok.mp hread'
  obtain ⟨rfl, rfl⟩ := BuildM.pure_eq_ok.mp h
  obtain ⟨hkept₁, hkey⟩ := (returnsNoMachine_getPublicKey keys).run hdocs hkey
  have hdocs₁ : ∀ id ∈ b.docs, id < s₁.next :=
    fun id hid => (hdocs id hid).trans_le hkept₁.next_le
  obtain ⟨hkept₂, hvpc⟩ := returnsNoMachine_getVpcConfig.run hdocs₁ hvpc
  have hdocs₂ : ∀ id ∈ b.docs, id < s₂.next :=
    fun id hid => (hdocs₁ id hid).trans_le hkept₂.next_le
  obtain ⟨hkept₃, hgroup⟩ := (returnsNoMachine_getDefaultSecurityGroupConfig vpc).run hdocs₂ hgroup
  have hdocs₃ : ∀ id ∈ b.docs, id < s₃.next :=
    fun id hid => (hdocs₂ id hid).trans_le hkept₃.next_le
  obtain ⟨hkept₄, hresource⟩ := (returnsNoMachine_config (by decide) (by simp)).run hdocs₃ hresource
  have hdocs₄ : ∀ id ∈ b.docs, id < s₄.next :=
    fun id hid => (hdocs₃ id hid).trans_le hkept₄.next_le
  obtain ⟨hkept₅, hgateway⟩ := (returnsNoMachine_config (by decide) (by simp)).run hdocs₄ hgateway
  have hdocs₅ : ∀ id ∈ b.docs, id < s₅.next :=
    fun id hid => (hdocs₄ id hid).trans_le hkept₅.next_le
  obtain ⟨hkept₆, htable⟩ :=
    (returnsNoMachine_getRoutingTable vpcName gatewayName).run hdocs₅ htable
  obtain ⟨hkept₇, hefs⟩ := (returnsNoMachine_config (by decide) (by simp)).run
    (fun id hid => (hdocs₅ id hid).trans_le hkept₆.next_le) hefs
  have hlast : TagsKept s₅ s₇ := Trans.trans hkept₆ hkept₇
  have hlast₄ : TagsKept s₄ s₇ := Trans.trans hkept₅ hlast
  have hlast₃ : TagsKept s₃ s₇ := Trans.trans hkept₄ hlast₄
  have hlast₂ : TagsKept s₂ s₇ := Trans.trans hkept₃ hlast₃
  have hlast₁ : TagsKept s₁ s₇ := Trans.trans hkept₂ hlast₂
  have hempty : ShowsTags s₇ [] [] := ⟨by simp, rfl⟩
  refine ⟨hkept, hefs, hempty.append_noMachine ?_, by rw [hvalue]; exact hcomponents⟩
  intro id hid
  simp only [List.mem_cons, List.not_mem_nil, or_false] at hid
  rcases hid with rfl | rfl | rfl | rfl | rfl | rfl
  · exact hkey.keeps hlast₁
  · exact hvpc.keeps hlast₂
  · exact hgroup.keeps hlast₃
  · exact hresource.keeps hlast₄
  · exact hgateway.keeps hlast
  · exact htable.keeps hkept₇

theorem addEfs_tags {efsConfig defaultSecurityGroup : DocId}
    {infrastructure infrastructure' : List DocId} {shown : List (Option Val)}
    (hefs : NoMachine s efsConfig) (hinfrastructure : ShowsTags s infrastructure shown)
    (h : b.addEfs env efsConfig defaultSecurityGroup infrastructure s =
      .ok (infrastructure', s')) :
    TagsKept s s' ∧ ShowsTags s' infrastructure' shown := by
  have hkept := (preserves_addEfs (builderFrame_tagsKept .aws) efsConfig defaultSecurityGroup
    infrastructure).rel h
  refine ⟨hkept, ?_⟩
  obtain ⟨mounts, s₁, -, h⟩ := BuildM.bind_eq_ok.mp h
  split at h
  · obtain ⟨_, s₂, -, h⟩ := BuildM.bind_eq_ok.mp h
    obtain ⟨rfl, rfl⟩ := BuildM.pure_eq_ok.mp h
    apply (hinfrastructure.keeps hkept).append_noMachine
    intro id hid
    rw [List.mem_singleton.mp hid]
    exact hefs.keeps hkept
  · obtain ⟨rfl, rfl⟩ := BuildM.pure_eq_ok.mp h
    exact hinfrastructure.keeps hkept

/-- A run emits for each active component one machine with the component's tags, and
no document in memory changes its tags. -/
theorem run_shows {keys : KeySource} {infrastructure : List DocId}
    (hdocs : ∀ id ∈ b.docs, id < s.next) (hunique : ∀ id ∈ b.docs, (s.doc id).KeysUnique)
    (h : b.run env keys s = .ok (infrastructure, s')) :
    TagsKept s s' ∧ ∃ components,
      (attrPath b.clusterModel ["specification", "components"]).bind Val.asDict =
        .ok components ∧
      shownTags s' infrastructure = expectedTags env.toBuilderEnv b.clusterModel
        (b.docs.map s.doc) b.tagOfCluster machineCount components := by
  obtain ⟨start, s₁, hstart, h⟩ := BuildM.bind_eq_ok.mp h
  obtain ⟨infrastructure₁, s₂, hcomponents, hefs⟩ := BuildM.bind_eq_ok.mp h
  obtain ⟨hkept₁, hnoefs, hshown, hread⟩ := start_tags hdocs hstart
  obtain ⟨hkept₂, hshown⟩ := buildComponents_tags
    (fun id hid => (hdocs id hid).trans_le hkept₁.next_le)
    (fun id hid => (hkept₁.doc id (hdocs id hid)).unique (hunique id hid)) hshown hcomponents
  obtain ⟨hkept₃, hshown⟩ := addEfs_tags (hnoefs.keeps hkept₂) hshown hefs
  refine ⟨Trans.trans hkept₁ (Trans.trans hkept₂ hkept₃), start.components, hread, ?_⟩
  rw [hshown.tags, List.nil_append, expectedTags_keeps hdocs hkept₁]

end InfrastructureBuilder

/-! ## Two components with one machine definition -/

namespace ClusterSample

/-- A default document with every field the builder reads. -/
def defaultDoc (kind : String) : Val :=
  .dict [("kind", .str kind), ("name", .str "default"), ("provider", .str "aws"),
    ("specification", .dict [("route", .dict [("cidr_block", .str "0.0.0.0/0")]),
      ("rules", .list []), ("mount_targets", .list [])])]

def schema : SchemaDir where
  file _ kind := some [defaultDoc kind]
  kind_eq := by
    rintro provider kind docs ⟨⟩ - doc hdoc
    rw [List.mem_singleton.mp hdoc]
    rfl
  wellFormed := by
    rintro provider kind docs ⟨⟩ doc hdoc
    rw [List.mem_singleton.mp hdoc]
    simp [defaultDoc]

def env : Env where
  schema := schema
  version := "1.0.0"
  lower s := String.ofList (s.toList.map Char.toLower)
  readFile _ := some "ssh-rsa"
  rstrip s := s
  getImageId _ := .ok (.str "ami-1")

def keys : KeySource := ⟨"uuid", none⟩

/-- A rule that lets a port in. -/
def rule (port : String) : Val :=
  .dict [("direction", .str "ingress"), ("protocol", .str "tcp"),
    ("destination_port_range", .str port), ("source_address_prefix", .str "10.1.0.0/20"),
    ("destination_address_prefix", .str "0.0.0.0/0")]

/-- A machine definition of the user with one rule. -/
def machine (name port : String) : Val :=
  .dict [("kind", .str "infrastructure/virtual-machine"), ("name", .str name),
    ("provider", .str "aws"),
    ("specification", .dict [("size", .str "t3.medium"), ("os_full_name", .str "ubuntu"),
      ("tags", .list [.dict [("owner", .str "ops")]]), ("disks", .list []),
      ("ebs_optimized", .bool false), ("mount_efs", .bool false),
      ("authorized_to_efs", .bool false), ("security", .dict [("rules", .list [rule port])])])]

/-- A component with subnets in the given address pools. -/
def component (machine : String) (pools : List String) : Val :=
  .dict [("count", .int 1), ("machine", .str machine),
    ("subnets", .list (pools.map fun pool =>
      .dict [("address_pool", .str pool), ("availability_zone", .str "eu-west-1a")]))]

def clusterModel (components : Entries) : Val :=
  .dict [("kind", .str "lambdastack-cluster"), ("provider", .str "aws"),
    ("specification", .dict [("name", .str "test"), ("prefix", .str "ls"),
      ("admin_user", .dict [("name", .str "operations"), ("path", .str "/shared/id_rsa")]),
      ("cloud", .dict [("vnet_address_pool", .str "10.1.0.0/20"),
        ("default_os_image", .str "default"), ("use_public_ips", .bool true)]),
      ("components", .dict components)])]

/-- The builder of a cluster with the given components. -/
def builder (components : Entries) : InfrastructureBuilder where
  clusterModel := clusterModel components
  docs := [0, 1]
  manifestDocs := []
  clusterName := "test"
  clusterPrefix := "ls"
  useNetworkSecurityGroups := .bool true

def store : Store :=
  Store.alloc (Store.alloc ⟨0, fun _ => .null⟩ (machine "m1" "22")) (machine "m2" "443")

theorem docs_lt (components : Entries) : ∀ id ∈ (builder components).docs, id < store.next := by
  simp [builder, store]

theorem docs_wellFormed (components : Entries) :
    ∀ id ∈ (builder components).docs, (store.doc id).WellFormed := by
  simp [builder, store, Store.alloc, machine, rule]

/-- The components share a machine definition and an address pool. -/
def sharing : InfrastructureBuilder :=
  builder [("kafka", component "m1" ["10.1.1.0/24", "10.1.2.0/24"]),
    ("logging", component "m1" ["10.1.2.0/24"])]

theorem run_sharing : (sharing.run env keys store).toOption.isSome = true := by
  decide +kernel

end ClusterSample

end Aws

end LambdaStack
