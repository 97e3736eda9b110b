/-
# What the AWS builder does to the documents

Every part of the builder keeps a relation of stores that new documents and
assignments keep, when making an autoscaling group, which appends tags, keeps it.
-/

import LambdaStack.Engine.Providers.Aws.InfrastructureBuilder
import LambdaStack.Engine.Providers.BuilderFrame

namespace LambdaStack

open Lib BuildM

namespace Aws

namespace InfrastructureBuilder

variable {env : Env} {b : InfrastructureBuilder} {R : Store → Store → Prop} [Std.Refl R]
  [IsTrans Store R] (hR : BuilderFrame .aws R)

include hR

theorem preserves_config (kind : String) {fields : List (String × Val)}
    (hfields : ∀ field ∈ fields, field.1 ≠ "tags" ∧ field.1 ≠ "os_full_name") :
    Preserves R (b.config env kind fields) :=
  hR.configWith .aws env.toBuilderEnv b.docs kind hfields

/-! ## Before the loop -/

/-- After the name of the admin user has been read. -/
theorem getsThen_getPublicKey (keys : KeySource) : ∃ x : BuildM Val, ∃ f : Val → BuildM DocId,
    b.getPublicKey env keys = x >>= f ∧ Preserves R x ∧ ∀ adminName,
      GetsThen R (b.config env "infrastructure/public-key" [("name", adminName)])
        (f adminName) := by
  refine ⟨_, _, rfl, preserves_lift _, fun adminName => ⟨_, rfl, fun publicKeyConfig => ?_⟩⟩
  apply (preserves_lift _).bindReturns
  intro keyName
  apply (hR.assigns publicKeyConfig keyName (by decide) (by decide)).bindReturns
  intro _
  apply (preserves_lift _).bindReturns
  intro path
  apply (preserves_lift _).bindReturns
  intro path
  dsimp only
  cases env.readFile (pathJoin path (path ++ ".pub")) with
  | none =>
      refine ⟨preserves_lift _, fun h => ?_⟩
      cases h
  | some text =>
      apply (hR.assigns publicKeyConfig _ (by decide) (by decide)).bindReturns
      intro _
      exact returns_pure publicKeyConfig

theorem preserves_getPublicKey (keys : KeySource) :
    Preserves R (b.getPublicKey env keys) := by
  obtain ⟨x, f, heq, hx, hf⟩ := getsThen_getPublicKey hR keys
  rw [heq]
  exact hx.bind fun adminName => (hf adminName).preserves (preserves_config hR _ (by simp))

theorem preserves_getVpcConfig :
    Preserves R (b.getVpcConfig env) := by
  apply (preserves_lift _).bind
  intro addressPool
  exact preserves_config hR _ (by simp)

theorem preserves_getDefaultSecurityGroupConfig (vpcConfig : DocId) :
    Preserves R (b.getDefaultSecurityGroupConfig env vpcConfig) := by
  apply (preserves_reads _).bind
  intro vpcName
  exact preserves_config hR _ (by simp)

theorem getsThen_getRoutingTable (vpcName internetGatewayName : Val) :
    GetsThen R (b.config env "infrastructure/route-table"
        [("name", b.resource env "route-table" none), ("vpc_name", vpcName)])
      (b.getRoutingTable env vpcName internetGatewayName) := by
  refine ⟨_, rfl, fun routeTable => ?_⟩
  apply (preserves_reads _).bindReturns
  intro route
  apply (preserves_lift _).bindReturns
  intro route
  apply (hR.setSpecAttrs routeTable (by simp [CloudProvider.imageField])).bindReturns
  intro _
  exact returns_pure routeTable

theorem preserves_getRoutingTable (vpcName internetGatewayName : Val) :
    Preserves R (b.getRoutingTable env vpcName internetGatewayName) :=
  (getsThen_getRoutingTable hR vpcName internetGatewayName).preserves
    (preserves_config hR _ (by simp))

theorem preserves_start (keys : KeySource) :
    Preserves R (b.start env keys) := by
  apply (preserves_getPublicKey hR keys).bind
  intro publicKeyConfig
  apply (preserves_getVpcConfig hR).bind
  intro vpcConfig
  apply (preserves_getDefaultSecurityGroupConfig hR vpcConfig).bind
  intro defaultSecurityGroup
  apply (preserves_reads _).bind
  intro vpcName
  apply (preserves_config hR _ (by simp)).bind
  intro resourceGroup
  apply (preserves_config hR _ (by simp)).bind
  intro internetGateway
  apply (preserves_reads _).bind
  intro internetGatewayName
  apply (preserves_getRoutingTable hR vpcName internetGatewayName).bind
  intro routeTable
  apply (preserves_config hR _ (by simp)).bind
  intro efsConfig
  apply (preserves_lift _).bind
  intro components
  apply (preserves_lift _).bind
  intro components
  exact preserves_pure _

/-! ## The subnets of a component -/

theorem preserves_getSubnet (subnetDefinition : Val) (componentKey : String)
    (vpcName : Val) (index : Nat) :
    Preserves R
      (b.getSubnet env subnetDefinition componentKey vpcName index) := by
  apply (preserves_lift _).bind
  intro addressPool
  apply (preserves_lift _).bind
  intro availabilityZone
  exact preserves_config hR _ (by simp)

theorem preserves_getSecurityGroup (subnet : DocId) (componentKey : String)
    (vpcName : Val) (index : Nat) :
    Preserves R (b.getSecurityGroup env subnet componentKey vpcName index) := by
  apply (preserves_reads _).bind
  intro cidrBlock
  exact preserves_config hR _ (by simp)

theorem preserves_buildSubnet (routeTable : DocId) (vpcName : Val)
    (componentKey : String) (p : SubnetLoop) (subnetDefinition : Val) :
    Preserves R
      (b.buildSubnet env routeTable vpcName componentKey p subnetDefinition) := by
  apply (preserves_reads _).bind
  intro subnet
  apply (preserves_reads _).bind
  intro securityGroup
  cases subnet with
  | some subnet => exact preserves_pure _
  | none =>
      apply (preserves_getSubnet hR subnetDefinition componentKey vpcName _).bind
      intro subnet
      apply (preserves_getSecurityGroup hR subnet componentKey vpcName _).bind
      intro securityGroup
      apply (preserves_reads _).bind
      intro routeTableName
      apply (preserves_reads _).bind
      intro subnetName
      apply (preserves_config hR _ (by simp)).bind
      intro association
      exact preserves_pure _

theorem preserves_buildSubnets (routeTable : DocId) (vpcName : Val)
    (componentKey : String) (p : SubnetLoop) (subnets : List Val) :
    Preserves R
      (b.buildSubnets env routeTable vpcName componentKey p subnets) := by
  induction subnets generalizing p with
  | nil => exact preserves_pure p
  | cons subnetDefinition rest ih =>
      apply (preserves_buildSubnet hR routeTable vpcName componentKey p
        subnetDefinition).bind
      intro p
      exact ih p

theorem preserves_componentSubnets (shared : Shared) (infrastructure : List DocId)
    (component : String × Val) :
    Preserves R
      (b.componentSubnets env shared infrastructure component) := by
  apply (preserves_lift _).bind
  intro count
  apply (preserves_lift _).bind
  intro inactive
  apply Preserves.ite
  · exact preserves_pure none
  · apply (preserves_lift _).bind
    intro subnets
    apply (preserves_lift _).bind
    intro subnets
    apply (preserves_buildSubnets hR shared.routeTable shared.vpcName component.1 _
      subnets).bind
    intro p
    exact preserves_pure (some p)

/-! ## The autoscaling group of a component -/

omit hR in
theorem preserves_specAttrs (key : String) (ids : List DocId) :
    Preserves R (specAttrs key ids) := by
  induction ids with
  | nil => exact preserves_pure []
  | cons id rest ih =>
      apply (preserves_reads _).bind
      intro value
      apply ih.bind
      intro values
      exact preserves_pure _

omit hR [IsTrans Store R] in
theorem preserves_groupDoc (group : Option DocId) :
    Preserves R (groupDoc group) := by
  cases group with
  | none => exact preserves_lift _
  | some id => exact preserves_pure id

omit hR in
theorem preserves_groupNames (groups : List (Option DocId)) :
    Preserves R (groupNames groups) := by
  induction groups with
  | nil => exact preserves_pure []
  | cons group rest ih =>
      apply (preserves_groupDoc group).bind
      intro id
      apply (preserves_reads _).bind
      intro name
      apply ih.bind
      intro names
      exact preserves_pure _

theorem getsThen_getLaunchConfiguration (autoscalingGroup : DocId)
    (componentKey : String) (groups : List (Option DocId)) :
    GetsThen R (b.config env "infrastructure/launch-configuration"
        [("name", b.resource env "launch-config" (some componentKey))])
      (b.getLaunchConfiguration env autoscalingGroup componentKey groups) := by
  refine ⟨_, rfl, fun launchConfiguration => ?_⟩
  apply (preserves_reads _).bindReturns
  intro size
  apply (hR.assigns launchConfiguration size (by decide) (by decide)).bindReturns
  intro _
  apply (preserves_groupNames groups).bindReturns
  intro names
  apply (hR.assigns launchConfiguration (.list names) (by decide) (by decide)).bindReturns
  intro _
  apply (preserves_reads _).bindReturns
  intro disks
  apply (hR.assigns launchConfiguration disks (by decide) (by decide)).bindReturns
  intro _
  apply (preserves_reads _).bindReturns
  intro ebsOptimized
  apply (hR.assigns launchConfiguration ebsOptimized (by decide) (by decide)).bindReturns
  intro _
  apply (preserves_lift _).bindReturns
  intro usePublicIps
  apply (hR.assigns launchConfiguration usePublicIps (by decide) (by decide)).bindReturns
  intro _
  exact returns_pure launchConfiguration

theorem preserves_getLaunchConfiguration (autoscalingGroup : DocId)
    (componentKey : String) (groups : List (Option DocId)) :
    Preserves R
      (b.getLaunchConfiguration env autoscalingGroup componentKey groups) :=
  (getsThen_getLaunchConfiguration hR autoscalingGroup componentKey groups).preserves
    (preserves_config hR _ (by simp))

omit hR in
theorem preserves_rulesOf (autoscalingGroup : DocId) :
    Preserves R (rulesOf autoscalingGroup) := by
  apply (preserves_reads _).bind
  intro security
  apply (preserves_lift _).bind
  intro rules
  exact preserves_lift _

theorem preserves_addRulesToGroup (rules : List Val) (group : Option DocId) :
    Preserves R (addRulesToGroup env rules group) := by
  apply Preserves.ite
  · exact preserves_pure ()
  · apply (preserves_groupDoc group).bind
    intro id
    apply (preserves_reads _).bind
    intro groupRules
    apply (preserves_lift _).bind
    intro groupRules
    apply (preserves_lift _).bind
    intro groupRules
    exact hR.assigns id _ (by decide) (by decide)

theorem preserves_addRules (autoscalingGroup : DocId) (groups : List (Option DocId)) :
    Preserves R (addRules env autoscalingGroup groups) := by
  induction groups with
  | nil => exact preserves_pure ()
  | cons group rest ih =>
      apply (preserves_rulesOf autoscalingGroup).bind
      intro rules
      apply (preserves_addRulesToGroup hR rules group).bind
      intro _
      exact ih

theorem preserves_efsAddMountTargetConfig (efsConfig subnet : DocId) :
    Preserves R (efsAddMountTargetConfig efsConfig subnet) := by
  apply (preserves_reads _).bind
  intro mountTargets
  apply (preserves_lift _).bind
  intro mountTargets
  apply (preserves_reads _).bind
  intro availabilityZone
  apply (preserves_lift _).bind
  intro target
  cases target with
  | some _ => exact preserves_pure ()
  | none =>
      apply (preserves_reads _).bind
      intro subnetName
      apply (preserves_lift _).bind
      intro name
      exact hR.assigns efsConfig _ (by decide) (by decide)

theorem preserves_efsAddMountTargets (efsConfig : DocId) (subnets : List DocId) :
    Preserves R (efsAddMountTargets efsConfig subnets) := by
  induction subnets with
  | nil => exact preserves_pure ()
  | cons subnet rest ih =>
      apply (preserves_efsAddMountTargetConfig hR efsConfig subnet).bind
      intro _
      exact ih

theorem preserves_setImageId (launchConfiguration autoscalingGroup : DocId) :
    Preserves R
      (setImageIdForLaunchConfiguration env launchConfiguration autoscalingGroup) := by
  apply (preserves_reads _).bind
  intro osFullName
  apply (preserves_lift _).bind
  intro imageId
  exact hR.assigns launchConfiguration _ (by decide) (by decide)

theorem preserves_launch (shared : Shared) (componentKey : String) (p : SubnetLoop)
    (autoscalingGroup : DocId) :
    Preserves R (b.launch env shared componentKey p autoscalingGroup) := by
  apply (preserves_addRules hR autoscalingGroup p.securityGroupsToCreate).bind
  intro _
  apply (preserves_getLaunchConfiguration hR autoscalingGroup componentKey
    p.securityGroupsToCreate).bind
  intro launchConfiguration
  apply (preserves_reads _).bind
  intro keyName
  apply (hR.assigns launchConfiguration keyName (by decide) (by decide)).bind
  intro _
  apply (preserves_setImageId hR launchConfiguration autoscalingGroup).bind
  intro _
  apply (preserves_reads _).bind
  intro name
  apply (hR.assigns autoscalingGroup name (by decide) (by decide)).bind
  intro _
  apply (preserves_reads _).bind
  intro mountEfs
  apply Preserves.ite
  · apply (preserves_efsAddMountTargets hR shared.efsConfig p.subnetsToCreate).bind
    intro _
    exact preserves_pure _
  · exact preserves_pure _

/-! ## After the loop -/

theorem preserves_addNfsRule (infrastructure : List DocId) (own : List Val)
    (added : List DocId) (subnetName : Val) :
    Preserves R (b.addNfsRule env infrastructure own added subnetName) := by
  apply (preserves_reads _).bind
  intro subnet
  apply (preserves_reads _).bind
  intro cidrBlock
  apply (preserves_reads _).bind
  intro specs
  apply (preserves_lift _).bind
  intro ruleDefined
  cases ruleDefined with
  | some _ => exact preserves_pure added
  | none =>
      apply (preserves_reads _).bind
      intro name
      apply (preserves_lift _).bind
      intro ruleName
      apply (preserves_lift _).bind
      intro description
      apply (preserves_config hR _ (by simp)).bind
      intro rule
      exact preserves_pure _

theorem preserves_addNfsRules (infrastructure : List DocId) (own : List Val)
    (added : List DocId) (subnetNames : List Val) :
    Preserves R (b.addNfsRules env infrastructure own added subnetNames) := by
  induction subnetNames generalizing added with
  | nil => exact preserves_pure added
  | cons subnetName rest ih =>
      apply (preserves_addNfsRule hR infrastructure own added subnetName).bind
      intro added
      exact ih added

theorem preserves_addNfsRulesOf (infrastructure : List DocId) (own : List Val)
    (added asgs : List DocId) :
    Preserves R (b.addNfsRulesOf env infrastructure own added asgs) := by
  induction asgs generalizing added with
  | nil => exact preserves_pure added
  | cons asg rest ih =>
      apply (preserves_reads _).bind
      intro subnetNames
      apply (preserves_lift _).bind
      intro subnetNames
      apply (preserves_addNfsRules hR infrastructure own added subnetNames).bind
      intro added
      exact ih added

theorem preserves_addEfs (efsConfig defaultSecurityGroup : DocId)
    (infrastructure : List DocId) :
    Preserves R
      (b.addEfs env efsConfig defaultSecurityGroup infrastructure) := by
  apply Preserves.bind
  · apply (preserves_reads _).bind
    intro mountTargets
    apply (preserves_lift _).bind
    intro mountTargets
    exact preserves_pure _
  · intro mounts
    apply Preserves.ite
    · apply Preserves.bind
      · apply (preserves_reads _).bind
        intro agsAllowedToEfs
        apply (preserves_reads _).bind
        intro own
        apply (preserves_lift _).bind
        intro own
        apply (preserves_addNfsRulesOf hR _ own [] agsAllowedToEfs).bind
        intro added
        apply (preserves_reads _).bind
        intro specs
        exact hR.assigns defaultSecurityGroup _ (by decide) (by decide)
      · intro _
        exact preserves_pure _
    · exact preserves_pure infrastructure

/-! ## The components -/

variable
  (hgroup : ∀ componentKey componentValue subnetsToCreate index, Preserves R
    (b.getAutoscalingGroup env componentKey componentValue subnetsToCreate index))

include hgroup

theorem preserves_buildComponent (shared : Shared) (infrastructure : List DocId)
    (component : String × Val) :
    Preserves R (b.buildComponent env shared infrastructure component) := by
  apply (preserves_componentSubnets hR shared infrastructure component).bind
  intro p
  cases p with
  | none => exact preserves_pure infrastructure
  | some p =>
      apply (hgroup component.1 component.2 _ 0).bind
      intro autoscalingGroup
      exact preserves_launch hR shared component.1 p autoscalingGroup

theorem preserves_buildComponents (shared : Shared) (infrastructure : List DocId)
    (components : Entries) :
    Preserves R (b.buildComponents env shared infrastructure components) := by
  induction components generalizing infrastructure with
  | nil => exact preserves_pure infrastructure
  | cons component rest ih =>
      apply (preserves_buildComponent hR hgroup shared infrastructure component).bind
      intro infrastructure
      exact ih infrastructure

/-- A run keeps what its autoscaling groups keep. -/
theorem preserves_run (keys : KeySource) : Preserves R (b.run env keys) := by
  apply (preserves_start hR keys).bind
  intro start
  apply (preserves_buildComponents hR hgroup start.shared start.infrastructure
    start.components).bind
  intro infrastructure
  exact preserves_addEfs hR _ _ infrastructure

end InfrastructureBuilder

end Aws

end LambdaStack
