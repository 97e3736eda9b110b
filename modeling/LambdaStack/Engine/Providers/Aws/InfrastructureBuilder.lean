/-
# The AWS infrastructure builder

`InfrastructureBuilder` of the AWS provider: `run` walks the components of the
cluster model; for each subnet of a component it finds or creates the subnet and
its security group, and for the component itself an autoscaling group, which is a
copy of its machine definition, and a launch configuration. Warnings are logged
only and left out.
-/

import LambdaStack.Engine.Providers.VirtualMachine
import LambdaStack.Helpers.NamingHelpers

namespace LambdaStack

open Lib BuildM

namespace Aws

/-- What the AWS builder reads besides its documents. -/
structure Env extends BuilderEnv where
  /-- `str.rstrip`. -/
  rstrip : String → String
  /-- `get_image_id` of the provider's proxy. -/
  getImageId : Val → Res Val

/-- What the name of the key pair is taken from. -/
structure KeySource where
  /-- The random part of a new key name, `str(uuid.uuid4())`. -/
  uuid : String
  /-- The `terraform.tfstate` of the cluster, if there is one. -/
  tfstate : Option Val

/-- The attributes `__init__` sets. -/
structure InfrastructureBuilder extends BuilderDocs where
  clusterName : String
  clusterPrefix : String
  useNetworkSecurityGroups : Val

variable (env : Env)

/-- `__init__`. -/
def init (docs : List DocId) (manifestDocs : List Val) : BuildM InfrastructureBuilder := do
  let clusterModel ← reads fun doc =>
    (selectSingle docs (kindIs "lambdastack-cluster" ∘ doc)).map doc
  let name ← lift (attrPath clusterModel ["specification", "name"])
  let name ← lift name.asStr
  let pre ← lift (attrPath clusterModel ["specification", "prefix"])
  let pre ← lift pre.asStr
  let useNetworkSecurityGroups ← lift (attrPath clusterModel
    ["specification", "cloud", "network", "use_network_security_groups"])
  pure {
    clusterModel := clusterModel
    docs := docs
    manifestDocs := manifestDocs
    clusterName := env.lower name
    clusterPrefix := env.lower pre
    useNetworkSecurityGroups := useNetworkSecurityGroups }

namespace InfrastructureBuilder

variable (b : InfrastructureBuilder)

/-- `resource_name(self.cluster_prefix, self.cluster_name, …)`. -/
def resource (resourceType : String) (component : Option String) : Val :=
  .str (resourceName env.lower b.clusterPrefix b.clusterName resourceType component)

/-- The name of the `index`-th resource of a type a component has. -/
def indexed (resourceType : String) (index : Nat) (componentKey : String) : Val :=
  b.resource env (resourceType ++ "-" ++ toString index) (some componentKey)

/-- `get_config_or_default` with fields of the specification assigned. -/
def config (kind : String) (fields : List (String × Val)) : BuildM DocId :=
  configWith .aws env.toBuilderEnv b.docs kind fields

/-- `get_resource_group`. -/
def getResourceGroup : BuildM DocId :=
  b.config env "infrastructure/resource-group"
    [("name", b.resource env "rg" none), ("cluster_name", .str b.clusterName)]

/-- `get_vpc_config`. -/
def getVpcConfig : BuildM DocId := do
  let addressPool ← lift (attrPath b.clusterModel ["specification", "cloud", "vnet_address_pool"])
  b.config env "infrastructure/vpc"
    [("address_pool", addressPool), ("name", b.resource env "vpc" none),
      ("cluster_name", .str b.clusterName)]

/-- `get_default_security_group_config`. -/
def getDefaultSecurityGroupConfig (vpcConfig : DocId) : BuildM DocId := do
  let vpcName ← specAttr vpcConfig "name"
  b.config env "infrastructure/default-security-group" [("vpc_name", vpcName)]

/-- `get_efs_config`. -/
def getEfsConfig : BuildM DocId :=
  b.config env "infrastructure/efs-storage"
    [("token", .str ("aws-efs-token-" ++ b.clusterName)), ("name", b.resource env "efs" none)]

/-- `[s.specification.key for s in docs]`. -/
def specAttrs (key : String) : List DocId → BuildM (List Val)
  | [] => pure []
  | id :: rest => do
      let value ← specAttr id key
      let values ← specAttrs key rest
      pure (value :: values)

/-- The assignments of `get_autoscaling_group` to the copy. -/
def setGroupFields (componentKey : String) (componentValue : Val)
    (subnetsToCreate : List DocId) (index : Nat) (autoscalingGroup : DocId) : BuildM Unit := do
  let count ← lift (componentValue.getAttr "count")
  let subnetNames ← specAttrs "name" subnetsToCreate
  let availabilityZones ← specAttrs "availability_zone" subnetsToCreate
  setSpecAttrs autoscalingGroup
    [("cluster_name", .str b.clusterName), ("name", b.indexed env "asg" index componentKey),
      ("count", count), ("subnet_names", .list subnetNames),
      ("availability_zones", .list availabilityZones)]
  appendTags autoscalingGroup [.dict [("cluster_name", .str b.clusterName)],
    .dict [(componentKey, .str "")]]

/-- `get_autoscaling_group`: a copy of the machine definition. -/
def getAutoscalingGroup (componentKey : String) (componentValue : Val)
    (subnetsToCreate : List DocId) (index : Nat) : BuildM DocId := do
  let model ← getVirtualMachine .aws env.toBuilderEnv b.toBuilderDocs componentValue
  let copy ← readDoc model
  let autoscalingGroup ← newDoc copy
  b.setGroupFields env componentKey componentValue subnetsToCreate index autoscalingGroup
  pure autoscalingGroup

/-- The document of a group the loop found, where `None` has no attributes. -/
def groupDoc : Option DocId → BuildM DocId
  | some id => pure id
  | none => lift (.error (.attributeError "specification"))

/-- `[s.specification.name for s in security_groups_to_create]`. -/
def groupNames : List (Option DocId) → BuildM (List Val)
  | [] => pure []
  | group :: rest => do
      let id ← groupDoc group
      let name ← specAttr id "name"
      let names ← groupNames rest
      pure (name :: names)

/-- `get_launch_configuration`. -/
def getLaunchConfiguration (autoscalingGroup : DocId) (componentKey : String)
    (securityGroupsToCreate : List (Option DocId)) : BuildM DocId := do
  let launchConfiguration ← b.config env "infrastructure/launch-configuration"
    [("name", b.resource env "launch-config" (some componentKey))]
  let size ← specAttr autoscalingGroup "size"
  setSpecAttr launchConfiguration "size" size
  let names ← groupNames securityGroupsToCreate
  setSpecAttr launchConfiguration "security_groups" (.list names)
  let disks ← specAttr autoscalingGroup "disks"
  setSpecAttr launchConfiguration "disks" disks
  let ebsOptimized ← specAttr autoscalingGroup "ebs_optimized"
  setSpecAttr launchConfiguration "ebs_optimized" ebsOptimized
  let usePublicIps ← lift (attrPath b.clusterModel ["specification", "cloud", "use_public_ips"])
  setSpecAttr launchConfiguration "associate_public_ip" usePublicIps
  pure launchConfiguration

/-- `get_subnet`. -/
def getSubnet (subnetDefinition : Val) (componentKey : String) (vpcName : Val) (index : Nat) :
    BuildM DocId := do
  let addressPool ← lift (subnetDefinition.getItem "address_pool")
  let availabilityZone ← lift (subnetDefinition.getItem "availability_zone")
  b.config env "infrastructure/subnet"
    [("vpc_name", vpcName), ("cidr_block", addressPool),
      ("availability_zone", availabilityZone), ("name", b.indexed env "subnet" index componentKey),
      ("cluster_name", .str b.clusterName)]

/-- `get_security_group`. -/
def getSecurityGroup (subnet : DocId) (componentKey : String) (vpcName : Val) (index : Nat) :
    BuildM DocId := do
  let cidrBlock ← specAttr subnet "cidr_block"
  b.config env "infrastructure/security-group"
    [("name", b.indexed env "security-group" index componentKey), ("vpc_name", vpcName),
      ("cidr_block", cidrBlock), ("cluster_name", .str b.clusterName)]

/-- `get_route_table_association`. -/
def getRouteTableAssociation (routeTableName : Val) (componentKey : String) (subnetName : Val)
    (subnetIndex : Nat) : BuildM DocId :=
  b.config env "infrastructure/route-table-association"
    [("name", b.resource env "route-association"
        (some (componentKey ++ "-" ++ toString subnetIndex))),
      ("subnet_name", subnetName), ("route_table_name", routeTableName)]

/-- `get_internet_gateway`. -/
def getInternetGateway (vpcName : Val) : BuildM DocId :=
  b.config env "infrastructure/internet-gateway"
    [("name", b.resource env "internet-gateway" none), ("vpc_name", vpcName),
      ("cluster_name", .str b.clusterName)]

/-- `get_routing_table`. -/
def getRoutingTable (vpcName internetGatewayName : Val) : BuildM DocId := do
  let routeTable ← b.config env "infrastructure/route-table"
    [("name", b.resource env "route-table" none), ("vpc_name", vpcName)]
  let route ← specAttr routeTable "route"
  let route ← lift (route.setAttr "gateway_name" internetGatewayName)
  setSpecAttrs routeTable [("route", route), ("cluster_name", .str b.clusterName)]
  pure routeTable

/-- The key name Terraform recorded in the state of the previous run. -/
def recordedKeyName (tfstate : Val) : Res Val := do
  let resources ← tfstate.getItem "resources"
  let resources ← resources.asList
  let keyPair ← selectFirst resources fun x => do
    let type ← x.getItem "type"
    .ok (type.pyEq (.str "aws_key_pair"))
  let instances ← (keyPair.getD .null).getItem "instances"
  let instance0 ← instances.getIndex 0
  let attributes ← instance0.getItem "attributes"
  attributes.getItem "id"

/-- The key name: the recorded one, or a new one where there is no state. -/
def keyName (keys : KeySource) (adminName : Val) : Res Val :=
  match keys.tfstate with
  | some tfstate => recordedKeyName tfstate
  | none => do
      let name ← adminName.asStr
      .ok (.str (name ++ "-" ++ keys.uuid))

/-- `get_public_key`. -/
def getPublicKey (keys : KeySource) : BuildM DocId := do
  let adminName ← lift (attrPath b.clusterModel ["specification", "admin_user", "name"])
  let publicKeyConfig ← b.config env "infrastructure/public-key" [("name", adminName)]
  let keyName ← lift (keyName keys adminName)
  setSpecAttr publicKeyConfig "key_name" keyName
  let path ← lift (attrPath b.clusterModel ["specification", "admin_user", "path"])
  let path ← lift path.asStr
  let pubKeyPath := pathJoin path (path ++ ".pub")
  match env.readFile pubKeyPath with
  | some text => do
      setSpecAttr publicKeyConfig "public_key" (.str (env.rstrip text))
      pure publicKeyConfig
  | none => lift (.error (.exception ("SSH key path \"" ++ pubKeyPath ++
      "\" is not valid. Ansible run will fail.")))

/-- `item.kind == kind` and its `cidr_block` is the pool of the definition. -/
def isOfPool (kind : String) (subnetDefinition item : Val) : Res Bool := do
  let isKind ← kindIs kind item
  if isKind then do
    let cidrBlock ← attrPath item ["specification", "cidr_block"]
    let addressPool ← subnetDefinition.getItem "address_pool"
    .ok (cidrBlock.pyEq addressPool)
  else .ok false

/-- The variables of the loop over the subnets of a component. -/
structure SubnetLoop where
  infrastructure : List DocId
  subnetsToCreate : List DocId
  securityGroupsToCreate : List (Option DocId)
  subnetIndex : Nat

/-- The body of the loop over the subnets of a component. -/
def buildSubnet (routeTable : DocId) (vpcName : Val) (componentKey : String) (p : SubnetLoop)
    (subnetDefinition : Val) : BuildM SubnetLoop := do
  let subnet ← reads fun doc =>
    selectFirst p.infrastructure (isOfPool "infrastructure/subnet" subnetDefinition ∘ doc)
  let securityGroup ← reads fun doc =>
    selectFirst p.infrastructure (isOfPool "infrastructure/security-group" subnetDefinition ∘ doc)
  match subnet with
  | some subnet =>
      pure { p with
        subnetsToCreate := p.subnetsToCreate ++ [subnet]
        securityGroupsToCreate := p.securityGroupsToCreate ++ [securityGroup] }
  | none => do
      let subnet ← b.getSubnet env subnetDefinition componentKey vpcName p.subnetIndex
      let securityGroup ← b.getSecurityGroup env subnet componentKey vpcName p.subnetIndex
      let routeTableName ← specAttr routeTable "name"
      let subnetName ← specAttr subnet "name"
      let association ← b.getRouteTableAssociation env routeTableName componentKey subnetName
        p.subnetIndex
      pure {
        infrastructure := p.infrastructure ++ [subnet, securityGroup, association]
        subnetsToCreate := p.subnetsToCreate ++ [subnet]
        securityGroupsToCreate := p.securityGroupsToCreate ++ [some securityGroup]
        subnetIndex := p.subnetIndex + 1 }

/-- The loop over the subnets of a component. -/
def buildSubnets (routeTable : DocId) (vpcName : Val) (componentKey : String) (p : SubnetLoop) :
    List Val → BuildM SubnetLoop
  | [] => pure p
  | subnetDefinition :: rest => do
      let p ← b.buildSubnet env routeTable vpcName componentKey p subnetDefinition
      buildSubnets routeTable vpcName componentKey p rest

/-- `rule.key.lower()`. -/
def lowerAttr (rule : Val) (key : String) : Res String := do
  let value ← rule.getAttr key
  let value ← value.asStr
  .ok (env.lower value)

/-- The fields the comparison of two rules reads, in its order. -/
def ruleFields : List String :=
  ["direction", "protocol", "destination_port_range", "source_address_prefix",
    "destination_address_prefix"]

/-- The conjunction of the comparisons, up to the first that is false. -/
def sameRule (rule ruleToCheck : Val) : List String → Res Bool
  | [] => .ok true
  | key :: rest => do
      let own ← lowerAttr env rule key
      let other ← lowerAttr env ruleToCheck key
      if own = other then sameRule rule ruleToCheck rest else .ok false

/-- `rule_exists_in_list`. -/
def ruleExistsInList (ruleToCheck : Val) : List Val → Res Bool
  | [] => .ok false
  | rule :: rest => do
      let same ← sameRule env rule ruleToCheck ruleFields
      if same then .ok true else ruleExistsInList ruleToCheck rest

/-- The rules of a group after those of a component it lacks have been appended. -/
def addMissingRules (groupRules : List Val) : List Val → Res (List Val)
  | [] => .ok groupRules
  | rule :: rest => do
      let known ← ruleExistsInList env rule groupRules
      addMissingRules (if known then groupRules else groupRules ++ [rule]) rest

/-- The rules of an autoscaling group, `specification.security.rules`. -/
def rulesOf (autoscalingGroup : DocId) : BuildM (List Val) := do
  let security ← specAttr autoscalingGroup "security"
  let rules ← lift (security.getAttr "rules")
  lift rules.asList

/-- Append the missing rules to one group; a group without rules to add is not read. -/
def addRulesToGroup (rules : List Val) (group : Option DocId) : BuildM Unit :=
  if rules.isEmpty then pure ()
  else do
    let id ← groupDoc group
    let groupRules ← specAttr id "rules"
    let groupRules ← lift groupRules.asList
    let groupRules ← lift (addMissingRules env groupRules rules)
    setSpecAttr id "rules" (.list groupRules)

/-- The loop that adds the rules of a component to its groups. -/
def addRules (autoscalingGroup : DocId) : List (Option DocId) → BuildM Unit
  | [] => pure ()
  | group :: rest => do
      let rules ← rulesOf autoscalingGroup
      addRulesToGroup env rules group
      addRules autoscalingGroup rest

/-- `efs_add_mount_target_config`. -/
def efsAddMountTargetConfig (efsConfig subnet : DocId) : BuildM Unit := do
  let mountTargets ← specAttr efsConfig "mount_targets"
  let mountTargets ← lift mountTargets.asList
  let availabilityZone ← specAttr subnet "availability_zone"
  let target ← lift (selectFirst mountTargets fun item => do
    let zone ← item.getItem "availability_zone"
    .ok (zone.pyEq availabilityZone))
  match target with
  | some _ => pure ()
  | none => do
      let subnetName ← specAttr subnet "name"
      let name ← lift subnetName.asStr
      setSpecAttr efsConfig "mount_targets" (.list (mountTargets ++
        [.dict [("name", .str ("efs-" ++ name ++ "-mount")), ("subnet_name", subnetName),
          ("availability_zone", availabilityZone)]]))

/-- The loop over the subnets that adds their mount targets. -/
def efsAddMountTargets (efsConfig : DocId) : List DocId → BuildM Unit
  | [] => pure ()
  | subnet :: rest => do
      efsAddMountTargetConfig efsConfig subnet
      efsAddMountTargets efsConfig rest

/-- `has_efs_any_mounts`. -/
def hasEfsAnyMounts (efsConfig : DocId) : BuildM Bool := do
  let mountTargets ← specAttr efsConfig "mount_targets"
  let mountTargets ← lift mountTargets.asList
  pure !mountTargets.isEmpty

/-- `set_image_id_for_launch_configuration`. -/
def setImageIdForLaunchConfiguration (launchConfiguration autoscalingGroup : DocId) :
    BuildM Unit := do
  let osFullName ← specAttr autoscalingGroup "os_full_name"
  let imageId ← lift (env.getImageId osFullName)
  setSpecAttr launchConfiguration "image_id" imageId

/-- The documents created before the loop that its body refers to. -/
structure Shared where
  publicKeyConfig : DocId
  routeTable : DocId
  vpcName : Val
  efsConfig : DocId

/-- The part of the loop body from the launch configuration on. -/
def launch (shared : Shared) (componentKey : String) (p : SubnetLoop)
    (autoscalingGroup : DocId) : BuildM (List DocId) := do
  addRules env autoscalingGroup p.securityGroupsToCreate
  let launchConfiguration ← b.getLaunchConfiguration env autoscalingGroup componentKey
    p.securityGroupsToCreate
  let keyName ← specAttr shared.publicKeyConfig "key_name"
  setSpecAttr launchConfiguration "key_name" keyName
  setImageIdForLaunchConfiguration env launchConfiguration autoscalingGroup
  let name ← specAttr launchConfiguration "name"
  setSpecAttr autoscalingGroup "launch_configuration" name
  let mountEfs ← specAttr autoscalingGroup "mount_efs"
  if mountEfs.truthy then efsAddMountTargets shared.efsConfig p.subnetsToCreate else pure ()
  pure (p.infrastructure ++ [autoscalingGroup, launchConfiguration])

/-- The subnets of a component that is active. -/
def componentSubnets (shared : Shared) (infrastructure : List DocId)
    (component : String × Val) : BuildM (Option SubnetLoop) := do
  let count ← lift (component.2.getItem "count")
  let inactive ← lift count.ltOne
  if inactive then pure none
  else do
    let subnets ← lift (component.2.getAttr "subnets")
    let subnets ← lift subnets.asList
    let p ← b.buildSubnets env shared.routeTable shared.vpcName component.1
      ⟨infrastructure, [], [], 0⟩ subnets
    pure (some p)

/-- The body of the component loop. -/
def buildComponent (shared : Shared) (infrastructure : List DocId)
    (component : String × Val) : BuildM (List DocId) := do
  let p ← b.componentSubnets env shared infrastructure component
  match p with
  | none => pure infrastructure
  | some p => do
      let autoscalingGroup ← b.getAutoscalingGroup env component.1 component.2
        p.subnetsToCreate 0
      b.launch env shared component.1 p autoscalingGroup

/-- The loop over the components. -/
def buildComponents (shared : Shared) (infrastructure : List DocId) :
    Entries → BuildM (List DocId)
  | [] => pure infrastructure
  | component :: rest => do
      let infrastructure ← b.buildComponent env shared infrastructure component
      buildComponents shared infrastructure rest

/-- An autoscaling group that may use the file system. -/
def isAuthorizedToEfs (item : Val) : Res Bool := do
  let isVm ← kindIs "infrastructure/virtual-machine" item
  if isVm then do
    let authorized ← attrPath item ["specification", "authorized_to_efs"]
    .ok authorized.truthy
  else .ok false

/-- The subnet of a name. -/
def isSubnetNamed (name item : Val) : Res Bool := do
  let isSubnet ← kindIs "infrastructure/subnet" item
  if isSubnet then do
    let own ← attrPath item ["specification", "name"]
    .ok (own.pyEq name)
  else .ok false

/-- A rule for the port of the file system from a source. -/
def isNfsRuleFrom (source item : Val) : Res Bool := do
  let own ← item.getAttr "source_address_prefix"
  if own.pyEq source then do
    let port ← item.getAttr "destination_port_range"
    .ok (port.pyEq (.int 2049))
  else .ok false

/-- `'…' + name`. -/
def prefixed (text : String) (name : Val) : Res Val := do
  let name ← name.asStr
  .ok (.str (text ++ name))

/-- The specifications of the rule documents appended so far. They are the user's
one document again and again where the user has one, and shared until the end. -/
def specsOf (rules : List DocId) : BuildM (List Val) :=
  reads fun doc => rules.mapM fun id => (doc id).getAttr "specification"

/-- The body of the loop over the subnets of an authorized group. `own` are the
rules the group had before, `added` the documents whose specifications follow. -/
def addNfsRule (infrastructure : List DocId) (own : List Val) (added : List DocId)
    (subnetName : Val) : BuildM (List DocId) := do
  let subnet ← reads fun doc => selectSingle infrastructure (isSubnetNamed subnetName ∘ doc)
  let cidrBlock ← specAttr subnet "cidr_block"
  let specs ← specsOf added
  let ruleDefined ← lift (selectFirst (own ++ specs) (isNfsRuleFrom cidrBlock))
  match ruleDefined with
  | some _ => pure added
  | none => do
      let name ← specAttr subnet "name"
      let ruleName ← lift (prefixed "sg-rule-nfs-default-from-" name)
      let description ← lift (prefixed "NFS inbound for " name)
      let rule ← b.config env "infrastructure/security-group-rule"
        [("name", ruleName), ("description", description), ("direction", .str "ingress"),
          ("protocol", .str "tcp"), ("destination_port_range", .str "2049"),
          ("source_address_prefix", cidrBlock), ("destination_address_prefix", .str "*")]
      pure (added ++ [rule])

/-- The loop over the subnets of an authorized group. -/
def addNfsRules (infrastructure : List DocId) (own : List Val) (added : List DocId) :
    List Val → BuildM (List DocId)
  | [] => pure added
  | subnetName :: rest => do
      let added ← b.addNfsRule env infrastructure own added subnetName
      addNfsRules infrastructure own added rest

/-- The loop over the authorized groups. -/
def addNfsRulesOf (infrastructure : List DocId) (own : List Val) (added : List DocId) :
    List DocId → BuildM (List DocId)
  | [] => pure added
  | asg :: rest => do
      let subnetNames ← specAttr asg "subnet_names"
      let subnetNames ← lift subnetNames.asList
      let added ← b.addNfsRules env infrastructure own added subnetNames
      addNfsRulesOf infrastructure own added rest

/-- `add_security_rules_inbound_efs`. -/
def addSecurityRulesInboundEfs (infrastructure : List DocId) (securityGroup : DocId) :
    BuildM Unit := do
  let agsAllowedToEfs ← reads fun doc => selectAll infrastructure (isAuthorizedToEfs ∘ doc)
  let own ← specAttr securityGroup "rules"
  let own ← lift own.asList
  let added ← b.addNfsRulesOf env infrastructure own [] agsAllowedToEfs
  let specs ← specsOf added
  setSpecAttr securityGroup "rules" (.list (own ++ specs))

/-- The part of `run` after the loop. -/
def addEfs (efsConfig defaultSecurityGroup : DocId) (infrastructure : List DocId) :
    BuildM (List DocId) := do
  let mounts ← hasEfsAnyMounts efsConfig
  if mounts then do
    b.addSecurityRulesInboundEfs env (infrastructure ++ [efsConfig]) defaultSecurityGroup
    pure (infrastructure ++ [efsConfig])
  else pure infrastructure

/-- What `run` has before the component loop. -/
structure Start where
  shared : Shared
  defaultSecurityGroup : DocId
  infrastructure : List DocId
  components : Entries

/-- The part of `run` before the loop. -/
def start (keys : KeySource) : BuildM Start := do
  let publicKeyConfig ← b.getPublicKey env keys
  let vpcConfig ← b.getVpcConfig env
  let defaultSecurityGroup ← b.getDefaultSecurityGroupConfig env vpcConfig
  let vpcName ← specAttr vpcConfig "name"
  let resourceGroup ← b.getResourceGroup env
  let internetGateway ← b.getInternetGateway env vpcName
  let internetGatewayName ← specAttr internetGateway "name"
  let routeTable ← b.getRoutingTable env vpcName internetGatewayName
  let efsConfig ← b.getEfsConfig env
  let components ← lift (attrPath b.clusterModel ["specification", "components"])
  let components ← lift components.asDict
  pure {
    shared := ⟨publicKeyConfig, routeTable, vpcName, efsConfig⟩
    defaultSecurityGroup := defaultSecurityGroup
    infrastructure :=
      [publicKeyConfig, vpcConfig, defaultSecurityGroup, resourceGroup, internetGateway,
        routeTable]
    components := components }

/-- `run`. -/
def run (keys : KeySource) : BuildM (List DocId) := do
  let start ← b.start env keys
  let infrastructure ← b.buildComponents env start.shared start.infrastructure start.components
  b.addEfs env start.shared.efsConfig start.defaultSecurityGroup infrastructure

end InfrastructureBuilder

end Aws

end LambdaStack
