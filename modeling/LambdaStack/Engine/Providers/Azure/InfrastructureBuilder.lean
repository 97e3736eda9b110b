/-
# The Azure infrastructure builder

`InfrastructureBuilder` of the Azure provider: `run` walks the components of the
cluster model, creates a subnet, a network security group and their association
where a component brings a new address pool, and for each machine a network
interface and a virtual machine. The loop variable `nsg` keeps the group that
was created last. Warnings are logged only and left out.
-/

import LambdaStack.Engine.Providers.VirtualMachine
import LambdaStack.Helpers.NamingHelpers
import LambdaStack.Helpers.OsImages

namespace LambdaStack

open Lib BuildM

namespace Azure

/-- The attributes `__init__` sets. -/
structure InfrastructureBuilder extends BuilderDocs where
  clusterName : String
  clusterPrefix : String
  resourceGroupName : String
  region : Val
  useNetworkSecurityGroups : Val
  usePublicIps : Val

variable (env : BuilderEnv)

/-- `__init__`. -/
def init (docs : List DocId) (manifestDocs : List Val) : BuildM InfrastructureBuilder := do
  let clusterModel ← reads fun doc =>
    (selectSingle docs (kindIs "lambdastack-cluster" ∘ doc)).map doc
  let name ← lift (attrPath clusterModel ["specification", "name"])
  let name ← lift name.asStr
  let pre ← lift (attrPath clusterModel ["specification", "prefix"])
  let pre ← lift pre.asStr
  let region ← lift (attrPath clusterModel ["specification", "cloud", "region"])
  let useNetworkSecurityGroups ← lift (attrPath clusterModel
    ["specification", "cloud", "network", "use_network_security_groups"])
  let usePublicIps ← lift (attrPath clusterModel ["specification", "cloud", "use_public_ips"])
  pure {
    clusterModel := clusterModel
    docs := docs
    manifestDocs := manifestDocs
    clusterName := env.lower name
    clusterPrefix := env.lower pre
    resourceGroupName := resourceName env.lower (env.lower pre) (env.lower name) "rg" none
    region := region
    useNetworkSecurityGroups := useNetworkSecurityGroups
    usePublicIps := usePublicIps }

namespace InfrastructureBuilder

variable (b : InfrastructureBuilder)

/-- `resource_name(self.cluster_prefix, self.cluster_name, …)`. -/
def resource (resourceType : String) (component : Option String) : Val :=
  .str (resourceName env.lower b.clusterPrefix b.clusterName resourceType component)

/-- The name of the `index`-th resource of a type a component has. -/
def indexed (resourceType : String) (index : Nat) (componentKey : String) : Val :=
  b.resource env (resourceType ++ "-" ++ toString index) (some componentKey)

/-- `get_resource_group`. -/
def getResourceGroup : BuildM DocId := do
  let region ← lift (attrPath b.clusterModel ["specification", "cloud", "region"])
  configWith .azure env b.docs "infrastructure/resource-group"
    [("name", .str b.resourceGroupName), ("region", region)]

/-- `get_virtual_network`. -/
def getVirtualNetwork : BuildM DocId := do
  let addressSpace ← lift (attrPath b.clusterModel
    ["specification", "cloud", "vnet_address_pool"])
  configWith .azure env b.docs "infrastructure/vnet"
    [("name", b.resource env "vnet" none), ("address_space", addressSpace)]

/-- `get_network_security_group`. -/
def getNetworkSecurityGroup (componentKey : String) (securityRules : Val) (index : Nat) :
    BuildM DocId :=
  configWith .azure env b.docs "infrastructure/network-security-group"
    [("name", b.indexed env "nsg" index componentKey), ("rules", securityRules)]

/-- `get_subnet`. -/
def getSubnet (addressPool : Val) (componentKey : String) (index : Nat) : BuildM DocId :=
  configWith .azure env b.docs "infrastructure/subnet"
    [("name", b.indexed env "subnet" index componentKey), ("address_prefix", addressPool),
      ("cluster_name", .str b.clusterName)]

/-- `get_availability_set`. -/
def getAvailabilitySet (availabilitySetName : Val) : BuildM (Option DocId) := do
  let found ← reads fun doc => selectFirst b.docs
    (kindAndNameAre "infrastructure/availability-set" availabilitySetName ∘ doc)
  match found with
  | none => pure none
  | some id => do
      let name ← lift availabilitySetName.asStr
      setSpecAttr id "name" (b.resource env (name ++ "-" ++ "aset") none)
      pure (some id)

/-- `get_subnet_network_security_group_association`. -/
def getSubnetNetworkSecurityGroupAssociation (componentKey : String)
    (subnetName securityGroupName : Val) (index : Nat) : BuildM DocId :=
  configWith .azure env b.docs "infrastructure/subnet-network-security-group-association"
    [("name", b.indexed env "ssga" index componentKey), ("subnet_name", subnetName),
      ("security_group_name", securityGroupName)]

/-- `get_network_interface`. -/
def getNetworkInterface (componentKey : String) (vmConfig : DocId)
    (subnetName securityGroupName publicIpName : Val) (index : Nat) : BuildM DocId := do
  let networkInterface ← specAttr vmConfig "network_interface"
  let accelerated ← lift (networkInterface.getAttr "enable_accelerated_networking")
  configWith .azure env b.docs "infrastructure/network-interface"
    [("name", b.indexed env "nic" index componentKey),
      ("use_network_security_groups", b.useNetworkSecurityGroups),
      ("security_group_name", securityGroupName),
      ("ip_configuration_name", b.indexed env "ipconf" index componentKey),
      ("subnet_name", subnetName), ("use_public_ip", b.usePublicIps),
      ("public_ip_name", publicIpName), ("enable_accelerated_networking", accelerated)]

/-- `get_public_ip`. -/
def getPublicIp (componentKey : String) (vmConfig : DocId) (index : Nat) : BuildM DocId := do
  let networkInterface ← specAttr vmConfig "network_interface"
  let publicIp ← lift (networkInterface.getAttr "public_ip")
  let allocationMethod ← lift (publicIp.getAttr "allocation_method")
  let idleTimeout ← lift (publicIp.getAttr "idle_timeout_in_minutes")
  let sku ← lift (publicIp.getAttr "sku")
  configWith .azure env b.docs "infrastructure/public-ip"
    [("name", b.indexed env "pubip" index componentKey),
      ("allocation_method", allocationMethod), ("idle_timeout_in_minutes", idleTimeout),
      ("sku", sku)]

/-- `get_storage_share_config`. -/
def getStorageShareConfig : BuildM DocId :=
  configWith .azure env b.docs "infrastructure/storage-share"
    [("name", b.resource env "k8s-ss" none),
      ("storage_account_name",
        .str (storageAccountName env.lower b.clusterPrefix b.clusterName "k8s"))]

/-- The path of the public key, which has to be a file. -/
def publicKeyPath : Res String := do
  let path ← attrPath b.clusterModel ["specification", "admin_user", "path"]
  let path ← path.asStr
  let pubKeyPath := pathJoin path (path ++ ".pub")
  if (env.readFile pubKeyPath).isSome then .ok pubKeyPath
  else .error (.exception ("SSH key path \"" ++ pubKeyPath ++
    "\" is not valid. Ansible run will fail."))

/-- `get_vm`: a copy of the machine definition. -/
def getVm (componentKey : String) (vmConfig : DocId) (availabilitySet : Option DocId)
    (networkInterfaceName : Val) (index : Nat) : BuildM DocId := do
  let copy ← readDoc vmConfig
  let vm ← newDoc copy
  let adminUsername ← lift (attrPath b.clusterModel ["specification", "admin_user", "name"])
  setSpecAttrs vm [("name", b.indexed env "vm" index componentKey),
    ("admin_username", adminUsername), ("network_interface_name", networkInterfaceName)]
  appendTags vm [.dict [("cluster", .str (clusterTag env.lower b.clusterPrefix b.clusterName))],
    .dict [(componentKey, .str "")]]
  let osType ← specAttr vmConfig "os_type"
  if osType.pyEq (.str "windows") then
    lift (.error (.notImplementedError "Windows VMs not supported jet."))
  else do
    let pubKeyPath ← lift (b.publicKeyPath env)
    setSpecAttr vm "public_key" (.str pubKeyPath)
    match availabilitySet with
    | none => pure vm
    | some id => do
        let name ← specAttr id "name"
        setSpecAttr vm "availability_set_name" name
        pure vm

/-- `get_cloud_init_custom_data`. -/
def getCloudInitCustomData : BuildM DocId :=
  configWith .azure env b.docs "infrastructure/cloud-init-custom-data"
    [("file_name", .str "cloud-config.yml")]

end InfrastructureBuilder

/-- A document of the infrastructure. `component` is the key of the component
whose iteration appended it; nothing in the builder reads it. -/
structure Emitted where
  doc : DocId
  component : Option String

/-- The variables of the component loop. `nsg` is the loop variable of that
name, unbound before the first group is created. -/
structure Progress where
  infrastructure : List Emitted
  nsg : Option DocId

namespace Progress

/-- `infrastructure.append(doc)` in the iteration of a component. -/
def append (p : Progress) (doc : DocId) (component : Option String) : Progress :=
  { p with infrastructure := p.infrastructure ++ [⟨doc, component⟩] }

/-- `select_first(infrastructure, …)`. -/
def selectDoc (p : Progress) (query : Val → Res Bool) : BuildM (Option DocId) :=
  reads fun doc => selectFirst (p.infrastructure.map Emitted.doc) (query ∘ doc)

end Progress

/-- A subnet whose `address_prefix` is the address pool. -/
def isSubnetOf (addressPool item : Val) : Res Bool := do
  let isSubnet ← kindIs "infrastructure/subnet" item
  if isSubnet then do
    let addressPrefix ← attrPath item ["specification", "address_prefix"]
    .ok (addressPrefix.pyEq addressPool)
  else .ok false

namespace InfrastructureBuilder

variable (b : InfrastructureBuilder)

/-- The subnet of a component: the one of its address pool, created with its
security group when there is none yet. -/
def subnetFor (componentKey : String) (addressPool : Val) (vmConfig : DocId) (p : Progress) :
    BuildM (DocId × Progress) := do
  let found ← p.selectDoc (isSubnetOf addressPool)
  match found with
  | some subnet => pure (subnet, p)
  | none => do
      let subnet ← b.getSubnet env addressPool componentKey 0
      let p := p.append subnet (some componentKey)
      if b.useNetworkSecurityGroups.truthy then do
        let security ← specAttr vmConfig "security"
        let rules ← lift (security.getAttr "rules")
        let nsg ← b.getNetworkSecurityGroup env componentKey rules 0
        let p := { p.append nsg (some componentKey) with nsg := some nsg }
        let subnetName ← specAttr subnet "name"
        let nsgName ← specAttr nsg "name"
        let association ← b.getSubnetNetworkSecurityGroupAssociation env componentKey
          subnetName nsgName 0
        pure (subnet, p.append association (some componentKey))
      else pure (subnet, p)

/-- The availability set of a component that names one. -/
def availabilitySetFor (componentKey : String) (componentValue : Val) (p : Progress) :
    BuildM (Option DocId × Progress) :=
  match componentValue.attr? "availability_set" with
  | none => pure (none, p)
  | some name => do
      let found ← p.selectDoc (kindAndNameAre "infrastructure/availability-set" name)
      match found with
      | some id => pure (some id, p)
      | none => do
          let created ← b.getAvailabilitySet env name
          match created with
          | some id => pure (some id, p.append id (some componentKey))
          | none => pure (none, p)

/-- The public IP of a machine and its name, empty when none are used. -/
def publicIpFor (componentKey : String) (vmConfig : DocId) (index : Nat) (p : Progress) :
    BuildM (Val × Progress) :=
  if b.usePublicIps.truthy then do
    let publicIp ← b.getPublicIp env componentKey vmConfig index
    let name ← specAttr publicIp "name"
    pure (name, p.append publicIp (some componentKey))
  else pure (.str "", p)

/-- `nsg.specification.name`, for the loop variable. -/
def nsgName (p : Progress) : BuildM Val :=
  if b.useNetworkSecurityGroups.truthy then
    match p.nsg with
    | none => lift (.error (.unboundLocalError "nsg"))
    | some nsg => specAttr nsg "name"
  else pure (.str "")

/-- The body of the loop over the machines of a component. -/
def buildMachine (componentKey : String) (vmConfig subnet : DocId)
    (availabilitySet : Option DocId) (p : Progress) (index : Nat) : BuildM Progress := do
  let (publicIpName, p) ← b.publicIpFor env componentKey vmConfig index p
  let nsgName ← b.nsgName p
  let subnetName ← specAttr subnet "name"
  let networkInterface ← b.getNetworkInterface env componentKey vmConfig subnetName nsgName
    publicIpName index
  let p := p.append networkInterface (some componentKey)
  let networkInterfaceName ← specAttr networkInterface "name"
  let vm ← b.getVm env componentKey vmConfig availabilitySet networkInterfaceName index
  pure (p.append vm (some componentKey))

/-- `for index in range(vm_count)`, from `index` on. -/
def buildMachines (componentKey : String) (vmConfig subnet : DocId)
    (availabilitySet : Option DocId) (p : Progress) (index : Nat) : Nat → BuildM Progress
  | 0 => pure p
  | remaining + 1 => do
      let p ← b.buildMachine env componentKey vmConfig subnet availabilitySet p index
      buildMachines componentKey vmConfig subnet availabilitySet p (index + 1) remaining

/-- The address pool of a component's first subnet. -/
def addressPoolOf (componentValue : Val) : Res Val := do
  let subnets ← componentValue.getAttr "subnets"
  let subnet ← subnets.getIndex 0
  subnet.getItem "address_pool"

/-- The body of the component loop. -/
def buildComponent (cloudInitCustomData : DocId) (p : Progress) (componentKey : String)
    (componentValue : Val) : BuildM Progress := do
  let vmCount ← lift (componentValue.getItem "count")
  let inactive ← lift vmCount.ltOne
  if inactive then pure p
  else do
    let vmConfig ← getVirtualMachine .azure env b.toBuilderDocs componentValue
    let enabled ← specAttr cloudInitCustomData "enabled"
    setSpecAttr vmConfig "use_cloud_init_custom_data" enabled
    let addressPool ← lift (addressPoolOf componentValue)
    let (subnet, p) ← b.subnetFor env componentKey addressPool vmConfig p
    let (availabilitySet, p) ← b.availabilitySetFor env componentKey componentValue p
    let vmCount ← lift vmCount.asInt
    b.buildMachines env componentKey vmConfig subnet availabilitySet p 0 vmCount.toNat

/-- The loop over the components. -/
def buildComponents (cloudInitCustomData : DocId) (p : Progress) : Entries → BuildM Progress
  | [] => pure p
  | (componentKey, componentValue) :: rest => do
      let p ← b.buildComponent env cloudInitCustomData p componentKey componentValue
      buildComponents cloudInitCustomData p rest

/-- The part of `run` after the loop: the distribution of the first machine. -/
def setOsDistribution (cloudInitCustomData : DocId) (p : Progress) : BuildM Unit := do
  let firstVm ← p.selectDoc (kindIs "infrastructure/virtual-machine")
  match firstVm with
  | none => pure ()
  | some vm => do
      let doc ← readDoc vm
      let distro ← lift (getOsDistroNormalized env.lower doc)
      setSpecAttr cloudInitCustomData "os_distribution" distro

/-- `run`. -/
def run : BuildM (List Emitted) := do
  let resourceGroup ← b.getResourceGroup env
  let vnet ← b.getVirtualNetwork env
  let sharedStorage ← b.getStorageShareConfig env
  let cloudInitCustomData ← b.getCloudInitCustomData env
  let components ← lift (attrPath b.clusterModel ["specification", "components"])
  let components ← lift components.asDict
  let p ← b.buildComponents env cloudInitCustomData
    ⟨[⟨resourceGroup, none⟩, ⟨vnet, none⟩, ⟨sharedStorage, none⟩], none⟩ components
  setOsDistribution env cloudInitCustomData p
  pure (p.append cloudInitCustomData none).infrastructure

end InfrastructureBuilder

end Azure

end LambdaStack
