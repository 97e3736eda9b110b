/-
# What the Azure builder does to the documents

Every part of the builder keeps a relation of stores that new documents and
assignments keep, when selecting a machine definition, which assigns images, and
making a machine, which appends tags, keep it.
-/

import LambdaStack.Engine.Providers.Azure.InfrastructureBuilder
import LambdaStack.Engine.Providers.BuilderFrame

namespace LambdaStack

open Lib BuildM

namespace Azure

namespace InfrastructureBuilder

variable {env : BuilderEnv} {b : InfrastructureBuilder} {R : Store → Store → Prop} [Std.Refl R]
  [IsTrans Store R] (hR : BuilderFrame .azure R)

include hR

theorem preserves_config (kind : String) {fields : List (String × Val)}
    (hfields : ∀ field ∈ fields, field.1 ≠ "tags" ∧ field.1 ≠ "storage_image_reference") :
    Preserves R (configWith .azure env b.docs kind fields) :=
  hR.configWith .azure env b.docs kind hfields

/-! ## The documents of a component -/

theorem preserves_subnetFor (componentKey : String) (addressPool : Val) (vmConfig : DocId)
    (p : Progress) : Preserves R (b.subnetFor env componentKey addressPool vmConfig p) := by
  apply (preserves_reads _).bind
  intro found
  cases found with
  | some subnet => exact preserves_pure _
  | none =>
      apply (preserves_config hR _ (by simp)).bind
      intro subnet
      apply Preserves.ite
      · apply (preserves_reads _).bind
        intro security
        apply (preserves_lift _).bind
        intro rules
        apply (preserves_config hR _ (by simp)).bind
        intro nsg
        apply (preserves_reads _).bind
        intro subnetName
        apply (preserves_reads _).bind
        intro nsgName
        apply (preserves_config hR _ (by simp)).bind
        intro association
        exact preserves_pure _
      · exact preserves_pure _

theorem preserves_getAvailabilitySet (availabilitySetName : Val) :
    Preserves R (b.getAvailabilitySet env availabilitySetName) := by
  apply (preserves_reads _).bind
  intro found
  cases found with
  | none => exact preserves_pure none
  | some id =>
      apply (preserves_lift _).bind
      intro name
      apply (hR.assigns id _ (by decide) (by decide)).bind
      intro _
      exact preserves_pure _

theorem preserves_availabilitySetFor (componentKey : String) (componentValue : Val)
    (p : Progress) : Preserves R (b.availabilitySetFor env componentKey componentValue p) := by
  unfold availabilitySetFor
  cases componentValue.attr? "availability_set" with
  | none => exact preserves_pure _
  | some name =>
      apply (preserves_reads _).bind
      intro found
      cases found with
      | some id => exact preserves_pure _
      | none =>
          apply (preserves_getAvailabilitySet hR name).bind
          intro created
          cases created with
          | some id => exact preserves_pure _
          | none => exact preserves_pure _

theorem preserves_publicIpFor (componentKey : String) (vmConfig : DocId) (index : Nat)
    (p : Progress) : Preserves R (b.publicIpFor env componentKey vmConfig index p) := by
  apply Preserves.ite
  · apply Preserves.bind
    · apply (preserves_reads _).bind
      intro networkInterface
      apply (preserves_lift _).bind
      intro publicIp
      apply (preserves_lift _).bind
      intro allocationMethod
      apply (preserves_lift _).bind
      intro idleTimeout
      apply (preserves_lift _).bind
      intro sku
      exact preserves_config hR _ (by simp)
    · intro publicIp
      apply (preserves_reads _).bind
      intro name
      exact preserves_pure _
  · exact preserves_pure _

omit hR [IsTrans Store R] in
theorem preserves_nsgName (p : Progress) : Preserves R (b.nsgName p) := by
  apply Preserves.ite
  · cases p.nsg with
    | none => exact preserves_lift _
    | some nsg => exact preserves_reads _
  · exact preserves_pure _

theorem preserves_getNetworkInterface (componentKey : String) (vmConfig : DocId)
    (subnetName securityGroupName publicIpName : Val) (index : Nat) :
    Preserves R (b.getNetworkInterface env componentKey vmConfig subnetName securityGroupName
      publicIpName index) := by
  apply (preserves_reads _).bind
  intro networkInterface
  apply (preserves_lift _).bind
  intro accelerated
  exact preserves_config hR _ (by simp)

/-! ## Before and after the loop -/

/-- The documents `run` makes before the loop. -/
theorem preserves_getResourceGroup : Preserves R (b.getResourceGroup env) := by
  apply (preserves_lift _).bind
  intro region
  exact preserves_config hR _ (by simp)

theorem preserves_getVirtualNetwork : Preserves R (b.getVirtualNetwork env) := by
  apply (preserves_lift _).bind
  intro addressSpace
  exact preserves_config hR _ (by simp)

theorem preserves_setOsDistribution (cloudInitCustomData : DocId) (p : Progress) :
    Preserves R (setOsDistribution env cloudInitCustomData p) := by
  apply (preserves_reads _).bind
  intro firstVm
  cases firstVm with
  | none => exact preserves_pure ()
  | some vm =>
      apply (preserves_reads _).bind
      intro doc
      apply (preserves_lift _).bind
      intro distro
      exact hR.assigns cloudInitCustomData _ (by decide) (by decide)

/-! ## The components -/

variable
  (hmachine : ∀ componentValue, Preserves R
    (getVirtualMachine .azure env b.toBuilderDocs componentValue))
  (hvm : ∀ componentKey vmConfig availabilitySet networkInterfaceName index, Preserves R
    (b.getVm env componentKey vmConfig availabilitySet networkInterfaceName index))

include hvm

theorem preserves_buildMachine (componentKey : String) (vmConfig subnet : DocId)
    (availabilitySet : Option DocId) (p : Progress) (index : Nat) :
    Preserves R (b.buildMachine env componentKey vmConfig subnet availabilitySet p index) := by
  apply (preserves_publicIpFor hR componentKey vmConfig index p).bind
  intro ip
  apply (preserves_nsgName ip.2).bind
  intro nsgName
  apply (preserves_reads _).bind
  intro subnetName
  apply (preserves_getNetworkInterface hR componentKey vmConfig subnetName nsgName ip.1 index).bind
  intro networkInterface
  apply (preserves_reads _).bind
  intro networkInterfaceName
  apply (hvm componentKey vmConfig availabilitySet networkInterfaceName index).bind
  intro vm
  exact preserves_pure _

theorem preserves_buildMachines (componentKey : String) (vmConfig subnet : DocId)
    (availabilitySet : Option DocId) (p : Progress) (index remaining : Nat) :
    Preserves R (b.buildMachines env componentKey vmConfig subnet availabilitySet p index
      remaining) := by
  induction remaining generalizing p index with
  | zero => exact preserves_pure p
  | succ remaining ih =>
      apply (preserves_buildMachine hR hvm componentKey vmConfig subnet availabilitySet p
        index).bind
      intro p
      exact ih p (index + 1)

include hmachine

theorem preserves_buildComponent (cloudInitCustomData : DocId) (p : Progress)
    (componentKey : String) (componentValue : Val) :
    Preserves R (b.buildComponent env cloudInitCustomData p componentKey componentValue) := by
  apply (preserves_lift _).bind
  intro count
  apply (preserves_lift _).bind
  intro inactive
  apply Preserves.ite
  · exact preserves_pure p
  · apply (hmachine componentValue).bind
    intro vmConfig
    apply (preserves_reads _).bind
    intro enabled
    apply (hR.assigns vmConfig enabled (by decide) (by decide)).bind
    intro _
    apply (preserves_lift _).bind
    intro addressPool
    apply (preserves_subnetFor hR componentKey addressPool vmConfig p).bind
    intro subnet
    apply (preserves_availabilitySetFor hR componentKey componentValue subnet.2).bind
    intro availabilitySet
    apply (preserves_lift _).bind
    intro vmCount
    exact preserves_buildMachines hR hvm componentKey vmConfig subnet.1 availabilitySet.1
      availabilitySet.2 0 vmCount.toNat

theorem preserves_buildComponents (cloudInitCustomData : DocId) (p : Progress)
    (components : Entries) :
    Preserves R (b.buildComponents env cloudInitCustomData p components) := by
  induction components generalizing p with
  | nil => exact preserves_pure p
  | cons component rest ih =>
      apply (preserves_buildComponent hR hmachine hvm cloudInitCustomData p component.1
        component.2).bind
      intro p
      exact ih p

end InfrastructureBuilder

end Azure

end LambdaStack
