/-
# The tags of the virtual machines

Each virtual machine of a component is a copy of the component's machine definition
with the tags of the cluster and the component appended. The definition itself may
be a document of the user that other components share; it keeps its tags.
-/

import LambdaStack.Engine.Providers.Azure.BuilderFrame
import LambdaStack.Engine.Providers.MachineTags

namespace LambdaStack

open Lib BuildM

namespace Azure

/-- The virtual machines of a component. -/
def machineCount (componentValue : Val) : Nat :=
  (((componentValue.getItem "count").bind Val.asInt).toOption.getD 0).toNat

theorem machineCount_idle {componentValue count : Val}
    (hcount : componentValue.getItem "count" = .ok count) (hidle : count.ltOne = .ok true) :
    machineCount componentValue = 0 := by
  rw [machineCount, hcount]
  cases hint : count.asInt with
  | error e => simp [Except.bind, hint, Except.toOption]
  | ok n =>
      have hlt : n < 1 := of_decide_eq_true (Val.ltOne_of_asInt hidle hint).symm
      simp only [Except.bind, hint, Except.toOption, Option.getD_some]
      omega

theorem machineCount_active {componentValue count : Val} {n : Int}
    (hcount : componentValue.getItem "count" = .ok count) (hactive : count.ltOne = .ok false)
    (hint : count.asInt = .ok n) : machineCount componentValue = n.toNat ∧ n.toNat ≠ 0 := by
  have hge : ¬ n < 1 := of_decide_eq_false (Val.ltOne_of_asInt hactive hint).symm
  refine ⟨by simp [machineCount, hcount, Except.bind, hint, Except.toOption], by omega⟩

/-- The documents of the loop's infrastructure. -/
def Progress.ids (p : Progress) : List DocId := p.infrastructure.map Emitted.doc

@[simp]
theorem Progress.ids_append (p : Progress) (doc : DocId) (component : Option String) :
    (p.append doc component).ids = p.ids ++ [doc] := by
  simp [Progress.ids, Progress.append]

namespace InfrastructureBuilder

/-- The tag of the cluster. -/
def tagOfCluster (env : BuilderEnv) (b : InfrastructureBuilder) : Val :=
  .dict [("cluster", .str (clusterTag env.lower b.clusterPrefix b.clusterName))]

variable {env : BuilderEnv} {b : InfrastructureBuilder} {s s' : Store}

/-! ## The documents that are no machines -/

theorem returnsNoMachine_config {kind : String} {fields : List (String × Val)}
    (hkind : ConfigKind kind)
    (hfields : ∀ field ∈ fields, field.1 ≠ "tags" ∧ field.1 ≠ "storage_image_reference") :
    ReturnsNoMachine b.docs (configWith .azure env b.docs kind fields) :=
  returnsNoMachine_configWith hkind hfields

theorem returnsNoMachine_getResourceGroup :
    ReturnsNoMachine b.docs (b.getResourceGroup env) := by
  apply ReturnsNoMachine.after (preserves_lift _)
  intro region
  exact returnsNoMachine_config (by decide) (by simp)

theorem returnsNoMachine_getVirtualNetwork :
    ReturnsNoMachine b.docs (b.getVirtualNetwork env) := by
  apply ReturnsNoMachine.after (preserves_lift _)
  intro addressSpace
  exact returnsNoMachine_config (by decide) (by simp)

theorem returnsNoMachine_getNetworkInterface (componentKey : String) (vmConfig : DocId)
    (subnetName securityGroupName publicIpName : Val) (index : Nat) :
    ReturnsNoMachine b.docs (b.getNetworkInterface env componentKey vmConfig subnetName
      securityGroupName publicIpName index) := by
  apply ReturnsNoMachine.after (preserves_reads _)
  intro networkInterface
  apply ReturnsNoMachine.after (preserves_lift _)
  intro accelerated
  exact returnsNoMachine_config (by decide) (by simp)

theorem returnsNoMachine_getPublicIp (componentKey : String) (vmConfig : DocId) (index : Nat) :
    ReturnsNoMachine b.docs (b.getPublicIp env componentKey vmConfig index) := by
  apply ReturnsNoMachine.after (preserves_reads _)
  intro networkInterface
  apply ReturnsNoMachine.after (preserves_lift _)
  intro publicIp
  apply ReturnsNoMachine.after (preserves_lift _)
  intro allocationMethod
  apply ReturnsNoMachine.after (preserves_lift _)
  intro idleTimeout
  apply ReturnsNoMachine.after (preserves_lift _)
  intro sku
  exact returnsNoMachine_config (by decide) (by simp)

theorem subnetFor_tags {componentKey : String} {addressPool : Val} {vmConfig subnet : DocId}
    {p p' : Progress} {shown : List (Option Val)} (hdocs : ∀ id ∈ b.docs, id < s.next)
    (hp : ShowsTags s p.ids shown)
    (h : b.subnetFor env componentKey addressPool vmConfig p s = .ok ((subnet, p'), s')) :
    TagsKept s s' ∧ ShowsTags s' p'.ids shown := by
  have hkept := (preserves_subnetFor (builderFrame_tagsKept .azure) componentKey addressPool
    vmConfig p).rel h
  refine ⟨hkept, ?_⟩
  simp only [subnetFor, BuildM.bind_eq_ok] at h
  obtain ⟨found, _, hread, h⟩ := h
  obtain ⟨-, rfl⟩ := reads_eq_ok.mp hread
  cases found with
  | some found =>
      obtain ⟨heq, rfl⟩ := BuildM.pure_eq_ok.mp h
      cases heq
      exact hp
  | none =>
      obtain ⟨_, s₁, hsubnet, h⟩ := BuildM.bind_eq_ok.mp h
      obtain ⟨hkept₁, hsubnet⟩ :=
        (returnsNoMachine_config (by decide) (by simp)).run hdocs hsubnet
      have hdocs₁ : ∀ id ∈ b.docs, id < s₁.next :=
        fun id hid => (hdocs id hid).trans_le hkept₁.next_le
      split at h
      · simp only [BuildM.bind_eq_ok, lift_eq_ok] at h
        obtain ⟨security, _, hread, rules, _, ⟨-, rfl⟩, nsg, s₂, hnsg, subnetName, _, hread',
          nsgName, _, hread'', association, s₃, hassociation, h⟩ := h
        obtain ⟨-, rfl⟩ := specAttr_eq_ok.mp hread
        obtain ⟨-, rfl⟩ := specAttr_eq_ok.mp hread'
        obtain ⟨-, rfl⟩ := specAttr_eq_ok.mp hread''
        obtain ⟨heq, rfl⟩ := BuildM.pure_eq_ok.mp h
        cases heq
        obtain ⟨hkept₂, hnsg⟩ := (returnsNoMachine_config (by decide) (by simp)).run hdocs₁ hnsg
        obtain ⟨hkept₃, hassociation⟩ := (returnsNoMachine_config (by decide) (by simp)).run
          (fun id hid => (hdocs₁ id hid).trans_le hkept₂.next_le) hassociation
        have hids : ({ (p.append subnet (some componentKey)).append nsg (some componentKey) with
            nsg := some nsg } : Progress).ids = p.ids ++ [subnet, nsg] := by
          simp [Progress.ids, Progress.append]
        rw [Progress.ids_append, hids]
        have hnew : ∀ id ∈ [subnet, nsg, association], NoMachine s₃ id := by
          intro id hid
          simp only [List.mem_cons, List.not_mem_nil, or_false] at hid
          rcases hid with rfl | rfl | rfl
          · exact (hsubnet.keeps hkept₂).keeps hkept₃
          · exact hnsg.keeps hkept₃
          · exact hassociation
        simpa using (hp.keeps hkept).append_noMachine hnew
      · obtain ⟨heq, rfl⟩ := BuildM.pure_eq_ok.mp h
        cases heq
        rw [Progress.ids_append]
        exact (hp.keeps hkept).append_noMachine (by simpa using hsubnet)

/-- The availability set of a name is the user's. -/
theorem returnsNoMachine_getAvailabilitySet {availabilitySetName : Val} {id : DocId}
    (hdocs : ∀ id ∈ b.docs, id < s.next)
    (h : b.getAvailabilitySet env availabilitySetName s = .ok (some id, s')) :
    NoMachine s' id := by
  obtain ⟨found, _, hread, h⟩ := BuildM.bind_eq_ok.mp h
  obtain ⟨hfound, rfl⟩ := reads_eq_ok.mp hread
  cases found with
  | none =>
      obtain ⟨heq, -⟩ := BuildM.pure_eq_ok.mp h
      cases heq
  | some found =>
      simp only [BuildM.bind_eq_ok, lift_eq_ok] at h
      obtain ⟨name, _, ⟨-, rfl⟩, _, s₁, hset, h⟩ := h
      obtain ⟨heq, rfl⟩ := BuildM.pure_eq_ok.mp h
      cases heq
      have hfound := (selectFirst_eq_ok hfound).symm
      have hholds := List.find?_some hfound
      have hkind : (s.doc id).IsKind "infrastructure/availability-set" :=
        (kindAndNameAre_eq_ok_true.mp (holds?_eq_true.mp hholds)).1
      refine NoMachine.keeps ⟨hdocs id (List.mem_of_find?_eq_some hfound), ?_⟩
        ((preserves_tags_setSpecAttr id _ (by decide)).rel hset)
      intro hvm
      simpa [vmKind] using hkind.symm.trans hvm

theorem availabilitySetFor_tags {componentKey : String} {componentValue : Val}
    {availabilitySet : Option DocId} {p p' : Progress} {shown : List (Option Val)}
    (hdocs : ∀ id ∈ b.docs, id < s.next) (hp : ShowsTags s p.ids shown)
    (h : b.availabilitySetFor env componentKey componentValue p s =
      .ok ((availabilitySet, p'), s')) :
    TagsKept s s' ∧ ShowsTags s' p'.ids shown := by
  have hkept := (preserves_availabilitySetFor (builderFrame_tagsKept .azure) componentKey
    componentValue p).rel h
  refine ⟨hkept, ?_⟩
  unfold availabilitySetFor at h
  cases hname : componentValue.attr? "availability_set" with
  | none =>
      rw [hname] at h
      obtain ⟨heq, rfl⟩ := BuildM.pure_eq_ok.mp h
      cases heq
      exact hp
  | some name =>
      rw [hname] at h
      obtain ⟨found, _, hread, h⟩ := BuildM.bind_eq_ok.mp h
      obtain ⟨-, rfl⟩ := reads_eq_ok.mp hread
      cases found with
      | some id =>
          obtain ⟨heq, rfl⟩ := BuildM.pure_eq_ok.mp h
          cases heq
          exact hp
      | none =>
          obtain ⟨created, s₁, hcreated, h⟩ := BuildM.bind_eq_ok.mp h
          cases created with
          | none =>
              obtain ⟨heq, rfl⟩ := BuildM.pure_eq_ok.mp h
              cases heq
              exact hp.keeps hkept
          | some id =>
              obtain ⟨heq, rfl⟩ := BuildM.pure_eq_ok.mp h
              cases heq
              have hset := returnsNoMachine_getAvailabilitySet hdocs hcreated
              rw [Progress.ids_append]
              exact (hp.keeps hkept).append_noMachine (by simpa using hset)

theorem publicIpFor_tags {componentKey : String} {vmConfig : DocId} {index : Nat} {name : Val}
    {p p' : Progress} {shown : List (Option Val)} (hdocs : ∀ id ∈ b.docs, id < s.next)
    (hp : ShowsTags s p.ids shown)
    (h : b.publicIpFor env componentKey vmConfig index p s = .ok ((name, p'), s')) :
    TagsKept s s' ∧ ShowsTags s' p'.ids shown := by
  have hkept := (preserves_publicIpFor (builderFrame_tagsKept .azure) componentKey vmConfig index
    p).rel h
  refine ⟨hkept, ?_⟩
  unfold publicIpFor at h
  split at h
  · simp only [BuildM.bind_eq_ok] at h
    obtain ⟨publicIp, s₁, hip, ownName, _, hread, h⟩ := h
    obtain ⟨-, rfl⟩ := specAttr_eq_ok.mp hread
    obtain ⟨heq, rfl⟩ := BuildM.pure_eq_ok.mp h
    cases heq
    obtain ⟨-, hip⟩ := (returnsNoMachine_getPublicIp componentKey vmConfig index).run hdocs hip
    rw [Progress.ids_append]
    exact (hp.keeps hkept).append_noMachine (by simpa using hip)
  · obtain ⟨heq, rfl⟩ := BuildM.pure_eq_ok.mp h
    cases heq
    exact hp

/-! ## A virtual machine -/

/-- A virtual machine is a copy of its definition with the component's tags. -/
theorem getVm_tags {componentKey : String} {componentValue networkInterfaceName : Val}
    {vmConfig vm : DocId} {availabilitySet : Option DocId} {index : Nat} {docs : List Val}
    (hmodel : HasMachineTags env b.clusterModel docs componentValue (s.doc vmConfig))
    (h : b.getVm env componentKey vmConfig availabilitySet networkInterfaceName index s =
      .ok (vm, s')) :
    TagsKept s s' ∧ vm < s'.next ∧ (s'.doc vm).IsKind vmKind ∧
      (s'.doc vm).specAttr? "tags" = componentTags env b.clusterModel docs
        (b.tagOfCluster env) (componentKey, componentValue) := by
  simp only [getVm, BuildM.bind_eq_ok, lift_eq_ok] at h
  obtain ⟨copy, _, hread, id, _, hnew, username, _, ⟨-, rfl⟩, _, s₂, hset, _, s₃, happend, osType,
    _, hread', h⟩ := h
  obtain ⟨hcopy, rfl⟩ := reads_eq_ok.mp hread
  cases hcopy
  obtain ⟨rfl, rfl⟩ := newDoc_eq_ok.mp hnew
  obtain ⟨-, rfl⟩ := specAttr_eq_ok.mp hread'
  have hassigned := ((builderFrame_tagsKept .azure).setSpecAttrs _
    (by simp [CloudProvider.imageField])).rel hset
  obtain ⟨hkept, hlt, hkind, htags⟩ :=
    copy_tags (componentKey, componentValue) hmodel hassigned happend
  have hend : TagsKept s₃ s' ∧ vm = s.next := by
    split at h
    · simp [lift] at h
      cases h
    · simp only [BuildM.bind_eq_ok, lift_eq_ok] at h
      obtain ⟨path, _, ⟨-, rfl⟩, _, s₄, hkey, h⟩ := h
      have hkept₄ := (preserves_tags_setSpecAttr s.next _ (by decide)).rel hkey
      cases availabilitySet with
      | none =>
          obtain ⟨rfl, rfl⟩ := BuildM.pure_eq_ok.mp h
          exact ⟨hkept₄, rfl⟩
      | some id =>
          simp only [BuildM.bind_eq_ok] at h
          obtain ⟨name, _, hread, _, s₅, hset, h⟩ := h
          obtain ⟨-, rfl⟩ := specAttr_eq_ok.mp hread
          obtain ⟨rfl, rfl⟩ := BuildM.pure_eq_ok.mp h
          exact ⟨Trans.trans hkept₄
            ((preserves_tags_setSpecAttr s.next name (by decide)).rel hset), rfl⟩
  obtain ⟨hkept', rfl⟩ := hend
  have hdoc := hkept'.doc s.next hlt
  refine ⟨Trans.trans hkept hkept', hlt.trans_le hkept'.next_le, ?_, hdoc.tags.trans htags⟩
  rw [Val.IsKind, hdoc.kind]
  exact hkind

/-! ## The loops -/

section

variable {componentKey : String} {componentValue : Val} {docs : List Val} {p p' : Progress}
  {shown : List (Option Val)}

theorem buildMachine_tags {vmConfig subnet : DocId} {availabilitySet : Option DocId} {index : Nat}
    (hdocs : ∀ id ∈ b.docs, id < s.next) (hlt : vmConfig < s.next)
    (hmodel : HasMachineTags env b.clusterModel docs componentValue (s.doc vmConfig))
    (hp : ShowsTags s p.ids shown)
    (h : b.buildMachine env componentKey vmConfig subnet availabilitySet p index s =
      .ok (p', s')) :
    TagsKept s s' ∧ ShowsTags s' p'.ids (shown ++ [componentTags env b.clusterModel docs
      (b.tagOfCluster env) (componentKey, componentValue)]) := by
  simp only [buildMachine, BuildM.bind_eq_ok] at h
  obtain ⟨⟨publicIpName, p₁⟩, s₁, hip, nsgName, s₂, hnsg, subnetName, _, hread, interface, s₃,
    hinterface, interfaceName, _, hread', vm, s₄, hvm, h⟩ := h
  obtain ⟨-, rfl⟩ := specAttr_eq_ok.mp hread
  obtain ⟨-, rfl⟩ := specAttr_eq_ok.mp hread'
  obtain ⟨rfl, rfl⟩ := BuildM.pure_eq_ok.mp h
  obtain ⟨hkept₁, hshown⟩ := publicIpFor_tags hdocs hp hip
  have hkept₂ := (preserves_nsgName (R := TagsKept) p₁).rel hnsg
  have hbefore : TagsKept s s₂ := Trans.trans hkept₁ hkept₂
  obtain ⟨hkept₃, hinterface⟩ := (returnsNoMachine_getNetworkInterface componentKey vmConfig
    subnetName nsgName publicIpName index).run
      (fun id hid => (hdocs id hid).trans_le hbefore.next_le) hinterface
  have hkept : TagsKept s s₃ := Trans.trans hbefore hkept₃
  obtain ⟨hkept₄, hvmlt, hkind, htags⟩ := getVm_tags (hmodel.keeps (hkept.doc vmConfig hlt)) hvm
  refine ⟨Trans.trans hkept hkept₄, ?_⟩
  rw [Progress.ids_append, Progress.ids_append, ← htags]
  apply ShowsTags.append_machine _ hvmlt hkind
  apply ((hshown.keeps hkept₂).keeps (Trans.trans hkept₃ hkept₄)).append_noMachine
  simpa using hinterface.keeps hkept₄

theorem buildMachines_tags {vmConfig subnet : DocId} {availabilitySet : Option DocId}
    {index remaining : Nat} (hdocs : ∀ id ∈ b.docs, id < s.next) (hlt : vmConfig < s.next)
    (hmodel : HasMachineTags env b.clusterModel docs componentValue (s.doc vmConfig))
    (hp : ShowsTags s p.ids shown)
    (h : b.buildMachines env componentKey vmConfig subnet availabilitySet p index remaining s =
      .ok (p', s')) :
    TagsKept s s' ∧ ShowsTags s' p'.ids (shown ++ List.replicate remaining
      (componentTags env b.clusterModel docs (b.tagOfCluster env)
        (componentKey, componentValue))) := by
  induction remaining generalizing p s index shown with
  | zero =>
      obtain ⟨rfl, rfl⟩ := BuildM.pure_eq_ok.mp h
      rw [List.replicate_zero, List.append_nil]
      exact ⟨Std.Refl.refl _, hp⟩
  | succ remaining ih =>
      obtain ⟨p₁, s₁, hfirst, hrest⟩ := BuildM.bind_eq_ok.mp h
      obtain ⟨hkept₁, hp₁⟩ := buildMachine_tags hdocs hlt hmodel hp hfirst
      obtain ⟨hkept₂, hp₂⟩ := ih (fun id hid => (hdocs id hid).trans_le hkept₁.next_le)
        (hlt.trans_le hkept₁.next_le) (hmodel.keeps (hkept₁.doc vmConfig hlt)) hp₁ hrest
      rw [List.append_assoc, List.singleton_append, ← List.replicate_succ] at hp₂
      exact ⟨Trans.trans hkept₁ hkept₂, hp₂⟩

/-- The machines of a component are added, each with the component's tags. -/
theorem buildComponent_tags {cloudInitCustomData : DocId}
    (hdocs : ∀ id ∈ b.docs, id < s.next) (hunique : ∀ id ∈ b.docs, (s.doc id).KeysUnique)
    (hp : ShowsTags s p.ids shown)
    (h : b.buildComponent env cloudInitCustomData p componentKey componentValue s =
      .ok (p', s')) :
    TagsKept s s' ∧ ShowsTags s' p'.ids (shown ++
      List.replicate (machineCount componentValue) (componentTags env b.clusterModel
        (b.docs.map s.doc) (b.tagOfCluster env) (componentKey, componentValue))) := by
  simp only [buildComponent, BuildM.bind_eq_ok, lift_eq_ok] at h
  obtain ⟨value, _, ⟨hvalue, rfl⟩, inactive, _, ⟨hinactive, rfl⟩, h⟩ := h
  split at h
  · next hidle =>
      obtain ⟨rfl, rfl⟩ := BuildM.pure_eq_ok.mp h
      rw [machineCount_idle hvalue (hidle ▸ hinactive), List.replicate_zero, List.append_nil]
      exact ⟨Std.Refl.refl _, hp⟩
  · next hactive =>
      simp only [BuildM.bind_eq_ok, lift_eq_ok] at h
      obtain ⟨vmConfig, s₁, hmachine, enabled, _, hread, _, s₂, hset, addressPool, _, ⟨-, rfl⟩,
        ⟨subnet, p₁⟩, s₃, hsubnet, ⟨availabilitySet, p₂⟩, s₄, havailability, vmCount, _,
        ⟨hcount, rfl⟩, h⟩ := h
      rw [(machineCount_active hvalue (Bool.eq_false_iff.mpr hactive ▸ hinactive) hcount).1]
      obtain ⟨-, rfl⟩ := specAttr_eq_ok.mp hread
      obtain ⟨hkept₁, hlt, hmodel⟩ := getVirtualMachine_tags hdocs hunique hmachine
      have hkept₂ := (preserves_tags_setSpecAttr vmConfig enabled (by decide)).rel hset
      have hkept₁₂ : TagsKept s s₂ := Trans.trans hkept₁ hkept₂
      have hdocs₂ : ∀ id ∈ b.docs, id < s₂.next :=
        fun id hid => (hdocs id hid).trans_le hkept₁₂.next_le
      obtain ⟨hkept₃, hp₁⟩ := subnetFor_tags hdocs₂ (hp.keeps hkept₁₂) hsubnet
      have hdocs₃ : ∀ id ∈ b.docs, id < s₃.next :=
        fun id hid => (hdocs₂ id hid).trans_le hkept₃.next_le
      obtain ⟨hkept₄, hp₂⟩ := availabilitySetFor_tags hdocs₃ hp₁ havailability
      have hafter : TagsKept s₁ s₄ := Trans.trans hkept₂ (Trans.trans hkept₃ hkept₄)
      obtain ⟨hkept₅, hp₃⟩ := buildMachines_tags
        (fun id hid => (hdocs₃ id hid).trans_le hkept₄.next_le) (hlt.trans_le hafter.next_le)
        (hmodel.keeps (hafter.doc vmConfig hlt)) hp₂ h
      exact ⟨Trans.trans hkept₁ (Trans.trans hafter hkept₅), hp₃⟩

theorem buildComponents_tags {cloudInitCustomData : DocId} {components : Entries}
    (hdocs : ∀ id ∈ b.docs, id < s.next) (hunique : ∀ id ∈ b.docs, (s.doc id).KeysUnique)
    (hp : ShowsTags s p.ids shown)
    (h : b.buildComponents env cloudInitCustomData p components s = .ok (p', s')) :
    TagsKept s s' ∧ ShowsTags s' p'.ids (shown ++ expectedTags env b.clusterModel
      (b.docs.map s.doc) (b.tagOfCluster env) machineCount components) := by
  induction components generalizing p shown s with
  | nil =>
      obtain ⟨rfl, rfl⟩ := BuildM.pure_eq_ok.mp h
      exact ⟨Std.Refl.refl _, by simpa [expectedTags] using hp⟩
  | cons component rest ih =>
      obtain ⟨p₁, s₁, hfirst, hrest⟩ := BuildM.bind_eq_ok.mp h
      obtain ⟨hkept₁, hp₁⟩ := buildComponent_tags hdocs hunique hp hfirst
      obtain ⟨hkept₂, hp₂⟩ := ih (fun id hid => (hdocs id hid).trans_le hkept₁.next_le)
        (fun id hid => (hkept₁.doc id (hdocs id hid)).unique (hunique id hid)) hp₁ hrest
      refine ⟨Trans.trans hkept₁ hkept₂, ?_⟩
      rw [expectedTags_keeps hdocs hkept₁, List.append_assoc] at hp₂
      exact hp₂

end

/-! ## The run -/

/-- A run emits for each component its number of machines with the component's tags,
and no document in memory changes its tags. -/
theorem run_shows {infrastructure : List Emitted}
    (hdocs : ∀ id ∈ b.docs, id < s.next) (hunique : ∀ id ∈ b.docs, (s.doc id).KeysUnique)
    (h : b.run env s = .ok (infrastructure, s')) :
    TagsKept s s' ∧ ∃ components,
      (attrPath b.clusterModel ["specification", "components"]).bind Val.asDict =
        .ok components ∧
      shownTags s' (infrastructure.map Emitted.doc) = expectedTags env b.clusterModel
        (b.docs.map s.doc) (b.tagOfCluster env) machineCount components := by
  have hR := builderFrame_tagsKept .azure
  simp only [run, BuildM.bind_eq_ok, lift_eq_ok] at h
  obtain ⟨resourceGroup, s₁, hgroup, vnet, s₂, hvnet, storage, s₃, hstorage, cloudInit, s₄, hinit,
    value, _, ⟨hvalue, rfl⟩, components, _, ⟨hcomponents, rfl⟩, p, s₅, hbuild, _, s₆, hos, h⟩ := h
  obtain ⟨rfl, rfl⟩ := BuildM.pure_eq_ok.mp h
  obtain ⟨hkept₁, hgroup⟩ := returnsNoMachine_getResourceGroup.run hdocs hgroup
  have hdocs₁ : ∀ id ∈ b.docs, id < s₁.next :=
    fun id hid => (hdocs id hid).trans_le hkept₁.next_le
  obtain ⟨hkept₂, hvnet⟩ := returnsNoMachine_getVirtualNetwork.run hdocs₁ hvnet
  have hdocs₂ : ∀ id ∈ b.docs, id < s₂.next :=
    fun id hid => (hdocs₁ id hid).trans_le hkept₂.next_le
  obtain ⟨hkept₃, hstorage⟩ :=
    (returnsNoMachine_config (by decide) (by simp)).run hdocs₂ hstorage
  have hdocs₃ : ∀ id ∈ b.docs, id < s₃.next :=
    fun id hid => (hdocs₂ id hid).trans_le hkept₃.next_le
  obtain ⟨hkept₄, hinit⟩ := (returnsNoMachine_config (by decide) (by simp)).run hdocs₃ hinit
  have hbefore : TagsKept s s₄ :=
    Trans.trans hkept₁ (Trans.trans hkept₂ (Trans.trans hkept₃ hkept₄))
  have hstart : ShowsTags s₄ ((⟨[⟨resourceGroup, none⟩, ⟨vnet, none⟩, ⟨storage, none⟩], none⟩ :
      Progress).ids) [] := by
    have hempty : ShowsTags s₄ [] [] := ⟨by simp, rfl⟩
    apply hempty.append_noMachine
    intro id hid
    simp only [List.map_cons, List.map_nil, List.mem_cons, List.not_mem_nil, or_false] at hid
    rcases hid with rfl | rfl | rfl
    · exact hgroup.keeps (Trans.trans hkept₂ (Trans.trans hkept₃ hkept₄))
    · exact hvnet.keeps (Trans.trans hkept₃ hkept₄)
    · exact hstorage.keeps hkept₄
  obtain ⟨hkept₅, hshown⟩ := buildComponents_tags
    (fun id hid => (hdocs id hid).trans_le hbefore.next_le)
    (fun id hid => (hbefore.doc id (hdocs id hid)).unique (hunique id hid)) hstart hbuild
  have hkept₆ := (preserves_setOsDistribution hR cloudInit p).rel hos
  have hend := (hshown.keeps hkept₆).append_noMachine
    (by simpa using (hinit.keeps hkept₅).keeps hkept₆ : ∀ id ∈ [cloudInit], NoMachine s₆ id)
  rw [← Progress.ids_append p cloudInit none] at hend
  refine ⟨Trans.trans hbefore (Trans.trans hkept₅ hkept₆), components,
    by rw [hvalue]; exact hcomponents, ?_⟩
  rw [← expectedTags_keeps hdocs hbefore]
  exact hend.tags

end InfrastructureBuilder

end Azure

end LambdaStack
