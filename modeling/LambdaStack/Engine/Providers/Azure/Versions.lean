/-
# The versions of the Azure infrastructure

A run takes from the input the first document of each kind it needs a document of, the
machine definitions of the active components and the availability sets they name; all
other documents it emits are new.
-/

import LambdaStack.Engine.Providers.Azure.EmissionRun
import LambdaStack.Engine.Providers.Versions

namespace LambdaStack

open Lib BuildM

namespace Azure

/-! ## What a run looks up -/

/-- The kinds of the documents every run emits. -/
def alwaysEmitted : List String :=
  ["infrastructure/resource-group", "infrastructure/vnet", "infrastructure/storage-share",
    "infrastructure/cloud-init-custom-data"]

/-- The kinds a component needs documents of, with and without security groups and public
addresses. -/
def emittedForComponent (useNetworkSecurityGroups usePublicIps : Bool) : List String :=
  ["infrastructure/subnet", "infrastructure/network-interface"] ++
    (if useNetworkSecurityGroups then ["infrastructure/network-security-group",
      "infrastructure/subnet-network-security-group-association"] else []) ++
    if usePublicIps then ["infrastructure/public-ip"] else []

/-- The search for the availability set of a component that names one. -/
def setQueries (componentValue : Val) : List DocQuery :=
  match componentValue.attr? "availability_set" with
  | none => []
  | some name => [⟨"infrastructure/availability-set", some name⟩]

/-- The searches for a component: none when it has no machines. -/
def componentQueries (useNetworkSecurityGroups usePublicIps : Bool) (componentValue : Val) :
    List DocQuery :=
  if machineCount componentValue = 0 then []
  else kindQueries (emittedForComponent useNetworkSecurityGroups usePublicIps) ++
    (machineQuery componentValue ++ setQueries componentValue)

/-- A switch of the cluster model. -/
def switch (clusterModel : Val) (path : List String) : Bool :=
  (attrPath clusterModel path).toOption.any Val.truthy

/-- The searches of a run for documents it emits. -/
def queries (useNetworkSecurityGroups usePublicIps : Bool) (clusterModel : Val) :
    List DocQuery :=
  kindQueries alwaysEmitted ++ (modelComponents clusterModel).flatMap fun component =>
    componentQueries useNetworkSecurityGroups usePublicIps component.2

section

variable {env : BuilderEnv} {b : InfrastructureBuilder} {s s' : Store} {asked : List DocQuery}
  {p p' : Progress} {componentKey : String}

theorem init_eq_ok {docs : List DocId} {manifestDocs : List Val}
    (hrun : init env docs manifestDocs s = .ok (b, s')) :
    s = s' ∧ b.docs = docs ∧
      selectSingle (docs.map s.doc) (kindIs "lambdastack-cluster") = .ok b.clusterModel ∧
      switch b.clusterModel ["specification", "cloud", "network", "use_network_security_groups"] =
        b.useNetworkSecurityGroups.truthy ∧
      switch b.clusterModel ["specification", "cloud", "use_public_ips"] =
        b.usePublicIps.truthy := by
  simp only [init, BuildM.bind_eq_ok, lift_eq_ok] at hrun
  obtain ⟨clusterModel, _, hread, _, _, ⟨-, rfl⟩, _, _, ⟨-, rfl⟩, _, _, ⟨-, rfl⟩, _, _, ⟨-, rfl⟩,
    _, _, ⟨-, rfl⟩, groups, _, ⟨hgroups, rfl⟩, ips, _, ⟨hips, rfl⟩, hret⟩ := hrun
  obtain ⟨hmodel, rfl⟩ := reads_eq_ok.mp hread
  obtain ⟨rfl, rfl⟩ := BuildM.pure_eq_ok.mp hret
  refine ⟨rfl, rfl, selectSingle_tree hmodel, ?_, ?_⟩
  · rw [switch, hgroups]
    rfl
  · rw [switch, hips]
    rfl

/-- What a component asks for with the switches of the builder. -/
def AsksForComponent (b : InfrastructureBuilder) (asked : List DocQuery) : Prop :=
  kindQueries (emittedForComponent b.useNetworkSecurityGroups.truthy b.usePublicIps.truthy) ⊆ asked

theorem AsksForComponent.subnet (h : AsksForComponent b asked) :
    ⟨"infrastructure/subnet", none⟩ ∈ asked :=
  h (mem_kindQueries (by simp [emittedForComponent]))

theorem AsksForComponent.interface (h : AsksForComponent b asked) :
    ⟨"infrastructure/network-interface", none⟩ ∈ asked :=
  h (mem_kindQueries (by simp [emittedForComponent]))

theorem AsksForComponent.group (h : AsksForComponent b asked)
    (huse : b.useNetworkSecurityGroups.truthy = true) :
    ⟨"infrastructure/network-security-group", none⟩ ∈ asked ∧
      ⟨"infrastructure/subnet-network-security-group-association", none⟩ ∈ asked :=
  ⟨h (mem_kindQueries (by simp [emittedForComponent, huse])),
    h (mem_kindQueries (by simp [emittedForComponent, huse]))⟩

theorem AsksForComponent.publicIp (h : AsksForComponent b asked)
    (huse : b.usePublicIps.truthy = true) : ⟨"infrastructure/public-ip", none⟩ ∈ asked :=
  h (mem_kindQueries (by simp [emittedForComponent, huse]))

/-! ## A component -/

theorem subnetFor_current {addressPool : Val} {vmConfig subnet : DocId}
    (h : Ready env.version b.docs asked s) (hasked : AsksForComponent b asked)
    (hp : AllCurrent env.version s p.ids)
    (hrun : b.subnetFor env componentKey addressPool vmConfig p s = .ok ((subnet, p'), s')) :
    AllCurrent env.version s' p'.ids := by
  simp only [InfrastructureBuilder.subnetFor, BuildM.bind_eq_ok] at hrun
  obtain ⟨found, _, hread, hrun⟩ := hrun
  obtain ⟨-, rfl⟩ := reads_eq_ok.mp hread
  cases found with
  | some found =>
      obtain ⟨heq, rfl⟩ := BuildM.pure_eq_ok.mp hrun
      cases heq
      exact hp
  | none =>
      obtain ⟨_, s₁, hsubnet, hrun⟩ := BuildM.bind_eq_ok.mp hrun
      obtain ⟨hcurrent₁, hheads₁⟩ := configWith_current h hasked.subnet hsubnet
      have h₁ := h.mono hheads₁
      have hp₁ := (hp.mono hheads₁).append (allCurrent_singleton hcurrent₁)
      split at hrun
      · next huse =>
          simp only [BuildM.bind_eq_ok, lift_eq_ok] at hrun
          obtain ⟨security, _, hread, rules, _, ⟨-, rfl⟩, nsg, s₂, hnsg, subnetName, _, hread',
            nsgName, _, hread'', association, s₃, hassociation, hrun⟩ := hrun
          obtain ⟨-, rfl⟩ := specAttr_eq_ok.mp hread
          obtain ⟨-, rfl⟩ := specAttr_eq_ok.mp hread'
          obtain ⟨-, rfl⟩ := specAttr_eq_ok.mp hread''
          obtain ⟨heq, rfl⟩ := BuildM.pure_eq_ok.mp hrun
          cases heq
          obtain ⟨hcurrent₂, hheads₂⟩ := configWith_current h₁ (hasked.group huse).1 hnsg
          obtain ⟨hcurrent₃, hheads₃⟩ :=
            configWith_current (h₁.mono hheads₂) (hasked.group huse).2 hassociation
          have hp₂ := (hp₁.mono hheads₂).append (allCurrent_singleton hcurrent₂)
          have hp₃ := (hp₂.mono hheads₃).append (allCurrent_singleton hcurrent₃)
          simpa [Progress.ids, Progress.append] using hp₃
      · obtain ⟨heq, rfl⟩ := BuildM.pure_eq_ok.mp hrun
        cases heq
        rwa [Progress.ids_append]

theorem getAvailabilitySet_current {name : Val} {found : Option DocId}
    (h : Ready env.version b.docs asked s)
    (hq : ⟨"infrastructure/availability-set", some name⟩ ∈ asked)
    (hrun : b.getAvailabilitySet env name s = .ok (found, s')) :
    ∀ id, found = some id → IsCurrent env.version s' id := by
  simp only [InfrastructureBuilder.getAvailabilitySet, BuildM.bind_eq_ok] at hrun
  obtain ⟨own, _, hread, hrun⟩ := hrun
  obtain ⟨hown, rfl⟩ := reads_eq_ok.mp hread
  have hfind := selectFirst_find ⟨"infrastructure/availability-set", some name⟩ rfl hown
  cases own with
  | none =>
      obtain ⟨rfl, rfl⟩ := BuildM.pure_eq_ok.mp hrun
      intro id heq
      cases heq
  | some own =>
      simp only [BuildM.bind_eq_ok, lift_eq_ok] at hrun
      obtain ⟨_, _, ⟨-, rfl⟩, _, s₁, hset, hrun⟩ := hrun
      obtain ⟨rfl, rfl⟩ := BuildM.pure_eq_ok.mp hrun
      intro id heq
      cases heq
      exact (h.isCurrent hq hfind.symm).mono ((preserves_heads_setSpecAttr own _ _).rel hset)

theorem availabilitySetFor_current {componentValue : Val} {found : Option DocId}
    (h : Ready env.version b.docs asked s) (hasked : setQueries componentValue ⊆ asked)
    (hp : AllCurrent env.version s p.ids)
    (hrun : b.availabilitySetFor env componentKey componentValue p s = .ok ((found, p'), s')) :
    AllCurrent env.version s' p'.ids := by
  unfold InfrastructureBuilder.availabilitySetFor at hrun
  unfold setQueries at hasked
  cases hname : componentValue.attr? "availability_set" with
  | none =>
      simp only [hname] at hrun
      obtain ⟨heq, rfl⟩ := BuildM.pure_eq_ok.mp hrun
      cases heq
      exact hp
  | some name =>
      simp only [hname] at hrun hasked
      obtain ⟨known, _, hread, hrun⟩ := BuildM.bind_eq_ok.mp hrun
      obtain ⟨-, rfl⟩ := reads_eq_ok.mp hread
      cases known with
      | some id =>
          obtain ⟨heq, rfl⟩ := BuildM.pure_eq_ok.mp hrun
          cases heq
          exact hp
      | none =>
          obtain ⟨created, s₁, hcreated, hrun⟩ := BuildM.bind_eq_ok.mp hrun
          have hheads : HeadsKept s s₁ :=
            (InfrastructureBuilder.preserves_getAvailabilitySet (builderFrame_heads .azure)
              name).rel hcreated
          have hcurrent :=
            getAvailabilitySet_current h (hasked (List.mem_singleton_self _)) hcreated
          cases created with
          | none =>
              obtain ⟨heq, rfl⟩ := BuildM.pure_eq_ok.mp hrun
              cases heq
              exact hp.mono hheads
          | some id =>
              obtain ⟨heq, rfl⟩ := BuildM.pure_eq_ok.mp hrun
              cases heq
              rw [Progress.ids_append]
              exact (hp.mono hheads).append (allCurrent_singleton (hcurrent id rfl))

theorem publicIpFor_current {vmConfig : DocId} {index : Nat} {name : Val}
    (h : Ready env.version b.docs asked s) (hasked : AsksForComponent b asked)
    (hp : AllCurrent env.version s p.ids)
    (hrun : b.publicIpFor env componentKey vmConfig index p s = .ok ((name, p'), s')) :
    AllCurrent env.version s' p'.ids := by
  unfold InfrastructureBuilder.publicIpFor at hrun
  split at hrun
  · next huse =>
      simp only [InfrastructureBuilder.getPublicIp, BuildM.bind_eq_ok, lift_eq_ok] at hrun
      obtain ⟨publicIp, s₁, ⟨_, _, hread, _, _, ⟨-, rfl⟩, _, _, ⟨-, rfl⟩, _, _, ⟨-, rfl⟩, _, _,
        ⟨-, rfl⟩, hconfig⟩, _, _, hread', hrun⟩ := hrun
      obtain ⟨-, rfl⟩ := specAttr_eq_ok.mp hread
      obtain ⟨-, rfl⟩ := specAttr_eq_ok.mp hread'
      obtain ⟨heq, rfl⟩ := BuildM.pure_eq_ok.mp hrun
      cases heq
      obtain ⟨hcurrent, hheads⟩ := configWith_current h (hasked.publicIp huse) hconfig
      rw [Progress.ids_append]
      exact (hp.mono hheads).append (allCurrent_singleton hcurrent)
  · obtain ⟨heq, rfl⟩ := BuildM.pure_eq_ok.mp hrun
    cases heq
    exact hp

theorem preserves_heads_appendTags (id : DocId) (tags : List Val) :
    Preserves HeadsKept (appendTags id tags) := by
  apply (preserves_reads _).bind
  intro old
  apply (preserves_lift _).bind
  intro old
  exact preserves_heads_setSpecAttr id _ _

/-- A machine is a copy of the machine definition with a specification of its own. -/
theorem getVm_copies {vmConfig vm : DocId} {availabilitySet : Option DocId} {nicName : Val}
    {index : Nat}
    (hrun : b.getVm env componentKey vmConfig availabilitySet nicName index s = .ok (vm, s')) :
    HeadsKept (s.alloc (s.doc vmConfig)) s' ∧ vm = s.next := by
  simp only [InfrastructureBuilder.getVm, BuildM.bind_eq_ok, lift_eq_ok] at hrun
  obtain ⟨copy, _, hread, id, _, hnew, _, _, ⟨-, rfl⟩, _, s₁, hset, _, s₂, htags, osType, _, hread',
    hrun⟩ := hrun
  obtain ⟨hcopy, rfl⟩ := reads_eq_ok.mp hread
  cases hcopy
  obtain ⟨rfl, rfl⟩ := newDoc_eq_ok.mp hnew
  obtain ⟨-, rfl⟩ := specAttr_eq_ok.mp hread'
  have hheads₂ : HeadsKept (s.alloc (s.doc vmConfig)) s₂ :=
    Trans.trans ((preserves_heads_setSpecAttrs s.next _).rel hset)
      ((preserves_heads_appendTags s.next _).rel htags)
  obtain ⟨hheads₃, rfl⟩ : HeadsKept s₂ s' ∧ vm = s.next := by
    split at hrun
    · obtain ⟨habsurd, -⟩ := lift_eq_ok.mp hrun
      cases habsurd
    · simp only [BuildM.bind_eq_ok, lift_eq_ok] at hrun
      obtain ⟨path, _, ⟨-, rfl⟩, _, s₃, hkey, hrun⟩ := hrun
      have hheads := (preserves_heads_setSpecAttr s.next _ _).rel hkey
      cases availabilitySet with
      | none =>
          obtain ⟨rfl, rfl⟩ := BuildM.pure_eq_ok.mp hrun
          exact ⟨hheads, rfl⟩
      | some set =>
          obtain ⟨name, _, hname, hrun⟩ := BuildM.bind_eq_ok.mp hrun
          obtain ⟨-, rfl⟩ := specAttr_eq_ok.mp hname
          obtain ⟨_, s₄, hset', hrun⟩ := BuildM.bind_eq_ok.mp hrun
          obtain ⟨rfl, rfl⟩ := BuildM.pure_eq_ok.mp hrun
          exact ⟨Trans.trans hheads ((preserves_heads_setSpecAttr s.next _ _).rel hset'), rfl⟩
  exact ⟨Trans.trans hheads₂ hheads₃, rfl⟩

theorem getVm_current {vmConfig vm : DocId} {availabilitySet : Option DocId} {nicName : Val}
    {index : Nat} (hvm : IsCurrent env.version s vmConfig)
    (hrun : b.getVm env componentKey vmConfig availabilitySet nicName index s = .ok (vm, s')) :
    IsCurrent env.version s' vm ∧ HeadsKept s s' := by
  obtain ⟨hheads, rfl⟩ := getVm_copies hrun
  exact ⟨(isCurrent_alloc hvm.2).mono hheads,
    Trans.trans (Store.evolves_alloc (R := KeepsHead) s _) hheads⟩

theorem preserves_heads_getVm (componentKey : String) (vmConfig : DocId)
    (availabilitySet : Option DocId) (nicName : Val) (index : Nat) :
    Preserves HeadsKept (b.getVm env componentKey vmConfig availabilitySet nicName index) := by
  apply (preserves_reads _).bind
  intro copy
  apply (preserves_newDoc copy).bind
  intro vm
  apply (preserves_lift _).bind
  intro adminUsername
  apply (preserves_heads_setSpecAttrs vm _).bind
  intro _
  apply (preserves_heads_appendTags vm _).bind
  intro _
  apply (preserves_reads _).bind
  intro osType
  apply Preserves.ite
  · exact preserves_lift _
  · apply (preserves_lift _).bind
    intro pubKeyPath
    apply (preserves_heads_setSpecAttr vm _ _).bind
    intro _
    cases availabilitySet with
    | none => exact preserves_pure vm
    | some id =>
        apply (preserves_reads _).bind
        intro name
        apply (preserves_heads_setSpecAttr vm _ _).bind
        intro _
        exact preserves_pure vm

/-- The machine is a copy of the machine definition. -/
theorem getVm_emits {vmConfig vm : DocId} {availabilitySet : Option DocId} {nicName : Val}
    {index : Nat} (hlt : vmConfig < s.next)
    (hrun : b.getVm env componentKey vmConfig availabilitySet nicName index s = .ok (vm, s')) :
    EmitsHead s' [vm] vmConfig := by
  obtain ⟨hheads, rfl⟩ := getVm_copies hrun
  have hcopied : EmitsHead (s.alloc (s.doc vmConfig)) [s.next] vmConfig := by
    refine ⟨s.next, List.mem_singleton_self _, Nat.lt_succ_self _, ?_⟩
    rw [s.alloc_doc_self, s.alloc_doc_of_lt hlt]
    exact Std.Refl.refl _
  exact hcopied.mono (hlt.trans (Nat.lt_succ_self _)) hheads

theorem buildMachine_current {vmConfig subnet : DocId} {availabilitySet : Option DocId}
    {index : Nat} (h : Ready env.version b.docs asked s) (hasked : AsksForComponent b asked)
    (hp : AllCurrent env.version s p.ids) (hvm : IsCurrent env.version s vmConfig)
    (hrun : b.buildMachine env componentKey vmConfig subnet availabilitySet p index s =
      .ok (p', s')) : AllCurrent env.version s' p'.ids ∧ HeadsKept s s' := by
  rw [InfrastructureBuilder.buildMachine, BuildM.bind_eq_ok] at hrun
  obtain ⟨⟨publicIp, p₁⟩, s₁, hpublicIp, hrun⟩ := hrun
  simp only [InfrastructureBuilder.getNetworkInterface, BuildM.bind_eq_ok, lift_eq_ok] at hrun
  obtain ⟨nsgName, s₂, hnsg, subnetName, _, hread, nic, s₃, ⟨_, _, hread', _, _, ⟨-, rfl⟩, hnic⟩,
    nicName, _, hread'', vm, s₄, hvmRun, hret⟩ := hrun
  obtain ⟨-, rfl⟩ := specAttr_eq_ok.mp hread
  obtain ⟨-, rfl⟩ := specAttr_eq_ok.mp hread'
  obtain ⟨-, rfl⟩ := specAttr_eq_ok.mp hread''
  obtain ⟨rfl, rfl⟩ := BuildM.pure_eq_ok.mp hret
  have hframe := builderFrame_heads .azure
  have hheads₁ : HeadsKept s s₁ :=
    (InfrastructureBuilder.preserves_publicIpFor hframe componentKey vmConfig index p).rel hpublicIp
  have hheads₂ : HeadsKept s₁ s₂ := (InfrastructureBuilder.preserves_nsgName p₁).rel hnsg
  have hheads₁₂ : HeadsKept s s₂ := Trans.trans hheads₁ hheads₂
  have hp₂ := (publicIpFor_current h hasked hp hpublicIp).mono hheads₂
  obtain ⟨hcurrent₃, hheads₃⟩ := configWith_current (h.mono hheads₁₂) hasked.interface hnic
  have hheads₁₃ : HeadsKept s s₃ := Trans.trans hheads₁₂ hheads₃
  obtain ⟨hcurrent₄, hheads₄⟩ := getVm_current (hvm.mono hheads₁₃) hvmRun
  have hp₃ := (hp₂.mono hheads₃).append (allCurrent_singleton hcurrent₃)
  have hp₄ := (hp₃.mono hheads₄).append (allCurrent_singleton hcurrent₄)
  refine ⟨?_, Trans.trans hheads₁₃ hheads₄⟩
  rwa [Progress.ids_append, Progress.ids_append]

theorem buildMachines_current {vmConfig subnet : DocId} {availabilitySet : Option DocId}
    {index remaining : Nat} (h : Ready env.version b.docs asked s)
    (hasked : AsksForComponent b asked) (hp : AllCurrent env.version s p.ids)
    (hvm : IsCurrent env.version s vmConfig)
    (hrun : b.buildMachines env componentKey vmConfig subnet availabilitySet p index remaining s =
      .ok (p', s')) : AllCurrent env.version s' p'.ids ∧ HeadsKept s s' := by
  induction remaining generalizing p s index with
  | zero =>
      obtain ⟨rfl, rfl⟩ := BuildM.pure_eq_ok.mp hrun
      exact ⟨hp, Std.Refl.refl _⟩
  | succ remaining ih =>
      obtain ⟨p₁, s₁, hfirst, hrest⟩ := BuildM.bind_eq_ok.mp hrun
      obtain ⟨hp₁, hheads₁⟩ := buildMachine_current h hasked hp hvm hfirst
      obtain ⟨hp₂, hheads₂⟩ := ih (h.mono hheads₁) hp₁ (hvm.mono hheads₁) hrest
      exact ⟨hp₂, Trans.trans hheads₁ hheads₂⟩

theorem buildComponent_current {cloudInit : DocId} {componentValue : Val}
    (hdefaults : DefaultsCurrent env.schema env.version) (h : Ready env.version b.docs asked s)
    (hasked : componentQueries b.useNetworkSecurityGroups.truthy b.usePublicIps.truthy
      componentValue ⊆ asked)
    (hp : AllCurrent env.version s p.ids)
    (hrun : b.buildComponent env cloudInit p componentKey componentValue s = .ok (p', s')) :
    AllCurrent env.version s' p'.ids ∧ HeadsKept s s' := by
  simp only [InfrastructureBuilder.buildComponent, BuildM.bind_eq_ok, lift_eq_ok] at hrun
  obtain ⟨value, _, ⟨hvalue, rfl⟩, inactive, _, ⟨hinactive, rfl⟩, hrun⟩ := hrun
  split at hrun
  · obtain ⟨rfl, rfl⟩ := BuildM.pure_eq_ok.mp hrun
    exact ⟨hp, Std.Refl.refl _⟩
  · next hactive =>
      simp only [BuildM.bind_eq_ok, lift_eq_ok] at hrun
      obtain ⟨vmConfig, s₁, hmachine, enabled, _, hread, _, s₂, hset, addressPool, _, ⟨-, rfl⟩,
        ⟨subnet, p₁⟩, s₃, hsubnet, ⟨availabilitySet, p₂⟩, s₄, havailability, vmCount, _,
        ⟨hcount, rfl⟩, hrun⟩ := hrun
      obtain ⟨hmachines, hpositive⟩ :=
        machineCount_active hvalue (Bool.eq_false_iff.mpr hactive ▸ hinactive) hcount
      rw [← hmachines] at hpositive
      rw [componentQueries, if_neg hpositive, List.append_subset, List.append_subset] at hasked
      obtain ⟨hkinds, haskedMachine, haskedSet⟩ := hasked
      obtain ⟨-, rfl⟩ := specAttr_eq_ok.mp hread
      have hframe := builderFrame_heads .azure
      have hheads₁ : HeadsKept s s₁ := (preserves_machineDefinition preserves_newDoc
        (fun id value => preserves_heads_setSpecAttr id _ value) componentValue).rel hmachine
      have hheads₂ : HeadsKept s₁ s₂ := (preserves_heads_setSpecAttr vmConfig _ _).rel hset
      have hheads₁₂ : HeadsKept s s₂ := Trans.trans hheads₁ hheads₂
      have hvm := getVirtualMachine_current hdefaults h (fun q hq => haskedMachine hq) hmachine
      have h₂ := h.mono hheads₁₂
      have hp₁ := subnetFor_current h₂ hkinds (hp.mono hheads₁₂) hsubnet
      have hheads₃ : HeadsKept s₂ s₃ :=
        (InfrastructureBuilder.preserves_subnetFor hframe _ _ _ _).rel hsubnet
      have h₃ := h₂.mono hheads₃
      have hp₂ := availabilitySetFor_current h₃ haskedSet hp₁ havailability
      have hheads₄ : HeadsKept s₃ s₄ :=
        (InfrastructureBuilder.preserves_availabilitySetFor hframe _ _ _).rel havailability
      have hheads₂₄ : HeadsKept s₂ s₄ := Trans.trans hheads₃ hheads₄
      obtain ⟨hp₃, hheads₅⟩ := buildMachines_current (h₃.mono hheads₄) hkinds hp₂
        ((hvm.mono hheads₂).mono hheads₂₄) hrun
      exact ⟨hp₃, Trans.trans hheads₁₂ (Trans.trans hheads₂₄ hheads₅)⟩

theorem buildComponents_current {cloudInit : DocId} {components : Entries}
    (hdefaults : DefaultsCurrent env.schema env.version) (h : Ready env.version b.docs asked s)
    (hasked : components.flatMap (fun component =>
      componentQueries b.useNetworkSecurityGroups.truthy b.usePublicIps.truthy component.2) ⊆ asked)
    (hp : AllCurrent env.version s p.ids)
    (hrun : b.buildComponents env cloudInit p components s = .ok (p', s')) :
    AllCurrent env.version s' p'.ids ∧ HeadsKept s s' := by
  induction components generalizing p s with
  | nil =>
      obtain ⟨rfl, rfl⟩ := BuildM.pure_eq_ok.mp hrun
      exact ⟨hp, Std.Refl.refl _⟩
  | cons component rest ih =>
      obtain ⟨p₁, s₁, hfirst, hrest⟩ := BuildM.bind_eq_ok.mp hrun
      rw [List.flatMap_cons, List.append_subset] at hasked
      obtain ⟨hp₁, hheads₁⟩ := buildComponent_current hdefaults h hasked.1 hp hfirst
      obtain ⟨hp₂, hheads₂⟩ := ih (h.mono hheads₁) hasked.2 hp₁ hrest
      exact ⟨hp₂, Trans.trans hheads₁ hheads₂⟩

/-! ## What a run takes it emits -/

theorem subnetFor_ids {addressPool : Val} {vmConfig subnet : DocId}
    (hrun : b.subnetFor env componentKey addressPool vmConfig p s = .ok ((subnet, p'), s')) :
    p.ids ⊆ p'.ids := by
  simp only [InfrastructureBuilder.subnetFor, BuildM.bind_eq_ok] at hrun
  obtain ⟨found, _, -, hrun⟩ := hrun
  cases found with
  | some found =>
      cases (BuildM.pure_eq_ok.mp hrun).1
      exact List.Subset.refl _
  | none =>
      obtain ⟨own, s₁, -, hrun⟩ := BuildM.bind_eq_ok.mp hrun
      split at hrun
      · simp only [BuildM.bind_eq_ok] at hrun
        obtain ⟨_, _, -, _, _, -, nsg, _, -, _, _, -, _, _, -, association, _, -, hrun⟩ := hrun
        cases (BuildM.pure_eq_ok.mp hrun).1
        simp [Progress.ids, Progress.append]
      · cases (BuildM.pure_eq_ok.mp hrun).1
        simp

/-- The availability set a component names is the user's of that name. -/
theorem availabilitySetFor_emits {fixed : Emission.Fixed} {requests : Emission.Requests}
    {q : Emission.Plan} (h : Emission.Represents env b fixed s p requests q)
    {componentValue : Val} {found : Option DocId}
    (hrun : b.availabilitySetFor env componentKey componentValue p s = .ok ((found, p'), s')) :
    p.ids ⊆ p'.ids ∧ EmitsFound b.docs (setQueries componentValue) s' p'.ids := by
  have hheads : HeadsKept s s' := (InfrastructureBuilder.preserves_availabilitySetFor
    (builderFrame_heads .azure) componentKey componentValue p).rel hrun
  unfold InfrastructureBuilder.availabilitySetFor at hrun
  unfold setQueries
  cases hname : componentValue.attr? "availability_set" with
  | none =>
      rw [hname] at hrun
      cases (BuildM.pure_eq_ok.mp hrun).1
      exact ⟨List.Subset.refl _, emitsFound_nil⟩
  | some name =>
      simp only [hname, BuildM.bind_eq_ok] at hrun ⊢
      obtain ⟨known, _, hread, hrun⟩ := hrun
      obtain ⟨hknown, rfl⟩ := reads_eq_ok.mp hread
      have hknown := selectFirst_eq_ok hknown
      cases known with
      | some id =>
          obtain ⟨heq, rfl⟩ := BuildM.pure_eq_ok.mp hrun
          cases heq
          have hmem := List.mem_of_find?_eq_some hknown.symm
          have hholds := List.find?_some hknown.symm
          obtain ⟨n, hn, he⟩ : ∃ n, name.str? = some n ∧ (id, n) ∈ requests .availabilitySet :=
            h.mem_of_selectSet hmem hholds
          obtain ⟨type, rfl⟩ := Val.str?_eq_some.mp hn
          refine ⟨List.Subset.refl _, emitsFound_cons.mpr ⟨fun own hfind => ?_, emitsFound_nil⟩⟩
          -- the search finds the document the name was requested for
          have hset := h.setDocs _ he
          rw [← kindAndNameAre_str_class _ n type] at hset
          obtain rfl : id = own := Option.some.inj (hset.symm.trans hfind)
          exact .of_mem hmem (h.allocated id hmem)
      | none =>
          simp only [InfrastructureBuilder.getAvailabilitySet, BuildM.bind_eq_ok] at hrun
          obtain ⟨created, s₁, ⟨own, _, hread, hcreate⟩, hrun⟩ := hrun
          obtain ⟨hown, rfl⟩ := reads_eq_ok.mp hread
          have hown := selectFirst_find
            ⟨"infrastructure/availability-set", some name⟩ rfl hown
          cases own with
          | none =>
              obtain ⟨rfl, rfl⟩ := BuildM.pure_eq_ok.mp hcreate
              obtain ⟨heq, rfl⟩ := BuildM.pure_eq_ok.mp hrun
              cases heq
              refine ⟨List.Subset.refl _, emitsFound_cons.mpr ⟨fun own hfind => ?_, emitsFound_nil⟩⟩
              cases hown.trans hfind
          | some id =>
              simp only [BuildM.bind_eq_ok, lift_eq_ok] at hcreate
              obtain ⟨_, _, ⟨-, rfl⟩, _, s₂, hset, hpure⟩ := hcreate
              obtain ⟨rfl, rfl⟩ := BuildM.pure_eq_ok.mp hpure
              obtain ⟨heq, rfl⟩ := BuildM.pure_eq_ok.mp hrun
              cases heq
              rw [Progress.ids_append]
              refine ⟨List.subset_append_left _ _, EmitsFound.subset ?_
                (List.subset_append_right _ _)⟩
              exact emitsFound_of_found h.docs hheads fun own hfind =>
                Option.some.inj (hown.trans hfind)

theorem buildMachine_emits {vmConfig subnet : DocId} {availabilitySet : Option DocId}
    {index : Nat} (hlt : vmConfig < s.next)
    (hrun : b.buildMachine env componentKey vmConfig subnet availabilitySet p index s =
      .ok (p', s')) : p.ids ⊆ p'.ids ∧ HeadsKept s s' ∧ EmitsHead s' p'.ids vmConfig := by
  have hheads : HeadsKept s s' := (InfrastructureBuilder.preserves_buildMachine
    (builderFrame_heads .azure) preserves_heads_getVm _ _ _ _ _ _).rel hrun
  rw [InfrastructureBuilder.buildMachine, BuildM.bind_eq_ok] at hrun
  obtain ⟨⟨publicIp, p₁⟩, s₁, hpublicIp, hrun⟩ := hrun
  simp only [BuildM.bind_eq_ok] at hrun
  obtain ⟨nsgName, s₂, hnsg, subnetName, _, hread, nic, s₃, hnic, nicName, _, hread', vm, s₄,
    hvmRun, hret⟩ := hrun
  obtain ⟨-, rfl⟩ := specAttr_eq_ok.mp hread
  obtain ⟨-, rfl⟩ := specAttr_eq_ok.mp hread'
  obtain ⟨rfl, rfl⟩ := BuildM.pure_eq_ok.mp hret
  have hframe := builderFrame_heads .azure
  have hheads₁ : HeadsKept s s₁ :=
    (InfrastructureBuilder.preserves_publicIpFor hframe componentKey vmConfig index p).rel hpublicIp
  have hheads₂ : HeadsKept s₁ s₂ := (InfrastructureBuilder.preserves_nsgName p₁).rel hnsg
  have hheads₃ : HeadsKept s₂ s₃ := (InfrastructureBuilder.preserves_getNetworkInterface hframe
    componentKey vmConfig subnetName nsgName publicIp index).rel hnic
  have hlt₃ : vmConfig < s₃.next :=
    hlt.trans_le (hheads₁.next_le.trans (hheads₂.next_le.trans hheads₃.next_le))
  have hids : p.ids ⊆ p₁.ids := by
    unfold InfrastructureBuilder.publicIpFor at hpublicIp
    split at hpublicIp
    · simp only [BuildM.bind_eq_ok] at hpublicIp
      obtain ⟨_, _, -, _, _, -, hret⟩ := hpublicIp
      cases (BuildM.pure_eq_ok.mp hret).1
      simp
    · cases (BuildM.pure_eq_ok.mp hpublicIp).1
      exact List.Subset.refl _
  rw [Progress.ids_append, Progress.ids_append]
  refine ⟨List.subset_append_of_subset_left _ (List.subset_append_of_subset_left _ hids), hheads,
    ?_⟩
  exact (getVm_emits hlt₃ hvmRun).subset (List.subset_append_right _ _)

theorem buildMachines_emits {vmConfig subnet : DocId} {availabilitySet : Option DocId}
    {index remaining : Nat} (hlt : vmConfig < s.next)
    (hrun : b.buildMachines env componentKey vmConfig subnet availabilitySet p index remaining s =
      .ok (p', s')) :
    p.ids ⊆ p'.ids ∧ HeadsKept s s' ∧ (remaining ≠ 0 → EmitsHead s' p'.ids vmConfig) := by
  induction remaining generalizing p s index with
  | zero =>
      obtain ⟨rfl, rfl⟩ := BuildM.pure_eq_ok.mp hrun
      exact ⟨List.Subset.refl _, Std.Refl.refl _, fun hne => absurd rfl hne⟩
  | succ remaining ih =>
      obtain ⟨p₁, s₁, hfirst, hrest⟩ := BuildM.bind_eq_ok.mp hrun
      obtain ⟨hsub₁, hheads₁, hemits⟩ := buildMachine_emits hlt hfirst
      have hlt₁ := hlt.trans_le hheads₁.next_le
      obtain ⟨hsub₂, hheads₂, -⟩ := ih hlt₁ hrest
      exact ⟨List.Subset.trans hsub₁ hsub₂, Trans.trans hheads₁ hheads₂,
        fun _ => (hemits.mono hlt₁ hheads₂).subset hsub₂⟩

theorem preserves_heads_buildComponent (cloudInit : DocId) (p : Progress)
    (component : String × Val) :
    Preserves HeadsKept (b.buildComponent env cloudInit p component.1 component.2) :=
  InfrastructureBuilder.preserves_buildComponent (builderFrame_heads .azure)
    (preserves_machineDefinition preserves_newDoc
      (fun id value => preserves_heads_setSpecAttr id _ value)) preserves_heads_getVm
    cloudInit p component.1 component.2

/-- A component with machines emits the machine definition and the availability set it takes. -/
theorem buildComponent_emits {fixed : Emission.Fixed} {requests : Emission.Requests}
    {q : Emission.Plan} (h : Emission.Represents env b fixed s p requests q)
    {component : String × Val}
    (hrun : b.buildComponent env fixed.cloudInit p component.1 component.2 s = .ok (p', s')) :
    p.ids ⊆ p'.ids ∧ (machineCount component.2 ≠ 0 → EmitsFound b.docs
      (machineQuery component.2 ++ setQueries component.2) s' p'.ids) := by
  have hheads : HeadsKept s s' :=
    (preserves_heads_buildComponent fixed.cloudInit p component).rel hrun
  simp only [InfrastructureBuilder.buildComponent, BuildM.bind_eq_ok, lift_eq_ok] at hrun
  obtain ⟨count, _, ⟨hcount, rfl⟩, inactive, _, ⟨hinactive, rfl⟩, hrun⟩ := hrun
  split at hrun
  · next hidle =>
      obtain ⟨rfl, rfl⟩ := BuildM.pure_eq_ok.mp hrun
      have hzero := machineCount_idle hcount (hidle ▸ hinactive)
      exact ⟨List.Subset.refl _, fun hne => absurd hzero hne⟩
  · next hactive =>
      simp only [BuildM.bind_eq_ok, lift_eq_ok] at hrun
      obtain ⟨vmConfig, s₁, hmachine, enabled, _, hread, _, s₂, hset, addressPool, _, ⟨-, rfl⟩,
        ⟨subnet, p₁⟩, s₃, hsubnet, ⟨availabilitySet, p₂⟩, s₄, havailable, vmCount, _,
        ⟨hvmCount, rfl⟩, hrun⟩ := hrun
      obtain ⟨-, rfl⟩ := specAttr_eq_ok.mp hread
      obtain ⟨-, hpositive⟩ :=
        machineCount_active hcount (Bool.eq_false_iff.mpr hactive ▸ hinactive) hvmCount
      obtain ⟨hvm, -, h₂⟩ := h.machineDefinition hmachine hset
      obtain ⟨_, hkeep₃, -, -, h₃⟩ := h₂.subnetFor hsubnet
      obtain ⟨_, hkeep₄, -⟩ := h₃.availabilitySetFor havailable
      obtain ⟨hsub₄, hset₄⟩ := availabilitySetFor_emits h₃ havailable
      have hvm₄ : vmConfig < s₄.next := hvm.trans_le (hkeep₃.next.trans hkeep₄.next)
      obtain ⟨hsub₅, hheads₅, hemits⟩ := buildMachines_emits hvm₄ hrun
      have hdocs₄ : ∀ id ∈ b.docs, id < s₄.next :=
        fun id hid => (h₃.docs id hid).trans_le hkeep₄.next
      refine ⟨List.Subset.trans (subnetFor_ids hsubnet) (List.Subset.trans hsub₄ hsub₅),
        fun _ => emitsFound_append.mpr ⟨?_, (hset₄.mono hdocs₄ hheads₅).subset hsub₅⟩⟩
      intro query hquery own hfind
      rw [query.find_heads h.docs hheads] at hfind
      obtain rfl := getVirtualMachine_found hquery hfind hmachine
      exact hemits hpositive

/-- The loop emits what its components take but their network documents. -/
theorem buildComponents_emits {fixed : Emission.Fixed} {requests : Emission.Requests}
    {q : Emission.Plan} {components : Entries}
    (h : Emission.Represents env b fixed s p requests q)
    (hrun : b.buildComponents env fixed.cloudInit p components s = .ok (p', s')) :
    p.ids ⊆ p'.ids ∧ HeadsKept s s' ∧
      ∀ component ∈ components, machineCount component.2 ≠ 0 → EmitsFound b.docs
        (machineQuery component.2 ++ setQueries component.2) s' p'.ids := by
  induction components generalizing s p requests q with
  | nil =>
      obtain ⟨rfl, rfl⟩ := BuildM.pure_eq_ok.mp hrun
      exact ⟨List.Subset.refl _, Std.Refl.refl _, fun _ h => absurd h List.not_mem_nil⟩
  | cons component rest ih =>
      obtain ⟨p₁, s₁, hfirst, hrest⟩ := BuildM.bind_eq_ok.mp hrun
      have hheads₁ : HeadsKept s s₁ :=
        (preserves_heads_buildComponent fixed.cloudInit p component).rel hfirst
      obtain ⟨hsub₁, hemits⟩ := buildComponent_emits h hfirst
      obtain ⟨_, h₁⟩ := h.buildComponent hfirst
      obtain ⟨hsub₂, hheads₂, hothers⟩ := ih h₁ hrest
      refine ⟨List.Subset.trans hsub₁ hsub₂, Trans.trans hheads₁ hheads₂, ?_⟩
      rw [List.forall_mem_cons]
      exact ⟨fun hne => ((hemits hne).mono h₁.docs hheads₂).subset hsub₂, hothers⟩

/-- A run that has requested a document of a kind emits the user's. -/
theorem emitsFound_of_requested {fixed : Emission.Fixed} {requests : Emission.Requests}
    {q : Emission.Plan} (h : Emission.Represents env b fixed s p requests q)
    {k : Emission.Requested} (hk : k ≠ .machine ∧ k ≠ .availabilitySet)
    (hne : Emission.requestsOf b q k ≠ []) : EmitsFound b.docs [⟨k.kind, none⟩] s p.ids := by
  rw [emitsFound_cons]
  refine ⟨fun own hfind => ?_, emitsFound_nil⟩
  have hown : fixed.own k.kind = some own := (h.own k.kind).symm.trans hfind
  have hshared : fixed.ownOf k = some own := by
    cases k with
    | machine => exact absurd rfl hk.1
    | availabilitySet => exact absurd rfl hk.2
    | _ => exact hown
  have hledger := h.ledger k
  rw [hshared] at hledger
  have hmem : own ∈ p.ids := hledger.own_mem fun hnil =>
    hne (by rw [← h.requested k, hnil, List.map_nil])
  exact .of_mem hmem (h.allocated own hmem)

/-! ## The whole run -/

/-- A run of the Azure builder only changes specifications. -/
theorem preserves_heads_run : Preserves HeadsKept (b.run env) := by
  have hframe := builderFrame_heads .azure
  apply (InfrastructureBuilder.preserves_getResourceGroup hframe).bind
  intro resourceGroup
  apply (InfrastructureBuilder.preserves_getVirtualNetwork hframe).bind
  intro vnet
  apply (preserves_heads_configWith _ _ _ _ _).bind
  intro storage
  apply (preserves_heads_configWith _ _ _ _ _).bind
  intro cloudInit
  apply (preserves_lift _).bind
  intro components
  apply (preserves_lift _).bind
  intro components
  apply (InfrastructureBuilder.preserves_buildComponents hframe
    (preserves_machineDefinition preserves_newDoc
      (fun id value => preserves_heads_setSpecAttr id _ value))
    (fun _ _ _ _ _ => preserves_heads_getVm _ _ _ _ _) cloudInit _ components).bind
  intro p
  apply (InfrastructureBuilder.preserves_setOsDistribution hframe cloudInit p).bind
  intro _
  exact preserves_pure _

/-- The emitted documents have no version but the one that runs, where the documents of the
user that a run takes have none. -/
theorem run_current {infrastructure : List Emitted}
    (hdefaults : DefaultsCurrent env.schema env.version)
    (h : Ready env.version b.docs
      (queries b.useNetworkSecurityGroups.truthy b.usePublicIps.truthy b.clusterModel) s)
    (hrun : b.run env s = .ok (infrastructure, s')) :
    AllCurrent env.version s' (infrastructure.map Emitted.doc) ∧ HeadsKept s s' := by
  simp only [InfrastructureBuilder.run, InfrastructureBuilder.getResourceGroup,
    InfrastructureBuilder.getVirtualNetwork, InfrastructureBuilder.getStorageShareConfig,
    InfrastructureBuilder.getCloudInitCustomData, BuildM.bind_eq_ok, lift_eq_ok] at hrun
  obtain ⟨resourceGroup, s₁, ⟨_, _, ⟨-, rfl⟩, hgroup⟩, vnet, s₂, ⟨_, _, ⟨-, rfl⟩, hvnet⟩, storage,
    s₃, hstorage, cloudInit, s₄, hinit, value, _, ⟨hvalue, rfl⟩, components, _, ⟨hcomponents, rfl⟩,
    p, s₅, hbuild, _, s₆, hos, hret⟩ := hrun
  obtain ⟨rfl, rfl⟩ := BuildM.pure_eq_ok.mp hret
  have hmodel : modelComponents b.clusterModel = components := by
    simp [modelComponents, hvalue, Except.bind, hcomponents, Except.toOption]
  have hq : ∀ {kind}, kind ∈ alwaysEmitted → ⟨kind, none⟩ ∈
      queries b.useNetworkSecurityGroups.truthy b.usePublicIps.truthy b.clusterModel :=
    fun hkind => List.mem_append_left _ (mem_kindQueries hkind)
  obtain ⟨hcurrent₁, hheads₁⟩ := configWith_current h (hq (by decide)) hgroup
  have h₁ := h.mono hheads₁
  obtain ⟨hcurrent₂, hheads₂⟩ := configWith_current h₁ (hq (by decide)) hvnet
  have h₂ := h₁.mono hheads₂
  obtain ⟨hcurrent₃, hheads₃⟩ := configWith_current h₂ (hq (by decide)) hstorage
  have h₃ := h₂.mono hheads₃
  obtain ⟨hcurrent₄, hheads₄⟩ := configWith_current h₃ (hq (by decide)) hinit
  have hall₂ := ((allCurrent_singleton hcurrent₁).mono hheads₂).append
    (allCurrent_singleton hcurrent₂)
  have hall₃ := (hall₂.mono hheads₃).append (allCurrent_singleton hcurrent₃)
  have hstart : AllCurrent env.version s₄
      (⟨[⟨resourceGroup, none⟩, ⟨vnet, none⟩, ⟨storage, none⟩], none⟩ : Progress).ids :=
    hall₃.mono hheads₄
  obtain ⟨hp, hheads₅⟩ := buildComponents_current hdefaults (h₃.mono hheads₄) (by
    rw [queries, hmodel]
    exact List.subset_append_right _ _) hstart hbuild
  have hheads₆ : HeadsKept s₅ s₆ :=
    (InfrastructureBuilder.preserves_setOsDistribution (builderFrame_heads .azure) cloudInit p).rel
      hos
  have hend := (hp.append (allCurrent_singleton (hcurrent₄.mono hheads₅))).mono hheads₆
  rw [← Progress.ids_append p cloudInit none] at hend
  exact ⟨hend, Trans.trans hheads₁ (Trans.trans hheads₂ (Trans.trans hheads₃ (Trans.trans hheads₄
    (Trans.trans hheads₅ hheads₆))))⟩

/-- Where the components have requested subnets and machines, the documents of the network and
of the machines are the user's. -/
theorem emitsFound_forComponent {fixed : Emission.Fixed} {requests : Emission.Requests}
    {q : Emission.Plan} (h : Emission.Represents env b fixed s p requests q)
    (hsubnets : q.requests ≠ []) (hmachines : q.machines ≠ []) :
    EmitsFound b.docs (kindQueries (emittedForComponent b.useNetworkSecurityGroups.truthy
      b.usePublicIps.truthy)) s p.ids := by
  rw [emittedForComponent, kindQueries, List.map_append, List.map_append, emitsFound_append,
    emitsFound_append]
  refine ⟨⟨?_, ?_⟩, ?_⟩
  · have hsubnet := emitsFound_of_requested h (k := .subnet) (by decide) hsubnets
    exact emitsFound_append.mpr
      ⟨hsubnet, emitsFound_of_requested h (k := .interface) (by decide) hmachines⟩
  · cases huse : b.useNetworkSecurityGroups.truthy with
    | false => exact emitsFound_nil
    | true =>
        have hrequested : ∀ k, k = .group ∨ k = .association → Emission.requestsOf b q k ≠ [] := by
          rintro k (rfl | rfl) <;> simpa [Emission.requestsOf, huse] using hsubnets
        have hgroup := emitsFound_of_requested h (k := .group) (by decide)
          (hrequested _ (.inl rfl))
        exact emitsFound_append.mpr ⟨hgroup, emitsFound_of_requested h (k := .association)
          (by decide) (hrequested _ (.inr rfl))⟩
  · cases huse : b.usePublicIps.truthy with
    | false => exact emitsFound_nil
    | true =>
        exact emitsFound_of_requested h (k := .publicIp) (by decide)
          (by simpa [Emission.requestsOf, huse] using hmachines)

/-- Whatever a run takes it emits. -/
theorem run_emits {infrastructure : List Emitted} (hdocs : ∀ id ∈ b.docs, id < s.next)
    (hunique : ∀ id ∈ b.docs, (s.doc id).KeysUnique)
    (hrun : b.run env s = .ok (infrastructure, s')) :
    HeadsKept s s' ∧ EmitsFound b.docs
      (queries b.useNetworkSecurityGroups.truthy b.usePublicIps.truthy b.clusterModel) s'
      (infrastructure.map Emitted.doc) := by
  have hheads : HeadsKept s s' := preserves_heads_run.rel hrun
  obtain ⟨fixed, components, start, s₁, p, s₂, hfixed, hown, hcomponents, hstart, h₁, hloop, hos,
    rfl⟩ := Emission.run_cases hdocs hunique hrun
  have hmodel : modelComponents b.clusterModel = components := by
    change (componentsOf b.clusterModel).toOption.getD [] = components
    rw [hcomponents]
    rfl
  obtain ⟨hsub, hheads₁, hemits⟩ := buildComponents_emits h₁ hloop
  obtain ⟨requests, h₂⟩ := h₁.buildComponents hloop
  obtain ⟨-, h₃⟩ := h₂.setOsDistribution hos
  have hheads₂ : HeadsKept s₂ s' :=
    (InfrastructureBuilder.preserves_setOsDistribution (builderFrame_heads .azure) fixed.cloudInit
      p).rel hos
  change HeadsKept s s' ∧ EmitsFound b.docs _ s' (p.append fixed.cloudInit none).ids
  have hall : p.ids ⊆ (p.append fixed.cloudInit none).ids := by
    rw [Progress.ids_append]
    exact List.subset_append_left _ _
  refine ⟨hheads, ?_⟩
  rw [queries, emitsFound_append]
  constructor
  · intro q hq own hfind
    obtain ⟨kind, hkind, rfl⟩ := List.mem_map.mp hq
    have hself : fixed.own kind = some own := by
      rw [hown, ← hfind]
      exact ((⟨kind, none⟩ : DocQuery).find_heads hdocs hheads).symm
    obtain ⟨id, hid, -, hfound⟩ := exists_of_mem_forall₂ hstart.flip hkind
    obtain rfl := hfound own hself
    refine .of_mem ?_ ?_
    · rw [Progress.ids_append]
      exact List.append_subset.mpr
        ⟨List.subset_append_of_subset_left _ hsub, List.subset_append_right _ _⟩ hid
    · exact (hdocs id (List.mem_of_find?_eq_some ((hown kind).symm.trans hself))).trans_le
        hheads.next_le
  · intro q hq
    obtain ⟨component, hmem, hq⟩ := List.mem_flatMap.mp hq
    rw [hmodel] at hmem
    rw [componentQueries] at hq
    split at hq
    · cases hq
    · next hcount =>
        rcases List.mem_append.mp hq with hq | hq
        · obtain ⟨hsubnets, hmachines⟩ :=
            Emission.planComponents_ne_nil (fixed.replaced .subnet) fixed.docs ⟨[], [], []⟩ hmem
              hcount
          exact emitsFound_forComponent h₃ hsubnets hmachines q hq
        · exact ((hemits component hmem hcount).mono h₂.docs hheads₂).subset hall q hq

end

end Azure

end LambdaStack
