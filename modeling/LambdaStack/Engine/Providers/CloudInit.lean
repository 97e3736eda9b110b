/-
# The cloud-init documents of a run

The file a cloud-init document names is copied to the directory of the Terraform files.
Only the Azure builder emits such a document, it emits one, and it has assigned the name
of the file itself, whatever a document of the user says.
-/

import LambdaStack.Engine.Providers.Aws.References
import LambdaStack.Engine.Providers.Azure.References
import LambdaStack.Engine.Terraform.TerraformTemplateGenerator

namespace LambdaStack

open Lib BuildM

/-- The kinds of documents that are no cluster models. -/
def otherKinds : Set String := {kind | kind ≠ "lambdastack-cluster"}

theorem subset_otherKinds {kinds : Set String} (h : "lambdastack-cluster" ∉ kinds) :
    kinds ⊆ otherKinds := by
  rintro kind hkind rfl
  exact h hkind

namespace Aws

theorem cluster_notMem_loopKinds : "lambdastack-cluster" ∉ loopKinds := by
  rintro (heq | ⟨k, hk⟩)
  · exact absurd heq (by decide)
  · cases k <;> simp [Requested.kind, vmKind] at hk

section

variable {env : Env} {b : InfrastructureBuilder} {fixed : Fixed} {s s' : Store}
  {ids emitted start : List DocId} {requests : Requests} {p : Plan}

/-- A component emits documents of requested kinds, whatever the user replaces. -/
theorem Represents.buildComponent_emits (h : Represents env b fixed s ids requests p)
    (hemits : Emits requestedKinds s start ids) {component : String × Val}
    (hrun : b.buildComponent env fixed.shared ids component s = .ok (emitted, s')) :
    Emits requestedKinds s' start emitted := by
  rcases buildComponent_cases hrun with ⟨-, rfl, rfl⟩ |
    ⟨-, lp, s₁, autoscalingGroup, s₂, hbuild, hmachine, hlaunch⟩
  · exact hemits
  · have hstart : InLoop env b fixed s ⟨ids, [], [], 0⟩ requests p.placed
        ⟨p.requests, [], 0⟩ := { h with
      subnetsToCreate := .nil
      groupsToCreate := .nil
      index := rfl }
    obtain ⟨_, hkeep₁, -, h₁, -⟩ := hstart.buildSubnets hbuild
    obtain ⟨-, hemits₁⟩ := buildSubnets_emits h.docs hbuild
    obtain ⟨mountEfs, s₃, hmade, hend⟩ := h₁.machineMade h.toTracked hkeep₁ hmachine hlaunch
    have hall := hmade.emits hkeep₁ hemits₁ hemits
    split at hend
    · have hefsKind : (s₃.doc fixed.shared.efsConfig).IsKind "infrastructure/efs-storage" := by
        rw [hmade.efs]
        exact h.efsKind
      exact hall.keeps (efsAddMountTargets_keeps hmade.efsLt hefsKind hend)
    · subst hend
      exact hall

theorem Represents.buildComponents_emits (h : Represents env b fixed s ids requests p)
    (hemits : Emits requestedKinds s start ids) {components : Entries}
    (hrun : b.buildComponents env fixed.shared ids components s = .ok (emitted, s')) :
    Emits requestedKinds s' start emitted := by
  induction components generalizing s ids requests p with
  | nil =>
      obtain ⟨rfl, rfl⟩ := BuildM.pure_eq_ok.mp hrun
      exact hemits
  | cons component rest ih =>
      obtain ⟨ids₁, s₁, hfirst, hrest⟩ := BuildM.bind_eq_ok.mp hrun
      obtain ⟨_, -, -, h₁, -⟩ := h.buildComponent hfirst
      exact ih h₁ (h.buildComponent_emits hemits hfirst) hrest

/-- A run changes no cluster model, and what it emits is of a kind that is made before the
component loop or requested by a component. -/
theorem run_kinds {keys : KeySource} {infrastructure : List DocId}
    (hdocs : ∀ id ∈ b.docs, id < s.next) (hunique : ∀ id ∈ b.docs, (s.doc id).KeysUnique)
    (hrun : b.run env keys s = .ok (infrastructure, s')) :
    Keeps otherKinds s s' ∧ ∀ id ∈ infrastructure, id < s'.next ∧
      ∃ kind, (kind ∈ startKinds ∨ kind ∈ requestedKinds) ∧ (s'.doc id).IsKind kind := by
  simp only [InfrastructureBuilder.run, BuildM.bind_eq_ok] at hrun
  obtain ⟨start, s₁, hstart, emitted, s₂, hloop, hefs⟩ := hrun
  obtain ⟨fixed, hshared, -, -, -, ⟨hlt, hkind⟩, h₁⟩ := start_represents hdocs hunique hstart
  obtain ⟨vpc, resourceGroup, gateway, hbuilt, -, hids, -⟩ := start_built hdocs hstart
  rw [← hshared] at hloop hefs
  have hemits := h₁.buildComponents_emits (.refl _ _ _) hloop
  obtain ⟨_, hkeep₂, h₂⟩ := h₁.buildComponents hloop
  obtain ⟨hkeep₃, h₃⟩ :=
    h₂.addEfs (hlt.trans_le hkeep₂.next) ((hkeep₂.isKind hlt _).mpr hkind) hefs
  have hstartKinds : "lambdastack-cluster" ∉ startKinds := by decide
  have hkeep₁ : Keeps otherKinds s s₁ := hbuilt.keep.mono (subset_otherKinds hstartKinds)
  have hkeep : Keeps otherKinds s₁ s' :=
    (hkeep₂.mono (subset_otherKinds cluster_notMem_loopKinds)).trans
      (hkeep₃.mono (subset_otherKinds (by simp [efsKinds])))
  have hloopKinds : ∀ id ∈ emitted, ∃ kind, (kind ∈ startKinds ∨ kind ∈ requestedKinds) ∧
      (s'.doc id).IsKind kind := by
    intro id hid
    obtain ⟨new, rfl, hnew⟩ := (hemits.keeps hkeep₃).new
    rcases List.mem_append.mp hid with hid | hid
    · have hmade : id ∈ (startDocs env b s start vpc resourceGroup gateway).map StartDoc.id := by
        rw [hids] at hid
        simp only [startDocs, List.map_cons, List.map_nil, List.mem_cons] at hid ⊢
        tauto
      obtain ⟨d, hd, rfl⟩ := List.mem_map.mp hmade
      obtain ⟨hdlt, hdkind, -⟩ := hbuilt.docs d hd
      have hstartKind : d.kind ∈ startKinds := List.mem_map_of_mem (f := StartDoc.kind) hd
      exact ⟨d.kind, Or.inl hstartKind, (hkeep.isKind hdlt _).mpr hdkind⟩
    · obtain ⟨-, kind, hmem, hisKind⟩ := hnew id hid
      exact ⟨kind, Or.inr hmem, hisKind⟩
  refine ⟨hkeep₁.trans hkeep, fun id hid => ⟨h₃.allocated id hid, ?_⟩⟩
  rcases addEfs_cases hefs with ⟨rfl, -⟩ | ⟨rfl, -⟩
  · exact hloopKinds id hid
  · rcases List.mem_append.mp hid with hid | hid
    · exact hloopKinds id hid
    · rw [List.mem_singleton.mp hid]
      exact ⟨_, Or.inl (by decide), h₃.efsKind⟩

/-- An AWS run emits no cloud-init document. -/
theorem run_no_cloudInit {keys : KeySource} {infrastructure : List DocId}
    (hdocs : ∀ id ∈ b.docs, id < s.next) (hunique : ∀ id ∈ b.docs, (s.doc id).KeysUnique)
    (hrun : b.run env keys s = .ok (infrastructure, s')) :
    ∀ id ∈ infrastructure, ¬ (s'.doc id).IsKind TerraformTemplateGenerator.cloudInitKind := by
  intro id hid hcloud
  obtain ⟨-, kind, hkinds, hkind⟩ := (run_kinds hdocs hunique hrun).2 id hid
  have heq : kind = TerraformTemplateGenerator.cloudInitKind := by
    simpa using hkind.symm.trans hcloud
  subst heq
  rcases hkinds with hmem | ⟨k, hk⟩
  · simp [startKinds, TerraformTemplateGenerator.cloudInitKind] at hmem
  · cases k <;> simp [Requested.kind, vmKind, TerraformTemplateGenerator.cloudInitKind] at hk

end

end Aws

namespace Azure.Emission

section

variable {env : BuilderEnv} {b : InfrastructureBuilder} {start : List DocId} {p p' : Progress}
  {s s' : Store} {componentKey : String}

theorem cloudInitKind_notMem : cloudInitKind ∉ requestedKinds := by
  rintro ⟨k, hk⟩
  refine kind_notMem_startKinds k ?_
  rw [hk]
  simp [startKinds]

/-- A step that changes documents of one requested kind. -/
theorem keeps_requested {k : Requested} (h : Keeps {k.kind} s s') : Keeps requestedKinds s s' :=
  h.mono (Set.singleton_subset_iff.mpr (Set.mem_range_self k))

theorem machineKinds_subset : machineKinds ⊆ requestedKinds := by
  intro kind hkind
  simp only [machineKinds, Set.mem_insert_iff, Set.mem_singleton_iff] at hkind
  rcases hkind with rfl | rfl | rfl
  · exact ⟨.publicIp, rfl⟩
  · exact ⟨.interface, rfl⟩
  · exact ⟨.machine, rfl⟩

theorem subnetFor_keeps (h : Emitting b start s p.ids) {addressPool : Val}
    {vmConfig subnet : DocId}
    (hrun : b.subnetFor env componentKey addressPool vmConfig p s = .ok ((subnet, p'), s')) :
    Keeps requestedKinds s s' := by
  simp only [InfrastructureBuilder.subnetFor, BuildM.bind_eq_ok] at hrun
  obtain ⟨found, _, hread, hrun⟩ := hrun
  obtain ⟨-, rfl⟩ := reads_eq_ok.mp hread
  cases found with
  | some found =>
      obtain ⟨heq, rfl⟩ := BuildM.pure_eq_ok.mp hrun
      exact .refl _ _
  | none =>
      obtain ⟨_, s₁, hsubnet, hrun⟩ := BuildM.bind_eq_ok.mp hrun
      obtain ⟨hkeep₁, h₁⟩ :=
        h.config (k := .subnet) (by decide) (by simp) hsubnet (some componentKey)
      split at hrun
      · simp only [BuildM.bind_eq_ok, lift_eq_ok] at hrun
        obtain ⟨security, _, hread, rules, _, ⟨-, rfl⟩, nsg, s₂, hnsg, subnetName, _, hread',
          nsgName, _, hread'', association, s₃, hassociation, hrun⟩ := hrun
        obtain ⟨-, rfl⟩ := specAttr_eq_ok.mp hread
        obtain ⟨-, rfl⟩ := specAttr_eq_ok.mp hread'
        obtain ⟨-, rfl⟩ := specAttr_eq_ok.mp hread''
        obtain ⟨-, rfl⟩ := BuildM.pure_eq_ok.mp hrun
        obtain ⟨hkeep₂, h₂⟩ :=
          h₁.config (k := .group) (by decide) (by simp) hnsg (some componentKey)
        obtain ⟨hkeep₃, -⟩ :=
          h₂.config (k := .association) (by decide) (by simp) hassociation (some componentKey)
        exact (keeps_requested hkeep₁).trans
          ((keeps_requested hkeep₂).trans (keeps_requested hkeep₃))
      · obtain ⟨-, rfl⟩ := BuildM.pure_eq_ok.mp hrun
        exact keeps_requested hkeep₁

theorem availabilitySetFor_keeps {componentValue : Val} {found : Option DocId}
    (hrun : b.availabilitySetFor env componentKey componentValue p s = .ok ((found, p'), s')) :
    Keeps requestedKinds s s' := by
  unfold InfrastructureBuilder.availabilitySetFor at hrun
  cases hname : componentValue.attr? "availability_set" with
  | none =>
      simp only [hname] at hrun
      obtain ⟨-, rfl⟩ := BuildM.pure_eq_ok.mp hrun
      exact .refl _ _
  | some name =>
      simp only [hname] at hrun
      obtain ⟨known, _, hread, hrun⟩ := BuildM.bind_eq_ok.mp hrun
      obtain ⟨-, rfl⟩ := reads_eq_ok.mp hread
      cases known with
      | some id =>
          obtain ⟨-, rfl⟩ := BuildM.pure_eq_ok.mp hrun
          exact .refl _ _
      | none =>
          simp only [InfrastructureBuilder.getAvailabilitySet, BuildM.bind_eq_ok] at hrun
          obtain ⟨created, s₁, ⟨own, _, hread', hcreate⟩, hrun⟩ := hrun
          obtain ⟨hown, rfl⟩ := reads_eq_ok.mp hread'
          cases own with
          | none =>
              obtain ⟨rfl, rfl⟩ := BuildM.pure_eq_ok.mp hcreate
              obtain ⟨-, rfl⟩ := BuildM.pure_eq_ok.mp hrun
              exact .refl _ _
          | some id =>
              have hholds := List.find?_some (selectFirst_eq_ok hown).symm
              have hkind : (s.doc id).IsKind availabilitySetKind :=
                (kindAndNameAre_eq_ok_true.mp (holds?_eq_true.mp hholds)).1
              simp only [BuildM.bind_eq_ok, lift_eq_ok] at hcreate
              obtain ⟨_, _, ⟨-, rfl⟩, _, s₂, hset, hpure⟩ := hcreate
              obtain ⟨rfl, rfl⟩ := BuildM.pure_eq_ok.mp hpure
              obtain ⟨-, rfl⟩ := BuildM.pure_eq_ok.mp hrun
              exact keeps_requested (k := .availabilitySet)
                (assigned_setSpecAttr hkind (by decide) hset).keep

/-- One component changes and emits documents of requested kinds. -/
theorem Emitting.component (h : Emitting b start s p.ids)
    (hunique : ∀ id ∈ b.docs, (s.doc id).KeysUnique) {cloudInit : DocId}
    {component : String × Val}
    (hrun : b.buildComponent env cloudInit p component.1 component.2 s = .ok (p', s')) :
    Keeps requestedKinds s s' ∧ Emitting b start s' p'.ids := by
  simp only [InfrastructureBuilder.buildComponent, BuildM.bind_eq_ok, lift_eq_ok] at hrun
  obtain ⟨count, _, ⟨-, rfl⟩, inactive, _, ⟨-, rfl⟩, hrun⟩ := hrun
  split at hrun
  · obtain ⟨rfl, rfl⟩ := BuildM.pure_eq_ok.mp hrun
    exact ⟨.refl _ _, h⟩
  · simp only [BuildM.bind_eq_ok, lift_eq_ok, specAttr_eq_ok] at hrun
    obtain ⟨vmConfig, s₁, hmachine, enabled, _, ⟨-, rfl⟩, _, s₂, hset, addressPool, _, ⟨-, rfl⟩,
      ⟨subnet, p₃⟩, s₃, hsubnet, ⟨set, p₄⟩, s₄, havailable, vmCount, _, ⟨-, rfl⟩, hrun⟩ := hrun
    obtain ⟨hkeep₁, hlt, hmachineOrNull, -⟩ := getVirtualMachine_keeps h.docs hunique hmachine
    obtain ⟨hkeep₂, hvmKind, -⟩ := setSpecAttr_machine hmachineOrNull (by decide) hset
    have h₂ := (h.keeps hkeep₁).keeps hkeep₂
    have hkeep₃ := subnetFor_keeps h₂ hsubnet
    have hkeep₄ : Keeps requestedKinds s₃ s₄ := availabilitySetFor_keeps havailable
    have hkeep₃₄ := hkeep₃.trans hkeep₄
    have hvm := hlt.trans_le hkeep₂.next
    obtain ⟨hkeep₅, h₅⟩ := ((h₂.subnetFor hsubnet).availabilitySetFor havailable).buildMachines
      (hvm.trans_le hkeep₃₄.next) ((hkeep₃₄.isKind hvm vmKind).mpr hvmKind) hrun
    have hkeep₁₂ : Keeps requestedKinds s s₂ :=
      keeps_requested (k := .machine) (hkeep₁.trans hkeep₂)
    exact ⟨hkeep₁₂.trans (hkeep₃₄.trans (hkeep₅.mono machineKinds_subset)), h₅⟩

theorem Emitting.components (h : Emitting b start s p.ids)
    (hunique : ∀ id ∈ b.docs, (s.doc id).KeysUnique) {cloudInit : DocId} {components : Entries}
    (hrun : b.buildComponents env cloudInit p components s = .ok (p', s')) :
    Keeps requestedKinds s s' ∧ Emitting b start s' p'.ids := by
  induction components generalizing s p with
  | nil =>
      obtain ⟨rfl, rfl⟩ := BuildM.pure_eq_ok.mp hrun
      exact ⟨.refl _ _, h⟩
  | cons component rest ih =>
      obtain ⟨p₁, s₁, hfirst, hrest⟩ := BuildM.bind_eq_ok.mp hrun
      obtain ⟨hkeep₁, h₁⟩ := h.component hunique hfirst
      have hunique₁ : ∀ id ∈ b.docs, (s₁.doc id).KeysUnique := fun id hid =>
        (hkeep₁.doc id (h.docs id hid)).unique (hunique id hid)
      obtain ⟨hkeep₂, h₂⟩ := ih h₁ hunique₁ hrest
      exact ⟨hkeep₁.trans hkeep₂, h₂⟩

theorem setOsDistribution_fileName {cloudInit : DocId} {u : Unit}
    (hrun : InfrastructureBuilder.setOsDistribution env cloudInit p s = .ok (u, s')) (id : DocId) :
    (s'.doc id).specAttr? "file_name" = (s.doc id).specAttr? "file_name" := by
  rw [InfrastructureBuilder.setOsDistribution, BuildM.bind_eq_ok] at hrun
  obtain ⟨firstVm, s₁, hselect, hrun⟩ := hrun
  obtain ⟨-, rfl⟩ := reads_eq_ok.mp hselect
  cases firstVm with
  | none =>
      obtain ⟨-, rfl⟩ := BuildM.pure_eq_ok.mp hrun
      rfl
  | some vm =>
      simp only [BuildM.bind_eq_ok, readDoc, reads_eq_ok, lift_eq_ok] at hrun
      obtain ⟨_, _, ⟨-, rfl⟩, _, _, ⟨-, rfl⟩, hset⟩ := hrun
      obtain ⟨doc, hdoc, rfl⟩ := setSpecAttr_eq_ok.mp hset
      by_cases heq : id = cloudInit
      · subst heq
        rw [s.write_doc_self, Val.specAttr?_withSpecAttr hdoc, if_neg (by decide)]
      · rw [s.write_doc_ne heq]

theorem cluster_notMem_requestedKinds : "lambdastack-cluster" ∉ requestedKinds := by
  rintro ⟨k, hk⟩
  cases k <;> exact absurd hk (by decide)

/-- A run changes no cluster model. The last document it emits is its only cloud-init
document, and it names the file the builder has assigned. -/
theorem run_cloudInit {infrastructure : List Emitted} (hdocs : ∀ id ∈ b.docs, id < s.next)
    (hunique : ∀ id ∈ b.docs, (s.doc id).KeysUnique)
    (hrun : b.run env s = .ok (infrastructure, s')) :
    Keeps otherKinds s s' ∧ ∃ ids cloudInit, infrastructure.map Emitted.doc = ids ++ [cloudInit] ∧
      (∀ id ∈ ids ++ [cloudInit], id < s'.next) ∧
      (∀ id ∈ ids, ¬ (s'.doc id).IsKind cloudInitKind) ∧
      (s'.doc cloudInit).IsKind cloudInitKind ∧
      (s'.doc cloudInit).specAttr? "file_name" = some (.str "cloud-config.yml") := by
  simp only [InfrastructureBuilder.run, BuildM.bind_eq_ok, lift_eq_ok,
    InfrastructureBuilder.getResourceGroup, InfrastructureBuilder.getVirtualNetwork] at hrun
  obtain ⟨resourceGroup, s₁, ⟨_, _, ⟨-, rfl⟩, hresourceGroup⟩, vnet, s₂,
    ⟨_, _, ⟨-, rfl⟩, hvnet⟩, sharedStorage, s₃, hstorage, cloudInit, s₄, hcloudInit,
    _, _, ⟨-, rfl⟩, components, _, ⟨-, rfl⟩, p, s₅, hloop, _, s₆, hos, hpure⟩ := hrun
  obtain ⟨rfl, rfl⟩ := BuildM.pure_eq_ok.mp hpure
  obtain ⟨hkeep₁, -, hlt₁, hkind₁, -⟩ :=
    configWith_eq_ok hdocs (by decide) (by simp) hresourceGroup
  have hdocs₁ : ∀ id ∈ b.docs, id < s₁.next := fun id hid => (hdocs id hid).trans_le hkeep₁.next
  obtain ⟨hkeep₂, -, hlt₂, hkind₂, -⟩ := configWith_eq_ok hdocs₁ (by decide) (by simp) hvnet
  have hdocs₂ : ∀ id ∈ b.docs, id < s₂.next := fun id hid => (hdocs₁ id hid).trans_le hkeep₂.next
  obtain ⟨hkeep₃, -, hlt₃, hkind₃, -⟩ := configWith_eq_ok hdocs₂ (by decide) (by simp) hstorage
  have hdocs₃ : ∀ id ∈ b.docs, id < s₃.next := fun id hid => (hdocs₂ id hid).trans_le hkeep₃.next
  obtain ⟨hkeep₄, -, hlt₄, hkind₄, -, hfields₄⟩ :=
    configWith_eq_ok hdocs₃ (by decide) (by simp) hcloudInit
  have hother : ∀ {kind s s'}, Keeps {kind} s s' → kind ≠ "lambdastack-cluster" →
      Keeps otherKinds s s' := fun hkeep hne =>
    hkeep.mono (subset_otherKinds fun hmem => hne (Set.mem_singleton_iff.mp hmem).symm)
  have hkeep₁' := hother hkeep₁ (by decide)
  have hkeep₂₄ := (hother hkeep₃ (by decide)).trans (hother hkeep₄ (by decide))
  have hkeep₁₄ := (hother hkeep₂ (by decide)).trans hkeep₂₄
  have hkeep := hkeep₁'.trans hkeep₁₄
  have hemitting : Emitting b [resourceGroup, vnet, sharedStorage] s₄
      (Progress.mk [⟨resourceGroup, none⟩, ⟨vnet, none⟩, ⟨sharedStorage, none⟩] none).ids :=
    ⟨fun id hid => (hdocs id hid).trans_le hkeep.next, .refl _ _ _⟩
  obtain ⟨hkeep₅, hemitted⟩ := hemitting.components
    (fun id hid => (hkeep.doc id (hdocs id hid)).unique (hunique id hid)) hloop
  have hkeep₆ := setOsDistribution_keeps ((hkeep₅.isKind hlt₄ _).mpr hkind₄) hos
  have hlast : Keeps otherKinds s₄ s₆ :=
    (hkeep₅.mono (subset_otherKinds cluster_notMem_requestedKinds)).trans
      (hother hkeep₆ (by decide))
  refine ⟨hkeep.trans hlast, p.ids, cloudInit, Progress.ids_append _ _ _, fun id hid => ?_,
    fun id hid hkind => ?_, (hlast.isKind hlt₄ _).mpr hkind₄, ?_⟩
  · rcases List.mem_append.mp hid with hid | hid
    · obtain ⟨new, hnew, hnewlt⟩ := (hemitted.keeps hkeep₆).emits.new
      rw [hnew] at hid
      simp only [List.mem_append, List.mem_cons, List.not_mem_nil, or_false] at hid
      rcases hid with (rfl | rfl | rfl) | hid
      · exact hlt₁.trans_le (hkeep₁₄.trans hlast).next
      · exact hlt₂.trans_le (hkeep₂₄.trans hlast).next
      · exact hlt₃.trans_le ((hother hkeep₄ (by decide)).trans hlast).next
      · exact (hnewlt id hid).1
    · rw [List.mem_singleton.mp hid]
      exact hlt₄.trans_le hlast.next
  · -- The documents of the start have kinds of their own, those of the loop requested ones.
    have hmem : id ∈ ofKind cloudInitKind s₆ p.ids := mem_ofKind.mpr ⟨hid, hkind⟩
    rw [ofKind, (hemitted.keeps hkeep₆).emits.filter_eq cloudInitKind_notMem] at hmem
    have hstart : ∀ {id kind s}, id < s.next → Keeps otherKinds s s₆ → (s.doc id).IsKind kind →
        kind ≠ cloudInitKind → ¬ (s₆.doc id).IsKind cloudInitKind := by
      intro id kind s hlt hkeep hisKind hne hcloud
      have hsame := ((hkeep.isKind hlt kind).mpr hisKind).symm.trans hcloud
      exact hne (by simpa using hsame)
    have hid := (List.mem_filter.mp hmem).1
    simp only [List.mem_cons, List.not_mem_nil, or_false] at hid
    rcases hid with rfl | rfl | rfl
    · exact hstart hlt₁ (hkeep₁₄.trans hlast) hkind₁ (by decide) hkind
    · exact hstart hlt₂ (hkeep₂₄.trans hlast) hkind₂ (by decide) hkind
    · exact hstart hlt₃ ((hother hkeep₄ (by decide)).trans hlast) hkind₃ (by decide) hkind
  · rw [setOsDistribution_fileName hos, hkeep₅.same hlt₄ hkind₄ cloudInitKind_notMem]
    exact hfields₄ "file_name" _ rfl

end

end Azure.Emission

end LambdaStack
