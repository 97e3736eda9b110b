/-
# The mount targets of the file system

A component whose machines mount the file system adds a mount target for the
availability zone of each of its subnets, unless there is one. What a machine
definition says about the file system is read off the input documents, and no step
of the component loop changes it.
-/

import LambdaStack.Engine.Providers.Aws.NetworkRun
import LambdaStack.Engine.Providers.Aws.MachineTags

namespace LambdaStack

open Lib BuildM

namespace Aws

/-! ## What machine definitions say about the file system -/

/-- The parts of a machine definition that are about the file system. -/
def efsParts : List String := ["mount_efs", "authorized_to_efs"]

/-- A step that keeps what selects a machine definition and its parts about the file
system. -/
structure KeepsEfsParts (x y : Val) : Prop where
  kind : y.attr? "kind" = x.attr? "kind"
  name : y.attr? "name" = x.attr? "name"
  unique : x.KeysUnique → y.KeysUnique
  parts : x.IsKind vmKind → ∀ key ∈ efsParts, y.specAttr? key = x.specAttr? key

instance : Std.Refl KeepsEfsParts := ⟨fun _ => ⟨rfl, rfl, id, fun _ _ _ => rfl⟩⟩

instance : IsTrans Val KeepsEfsParts :=
  ⟨fun _ _ _ h h' => ⟨h'.kind.trans h.kind, h'.name.trans h.name,
    fun hx => h'.unique (h.unique hx), fun hx key hkey =>
      (h'.parts (by rwa [Val.IsKind, h.kind]) key hkey).trans (h.parts hx key hkey)⟩⟩

theorem KeepsEfsParts.withSpecAttr {x y value : Val} {key : String} (hkey : key ∉ efsParts)
    (h : x.withSpecAttr key value = .ok y) : KeepsEfsParts x y where
  kind := Val.attr?_withSpecAttr h (by decide)
  name := Val.attr?_withSpecAttr h (by decide)
  unique hx := hx.withSpecAttr h
  parts _ other hother := by
    rw [Val.specAttr?_withSpecAttr h, if_neg]
    rintro rfl
    exact hkey hother

/-- Every machine definition keeps its parts about the file system. -/
abbrev EfsPartsKept : Store → Store → Prop := Store.Evolves KeepsEfsParts

/-- A step on documents of other kinds. -/
theorem efsPartsKept_of_keeps {changing : Set String} {s s' : Store} (h : Keeps changing s s')
    (hout : vmKind ∉ changing) : EfsPartsKept s s' where
  next_le := h.next
  doc id hid := by
    have hstep := h.doc id hid
    exact ⟨hstep.kind, hstep.name, hstep.unique, fun hvm _ _ => by rw [h.same hid hvm hout]⟩

theorem preserves_efs_setSpecAttr (id : DocId) {key : String} (value : Val)
    (hkey : key ∉ efsParts) : Preserves EfsPartsKept (setSpecAttr id key value) :=
  preserves_setSpecAttr id fun _ _ h => .withSpecAttr hkey h

theorem preserves_efs_setSpecAttrs (id : DocId) {fields : List (String × Val)}
    (hfields : ∀ field ∈ fields, field.1 ∉ efsParts) :
    Preserves EfsPartsKept (setSpecAttrs id fields) := by
  induction fields with
  | nil => exact preserves_pure ()
  | cons field rest ih =>
      rw [List.forall_mem_cons] at hfields
      apply (preserves_efs_setSpecAttr id field.2 hfields.1).bind
      intro _
      exact ih hfields.2

section

variable {env : Env} {b : InfrastructureBuilder} {fixed : Fixed} {s s' : Store}
  {ids : List DocId} {requests : Requests} {p : Plan}

/-- A part of the machine definition a component selects. -/
def componentPart (env : Env) (b : InfrastructureBuilder) (docs : List Val) (key : String)
    (componentValue : Val) : Option Val :=
  (componentValue.getAttr "machine").toOption.bind
    (machinePart key env.toBuilderEnv b.clusterModel docs)

theorem componentPart_kept (hdocs : ∀ id ∈ b.docs, id < s.next) (h : EfsPartsKept s s')
    {key : String} (hkey : key ∈ efsParts) (componentValue : Val) :
    componentPart env b (b.docs.map s'.doc) key componentValue =
      componentPart env b (b.docs.map s.doc) key componentValue := by
  have hpart : ∀ machineSelector,
      machinePart key env.toBuilderEnv b.clusterModel (b.docs.map s'.doc) machineSelector =
        machinePart key env.toBuilderEnv b.clusterModel (b.docs.map s.doc) machineSelector :=
    machinePart_congr (fun _ _ h => h.kind) (fun _ _ h => h.name)
      (fun _ _ h hvm => KeepsEfsParts.parts h hvm key hkey) (forall₂_docs hdocs h) b.clusterModel
  unfold componentPart
  cases componentValue.getAttr "machine" with
  | error e => rfl
  | ok machineSelector => exact hpart machineSelector

theorem preserves_efs_setImage (id : DocId) (value : Val) :
    Preserves EfsPartsKept (setSpecAttr id (CloudProvider.imageField .aws) value) :=
  preserves_efs_setSpecAttr id value (by decide)

theorem preserves_efs_setGroupFields (componentKey : String) (componentValue : Val)
    (subnets : List DocId) (index : Nat) (autoscalingGroup : DocId) :
    Preserves EfsPartsKept (b.setGroupFields env componentKey componentValue subnets index
      autoscalingGroup) := by
  apply (preserves_lift _).bind
  intro count
  apply (InfrastructureBuilder.preserves_specAttrs "name" subnets).bind
  intro names
  apply (InfrastructureBuilder.preserves_specAttrs "availability_zone" subnets).bind
  intro zones
  apply (preserves_efs_setSpecAttrs autoscalingGroup (by simp [efsParts])).bind
  intro _
  apply (preserves_reads _).bind
  intro tags
  apply (preserves_lift _).bind
  intro tags
  exact preserves_efs_setSpecAttr autoscalingGroup _ (by decide)

/-- An autoscaling group has the parts its component's machine definition has. -/
theorem getAutoscalingGroup_efsParts {componentKey : String} {componentValue : Val}
    {subnets : List DocId} {index : Nat} {autoscalingGroup : DocId}
    (hdocs : ∀ id ∈ b.docs, id < s.next) (hunique : ∀ id ∈ b.docs, (s.doc id).KeysUnique)
    (hvm : (s'.doc autoscalingGroup).IsKind vmKind)
    (h : b.getAutoscalingGroup env componentKey componentValue subnets index s =
      .ok (autoscalingGroup, s')) :
    EfsPartsKept s s' ∧ ∀ key ∈ efsParts, (s'.doc autoscalingGroup).specAttr? key =
      componentPart env b (b.docs.map s.doc) key componentValue := by
  simp only [InfrastructureBuilder.getAutoscalingGroup, BuildM.bind_eq_ok] at h
  obtain ⟨model, s₁, hmachine, copy, _, hread, id, _, hnew, _, s₃, hset, hret⟩ := h
  obtain ⟨rfl, rfl⟩ := BuildM.pure_eq_ok.mp hret
  obtain ⟨hcopy, rfl⟩ := reads_eq_ok.mp hread
  cases hcopy
  obtain ⟨rfl, rfl⟩ := newDoc_eq_ok.mp hnew
  have hkept₁ := (preserves_machineDefinition preserves_newDoc preserves_efs_setImage
    componentValue).rel hmachine
  obtain ⟨machineSelector, s₀, hselector, hselect, hkept₀⟩ :=
    getVirtualMachine_selected preserves_newDoc preserves_efs_setImage hmachine
  have hkept₃ := (preserves_efs_setGroupFields componentKey componentValue subnets index
    s₁.next).rel hset
  have hcopied := hkept₃.doc s₁.next (Nat.lt_succ_self _)
  rw [s₁.alloc_doc_self] at hcopied
  refine ⟨Trans.trans hkept₁ (Trans.trans (Store.evolves_alloc (R := KeepsEfsParts) s₁ _) hkept₃),
    fun key hkey => ?_⟩
  obtain ⟨htree, hstore⟩ := selectMachine_eq_ok hselect
  have hlt : model < s₀.next := by
    rcases hstore with ⟨hmem, rfl⟩ | ⟨rfl, hs⟩
    · exact hdocs model hmem
    · rw [hs]
      exact Nat.lt_succ_self _
  have hmodel := hkept₀.doc model hlt
  have hvm₁ : (s₁.doc model).IsKind vmKind := by rwa [Val.IsKind, ← hcopied.kind]
  have hvm₀ : (s₀.doc model).IsKind vmKind := by rwa [Val.IsKind, ← hmodel.kind]
  have hnull : s₀.doc model ≠ .null := by
    intro heq
    simp [heq, Val.IsKind, Val.attr?] at hvm₀
  obtain ⟨-, hpart⟩ := machineTree_eq_ok (by simpa using hunique) hnull htree
  rw [hcopied.parts hvm₁ key hkey, hmodel.parts hvm₀ key hkey, hpart, componentPart, hselector]
  rfl

/-! ## The mount targets of a component -/

/-- Two mount targets in one availability zone. -/
def SameZone (target other : Val) : Prop :=
  ∃ zone otherZone, target.attr? "availability_zone" = some zone ∧
    other.attr? "availability_zone" = some otherZone ∧ zone.pyEq otherZone = true

/-- A mount target in the zone of a subnet. -/
def IsTargetFor (s : Store) (subnet : DocId) (target : Val) : Prop :=
  ∃ zone, (s.doc subnet).specAttr? "availability_zone" = some zone ∧
    target.attr? "availability_zone" = some zone

/-- What adding the mount targets of some subnets does to the documents. -/
structure TargetsAdded (efsConfig : DocId) (subnets : List DocId) (old : List Val)
    (s s' : Store) : Prop where
  frame : s.Frame {efsConfig} s'
  added : ∃ items new, List.Forall₂ (IsTargetFor s) subnets items ∧
    (s'.doc efsConfig).specAttr? "mount_targets" = some (.list new) ∧
    Extended SameZone items old new

/-- One subnet: its target is appended unless there is one in its zone. -/
theorem efsAddMountTargetConfig_added {efsConfig subnet : DocId} {old : List Val} {u : Unit}
    (hold : (s.doc efsConfig).specAttr? "mount_targets" = some (.list old))
    (h : InfrastructureBuilder.efsAddMountTargetConfig efsConfig subnet s = .ok (u, s')) :
    TargetsAdded efsConfig [subnet] old s s' := by
  simp only [InfrastructureBuilder.efsAddMountTargetConfig, BuildM.bind_eq_ok, lift_eq_ok] at h
  obtain ⟨value, _, hread, items, _, ⟨hitems, rfl⟩, zone, _, hread', found, _, ⟨hfound, rfl⟩, h⟩ :=
    h
  obtain ⟨hvalue, rfl⟩ := specAttr_eq_ok.mp hread
  obtain ⟨hzone, rfl⟩ := specAttr_eq_ok.mp hread'
  obtain rfl : old = items := by
    rw [Option.some.inj (hold.symm.trans hvalue).symm] at hitems
    cases hitems
    rfl
  have hfound := selectFirst_eq_ok hfound
  cases found with
  | some item =>
      obtain ⟨-, rfl⟩ := BuildM.pure_eq_ok.mp h
      -- the item that was found is in the zone of the subnet
      have hholds := List.find?_some hfound.symm
      rw [Function.comp_apply, holds?_eq_true] at hholds
      obtain ⟨own, hown, hsame⟩ := Lib.bind_eq_ok.mp hholds
      refine ⟨.refl _ _, [.dict [("availability_zone", zone)]], old,
        .cons ⟨zone, hzone, rfl⟩ .nil, hold, .known ⟨item, ?_, own, zone, ?_, rfl, ?_⟩⟩
      · exact List.mem_of_find?_eq_some hfound.symm
      · exact Val.getItem_eq_ok.mp hown
      · exact Except.ok.inj hsame
  | none =>
      simp only [BuildM.bind_eq_ok, lift_eq_ok] at h
      obtain ⟨subnetName, _, hname, name, _, ⟨-, rfl⟩, hset⟩ := h
      obtain ⟨-, rfl⟩ := specAttr_eq_ok.mp hname
      obtain ⟨doc, hdoc, rfl⟩ := setSpecAttr_eq_ok.mp hset
      refine ⟨s.frame_write (Set.mem_singleton _) doc,
        [.dict [("name", .str ("efs-" ++ name ++ "-mount")), ("subnet_name", subnetName),
          ("availability_zone", zone)]], _, .cons ⟨zone, hzone, rfl⟩ .nil, ?_, .lacking ?_⟩
      · rw [s.write_doc_self, Val.specAttr?_withSpecAttr hdoc, if_pos rfl]
      · rintro item hitem ⟨own, _, hown, hother, hsame⟩
        cases hother
        have hno := List.find?_eq_none.mp hfound.symm item hitem
        rw [Function.comp_apply, holds?_eq_true] at hno
        exact hno (Lib.bind_eq_ok.mpr ⟨own, Val.getItem_eq_ok.mpr hown, congrArg _ hsame⟩)

/-- The subnets of a component one after another. -/
theorem efsAddMountTargets_added {efsConfig : DocId} {subnets : List DocId} {old : List Val}
    {u : Unit} (hother : efsConfig ∉ subnets) (hlt : ∀ id ∈ subnets, id < s.next)
    (hold : (s.doc efsConfig).specAttr? "mount_targets" = some (.list old))
    (h : InfrastructureBuilder.efsAddMountTargets efsConfig subnets s = .ok (u, s')) :
    TargetsAdded efsConfig subnets old s s' := by
  induction subnets generalizing s old with
  | nil =>
      obtain ⟨-, rfl⟩ := BuildM.pure_eq_ok.mp h
      exact ⟨.refl _ _, [], old, .nil, hold, .nil old⟩
  | cons subnet rest ih =>
      obtain ⟨_, s₁, hfirst, hrest⟩ := BuildM.bind_eq_ok.mp h
      rw [List.mem_cons, not_or] at hother
      rw [List.forall_mem_cons] at hlt
      obtain ⟨hframe₁, items₁, mid, hitems₁, hmid, hext₁⟩ :=
        efsAddMountTargetConfig_added hold hfirst
      obtain ⟨hframe₂, items₂, new, hitems₂, hnew, hext₂⟩ :=
        ih hother.2 (fun id hid => (hlt.2 id hid).trans_le hframe₁.1) hmid hrest
      refine ⟨hframe₁.trans hframe₂, items₁ ++ items₂, new, ?_, hnew, hext₁.trans hext₂⟩
      apply List.rel_append hitems₁
      -- the zones are read where the targets of the first subnet have been added
      have hsame : ∀ id ∈ rest, ∀ item, IsTargetFor s₁ id item → IsTargetFor s id item := by
        rintro id hid item ⟨zone, hzone, hitem⟩
        rw [hframe₁.2 id (hlt.2 id hid) fun heq => hother.2 (heq ▸ hid)] at hzone
        exact ⟨zone, hzone, hitem⟩
      exact ((List.forall₂_and_left rest items₂).mpr ⟨fun id hid => hid, hitems₂⟩).imp
        fun id item ⟨hid, hitem⟩ => hsame id hid item hitem

/-! ## The documents a component brings -/

theorem buildSubnet_emits {lp lp' : InfrastructureBuilder.SubnetLoop} {routeTable : DocId}
    {vpcName subnetDefinition : Val} {componentKey : String}
    (hdocs : ∀ id ∈ b.docs, id < s.next)
    (h : b.buildSubnet env routeTable vpcName componentKey lp subnetDefinition s =
      .ok (lp', s')) :
    Keeps subnetKinds s s' ∧ Emits subnetKinds s' lp.infrastructure lp'.infrastructure := by
  simp only [InfrastructureBuilder.buildSubnet, BuildM.bind_eq_ok] at h
  obtain ⟨found, _, hread, foundGroup, _, hread', h⟩ := h
  obtain ⟨-, rfl⟩ := reads_eq_ok.mp hread
  obtain ⟨-, rfl⟩ := reads_eq_ok.mp hread'
  cases found with
  | some subnet =>
      obtain ⟨rfl, rfl⟩ := BuildM.pure_eq_ok.mp h
      exact ⟨.refl _ _, .refl _ _ _⟩
  | none =>
      simp only [BuildM.bind_eq_ok, InfrastructureBuilder.getSubnet, lift_eq_ok,
        InfrastructureBuilder.getSecurityGroup] at h
      obtain ⟨subnet, s₁, ⟨_, _, ⟨-, rfl⟩, _, _, ⟨-, rfl⟩, hsubnet⟩, group, s₂,
        ⟨_, _, hcidr, hgroup⟩, _, _, hroute, _, _, hname, association, s₃, hassociation, h⟩ := h
      obtain ⟨-, rfl⟩ := specAttr_eq_ok.mp hcidr
      obtain ⟨-, rfl⟩ := specAttr_eq_ok.mp hroute
      obtain ⟨-, rfl⟩ := specAttr_eq_ok.mp hname
      obtain ⟨rfl, rfl⟩ := BuildM.pure_eq_ok.mp h
      have hmade₁ := (made_config hdocs (by decide) (by simp) hsubnet).1
      have hdocs₁ : ∀ id ∈ b.docs, id < s₁.next :=
        fun id hid => (hdocs id hid).trans_le hmade₁.keep.next
      have hmade₂ := (made_config hdocs₁ (by decide) (by simp) hgroup).1
      have hmade₃ := (made_config (fun id hid => (hdocs₁ id hid).trans_le hmade₂.keep.next)
        (by decide) (by simp) hassociation).1
      have hkeep : Keeps subnetKinds s s₃ :=
        ((hmade₁.keep.mono (by simp [subnetKinds, Requested.kind])).trans
          (hmade₂.keep.mono (by simp [subnetKinds, Requested.kind]))).trans
          (hmade₃.keep.mono (by simp [subnetKinds, Requested.kind]))
      refine ⟨hkeep, [subnet, group, association], rfl, ?_⟩
      simp only [List.forall_mem_cons]
      refine ⟨⟨?_, _, Or.inl rfl, ?_⟩, ⟨?_, _, Or.inr (Or.inl rfl), ?_⟩,
        ⟨hmade₃.lt, _, Or.inr (Or.inr rfl), hmade₃.isKind⟩, fun _ h => absurd h List.not_mem_nil⟩
      · exact (hmade₁.lt.trans_le hmade₂.keep.next).trans_le hmade₃.keep.next
      · exact (hmade₃.keep.isKind (hmade₁.lt.trans_le hmade₂.keep.next) _).mpr
          ((hmade₂.keep.isKind hmade₁.lt _).mpr hmade₁.isKind)
      · exact hmade₂.lt.trans_le hmade₃.keep.next
      · exact (hmade₃.keep.isKind hmade₂.lt _).mpr hmade₂.isKind

theorem buildSubnets_emits {lp lp' : InfrastructureBuilder.SubnetLoop} {routeTable : DocId}
    {vpcName : Val} {componentKey : String} {subnets : List Val}
    (hdocs : ∀ id ∈ b.docs, id < s.next)
    (h : b.buildSubnets env routeTable vpcName componentKey lp subnets s = .ok (lp', s')) :
    Keeps subnetKinds s s' ∧ Emits subnetKinds s' lp.infrastructure lp'.infrastructure := by
  induction subnets generalizing lp s with
  | nil =>
      obtain ⟨rfl, rfl⟩ := BuildM.pure_eq_ok.mp h
      exact ⟨.refl _ _, .refl _ _ _⟩
  | cons subnetDefinition rest ih =>
      obtain ⟨lp₁, s₁, hfirst, hrest⟩ := BuildM.bind_eq_ok.mp h
      obtain ⟨hkeep₁, hemits₁⟩ := buildSubnet_emits hdocs hfirst
      obtain ⟨hkeep₂, hemits₂⟩ := ih (fun id hid => (hdocs id hid).trans_le hkeep₁.next) hrest
      exact ⟨hkeep₁.trans hkeep₂, (hemits₁.keeps hkeep₂).trans hemits₂⟩

/-- What the end of a component's loop body does before it adds mount targets. -/
structure BeforeMounts (ids : List DocId) (autoscalingGroup : DocId) (emitted : List DocId)
    (s s' : Store) : Prop where
  keep : Keeps loopKinds s s'
  parts : EfsPartsKept s s'
  same : ∀ id < s.next, ∀ kind, (s.doc id).IsKind kind →
    kind ∉ ({Requested.group.kind, Requested.launch.kind, vmKind} : Set String) →
    s'.doc id = s.doc id
  emitted : ∃ launch, emitted = ids ++ [autoscalingGroup, launch] ∧ launch < s'.next ∧
    (s'.doc launch).IsKind Requested.launch.kind

/-- The end of the loop body: mount targets are added where the machines mount the file
system. -/
theorem launch_mounts (htracked : Tracked env b fixed s ids) {componentKey : String}
    {lp : InfrastructureBuilder.SubnetLoop} {autoscalingGroup : DocId} {emitted : List DocId}
    (hgroups : ∀ id, some id ∈ lp.securityGroupsToCreate →
      id < s.next ∧ (s.doc id).IsKind Requested.group.kind)
    (hlt : autoscalingGroup < s.next) (hvm : (s.doc autoscalingGroup).IsKind vmKind)
    (hrun : b.launch env fixed.shared componentKey lp autoscalingGroup s = .ok (emitted, s')) :
    ∃ mountEfs s₁, BeforeMounts lp.infrastructure autoscalingGroup emitted s s₁ ∧
      (s.doc autoscalingGroup).specAttr? "mount_efs" = some mountEfs ∧
      (if mountEfs.truthy then InfrastructureBuilder.efsAddMountTargets fixed.shared.efsConfig
        lp.subnetsToCreate s₁ = .ok ((), s') else s' = s₁) := by
  simp only [InfrastructureBuilder.launch, BuildM.bind_eq_ok, lift_eq_ok,
    InfrastructureBuilder.setImageIdForLaunchConfiguration] at hrun
  obtain ⟨_, s₂, hrules, launch, s₃, hlaunch, keyName, _, hkeyName, _, s₄, hsetKey, _, s₅,
    ⟨osFullName, _, hosName, imageId, _, ⟨-, rfl⟩, hsetImage⟩, name, _, hname, _, s₆, hsetName,
    mountEfs, _, hmount, hmounts⟩ := hrun
  obtain ⟨-, rfl⟩ := specAttr_eq_ok.mp hkeyName
  obtain ⟨-, rfl⟩ := specAttr_eq_ok.mp hosName
  obtain ⟨-, rfl⟩ := specAttr_eq_ok.mp hname
  obtain ⟨hmountEfs, rfl⟩ := specAttr_eq_ok.mp hmount
  have hother : some autoscalingGroup ∉ lp.securityGroupsToCreate := fun hmem => by
    simpa [Requested.kind, vmKind] using (hgroups _ hmem).2.symm.trans hvm
  have hgrown := addRules_grown hother hgroups hrules
  have htracked₂ := htracked.keeps hgrown.keep (by simp [Requested.kind])
  have hgroups₂ : ∀ id, some id ∈ lp.securityGroupsToCreate →
      id < s₂.next ∧ (s₂.doc id).IsKind Requested.group.kind := fun id hid =>
    ⟨(hgroups id hid).1.trans_le hgrown.keep.next,
      (hgrown.keep.isKind (hgroups id hid).1 _).mpr (hgroups id hid).2⟩
  obtain ⟨hkeep₃, -, hlaunchlt, hlaunchkind, -⟩ :=
    getLaunchConfiguration_eq_ok htracked₂ hgroups₂ hlaunch
  have hkeyed := assigned_setSpecAttr hlaunchkind (by decide) hsetKey
  have himaged := hkeyed.trans (assigned_setSpecAttr hkeyed.isKind (by decide) hsetImage)
  have hkeep₅ : Keeps {Requested.group.kind, Requested.launch.kind} s s₅ :=
    (hgrown.keep.mono (by simp)).trans ((hkeep₃.trans himaged.keep).mono (by simp))
  have hvm₅ : (s₅.doc autoscalingGroup).IsKind vmKind := (hkeep₅.isKind hlt _).mpr hvm
  have hnamed := assigned_setSpecAttr hvm₅ (fun _ => by decide) hsetName
  have hparts₅ : EfsPartsKept s s₅ := efsPartsKept_of_keeps hkeep₅ (by decide)
  have hparts₆ : EfsPartsKept s s₆ :=
    Trans.trans hparts₅ ((preserves_efs_setSpecAttr autoscalingGroup _ (by decide)).rel hsetName)
  have hkeep₆ : Keeps {Requested.group.kind, Requested.launch.kind, vmKind} s s₆ :=
    (hkeep₅.mono (by simp [Set.insert_subset_iff])).trans (hnamed.keep.mono (by simp))
  have hlaunchlt₆ : launch < s₆.next :=
    (hlaunchlt.trans_le himaged.keep.next).trans_le hnamed.keep.next
  have hlaunchkind₆ : (s₆.doc launch).IsKind Requested.launch.kind :=
    (hnamed.keep.isKind (hlaunchlt.trans_le himaged.keep.next) _).mpr himaged.isKind
  have hmountEfs₀ : (s.doc autoscalingGroup).specAttr? "mount_efs" = some mountEfs := by
    rw [← (hparts₆.doc autoscalingGroup hlt).parts hvm "mount_efs" (by simp [efsParts])]
    exact hmountEfs
  have hbefore : ∀ emitted', emitted' = lp.infrastructure ++ [autoscalingGroup, launch] →
      BeforeMounts lp.infrastructure autoscalingGroup emitted' s s₆ := by
    rintro _ rfl
    refine ⟨hkeep₆.mono ?_, hparts₆, fun id hid kind hkind hout => hkeep₆.same hid hkind hout,
      launch, rfl, hlaunchlt₆, hlaunchkind₆⟩
    rintro _ (rfl | rfl | rfl)
    · exact kind_mem_loopKinds .group
    · exact kind_mem_loopKinds .launch
    · exact kind_mem_loopKinds .machine
  split at hmounts
  · next htruthy =>
      obtain ⟨_, s₇, hefs, hret⟩ := BuildM.bind_eq_ok.mp hmounts
      obtain ⟨rfl, rfl⟩ := BuildM.pure_eq_ok.mp hret
      exact ⟨mountEfs, s₆, hbefore _ rfl, hmountEfs₀, by rw [if_pos htruthy]; exact hefs⟩
  · next htruthy =>
      obtain ⟨rfl, rfl⟩ := BuildM.pure_eq_ok.mp hmounts
      exact ⟨mountEfs, s₆, hbefore _ rfl, hmountEfs₀, by rw [if_neg htruthy]⟩

/-! ## The component loop -/

/-- The machines of a component do what a part of their definition says. -/
def hasPart (env : Env) (b : InfrastructureBuilder) (docs : List Val) (key : String)
    (componentValue : Val) : Bool :=
  (componentPart env b docs key componentValue).any Val.truthy

/-- The subnets of the components whose machines have a part, one for each definition. -/
def usedSubnets (env : Env) (b : InfrastructureBuilder) (docs : List Val) (key : String)
    (placed : List Placed) : List SubnetRequest :=
  (placed.filter fun x => hasPart env b docs key x.component.2).flatMap fun x =>
    x.attached.map Attached.subnet

theorem usedSubnets_append (docs : List Val) (key : String) (placed : List Placed) (x : Placed) :
    usedSubnets env b docs key (placed ++ [x]) = usedSubnets env b docs key placed ++
      if hasPart env b docs key x.component.2 then x.attached.map Attached.subnet else [] := by
  rw [usedSubnets, List.filter_append, List.flatMap_append, List.filter_singleton]
  cases hasPart env b docs key x.component.2 with
  | true =>
      rw [if_pos rfl, cond_true, List.flatMap_singleton]
      rfl
  | false => rfl

/-- Mount targets in the zones of subnets. -/
abbrev TargetsOf : List SubnetRequest → List Val → Prop :=
  List.Forall₂ fun r item => Val.attr? item "availability_zone" = some r.availabilityZone

/-- A part of the definitions the emitted machines are copies of. -/
def shownParts (s : Store) (ids : List DocId) (key : String) : List (Option Val) :=
  (ids.filter fun id => Holds? (kindIs vmKind (s.doc id))).map fun id => (s.doc id).specAttr? key

theorem shownParts_kept (hids : ∀ id ∈ ids, id < s.next) (h : EfsPartsKept s s') {key : String}
    (hkey : key ∈ efsParts) : shownParts s' ids key = shownParts s ids key := by
  unfold shownParts
  rw [List.filter_congr fun id hid => holds?_kindIs_congr (h.doc id (hids id hid)).kind vmKind]
  refine List.map_congr_left fun id hid => ?_
  obtain ⟨hmem, hholds⟩ := List.mem_filter.mp hid
  exact (h.doc id (hids id hmem)).parts (holds?_kindIs.mp hholds) key hkey

/-- The kinds of the documents a component brings. -/
abbrev requestedKinds : Set String := Set.range Requested.kind

/-- The mount targets and the machines of the components that have been placed. -/
structure MountsTracked (env : Env) (b : InfrastructureBuilder) (fixed : Fixed)
    (start : List DocId) (s : Store) (ids : List DocId) (placed : List Placed) : Prop where
  parts : ∀ key ∈ efsParts, ∀ componentValue,
    componentPart env b (b.docs.map s.doc) key componentValue =
      componentPart env b fixed.docs key componentValue
  emits : Emits requestedKinds s start ids
  shown : ∀ key ∈ efsParts, shownParts s ids key =
    placed.map fun x => componentPart env b fixed.docs key x.component.2
  targets : ∃ items new, TargetsOf (usedSubnets env b fixed.docs "mount_efs" placed) items ∧
    (s.doc fixed.shared.efsConfig).specAttr? "mount_targets" = some (.list new) ∧
    Extended SameZone items [] new

/-- A subnet shows the zone it was requested in, where the user does not replace subnets. -/
theorem Represents.zone_eq (h : Represents env b fixed s ids requests p)
    (hsubnet : fixed.own Requested.subnet.kind = none) {id : DocId} {r : SubnetRequest}
    (hmem : (id, r) ∈ requests .subnet) :
    (s.doc id).specAttr? "availability_zone" = some r.availabilityZone := by
  have hshown := (h.ledger .subnet).specAttr?_eq hmem "availability_zone" rfl
  rwa [show fixed.ownOf .subnet = none from hsubnet, Option.isSome_none, current_false] at hshown

/-- The mount targets of a component are in the zones its subnets were requested in. -/
theorem InLoop.targets_eq {q : SubnetPlan} {lp : InfrastructureBuilder.SubnetLoop}
    {placed : List Placed} (h : InLoop env b fixed s lp requests placed q)
    (hsubnet : fixed.own Requested.subnet.kind = none)
    (hsame : ∀ id ∈ lp.subnetsToCreate, s'.doc id = s.doc id) {items : List Val}
    (hitems : List.Forall₂ (IsTargetFor s') lp.subnetsToCreate items) :
    TargetsOf (q.attached.map Attached.subnet) items := by
  rw [TargetsOf, List.forall₂_map_left_iff]
  have hread : List.Forall₂ (IsTargetFor s) lp.subnetsToCreate items := by
    refine ((List.forall₂_and_left _ items).mpr ⟨fun id hid => hid, hitems⟩).imp ?_
    rintro id item ⟨hid, zone, hzone, hitem⟩
    exact ⟨zone, hsame id hid ▸ hzone, hitem⟩
  refine forall₂_of_common h.subnetsToCreate hread fun id a item hmem ⟨zone, hzone, hitem⟩ => ?_
  rw [hitem, ← hzone]
  exact h.toRepresents.zone_eq hsubnet hmem

/-- The machine of a component before its mount targets: it shows what its definition says
about the file system, which is as it was. -/
structure MachineMade (env : Env) (b : InfrastructureBuilder) (fixed : Fixed)
    (componentValue : Val) (lp : InfrastructureBuilder.SubnetLoop) (autoscalingGroup : DocId)
    (emitted : List DocId) (mountEfs : Val) (s s₁ s₂ s₃ : Store) : Prop where
  keep : Keeps {vmKind} s₁ s₂
  lt : autoscalingGroup < s₂.next
  isMachine : (s₂.doc autoscalingGroup).IsKind vmKind
  before : BeforeMounts lp.infrastructure autoscalingGroup emitted s₂ s₃
  partsBefore : EfsPartsKept s s₁
  parts : EfsPartsKept s s₃
  shown : ∀ key ∈ efsParts, (s₂.doc autoscalingGroup).specAttr? key =
    componentPart env b (b.docs.map s.doc) key componentValue
  mounts : componentPart env b (b.docs.map s.doc) "mount_efs" componentValue = some mountEfs
  efsLt : fixed.shared.efsConfig < s₃.next
  efs : s₃.doc fixed.shared.efsConfig = s.doc fixed.shared.efsConfig

theorem InLoop.machineMade {s₁ s₂ : Store} {q : SubnetPlan}
    {lp : InfrastructureBuilder.SubnetLoop} {requests₁ : Requests} {placed : List Placed}
    (h : Tracked env b fixed s ids) (hkeep₁ : Keeps subnetKinds s s₁)
    (h₁ : InLoop env b fixed s₁ lp requests₁ placed q) {component : String × Val}
    {autoscalingGroup : DocId} {emitted : List DocId}
    (hmachine : b.getAutoscalingGroup env component.1 component.2 lp.subnetsToCreate 0 s₁ =
      .ok (autoscalingGroup, s₂))
    (hrun : b.launch env fixed.shared component.1 lp autoscalingGroup s₂ = .ok (emitted, s')) :
    ∃ mountEfs s₃, MachineMade env b fixed component.2 lp autoscalingGroup emitted mountEfs
        s s₁ s₂ s₃ ∧
      (if mountEfs.truthy then InfrastructureBuilder.efsAddMountTargets fixed.shared.efsConfig
        lp.subnetsToCreate s₃ = .ok ((), s') else s' = s₃) := by
  obtain ⟨hkeep₂, hsame₂, hnew, hlt, hvm, -⟩ :=
    getAutoscalingGroup_eq_ok h₁.docs h₁.unique h₁.subnets_not_machines hmachine
  obtain ⟨hparts₂, hgroup⟩ := getAutoscalingGroup_efsParts h₁.docs h₁.unique hvm hmachine
  have h₂ := h₁.toRepresents.machineStep hkeep₂ hsame₂
  have hgroups₂ : ∀ id, some id ∈ lp.securityGroupsToCreate →
      id < s₂.next ∧ (s₂.doc id).IsKind Requested.group.kind := fun id hid =>
    ⟨(h₁.groups_made id hid).1.trans_le hkeep₂.next,
      (hkeep₂.isKind (h₁.groups_made id hid).1 _).mpr (h₁.groups_made id hid).2⟩
  obtain ⟨mountEfs, s₃, hbefore, hmount, hend⟩ :=
    launch_mounts h₂.toTracked hgroups₂ hlt hvm hrun
  have hparts₁ : EfsPartsKept s s₁ :=
    efsPartsKept_of_keeps hkeep₁ (by simp [subnetKinds, Requested.kind, vmKind])
  have hshown : ∀ key ∈ efsParts, (s₂.doc autoscalingGroup).specAttr? key =
      componentPart env b (b.docs.map s.doc) key component.2 := by
    intro key hkey
    rw [hgroup key hkey, componentPart_kept h.docs hparts₁ hkey]
  exact ⟨mountEfs, s₃, {
    keep := hkeep₂
    lt := hlt
    isMachine := hvm
    before := hbefore
    partsBefore := hparts₁
    parts := Trans.trans hparts₁ (Trans.trans hparts₂ hbefore.parts)
    shown := hshown
    mounts := by rw [← hshown "mount_efs" (by simp [efsParts]), hmount]
    efsLt := h₂.efsConfig.trans_le hbefore.keep.next
    efs := by
      rw [hbefore.same _ h₂.efsConfig _ h₂.efsKind (by decide),
        hkeep₂.same h₁.efsConfig h₁.efsKind (by decide),
        hkeep₁.same h.efsConfig h.efsKind (by simp [subnetKinds, Requested.kind])] }, hend⟩

/-- A component has brought documents of the requested kinds. -/
theorem MachineMade.emits {start : List DocId} {s₁ s₂ s₃ : Store} {componentValue mountEfs : Val}
    {lp : InfrastructureBuilder.SubnetLoop} {autoscalingGroup : DocId} {emitted : List DocId}
    (h : MachineMade env b fixed componentValue lp autoscalingGroup emitted mountEfs s s₁ s₂ s₃)
    (hkeep₁ : Keeps subnetKinds s s₁) (hemits₁ : Emits subnetKinds s₁ ids lp.infrastructure)
    (hemits : Emits requestedKinds s start ids) : Emits requestedKinds s₃ start emitted := by
  have hsub : subnetKinds ⊆ requestedKinds := by
    rintro _ (rfl | rfl | rfl)
    · exact ⟨.subnet, rfl⟩
    · exact ⟨.group, rfl⟩
    · exact ⟨.association, rfl⟩
  obtain ⟨launch, rfl, hlaunchlt, hlaunchkind⟩ := h.before.emitted
  have hsubnets : Emits requestedKinds s₃ start lp.infrastructure :=
    (((hemits.keeps hkeep₁).trans (hemits₁.mono hsub)).keeps h.keep).keeps h.before.keep
  have hlt := h.lt.trans_le h.before.keep.next
  have hvm := (h.before.keep.isKind h.lt _).mpr h.isMachine
  have hend := (hsubnets.append hlt ⟨.machine, rfl⟩ hvm).append hlaunchlt ⟨.launch, rfl⟩
    hlaunchkind
  rwa [List.append_assoc] at hend

/-- The subnets of a component are as they were when its mount targets are added. -/
theorem MachineMade.subnets_same {s₁ s₂ s₃ : Store} {componentValue mountEfs : Val}
    {lp : InfrastructureBuilder.SubnetLoop} {autoscalingGroup : DocId} {emitted : List DocId}
    {q : SubnetPlan} {requests₁ : Requests} {placed : List Placed}
    (h : MachineMade env b fixed componentValue lp autoscalingGroup emitted mountEfs s s₁ s₂ s₃)
    (h₁ : InLoop env b fixed s₁ lp requests₁ placed q) :
    ∀ id ∈ lp.subnetsToCreate, id < s₃.next ∧ s₃.doc id = s₁.doc id := by
  intro id hid
  obtain ⟨hlt, hkind⟩ := h₁.subnets_made id hid
  have hlt₂ := hlt.trans_le h.keep.next
  refine ⟨hlt₂.trans_le h.before.keep.next, ?_⟩
  rw [h.before.same id hlt₂ _ ((h.keep.isKind hlt _).mpr hkind) (by decide),
    h.keep.same hlt hkind (by decide)]

/-- The machine of a component whose subnets are there, and its mount targets. -/
theorem MountsTracked.place {start : List DocId} {s₁ s₂ : Store} {q : SubnetPlan}
    {lp : InfrastructureBuilder.SubnetLoop} {requests₁ : Requests} {placed : List Placed}
    (ht : MountsTracked env b fixed start s ids placed) (h : Tracked env b fixed s ids)
    (hsubnet : fixed.own Requested.subnet.kind = none) (hkeep₁ : Keeps subnetKinds s s₁)
    (hemits₁ : Emits subnetKinds s₁ ids lp.infrastructure)
    (h₁ : InLoop env b fixed s₁ lp requests₁ placed q) {component : String × Val}
    {autoscalingGroup : DocId} {emitted : List DocId}
    (hmachine : b.getAutoscalingGroup env component.1 component.2 lp.subnetsToCreate 0 s₁ =
      .ok (autoscalingGroup, s₂))
    (hrun : b.launch env fixed.shared component.1 lp autoscalingGroup s₂ = .ok (emitted, s')) :
    MountsTracked env b fixed start s' emitted
      (placed ++ [⟨component, q.attached, q.requests⟩]) := by
  obtain ⟨mountEfs, s₃, hmade, hend⟩ := h₁.machineMade h hkeep₁ hmachine hrun
  have hstart := hmade.emits hkeep₁ hemits₁ ht.emits
  have hsubnets := hmade.subnets_same h₁
  obtain ⟨hkeep₂, hlt, hvm, hbefore, hparts₁, hparts₃, hshown, hmount, hefslt₃, hefs⟩ := hmade
  have hpart : ∀ key ∈ efsParts, (s₂.doc autoscalingGroup).specAttr? key =
      componentPart env b fixed.docs key component.2 := by
    intro key hkey
    rw [hshown key hkey, ht.parts key hkey]
  have hmounts : hasPart env b fixed.docs "mount_efs" component.2 = mountEfs.truthy := by
    rw [hasPart, ← ht.parts "mount_efs" (by simp [efsParts]), hmount]
    rfl
  obtain ⟨items, old, hitems, hold, hext⟩ := ht.targets
  obtain ⟨hkeep₄, items', new, hitems', hnewTargets, hext'⟩ :
      Keeps {"infrastructure/efs-storage"} s₃ s' ∧ ∃ items' new,
        TargetsOf (if hasPart env b fixed.docs "mount_efs" component.2 then
          q.attached.map Attached.subnet else []) items' ∧
        (s'.doc fixed.shared.efsConfig).specAttr? "mount_targets" = some (.list new) ∧
        Extended SameZone items' old new := by
    have hefskind₃ := hefs.symm ▸ h.efsKind
    rw [← hefs] at hold
    rw [hmounts]
    split at hend
    · next htruthy =>
        have hother : fixed.shared.efsConfig ∉ lp.subnetsToCreate := fun hmem => by
          simpa [Requested.kind] using (h₁.subnets_made _ hmem).2.symm.trans h₁.efsKind
        obtain ⟨-, items', new, hitems', hnew', hext'⟩ := efsAddMountTargets_added hother
          (fun id hid => (hsubnets id hid).1) hold hend
        refine ⟨efsAddMountTargets_keeps hefslt₃ hefskind₃ hend, items', new, ?_, hnew', hext'⟩
        rw [if_pos htruthy]
        exact h₁.targets_eq hsubnet (fun id hid => (hsubnets id hid).2) hitems'
    · next htruthy =>
        subst hend
        refine ⟨.refl _ _, [], old, ?_, hold, .nil old⟩
        rw [if_neg htruthy]
        exact .nil
  have hparts₄ : EfsPartsKept s₃ s' := efsPartsKept_of_keeps hkeep₄ (by decide)
  have hparts : EfsPartsKept s s' := Trans.trans hparts₃ hparts₄
  obtain ⟨launch, rfl, hlaunchlt, hlaunchkind⟩ := hbefore.emitted
  have hlt' := (hlt.trans_le hbefore.keep.next).trans_le hkeep₄.next
  have hvm' : (s'.doc autoscalingGroup).IsKind vmKind :=
    (hkeep₄.isKind (hlt.trans_le hbefore.keep.next) _).mpr ((hbefore.keep.isKind hlt _).mpr hvm)
  have hlaunchkind' := (hkeep₄.isKind hlaunchlt _).mpr hlaunchkind
  have hemits : Emits subnetKinds s' ids lp.infrastructure :=
    ((hemits₁.keeps hkeep₂).keeps hbefore.keep).keeps hkeep₄
  exact {
    parts := fun key hkey value =>
      (componentPart_kept h.docs hparts hkey value).trans (ht.parts key hkey value)
    emits := hstart.keeps hkeep₄
    shown := fun key hkey => by
      have hgroup' : (s'.doc autoscalingGroup).specAttr? key =
          componentPart env b fixed.docs key component.2 := by
        have hkept : EfsPartsKept s₂ s' := Trans.trans hbefore.parts hparts₄
        rw [(hkept.doc _ hlt).parts hvm key hkey]
        exact hpart key hkey
      have hlaunch : Holds? (kindIs vmKind (s'.doc launch)) = false := by
        rw [← Bool.not_eq_true, holds?_kindIs]
        intro hkind
        simpa [Requested.kind, vmKind] using hlaunchkind'.symm.trans hkind
      have hfirst : shownParts s' lp.infrastructure key = shownParts s ids key := by
        rw [shownParts, hemits.filter_eq (by simp [subnetKinds, Requested.kind, vmKind])]
        exact shownParts_kept h.allocated hparts hkey
      rw [shownParts, List.filter_append, List.map_append, List.map_append, ← ht.shown key hkey,
        ← hfirst]
      simp [shownParts, holds?_kindIs.mpr hvm', hlaunch, hgroup']
    targets := by
      refine ⟨items ++ items', new, ?_, hnewTargets, hext.trans hext'⟩
      rw [usedSubnets_append]
      exact List.rel_append hitems hitems' }

/-- One component adds its mount targets and its machine. -/
theorem MountsTracked.buildComponent {start : List DocId}
    (h : Represents env b fixed s ids requests p)
    (ht : MountsTracked env b fixed start s ids p.placed)
    (hsubnet : fixed.own Requested.subnet.kind = none) {component : String × Val}
    {emitted : List DocId}
    (hrun : b.buildComponent env fixed.shared ids component s = .ok (emitted, s')) :
    MountsTracked env b fixed start s' emitted
      (planComponent fixed.replaced p component).placed := by
  rcases buildComponent_cases hrun with ⟨hactive, rfl, rfl⟩ |
    ⟨hactive, lp, s₁, autoscalingGroup, s₂, hbuild, hmachine, hlaunch⟩
  · rw [planComponent, hactive, if_neg (by decide)]
    exact ht
  · have hstart : InLoop env b fixed s ⟨ids, [], [], 0⟩ requests p.placed
        ⟨p.requests, [], 0⟩ := { h with
      subnetsToCreate := .nil
      groupsToCreate := .nil
      index := rfl }
    obtain ⟨requests₁, hkeep₁, -, h₁, -⟩ := hstart.buildSubnets hbuild
    obtain ⟨-, hemits₁⟩ := buildSubnets_emits h.docs hbuild
    rw [planComponent, hactive, if_pos rfl]
    exact ht.place h.toTracked hsubnet hkeep₁ hemits₁ h₁ hmachine hlaunch

/-- The components add their mount targets one after another. -/
theorem MountsTracked.buildComponents {start : List DocId} {components : Entries}
    (h : Represents env b fixed s ids requests p)
    (ht : MountsTracked env b fixed start s ids p.placed)
    (hsubnet : fixed.own Requested.subnet.kind = none) {emitted : List DocId}
    (hrun : b.buildComponents env fixed.shared ids components s = .ok (emitted, s')) :
    ∃ requests', Keeps loopKinds s s' ∧
      Represents env b fixed s' emitted requests' (planComponents fixed.replaced p components) ∧
      MountsTracked env b fixed start s' emitted
        (planComponents fixed.replaced p components).placed := by
  induction components generalizing s ids requests p with
  | nil =>
      obtain ⟨rfl, rfl⟩ := BuildM.pure_eq_ok.mp hrun
      exact ⟨requests, .refl _ _, h, ht⟩
  | cons component rest ih =>
      obtain ⟨ids₁, s₁, hfirst, hrest⟩ := BuildM.bind_eq_ok.mp hrun
      obtain ⟨requests₁, hkeep₁, -, h₁, -⟩ := h.buildComponent hfirst
      obtain ⟨requests₂, hkeep₂, h₂, ht₂⟩ := ih h₁ (ht.buildComponent h hsubnet hfirst) hrest
      exact ⟨requests₂, hkeep₁.trans hkeep₂, h₂, ht₂⟩

/-! ## Before the loop -/

/-- A field of the default document of a kind. -/
def defaultPart (env : Env) (kind key : String) : Option Val :=
  (env.schema.loadSchemaObj "aws" kind).toOption.bind (·.specAttr? key)

theorem loadedPart_default {kind : String} (hown : ownDoc b.docs kind s = none) (key : String) :
    loadedPart .aws env.toBuilderEnv b.docs kind key s = defaultPart env kind key := by
  rw [loadedPart, hown]
  rfl

/-- The documents before the loop: one default security group and no mount targets. -/
theorem start_mounts {keys : KeySource} {start : InfrastructureBuilder.Start}
    (hdocs : ∀ id ∈ b.docs, id < s.next)
    (hgroup : ownDoc b.docs "infrastructure/default-security-group" s = none)
    (hefs : ownDoc b.docs "infrastructure/efs-storage" s = none)
    (hrules : defaultPart env "infrastructure/default-security-group" "rules" = some (.list []))
    (htargets : defaultPart env "infrastructure/efs-storage" "mount_targets" = some (.list []))
    (h : b.start env keys s = .ok (start, s')) :
    Keeps {kind | kind ∈ startKinds} s s' ∧
      (∀ kind ∈ ["infrastructure/default-security-group", "infrastructure/efs-storage", vmKind],
        start.infrastructure.filter (fun id => Holds? (kindIs kind (s'.doc id))) =
          if kind = "infrastructure/default-security-group" then [start.defaultSecurityGroup]
          else []) ∧
      (s'.doc start.defaultSecurityGroup).specAttr? "rules" = some (.list []) ∧
      (s'.doc start.shared.efsConfig).specAttr? "mount_targets" = some (.list []) := by
  obtain ⟨vpc, resourceGroup, gateway, hbuilt, -, hids, -⟩ := start_built hdocs h
  have hdoc := hbuilt.docs
  simp only [startDocs, List.forall_mem_cons] at hdoc
  obtain ⟨⟨-, k₁, -⟩, ⟨-, k₂, -⟩, ⟨-, k₃, -, hgroupRules⟩, ⟨-, k₄, -⟩, ⟨-, k₅, -⟩, ⟨-, k₆, -⟩,
    ⟨-, -, hefsTargets⟩, -⟩ := hdoc
  refine ⟨hbuilt.keep.mono fun _ hkind => hkind, ?_, ?_, ?_⟩
  · have hholds : ∀ {x : Val} {own : String} (kind : String), x.IsKind own →
        Holds? (kindIs kind x) = decide (own = kind) := by
      intro x own kind hx
      rw [Bool.eq_iff_iff, holds?_kindIs, decide_eq_true_iff, Val.IsKind, hx]
      simp
    intro kind hkind
    simp only [hids, List.filter_cons, hholds kind k₁, hholds kind k₂, hholds kind k₃,
      hholds kind k₄, hholds kind k₅, hholds kind k₆, List.filter_nil]
    simp only [List.mem_cons, List.not_mem_nil, or_false] at hkind
    rcases hkind with rfl | rfl | rfl <;> simp [vmKind]
  · rw [hgroupRules, loadedPart_default hgroup, hrules]
  · rw [hefsTargets, loadedPart_default hefs, htargets]

/-- The start of the component loop. -/
theorem MountsTracked.start {start : InfrastructureBuilder.Start}
    (hdocs : ∀ id ∈ b.docs, id < s.next) (hfixed : fixed.docs = b.docs.map s.doc)
    (hshared : fixed.shared = start.shared)
    (hkeep : Keeps {kind | kind ∈ startKinds} s s')
    (hmachines : start.infrastructure.filter (fun id => Holds? (kindIs vmKind (s'.doc id))) = [])
    (htargets : (s'.doc start.shared.efsConfig).specAttr? "mount_targets" = some (.list [])) :
    MountsTracked env b fixed start.infrastructure s' start.infrastructure [] where
  parts key hkey value := by
    have hkept := efsPartsKept_of_keeps hkeep (kind_notMem_startKinds .machine)
    rw [componentPart_kept hdocs hkept hkey, hfixed]
  emits := .refl _ _ _
  shown key _ := by rw [shownParts, hmachines]; rfl
  targets := ⟨[], [], .nil, hshared ▸ htargets, .nil []⟩

end

end Aws

end LambdaStack
