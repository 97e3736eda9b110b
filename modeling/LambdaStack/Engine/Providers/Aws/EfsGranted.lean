/-
# Access to the file system, once for each network

The mount targets of the file system are one for each availability zone of the subnets
that mount it. The rules of the default security group are one for each CIDR block
exactly when no block is used twice by the authorized autoscaling groups.
-/

import LambdaStack.Engine.Providers.Aws.EfsAccess

namespace LambdaStack

open Lib BuildM

namespace Aws

/-! ## What is promised -/

/-- Among the items is one for each value in use and none for another value. -/
def OnceEach (items : List Val) (isFor : Val → Val → Bool) (used : Val → Prop) : Prop :=
  ∀ value, value.WellFormed → (used value → items.countP (isFor value) = 1) ∧
    (¬ used value → items.countP (isFor value) = 0)

/-- A mount target in a zone. -/
def isTargetIn (zone target : Val) : Bool :=
  (target.attr? "availability_zone").any (·.pyEq zone)

/-- The default security group lets each CIDR block of an authorized group in once, and
the file system has one mount target in each zone of a group that mounts it. -/
structure EfsGranted (s : Store) (infrastructure : List DocId)
    (members : List ((String × Val) × DocId)) : Prop where
  rules : ∃ group rules,
    infrastructure.filter (fun id => Holds? (kindIs "infrastructure/default-security-group"
      (s.doc id))) = [group] ∧
    (s.doc group).specAttr? "rules" = some (.list rules) ∧
    OnceEach rules isNfsIngressRule
      (UsedBy s infrastructure members "authorized_to_efs" "cidr_block")
  targets : ∃ efs targets,
    infrastructure.filter (fun id => Holds? (kindIs "infrastructure/efs-storage" (s.doc id))) =
      [efs] ∧
    (s.doc efs).specAttr? "mount_targets" = some (.list targets) ∧
    OnceEach targets isTargetIn (UsedBy s infrastructure members "mount_efs" "availability_zone")

section

variable (env : Env) (b : InfrastructureBuilder) (docs : List Val)

/-- The address pools of the subnet definitions of the active components whose machines
are authorized, in their order. -/
def authorizedPools (components : Entries) : List Val :=
  ((components.filter fun component => isActive component.2).filter fun component =>
    hasPart env b docs "authorized_to_efs" component.2).flatMap fun component =>
      (subnetDefinitions component.2).map (definitionItem "address_pool")

/-- An active component with a subnet mounts the file system. -/
def MountsEfs (components : Entries) : Prop :=
  ∃ component ∈ components, isActive component.2 = true ∧
    hasPart env b docs "mount_efs" component.2 = true ∧ subnetDefinitions component.2 ≠ []

end

section

variable {env : Env} {b : InfrastructureBuilder} {fixed : Fixed} {s s' : Store}
  {ids infrastructure : List DocId} {requests : Requests} {p : Plan} {components : Entries}

/-- Items that are counted like the values in use. -/
theorem onceEach_iff {items values : List Val} {isFor : Val → Val → Bool} {used : Val → Prop}
    (hvalues : ∀ value ∈ values, value.WellFormed)
    (hcount : ∀ value, items.countP (isFor value) = values.countP (·.pyEq value))
    (hused : ∀ value, used value ↔ ∃ own ∈ values, own.pyEq value = true) :
    OnceEach items isFor used ↔ values.Pairwise fun value other => value.pyEq other = false := by
  rw [pairwise_iff_countP (P := Val.WellFormed) hvalues (fun _ h => Val.pyEq_refl h)
    fun _ _ _ hy hz hxz hyz => Val.pyEq_of_pyEq_right hy hz hxz hyz]
  refine forall₂_congr fun value _ => ?_
  rw [hcount, hused, ← List.any_eq_true]
  split <;> simp [*]

/-- A pool of a definition with the pool its subnet was requested for. -/
structure SamePool (pool own : Val) : Prop where
  poolWf : pool.WellFormed
  ownWf : own.WellFormed
  same : own.pyEq pool = true

theorem SamePool.pyEq_iff {pool own pool' own' : Val} (h : SamePool pool own)
    (h' : SamePool pool' own') : pool.pyEq pool' = false ↔ own.pyEq own' = false := by
  rw [← Bool.not_eq_true, ← Bool.not_eq_true, not_iff_not]
  constructor
  · intro heq
    exact Val.pyEq_trans (Val.pyEq_trans h.same heq) (Val.pyEq_symm h'.ownWf h'.poolWf h'.same)
  · intro heq
    exact Val.pyEq_trans (Val.pyEq_trans (Val.pyEq_symm h.ownWf h.poolWf h.same) heq) h'.same

/-- The requests a plan makes are for well-formed pools and zones. -/
theorem plan_wellFormed (replaced : Replaced)
    (hcomponents : ∀ component ∈ components, component.2.WellFormed) :
    ∀ r ∈ (plan replaced components).requests,
      r.addressPool.WellFormed ∧ r.availabilityZone.WellFormed :=
  planComponents_wellFormed (fun _ h => absurd h List.not_mem_nil) hcomponents

theorem samePools {replaced : Replaced} (hsubnet : replaced.subnet = false)
    (hcomponents : ∀ component ∈ components, component.2.WellFormed) {x : Placed}
    (hx : x ∈ (plan replaced components).placed) :
    List.Forall₂ SamePool ((subnetDefinitions x.component.2).map (definitionItem "address_pool"))
      ((x.attached.map Attached.subnet).map SubnetRequest.addressPool) := by
  rw [List.forall₂_map_left_iff, List.forall₂_map_right_iff]
  have hactive : x.component ∈ components.filter fun component => isActive component.2 := by
    rw [← plan_components replaced components]
    exact List.mem_map_of_mem (f := Placed.component) hx
  have hcomponent := hcomponents _ (List.mem_filter.mp hactive).1
  refine ((List.forall₂_and_left _ _).mpr ⟨fun d hd => subnetDefinitions_wellFormed hcomponent hd,
    plan_placesSubnets hsubnet hcomponents x hx⟩).imp ?_
  rintro d r ⟨hd, hfind⟩
  have hr := plan_wellFormed replaced hcomponents r (List.mem_of_find?_eq_some hfind)
  exact ⟨definitionItem_wellFormed hd _, hr.1, by simpa [isForPool] using List.find?_some hfind⟩

/-- The pools of the definitions are those the subnets were requested for. -/
theorem authorizedPools_pairwise_iff {replaced : Replaced} (hsubnet : replaced.subnet = false)
    (hcomponents : ∀ component ∈ components, component.2.WellFormed) (docs : List Val) :
    ((authorizedPools env b docs components).Pairwise fun pool other =>
      pool.pyEq other = false) ↔
    (((usedSubnets env b docs "authorized_to_efs" (plan replaced components).placed).map
      SubnetRequest.addressPool).Pairwise fun pool other => pool.pyEq other = false) := by
  rw [authorizedPools, ← plan_components replaced components, List.filter_map, List.flatMap_map,
    usedSubnets, List.map_flatMap]
  exact pairwise_forall₂ (forall₂_flatMap fun x hx =>
      samePools hsubnet hcomponents (List.mem_filter.mp hx).1)
    fun _ _ _ _ h h' => h.pyEq_iff h'

/-- A component that mounts the file system is one that uses a subnet for it. -/
theorem mountsEfs_iff {replaced : Replaced} (hsubnet : replaced.subnet = false)
    (hcomponents : ∀ component ∈ components, component.2.WellFormed) (docs : List Val) :
    MountsEfs env b docs components ↔
      usedSubnets env b docs "mount_efs" (plan replaced components).placed ≠ [] := by
  have hplaces := plan_placesSubnets hsubnet hcomponents
  have hactive : ∀ component, component ∈ components ∧ isActive component.2 = true ↔
      ∃ x ∈ (plan replaced components).placed, x.component = component := by
    intro component
    rw [← List.mem_map, plan_components, List.mem_filter]
  constructor
  · rintro ⟨component, hmem, hcount, hhas, hdefinitions⟩
    obtain ⟨x, hx, rfl⟩ := (hactive component).mp ⟨hmem, hcount⟩
    obtain ⟨d, hd⟩ := List.exists_mem_of_ne_nil _ hdefinitions
    obtain ⟨r, hr, -⟩ := exists_of_mem_forall₂ (hplaces x hx) hd
    exact List.ne_nil_of_mem (mem_usedSubnets.mpr ⟨x, hx, hhas, hr⟩)
  · intro hused
    obtain ⟨r, hr⟩ := List.exists_mem_of_ne_nil _ hused
    obtain ⟨x, hx, hhas, hr⟩ := mem_usedSubnets.mp hr
    obtain ⟨d, hd, -⟩ := exists_of_mem_forall₂ (hplaces x hx).flip hr
    obtain ⟨hmem, hcount⟩ := (hactive x.component).mpr ⟨x, hx, rfl⟩
    exact ⟨x.component, hmem, hcount, hhas, List.ne_nil_of_mem hd⟩

/-! ## The mount targets and the rules of a run -/

/-- The mount targets are one for each zone of the subnets they were added for. -/
theorem countP_targets {used : List SubnetRequest} {items targets : List Val}
    (hitems : TargetsOf used items) (hext : Extended SameZone items [] targets)
    (hwf : ∀ r ∈ used, r.availabilityZone.WellFormed) {zone : Val} (hzone : zone.WellFormed) :
    targets.countP (isTargetIn zone) =
      if used.any (fun r => r.availabilityZone.pyEq zone) then 1 else 0 := by
  have hread : ∀ item ∈ items, ∃ own, own.WellFormed ∧
      item.attr? "availability_zone" = some own := by
    intro item hitem
    obtain ⟨r, hr, hown⟩ := exists_of_mem_forall₂ hitems.flip hitem
    exact ⟨_, hwf r hr, hown⟩
  have hany : used.any (fun r => r.availabilityZone.pyEq zone) = items.any (isTargetIn zone) := by
    refine any_forall₂ hitems fun r _ item _ hitem => ?_
    rw [isTargetIn, hitem]
    rfl
  rw [hany]
  apply hext.countP_eq
  · intro item hitem
    obtain ⟨own, hown, hitem⟩ := hread item hitem
    exact ⟨own, own, hitem, hitem, Val.pyEq_refl hown⟩
  · rintro item other ⟨own, otherZone, hitem, hother, hsame⟩ hin
    rw [isTargetIn, hother] at hin
    rw [isTargetIn, hitem]
    exact Val.pyEq_trans hsame hin
  · intro item hitem other hother hin hin'
    obtain ⟨own, -, hown⟩ := hread item ((hext.sound item hitem).resolve_left List.not_mem_nil)
    obtain ⟨own', hwf', hown'⟩ :=
      hread other ((hext.sound other hother).resolve_left List.not_mem_nil)
    rw [isTargetIn, hown] at hin
    rw [isTargetIn, hown'] at hin'
    exact ⟨own, own', hown, hown', Val.pyEq_of_pyEq_right hwf' hzone hin hin'⟩

/-- Mount targets have been added exactly when there are subnets to add them for. -/
theorem targets_eq_nil_iff {used : List SubnetRequest} {items targets : List Val}
    (hitems : TargetsOf used items) (hext : Extended SameZone items [] targets)
    (hwf : ∀ r ∈ used, r.availabilityZone.WellFormed) : targets = [] ↔ used = [] := by
  constructor
  · rintro rfl
    rw [List.eq_nil_iff_forall_not_mem]
    intro r hr
    have hcount := countP_targets hitems hext hwf (hwf r hr)
    rw [if_pos (List.any_eq_true.mpr ⟨r, hr, Val.pyEq_refl (hwf r hr)⟩)] at hcount
    cases hcount
  · rintro rfl
    cases hitems
    rw [List.eq_nil_iff_forall_not_mem]
    intro target htarget
    rcases hext.sound target htarget with h | h <;> exact List.not_mem_nil h

/-- What a run has emitted for the file system: the default security group, and where
there are mount targets the file system and a rule for each use of a subnet. -/
structure EfsOutcome (env : Env) (b : InfrastructureBuilder) (fixed : Fixed) (s : Store)
    (infrastructure : List DocId) (requests : Requests) (placed : List Placed) (group : DocId)
    (items targets : List Val) : Prop where
  parts : ShowsParts env b fixed s requests
  emitted : infrastructure.filter (fun id =>
    Holds? (kindIs "infrastructure/default-security-group" (s.doc id))) = [group]
  requested : TargetsOf (usedSubnets env b fixed.docs "mount_efs" placed) items
  extended : Extended SameZone items [] targets
  unmounted : targets = [] → infrastructure.filter (fun id =>
    Holds? (kindIs "infrastructure/efs-storage" (s.doc id))) = []
  mounted : targets ≠ [] → infrastructure.filter (fun id =>
      Holds? (kindIs "infrastructure/efs-storage" (s.doc id))) = [fixed.shared.efsConfig] ∧
    (s.doc fixed.shared.efsConfig).specAttr? "mount_targets" = some (.list targets) ∧
    ∃ rules, (s.doc group).specAttr? "rules" = some (.list rules) ∧
      List.Forall₂ (fun rule r => ∀ source,
          isNfsIngressRule source rule = (SubnetRequest.addressPool r).pyEq source) rules
        (usedSubnets env b fixed.docs "authorized_to_efs" placed)

/-- Access is granted once for each network exactly when there are mount targets and the
subnets in use have different pools. -/
theorem EfsOutcome.efsGranted_iff {group : DocId} {items targets : List Val}
    (h : EfsOutcome env b fixed s infrastructure requests p.placed group items targets)
    (hrep : Represents env b fixed s infrastructure requests p)
    (hsubnet : fixed.own Requested.subnet.kind = none) (hplaces : p.PlacesSubnets)
    (hwf : ∀ r ∈ p.requests, r.addressPool.WellFormed ∧ r.availabilityZone.WellFormed) :
    EfsGranted s infrastructure (membersOf requests) ↔
      usedSubnets env b fixed.docs "mount_efs" p.placed ≠ [] ∧
      ((usedSubnets env b fixed.docs "authorized_to_efs" p.placed).map
        SubnetRequest.addressPool).Pairwise fun pool other => pool.pyEq other = false := by
  have hused : ∀ {key : String}, ∀ r ∈ usedSubnets env b fixed.docs key p.placed,
      r.addressPool.WellFormed ∧ r.availabilityZone.WellFormed := by
    intro key r hr
    obtain ⟨id, he⟩ := hrep.usedSubnets_requested hplaces r hr
    exact hwf r (hrep.subnets ▸ List.mem_map_of_mem (f := Prod.snd) he)
  have hnil := targets_eq_nil_iff h.requested h.extended fun r hr => (hused r hr).2
  have hzones : ∀ zone, zone.WellFormed →
      (UsedBy s infrastructure (membersOf requests) "mount_efs" "availability_zone" zone →
        targets.countP (isTargetIn zone) = 1) ∧
      (¬ UsedBy s infrastructure (membersOf requests) "mount_efs" "availability_zone" zone →
        targets.countP (isTargetIn zone) = 0) := by
    intro zone hzone
    rw [hrep.usedBy_iff hsubnet hplaces h.parts (by simp [efsParts])
        (fun e he => hrep.zone_eq hsubnet he),
      countP_targets h.requested h.extended (fun r hr => (hused r hr).2) hzone, ← List.any_eq_true]
    split <;> simp [*]
  by_cases htargets : targets = []
  · -- without mount targets the file system is not emitted
    refine iff_of_false ?_ fun hright => hright.1 (hnil.mp htargets)
    rintro ⟨-, efs, targets', hfilter, -⟩
    rw [h.unmounted htargets] at hfilter
    cases hfilter
  · obtain ⟨hefs, htargetsRead, rules, hrulesRead, hrules⟩ := h.mounted htargets
    have hcount : ∀ value, rules.countP (isNfsIngressRule value) =
        ((usedSubnets env b fixed.docs "authorized_to_efs" p.placed).map
          SubnetRequest.addressPool).countP (·.pyEq value) := by
      intro value
      rw [List.countP_map]
      exact countP_forall₂ hrules fun rule r hrule => hrule value
    have hpools : ∀ value ∈ (usedSubnets env b fixed.docs "authorized_to_efs" p.placed).map
        SubnetRequest.addressPool, value.WellFormed := by
      simpa using fun r hr => (hused r hr).1
    have hiff : OnceEach rules isNfsIngressRule
        (UsedBy s infrastructure (membersOf requests) "authorized_to_efs" "cidr_block") ↔ _ :=
      onceEach_iff hpools hcount fun value => by
        rw [hrep.usedBy_iff hsubnet hplaces h.parts (by simp [efsParts])
          (fun e he => hrep.pool_eq hsubnet he)]
        simp
    rw [← hiff]
    constructor
    · rintro ⟨⟨group', rules', hgroup, hread, honce⟩, -⟩
      obtain rfl : group' = group := by simpa using hgroup.symm.trans h.emitted
      cases hread.symm.trans hrulesRead
      exact ⟨fun hempty => htargets (hnil.mpr hempty), honce⟩
    · rintro ⟨-, honce⟩
      exact ⟨⟨group, rules, h.emitted, hrulesRead, honce⟩,
        ⟨fixed.shared.efsConfig, targets, hefs, htargetsRead, hzones⟩⟩

theorem filter_kind_keeps {changing : Set String} (h : Keeps changing s s')
    (hids : ∀ id ∈ ids, id < s.next) (kind : String) :
    ids.filter (fun id => Holds? (kindIs kind (s'.doc id))) =
      ids.filter fun id => Holds? (kindIs kind (s.doc id)) :=
  List.filter_congr fun id hid => holds?_kindIs_congr (h.doc id (hids id hid)).kind kind

/-- The end of a run: the file system and its rules are emitted where there are mount
targets. -/
theorem MountsTracked.addEfs {start : List DocId} {group : DocId}
    (h : Represents env b fixed s ids requests p)
    (ht : MountsTracked env b fixed start s ids p.placed)
    (hsubnet : fixed.own Requested.subnet.kind = none) (hplaces : p.PlacesSubnets)
    (hstart : ∀ kind ∈ ["infrastructure/default-security-group", "infrastructure/efs-storage"],
      start.filter (fun id => Holds? (kindIs kind (s.doc id))) =
        if kind = "infrastructure/default-security-group" then [group] else [])
    (hlt : group < s.next)
    (hkind : (s.doc group).IsKind "infrastructure/default-security-group")
    (hempty : (s.doc group).specAttr? "rules" = some (.list []))
    (hown : ∀ id ∈ b.docs, ¬ (s.doc id).IsKind ruleKind)
    (hrun : b.addEfs env fixed.shared.efsConfig group ids s = .ok (infrastructure, s')) :
    ∃ items targets,
      EfsOutcome env b fixed s' infrastructure requests p.placed group items targets := by
  obtain ⟨hkeep, h'⟩ := h.addEfs hlt hkind hrun
  have hparts := ht.showsParts h
  have hparts' : ShowsParts env b fixed s' requests := by
    intro e he key hkey
    obtain ⟨hmem, hvm⟩ := (h.ledger .machine).mem_ids (r := e.2) he
    rw [hkeep.same (h.allocated _ hmem) hvm (kind_notMem_efsKinds .machine)]
    exact hparts e he key hkey
  have hfilter : ∀ kind ∈ ["infrastructure/default-security-group", "infrastructure/efs-storage"],
      ids.filter (fun id => Holds? (kindIs kind (s'.doc id))) =
        if kind = "infrastructure/default-security-group" then [group] else [] := by
    intro kind hmem
    have hother : kind ∉ requestedKinds := by
      simp only [List.mem_cons, List.not_mem_nil, or_false] at hmem
      rintro ⟨k, rfl⟩
      cases k <;> simp [Requested.kind, vmKind] at hmem
    rw [filter_kind_keeps hkeep h.allocated, ht.emits.filter_eq hother]
    exact hstart kind hmem
  have hgroups := hfilter "infrastructure/default-security-group" (by simp)
  have hefs := hfilter "infrastructure/efs-storage" (by simp)
  rw [if_pos rfl] at hgroups
  rw [if_neg (by decide)] at hefs
  have hefsKind : (s'.doc fixed.shared.efsConfig).IsKind "infrastructure/efs-storage" := h'.efsKind
  obtain ⟨items, targets, hitems, hread, hext⟩ := ht.targets
  simp only [InfrastructureBuilder.addEfs, InfrastructureBuilder.hasEfsAnyMounts,
    BuildM.bind_eq_ok, lift_eq_ok] at hrun
  obtain ⟨mounts, _, ⟨value, _, hmount, own, _, ⟨hown', rfl⟩, hmounts⟩, hrun⟩ := hrun
  obtain ⟨hvalue, rfl⟩ := specAttr_eq_ok.mp hmount
  obtain ⟨rfl, rfl⟩ := BuildM.pure_eq_ok.mp hmounts
  rw [Option.some.inj (hvalue.symm.trans hread)] at hown'
  cases hown'
  refine ⟨items, targets, ?_⟩
  cases targets with
  | nil =>
      obtain ⟨rfl, rfl⟩ := BuildM.pure_eq_ok.mp hrun
      exact ⟨hparts', hgroups, hitems, hext, fun _ => hefs, fun hne => absurd rfl hne⟩
  | cons target rest =>
      rw [List.isEmpty_cons, Bool.not_false, if_pos rfl] at hrun
      obtain ⟨_, s₁, hrules, hret⟩ := BuildM.bind_eq_ok.mp hrun
      obtain ⟨rfl, rfl⟩ := BuildM.pure_eq_ok.mp hret
      have hother : ∀ k : Requested, ¬ (s.doc fixed.shared.efsConfig).IsKind k.kind := by
        intro k hk
        have heq := h.efsKind.symm.trans hk
        cases k <;> simp [Requested.kind, vmKind] at heq
      obtain ⟨rules, hrulesRead, hnfs⟩ :=
        (h.append_other h.efsConfig hother).nfsRules hsubnet hplaces hparts hown hempty hrules
      have hnotGroup : ¬ (s₁.doc fixed.shared.efsConfig).IsKind
          "infrastructure/default-security-group" := fun hgroup => by
        simpa using hefsKind.symm.trans hgroup
      refine ⟨hparts', ?_, hitems, hext, fun heq => absurd heq (List.cons_ne_nil _ _),
        fun _ => ⟨?_, ?_, rules, hrulesRead, hnfs⟩⟩
      · rw [List.filter_append, hgroups, List.filter_singleton,
          Bool.eq_false_iff.mpr (mt holds?_kindIs.mp hnotGroup)]
        rfl
      · rw [List.filter_append, hefs, List.filter_singleton, holds?_kindIs.mpr hefsKind]
        rfl
      · rw [hkeep.same h.efsConfig h.efsKind (by simp [efsKinds])]
        exact hread

/-- Where the user replaces none of the documents the access to the file system is built
from, the default security group lets each CIDR block of an authorized autoscaling group
in once, and the file system has one mount target in each zone of a group that mounts
it, exactly when a component with a subnet mounts the file system and no address pool is
that of two subnet definitions of authorized components. -/
theorem run_efsGranted_iff {keys : KeySource}
    (hdocs : ∀ id ∈ b.docs, id < s.next) (hunique : ∀ id ∈ b.docs, (s.doc id).KeysUnique)
    (hwf : b.clusterModel.WellFormed)
    (hkinds : ∀ kind ∈ ["infrastructure/default-security-group",
      "infrastructure/security-group-rule", "infrastructure/subnet", "infrastructure/efs-storage"],
      ∀ id ∈ b.docs, ¬ (s.doc id).IsKind kind)
    (hrules : defaultPart env "infrastructure/default-security-group" "rules" = some (.list []))
    (htargets : defaultPart env "infrastructure/efs-storage" "mount_targets" = some (.list []))
    (h : b.run env keys s = .ok (infrastructure, s')) :
    ∃ components members,
      (attrPath b.clusterModel ["specification", "components"]).bind Val.asDict =
        .ok components ∧
      Members env b s' infrastructure components members ∧
      (EfsGranted s' infrastructure members ↔
        MountsEfs env b (b.docs.map s.doc) components ∧
        (authorizedPools env b (b.docs.map s.doc) components).Pairwise fun pool other =>
          pool.pyEq other = false) := by
  have hnone : ∀ kind ∈ ["infrastructure/default-security-group",
      "infrastructure/security-group-rule", "infrastructure/subnet", "infrastructure/efs-storage"],
      ownDoc b.docs kind s = none := fun kind hmem =>
    List.find?_eq_none.mpr fun id hid hholds => hkinds kind hmem id hid (holds?_kindIs.mp hholds)
  simp only [InfrastructureBuilder.run, BuildM.bind_eq_ok] at h
  obtain ⟨start, s₁, hstart, emitted, s₂, hloop, hefs⟩ := h
  obtain ⟨fixed, hshared, hfixed, hown, hcomponents, ⟨hlt, hkind⟩, h₁⟩ :=
    start_represents hdocs hunique hstart
  obtain ⟨hkeep₁, hfilter, hempty, hunmounted⟩ := start_mounts hdocs (hnone _ (by simp))
    (hnone _ (by simp)) hrules htargets hstart
  have hsubnet : fixed.own Requested.subnet.kind = none := (hown _).trans (hnone _ (by decide))
  have hreplaced : fixed.replaced.subnet = false := by rw [Fixed.replaced, hsubnet]; rfl
  have hwfs := components_wellFormed hwf hcomponents
  have ht₁ : MountsTracked env b fixed start.infrastructure s₁ start.infrastructure [] :=
    .start hdocs hfixed hshared hkeep₁ (hfilter vmKind (by simp)) hunmounted
  rw [← hshared] at hloop hefs
  obtain ⟨requests, hkeep₂, h₂, ht₂⟩ := ht₁.buildComponents h₁ hsubnet hloop
  have hplaces := plan_placesSubnets hreplaced hwfs
  have hsame : s₂.doc start.defaultSecurityGroup = s₁.doc start.defaultSecurityGroup := by
    refine hkeep₂.same hlt hkind ?_
    rintro (heq | ⟨k, heq⟩)
    · simp at heq
    · cases k <;> simp [Requested.kind, vmKind] at heq
  have hlt₂ := hlt.trans_le hkeep₂.next
  have hkind₂ := (hkeep₂.isKind hlt _).mpr hkind
  have hrulekind : ∀ id ∈ b.docs, ¬ (s₂.doc id).IsKind ruleKind := by
    intro id hid hruleKind
    have hid₁ := (hdocs id hid).trans_le hkeep₁.next
    exact hkinds ruleKind (by simp) id hid
      ((hkeep₁.isKind (hdocs id hid) _).mp ((hkeep₂.isKind hid₁ _).mp hruleKind))
  obtain ⟨items, targets, houtcome⟩ := ht₂.addEfs h₂ hsubnet hplaces (fun kind hmem => by
    rw [filter_kind_keeps hkeep₂ h₁.allocated]
    apply hfilter
    simp only [List.mem_cons, List.not_mem_nil, or_false] at hmem ⊢
    tauto) hlt₂ hkind₂ (hsame ▸ hempty) hrulekind hefs
  obtain ⟨-, h₃⟩ := h₂.addEfs hlt₂ hkind₂ hefs
  refine ⟨start.components, membersOf requests, hcomponents, h₃.members, ?_⟩
  rw [houtcome.efsGranted_iff h₃ hsubnet hplaces (plan_wellFormed fixed.replaced hwfs), ← hfixed,
    mountsEfs_iff hreplaced hwfs, authorizedPools_pairwise_iff hreplaced hwfs]
  rfl

end

/-! ## Two components on one subnet -/

namespace ClusterSample

/-- A machine definition whose machines mount the file system. -/
def efsMachine (name : String) : Val :=
  .dict [("kind", .str "infrastructure/virtual-machine"), ("name", .str name),
    ("provider", .str "aws"),
    ("specification", .dict [("size", .str "t3.medium"), ("os_full_name", .str "ubuntu"),
      ("tags", .list []), ("disks", .list []), ("ebs_optimized", .bool false),
      ("mount_efs", .bool true), ("authorized_to_efs", .bool true),
      ("security", .dict [("rules", .list [])])])]

def efsStore : Store :=
  Store.alloc (Store.alloc ⟨0, fun _ => .null⟩ (efsMachine "m1")) (efsMachine "m2")

/-- The NFS rules for a block in the default security group of a run. -/
def nfsRules (block : String) (result : List DocId × Store) : Option Nat := do
  let group ← result.1.find? fun id =>
    Holds? (kindIs "infrastructure/default-security-group" (result.2.doc id))
  let rules ← (result.2.doc group).specAttr? "rules"
  let rules ← rules.asList.toOption
  return rules.countP (isNfsIngressRule (.str block))

theorem run_sharing_nfsRules :
    (sharing.run env keys efsStore).toOption.bind (nfsRules "10.1.2.0/24") = some 2 := by
  decide +kernel

end ClusterSample

/-- The subnet both components use is let in twice. -/
theorem run_sharing_grantsTwice :
    MountsEfs ClusterSample.env ClusterSample.sharing
        (ClusterSample.sharing.docs.map ClusterSample.efsStore.doc)
        [("kafka", ClusterSample.component "m1" ["10.1.1.0/24", "10.1.2.0/24"]),
          ("logging", ClusterSample.component "m1" ["10.1.2.0/24"])] ∧
      ∃ infrastructure s', ClusterSample.sharing.run ClusterSample.env ClusterSample.keys
          ClusterSample.efsStore = .ok (infrastructure, s') ∧
        ¬ ∃ members, EfsGranted s' infrastructure members := by
  constructor
  · exact ⟨_, List.mem_cons_self, by decide, by decide, by decide⟩
  · have hcount := ClusterSample.run_sharing_nfsRules
    rw [Option.bind_eq_some_iff] at hcount
    obtain ⟨⟨infrastructure, s'⟩, hrun, hrules⟩ := hcount
    refine ⟨infrastructure, s', toOption_eq_some.mp hrun, ?_⟩
    rintro ⟨members, ⟨group, rules, hgroup, hread, honce⟩, -⟩
    have hfind : infrastructure.find? (fun id =>
        Holds? (kindIs "infrastructure/default-security-group" (s'.doc id))) = some group := by
      rw [← List.head?_filter, hgroup]
      rfl
    have htwo : rules.countP (isNfsIngressRule (.str "10.1.2.0/24")) = 2 := by
      simpa [ClusterSample.nfsRules, hfind, hread, Val.asList, Except.toOption] using hrules
    obtain ⟨hone, hzero⟩ := honce (.str "10.1.2.0/24") (.scalar _)
    by_cases hused : UsedBy s' infrastructure members "authorized_to_efs" "cidr_block"
        (.str "10.1.2.0/24")
    · rw [hone hused] at htwo
      cases htwo
    · rw [hzero hused] at htwo
      cases htwo

/-- The exact condition for the same cluster. -/
theorem run_efsGranted_iff_sample :
    ∃ infrastructure s', ClusterSample.sharing.run ClusterSample.env ClusterSample.keys
        ClusterSample.efsStore = .ok (infrastructure, s') ∧
      ∃ components members,
        (attrPath ClusterSample.sharing.clusterModel
          ["specification", "components"]).bind Val.asDict = .ok components ∧
        Members ClusterSample.env ClusterSample.sharing s' infrastructure components members ∧
        (EfsGranted s' infrastructure members ↔
          MountsEfs ClusterSample.env ClusterSample.sharing
            (ClusterSample.sharing.docs.map ClusterSample.efsStore.doc) components ∧
          (authorizedPools ClusterSample.env ClusterSample.sharing
            (ClusterSample.sharing.docs.map ClusterSample.efsStore.doc) components).Pairwise
              fun pool other => pool.pyEq other = false) := by
  obtain ⟨⟨infrastructure, s'⟩, hrun⟩ := Lib.exists_ok_of_isSome
    (show (ClusterSample.sharing.run ClusterSample.env ClusterSample.keys
      ClusterSample.efsStore).toOption.isSome = true by decide +kernel)
  have hwf : ∀ id ∈ ClusterSample.sharing.docs, (ClusterSample.efsStore.doc id).WellFormed := by
    simp [ClusterSample.sharing, ClusterSample.builder, ClusterSample.efsStore, Store.alloc,
      ClusterSample.efsMachine]
  have hother : ∀ kind, kind ≠ vmKind → ∀ id ∈ ClusterSample.sharing.docs,
      ¬ (ClusterSample.efsStore.doc id).IsKind kind := by
    intro kind hkind id hid
    simp only [ClusterSample.sharing, ClusterSample.builder, List.mem_cons, List.not_mem_nil,
      or_false] at hid
    rcases hid with rfl | rfl <;> exact fun h => hkind (by cases h; rfl)
  refine ⟨infrastructure, s', hrun, run_efsGranted_iff ?_ (fun id hid => (hwf id hid).keysUnique)
    ?_ ?_ rfl rfl hrun⟩
  · simp [ClusterSample.sharing, ClusterSample.builder, ClusterSample.efsStore]
  · simp [ClusterSample.sharing, ClusterSample.builder, ClusterSample.clusterModel,
      ClusterSample.component]
  · intro kind hmem
    apply hother
    rintro rfl
    simp [vmKind] at hmem

end Aws

end LambdaStack
