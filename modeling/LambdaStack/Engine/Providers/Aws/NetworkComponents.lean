/-
# The documents of an AWS component

The parts of the component loop after the subnets: the autoscaling group, the
rules of the security groups and the launch configuration. Together with the
subnets they keep the invariant that relates the documents to the plan.
-/

import LambdaStack.Engine.Providers.Aws.NetworkDocs
import LambdaStack.Engine.Providers.Aws.RuleLists

namespace LambdaStack

open Lib BuildM

namespace Aws

section

variable {env : Env} {b : InfrastructureBuilder} {fixed : Fixed} {s s' : Store}
  {ids : List DocId} {id : DocId} {requests : Requests} {p : Plan} {changing : Set String}

/-! ## The autoscaling group -/

theorem specAttrs_eq_ok {key : String} {values : List Val}
    (h : InfrastructureBuilder.specAttrs key ids s = .ok (values, s')) :
    s' = s ∧ List.Forall₂ (fun id value => (s.doc id).specAttr? key = some value) ids values := by
  induction ids generalizing values with
  | nil =>
      obtain ⟨rfl, rfl⟩ := BuildM.pure_eq_ok.mp h
      exact ⟨rfl, .nil⟩
  | cons id rest ih =>
      simp only [InfrastructureBuilder.specAttrs, BuildM.bind_eq_ok] at h
      obtain ⟨value, _, hread, values, s₁, hrest, h⟩ := h
      obtain ⟨hvalue, rfl⟩ := specAttr_eq_ok.mp hread
      obtain ⟨rfl, rfl⟩ := BuildM.pure_eq_ok.mp h
      obtain ⟨rfl, hvalues⟩ := ih hrest
      exact ⟨rfl, .cons hvalue hvalues⟩

/-- A copy of a machine definition shows the names of the subnets and the definition's
`security` part. -/
theorem getAutoscalingGroup_eq_ok {componentKey : String} {componentValue : Val}
    {subnets : List DocId} {index : Nat} {autoscalingGroup : DocId}
    (hdocs : ∀ id ∈ b.docs, id < s.next) (hunique : ∀ id ∈ b.docs, (s.doc id).KeysUnique)
    (hsubnets : ∀ id ∈ subnets, id < s.next ∧ ∃ kind ≠ vmKind, (s.doc id).IsKind kind)
    (h : b.getAutoscalingGroup env componentKey componentValue subnets index s =
      .ok (autoscalingGroup, s')) :
    Keeps {vmKind} s s' ∧ (∀ id < s.next, id ∉ b.docs → s'.doc id = s.doc id) ∧
      s.next ≤ autoscalingGroup ∧ autoscalingGroup < s'.next ∧
      (s'.doc autoscalingGroup).IsKind vmKind ∧
      ∃ machineSelector names, componentValue.getAttr "machine" = .ok machineSelector ∧
        List.Forall₂ (fun id name => (s.doc id).specAttr? "name" = some name) subnets names ∧
        Shows [("name", b.indexed env "asg" index componentKey), ("subnet_names", .list names)]
          (s'.doc autoscalingGroup) ∧
        (s'.doc autoscalingGroup).specAttr? "security" =
          machineSecurity env.toBuilderEnv b.clusterModel (b.docs.map s.doc) machineSelector := by
  simp only [InfrastructureBuilder.getAutoscalingGroup, InfrastructureBuilder.setGroupFields,
    BuildM.bind_eq_ok, lift_eq_ok] at h
  obtain ⟨model, s₁, hmachine, copy, _, hread, id, _, hnew, _, s₃, h, hret⟩ := h
  obtain ⟨rfl, rfl⟩ := BuildM.pure_eq_ok.mp hret
  obtain ⟨hcopy, rfl⟩ := reads_eq_ok.mp hread
  cases hcopy
  obtain ⟨rfl, rfl⟩ := newDoc_eq_ok.mp hnew
  obtain ⟨count, _, ⟨-, rfl⟩, names, s₄, hnames, zones, s₅, hzones, _, s₆, hset, happend⟩ := h
  obtain ⟨rfl, hshown⟩ := specAttrs_eq_ok hnames
  obtain ⟨rfl, -⟩ := specAttrs_eq_ok hzones
  obtain ⟨hkeep₁, hlt, hmachineOrNull, machineSelector, hselector, hsecurity⟩ :=
    getVirtualMachine_keeps hdocs hunique hmachine
  obtain ⟨hframe₁, hmodel⟩ := getVirtualMachine_frame hdocs hmachine
  have hkind₂ : ((s₁.alloc (s₁.doc model)).doc s₁.next).IsKind vmKind := by
    rw [s₁.alloc_doc_self]
    rcases hmachineOrNull with hnull | hkind
    · obtain ⟨_, _, hfirst, -⟩ := BuildM.bind_eq_ok.mp hset
      obtain ⟨doc, hdoc, -⟩ := setSpecAttr_eq_ok.mp hfirst
      rw [s₁.alloc_doc_self, hnull] at hdoc
      simp [Val.withSpecAttr, Val.getAttr, Val.attr?] at hdoc
    · exact hkind
  have hmodelKind : (s₁.doc model).IsKind vmKind := by
    rwa [s₁.alloc_doc_self] at hkind₂
  obtain ⟨hkeep₃, hframe₃, hread₃⟩ := setSpecAttrs_eq_ok hkind₂ (by simp) (by simp) hset
  have hlt₂ : s₁.next < (s₁.alloc (s₁.doc model)).next := Nat.lt_succ_self _
  have hkind₃ := (hkeep₃.isKind hlt₂ vmKind).mpr hkind₂
  simp only [appendTags, BuildM.bind_eq_ok, lift_eq_ok] at happend
  obtain ⟨tags, _, htags, old, _, ⟨-, rfl⟩, happend⟩ := happend
  obtain ⟨-, rfl⟩ := specAttr_eq_ok.mp htags
  have htagged := assigned_setSpecAttr hkind₃ (by simp) happend
  have hkeep : Keeps {vmKind} s₁ s₃ :=
    ((Keeps.alloc {vmKind} s₁ _).trans hkeep₃).trans htagged.keep
  have hframe : s₁.Frame {s₁.next} s₃ :=
    ((s₁.frame_alloc _ _).trans hframe₃).trans htagged.frame
  refine ⟨hkeep₁.trans hkeep, fun id hid hout => ?_, hkeep₁.next,
    hlt₂.trans_le (hkeep₃.next.trans htagged.keep.next), htagged.isKind,
    machineSelector, names, hselector, ?_, ?_, ?_⟩
  · have hne : id ≠ model := by
      rintro rfl
      rcases hmodel with hmem | hle
      · exact hout hmem
      · exact absurd hid (Nat.not_lt.mpr hle)
    have hlt₁ := hid.trans_le hkeep₁.next
    rw [hframe.2 id hlt₁ hlt₁.ne, hframe₁.2 id hid hne]
  · refine List.Forall₂.imp ?_ ((List.forall₂_and_left subnets names).mpr ⟨hsubnets, hshown⟩)
    rintro id name ⟨⟨hidlt, kind, hkind, hisKind⟩, hname⟩
    have hlt₁ := hidlt.trans_le hkeep₁.next
    rwa [s₁.alloc_doc_of_lt hlt₁, hkeep₁.same hidlt hisKind (by simpa using hkind)] at hname
  · apply shows_of_forall
    refine List.forall_mem_cons.mpr ⟨?_, List.forall_mem_singleton.mpr ?_⟩
    · rw [htagged.read, hread₃]
      rfl
    · rw [htagged.read, hread₃]
      rfl
  · rw [htagged.read, hread₃, s₁.alloc_doc_self, hsecurity hmodelKind]
    rfl

/-! ## The rules of the security groups -/

/-- What adding rules to some groups does to the documents. -/
structure RulesGrown (env : Env) (rules : List Val) (groups : List (Option DocId))
    (s s' : Store) : Prop where
  keep : Keeps {Requested.group.kind} s s'
  fields : ∀ id key, key ≠ "rules" → (s'.doc id).specAttr? key = (s.doc id).specAttr? key
  others : ∀ id, some id ∉ groups → s'.doc id = s.doc id
  grown : ∀ id, some id ∈ groups → ∀ old, (s.doc id).specAttr? "rules" = some (.list old) →
    ∃ new, (s'.doc id).specAttr? "rules" = some (.list new) ∧
      Extended (SameRule env) rules old new

theorem RulesGrown.nil (env : Env) (rules : List Val) (s : Store) :
    RulesGrown env rules [] s s where
  keep := .refl _ _
  fields _ _ _ := rfl
  others _ _ := rfl
  grown _ h := absurd h List.not_mem_nil

theorem RulesGrown.append {rules : List Val} {groups groups' : List (Option DocId)} {s₁ : Store}
    (h : RulesGrown env rules groups s s₁) (h' : RulesGrown env rules groups' s₁ s') :
    RulesGrown env rules (groups ++ groups') s s' where
  keep := h.keep.trans h'.keep
  fields id key hkey := (h'.fields id key hkey).trans (h.fields id key hkey)
  others id hid := by
    rw [List.mem_append, not_or] at hid
    rw [h'.others id hid.2, h.others id hid.1]
  grown id hid old hold := by
    by_cases hfirst : some id ∈ groups
    · obtain ⟨mid, hmid, hext⟩ := h.grown id hfirst old hold
      by_cases hsecond : some id ∈ groups'
      · obtain ⟨new, hnew, hext'⟩ := h'.grown id hsecond mid hmid
        exact ⟨new, hnew, hext.again hext'⟩
      · exact ⟨mid, by rw [h'.others id hsecond, hmid], hext⟩
    · have hsecond := (List.mem_append.mp hid).resolve_left hfirst
      exact h'.grown id hsecond old (by rw [h.others id hfirst, hold])

theorem groupDoc_eq_ok {group : Option DocId} :
    InfrastructureBuilder.groupDoc group s = .ok (id, s') ↔ group = some id ∧ s = s' := by
  cases group with
  | none => simp [InfrastructureBuilder.groupDoc, lift_eq_ok]
  | some other =>
      simp only [InfrastructureBuilder.groupDoc, BuildM.pure_eq_ok, Option.some.injEq]

theorem addRulesToGroup_grown {rules : List Val} {group : Option DocId} {u : Unit}
    (hkind : ∀ id, group = some id → (s.doc id).IsKind Requested.group.kind)
    (h : InfrastructureBuilder.addRulesToGroup env rules group s = .ok (u, s')) :
    RulesGrown env rules [group] s s' := by
  rw [InfrastructureBuilder.addRulesToGroup] at h
  split at h
  · next hempty =>
      -- the group is neither read nor written
      obtain ⟨-, rfl⟩ := BuildM.pure_eq_ok.mp h
      obtain rfl := List.isEmpty_iff.mp hempty
      exact ⟨.refl _ _, fun _ _ _ => rfl, fun _ _ => rfl, fun id _ old hold => ⟨old, hold, .nil _⟩⟩
  · simp only [BuildM.bind_eq_ok, lift_eq_ok] at h
    obtain ⟨id, _, hgroup, value, _, hread, old, _, ⟨hold, rfl⟩, new, _, ⟨hnew, rfl⟩, hset⟩ := h
    obtain ⟨rfl, rfl⟩ := groupDoc_eq_ok.mp hgroup
    obtain ⟨hvalue, rfl⟩ := specAttr_eq_ok.mp hread
    rw [Val.asList_eq_ok] at hold
    subst hold
    obtain ⟨doc, hdoc, rfl⟩ := setSpecAttr_eq_ok.mp hset
    have hstep : DocStep {Requested.group.kind} (s.doc id) doc :=
      .withSpecAttr (hkind id rfl) (Set.mem_singleton _) (by decide) hdoc
    refine ⟨.write hstep, fun other key hkey => ?_, fun other hother => ?_,
      fun other hother old' hold' => ?_⟩
    · by_cases heq : other = id
      · subst heq
        rw [s.write_doc_self, Val.specAttr?_withSpecAttr hdoc, if_neg hkey]
      · rw [s.write_doc_ne heq]
    · apply s.write_doc_ne
      intro heq
      exact hother (by simp [heq])
    · obtain rfl : other = id := by simpa using hother
      cases hvalue.symm.trans hold'
      refine ⟨new, ?_, addMissingRules_eq_ok hnew⟩
      rw [s.write_doc_self, Val.specAttr?_withSpecAttr hdoc, if_pos rfl]

theorem rulesOf_eq_ok {autoscalingGroup : DocId} {rules : List Val}
    (h : InfrastructureBuilder.rulesOf autoscalingGroup s = .ok (rules, s')) :
    s' = s ∧ rules = rulesIn ((s.doc autoscalingGroup).specAttr? "security") := by
  simp only [InfrastructureBuilder.rulesOf, BuildM.bind_eq_ok, lift_eq_ok] at h
  obtain ⟨security, _, hread, value, _, ⟨hvalue, rfl⟩, hrules, rfl⟩ := h
  obtain ⟨hsecurity, rfl⟩ := specAttr_eq_ok.mp hread
  rw [Val.asList_eq_ok] at hrules
  rw [Val.getAttr_eq_ok, hrules] at hvalue
  refine ⟨rfl, ?_⟩
  rw [hsecurity, rulesIn, Option.bind_some, hvalue]
  rfl

/-- The rules of an autoscaling group are added to its security groups. -/
theorem addRules_grown {autoscalingGroup : DocId} {groups : List (Option DocId)} {u : Unit}
    (hother : some autoscalingGroup ∉ groups)
    (hgroups : ∀ id, some id ∈ groups → id < s.next ∧ (s.doc id).IsKind Requested.group.kind)
    (h : InfrastructureBuilder.addRules env autoscalingGroup groups s = .ok (u, s')) :
    RulesGrown env (rulesIn ((s.doc autoscalingGroup).specAttr? "security")) groups s s' := by
  induction groups generalizing s with
  | nil =>
      obtain ⟨-, rfl⟩ := BuildM.pure_eq_ok.mp h
      exact .nil _ _ _
  | cons group rest ih =>
      simp only [InfrastructureBuilder.addRules, BuildM.bind_eq_ok] at h
      obtain ⟨rules, _, hrules, _, s₁, hfirst, hrest⟩ := h
      obtain ⟨rfl, rfl⟩ := rulesOf_eq_ok hrules
      have hgrown := addRulesToGroup_grown
        (fun id hid => (hgroups id (by simp [hid])).2) hfirst
      have hsame : s₁.doc autoscalingGroup = _ :=
        hgrown.others autoscalingGroup fun hmem =>
          hother (List.mem_cons.mpr (Or.inl (by simpa using hmem)))
      have hgrown' := ih (fun hmem => hother (List.mem_cons_of_mem _ hmem)) (fun id hid => by
        obtain ⟨hlt, hkind⟩ := hgroups id (List.mem_cons_of_mem _ hid)
        exact ⟨hlt.trans_le hgrown.keep.next, (hgrown.keep.isKind hlt _).mpr hkind⟩) hrest
      rw [hsame] at hgrown'
      exact hgrown.append hgrown'

/-! ## Steps of the invariant -/

/-- A step on machine definitions that are the user's. -/
theorem Represents.machineStep (h : Represents env b fixed s ids requests p)
    (hkeep : Keeps {vmKind} s s') (hsame : ∀ id < s.next, id ∉ b.docs → s'.doc id = s.doc id) :
    Represents env b fixed s' ids requests p :=
  { h with
    toTracked := h.toTracked.keeps hkeep (by decide)
    ledger := fun k => by
      by_cases hk : k = .machine
      · subst hk
        apply (h.ledger .machine).congr
        · intro id hid
          exact hkeep.isKind (h.allocated id hid) _
        · intro id r hmem hshows
          have hlt := h.allocated id ((h.ledger .machine).mem_ids hmem).1
          rwa [hsame id hlt (h.copies _ hmem)]
      · exact (h.ledger k).keeps hkeep (fun heq => hk (Requested.kind_injective heq))
          h.allocated
    securities := h.securities_keeps hkeep }

/-- Adding rules to security groups. -/
theorem Represents.rulesStep (h : Represents env b fixed s ids requests p) {rules : List Val}
    {groups : List (Option DocId)} (hgrown : RulesGrown env rules groups s s') :
    Represents env b fixed s' ids requests p :=
  { h with
    toTracked := h.toTracked.keeps hgrown.keep (by decide)
    ledger := fun k => by
      by_cases hk : k = .group
      · subst hk
        apply (h.ledger .group).congr
        · intro id hid
          exact hgrown.keep.isKind (h.allocated id hid) _
        · intro id r _ hshows key value hvalue
          have hkey : key ≠ "rules" := by
            rintro rfl
            cases hvalue
          rw [hgrown.fields id key hkey]
          exact hshows key value hvalue
      · exact (h.ledger k).keeps hgrown.keep (fun heq => hk (Requested.kind_injective heq))
          h.allocated
    securities := h.securities_keeps hgrown.keep }

/-! ## The launch configuration -/

theorem groupNames_eq_ok {groups : List (Option DocId)} {names : List Val}
    (h : InfrastructureBuilder.groupNames groups s = .ok (names, s')) :
    s' = s ∧ List.Forall₂ (fun group name => ∃ id, group = some id ∧
      (s.doc id).specAttr? "name" = some name) groups names := by
  induction groups generalizing names with
  | nil =>
      obtain ⟨rfl, rfl⟩ := BuildM.pure_eq_ok.mp h
      exact ⟨rfl, .nil⟩
  | cons group rest ih =>
      simp only [InfrastructureBuilder.groupNames, BuildM.bind_eq_ok] at h
      obtain ⟨id, _, hgroup, name, _, hread, names, s₁, hrest, h⟩ := h
      obtain ⟨rfl, rfl⟩ := groupDoc_eq_ok.mp hgroup
      obtain ⟨hname, rfl⟩ := specAttr_eq_ok.mp hread
      obtain ⟨rfl, rfl⟩ := BuildM.pure_eq_ok.mp h
      obtain ⟨rfl, hnames⟩ := ih hrest
      exact ⟨rfl, .cons ⟨id, rfl, hname⟩ hnames⟩

/-- The document of a launch configuration shows its name and the names of the groups. -/
theorem getLaunchConfiguration_eq_ok {autoscalingGroup launch : DocId} {componentKey : String}
    {groups : List (Option DocId)} (htracked : Tracked env b fixed s ids)
    (hgroups : ∀ id, some id ∈ groups → id < s.next ∧ (s.doc id).IsKind Requested.group.kind)
    (h : b.getLaunchConfiguration env autoscalingGroup componentKey groups s =
      .ok (launch, s')) :
    Keeps {Requested.launch.kind} s s' ∧ s.Frame {launch} s' ∧ launch < s'.next ∧
      (s'.doc launch).IsKind Requested.launch.kind ∧
      IsIssued (fixed.ownOf .launch) s.next launch ∧
      ∃ names, List.Forall₂ (fun group name => ∃ id, group = some id ∧
          (s.doc id).specAttr? "name" = some name) groups names ∧
        Shows [("name", launchName env b componentKey), ("security_groups", .list names)]
          (s'.doc launch) := by
  simp only [InfrastructureBuilder.getLaunchConfiguration, BuildM.bind_eq_ok, lift_eq_ok] at h
  obtain ⟨_, s₁, hconfig, size, _, hsize, _, s₂, hsetSize, names, _, hnames, _, s₃, hsetGroups,
    disks, _, hdisks, _, s₄, hsetDisks, ebsOptimized, _, hebs, _, s₅, hsetEbs, usePublicIps, _,
    ⟨-, rfl⟩, _, s₆, hsetIps, hret⟩ := h
  obtain ⟨rfl, rfl⟩ := BuildM.pure_eq_ok.mp hret
  obtain ⟨-, rfl⟩ := specAttr_eq_ok.mp hsize
  obtain ⟨-, rfl⟩ := specAttr_eq_ok.mp hdisks
  obtain ⟨-, rfl⟩ := specAttr_eq_ok.mp hebs
  obtain ⟨hkeep₁, hframe₁, hlt, hkind₁, hown, hshows₁⟩ :=
    htracked.config (k := .launch) (by decide) (by simp) hconfig
  have hassigned₂ := assigned_setSpecAttr hkind₁ (by decide) hsetSize
  obtain ⟨rfl, hshown⟩ := groupNames_eq_ok hnames
  have hassigned₃ :=
    hassigned₂.trans (assigned_setSpecAttr hassigned₂.isKind (by decide) hsetGroups)
  have hassigned₄ :=
    hassigned₃.trans (assigned_setSpecAttr hassigned₃.isKind (by decide) hsetDisks)
  have hassigned₅ := hassigned₄.trans (assigned_setSpecAttr hassigned₄.isKind (by decide) hsetEbs)
  have hassigned := hassigned₅.trans (assigned_setSpecAttr hassigned₅.isKind (by decide) hsetIps)
  refine ⟨hkeep₁.trans hassigned.keep, hframe₁.trans hassigned.frame,
    hlt.trans_le hassigned.keep.next, hassigned.isKind, hown, names, ?_, ?_⟩
  · have hmem : ∀ group ∈ groups, ∀ id, group = some id →
        id < s.next ∧ (s.doc id).IsKind Requested.group.kind :=
      fun group hgroup id hid => hgroups id (hid ▸ hgroup)
    refine List.Forall₂.imp (fun group name ⟨hgroup, id, hid, hname⟩ => ⟨id, hid, ?_⟩)
      ((List.forall₂_and_left groups names).mpr ⟨hmem, hshown⟩)
    obtain ⟨hidlt, hkind⟩ := hgroup id hid
    rwa [(hkeep₁.trans hassigned₂.keep).same hidlt hkind (by decide)] at hname
  · apply shows_of_forall
    refine List.forall_mem_cons.mpr ⟨?_, List.forall_mem_singleton.mpr ?_⟩
    · rw [hassigned.read]
      exact hshows₁ "name" _ rfl
    · rw [hassigned.read]
      rfl

/-! ## The end of the loop body -/

theorem efsAddMountTargetConfig_keeps {efsConfig subnet : DocId} {u : Unit}
    (hkind : (s.doc efsConfig).IsKind "infrastructure/efs-storage")
    (h : InfrastructureBuilder.efsAddMountTargetConfig efsConfig subnet s = .ok (u, s')) :
    Keeps {"infrastructure/efs-storage"} s s' := by
  simp only [InfrastructureBuilder.efsAddMountTargetConfig, BuildM.bind_eq_ok, lift_eq_ok] at h
  obtain ⟨targets, _, hread, items, _, ⟨-, rfl⟩, zone, _, hread', found, _, ⟨-, rfl⟩, h⟩ := h
  obtain ⟨-, rfl⟩ := specAttr_eq_ok.mp hread
  obtain ⟨-, rfl⟩ := specAttr_eq_ok.mp hread'
  cases found with
  | some _ =>
      obtain ⟨-, rfl⟩ := BuildM.pure_eq_ok.mp h
      exact .refl _ _
  | none =>
      simp only [BuildM.bind_eq_ok, lift_eq_ok] at h
      obtain ⟨subnetName, _, hname, name, _, ⟨-, rfl⟩, hset⟩ := h
      obtain ⟨-, rfl⟩ := specAttr_eq_ok.mp hname
      exact setSpecAttr_keeps hkind (Set.mem_singleton _) (by decide) hset

theorem efsAddMountTargets_keeps {efsConfig : DocId} {subnets : List DocId} {u : Unit}
    (hlt : efsConfig < s.next) (hkind : (s.doc efsConfig).IsKind "infrastructure/efs-storage")
    (h : InfrastructureBuilder.efsAddMountTargets efsConfig subnets s = .ok (u, s')) :
    Keeps {"infrastructure/efs-storage"} s s' := by
  induction subnets generalizing s with
  | nil =>
      obtain ⟨-, rfl⟩ := BuildM.pure_eq_ok.mp h
      exact .refl _ _
  | cons subnet rest ih =>
      obtain ⟨_, s₁, hfirst, hrest⟩ := BuildM.bind_eq_ok.mp h
      have hkeep := efsAddMountTargetConfig_keeps hkind hfirst
      exact hkeep.trans (ih (hlt.trans_le hkeep.next) ((hkeep.isKind hlt _).mpr hkind) hrest)

/-- The kinds of the documents that change after the rules have been added. -/
def launchKinds : Set String :=
  {Requested.launch.kind, vmKind, "infrastructure/efs-storage"}

theorem kind_notMem_launchKinds {k : Requested} (hlaunch : k ≠ .launch) (hmachine : k ≠ .machine) :
    k.kind ∉ launchKinds := by
  cases k <;> first | exact absurd rfl hlaunch | exact absurd rfl hmachine | skip
  all_goals simp [launchKinds, Requested.kind, vmKind]

/-- The names the subnets of a component are read with. -/
theorem InLoop.subnetNames_eq {q : SubnetPlan} {lp : InfrastructureBuilder.SubnetLoop}
    {placed : List Placed} (h : InLoop env b fixed s lp requests placed q) {names : List Val}
    (hnames : List.Forall₂ (fun id name => (s.doc id).specAttr? "name" = some name)
      lp.subnetsToCreate names) (component : String × Val) :
    names = subnetNamesOf env b fixed.replaced ⟨component, q.attached, q.requests⟩ := by
  rw [subnetNamesOf, ← List.filterMap_eq_map]
  apply eq_filterMap_of_forall₂ h.subnetsToCreate hnames
  intro id a name hmem hname
  have hshown := (h.ledger .subnet).specAttr?_eq hmem "name" rfl
  rw [h.subnets] at hshown
  exact hshown.symm.trans hname

/-- The names the security groups of a component are read with. -/
theorem Represents.groupNames_eq (h : Represents env b fixed s ids requests p)
    {groups : List (Option DocId)} {attached : List Attached} {names : List Val}
    (hgot : List.Forall₂ (fun found a => Got (requests .group) found a.group) groups attached)
    (hnames : List.Forall₂ (fun group name => ∃ id, group = some id ∧
      (s.doc id).specAttr? "name" = some name) groups names) :
    names = attached.filterMap fun a => a.group.map fun r =>
      groupName env b (current fixed.replaced.group p.requests r) := by
  apply eq_filterMap_of_forall₂ hgot hnames
  rintro _ a name hfound ⟨id, rfl, hname⟩
  cases hgroup : a.group with
  | none =>
      rw [hgroup] at hfound
      cases hfound
  | some r =>
      rw [hgroup] at hfound
      obtain ⟨_, heq, hmem⟩ := hfound
      cases heq
      have hshown := (h.ledger .group).specAttr?_eq hmem "name" rfl
      rw [h.groups] at hshown
      exact hshown.symm.trans hname

/-- The autoscaling group and the launch configuration of a component are emitted. -/
theorem Represents.emit (h : Represents env b fixed s ids requests p)
    (hkeep : Keeps launchKinds s s') {autoscalingGroup launch : DocId} {r : Placed}
    (hlt : autoscalingGroup < s.next) (hnew : autoscalingGroup ∉ b.docs)
    (hkind : (s.doc autoscalingGroup).IsKind vmKind)
    (hmachine : ∀ id < s.next, (s.doc id).IsKind vmKind → id ≠ autoscalingGroup →
      s'.doc id = s.doc id)
    (hissued : Issued none (requests .machine ++ [(autoscalingGroup, r)]))
    (hshows : Shows (machineFields env b fixed.replaced r) (s'.doc autoscalingGroup))
    (hsecurity : (s'.doc autoscalingGroup).specAttr? "security" =
      securityOfComponent env b fixed r.component.2)
    (hlaunchlt : launch < s'.next) (hlaunchkind : (s'.doc launch).IsKind Requested.launch.kind)
    (hlaunch : ∀ id < s.next, (s.doc id).IsKind Requested.launch.kind → id ≠ launch →
      s'.doc id = s.doc id)
    (hlaunchissued : Issued (fixed.ownOf .launch) (requests .launch ++ [(launch, r)]))
    (hlaunchshows : Shows (launchFields env b fixed.replaced r) (s'.doc launch))
    (hpools : ∀ d ∈ subnetDefinitions r.component.2,
      ∃ pool, d.getItem "address_pool" = .ok pool) :
    Represents env b fixed s' (ids ++ [autoscalingGroup, launch])
      ((requests.add .machine autoscalingGroup r).add .launch launch r)
      ⟨p.requests, p.placed ++ [r]⟩ := by
  have hids : ids ++ [autoscalingGroup, launch] = ids ++ [autoscalingGroup] ++ [launch] := by
    simp
  have hkind' : (s'.doc autoscalingGroup).IsKind vmKind := (hkeep.isKind hlt _).mpr hkind
  have htracked := ((h.toTracked.keeps hkeep (by simp [launchKinds, Requested.kind, vmKind])).append
    (hlt.trans_le hkeep.next)).append hlaunchlt
  have hne : ∀ {kind other : String} {x : Val}, x.IsKind kind → kind ≠ other →
      ¬ x.IsKind other := fun hx hkinds hother => hkinds (by simpa using hx.symm.trans hother)
  rw [hids]
  exact {
    toTracked := htracked
    ledger := fun k => by
      by_cases hkmachine : k = .machine
      · subst hkmachine
        rw [Requests.add_ne _ (by decide), Requests.add_self]
        apply Ledger.append_other
        · exact (h.ledger .machine).append h.allocated hkeep hmachine hissued hkind' hshows
        · exact hne hlaunchkind (by decide)
      by_cases hklaunch : k = .launch
      · subst hklaunch
        rw [Requests.add_self, Requests.add_ne _ (by decide)]
        apply Ledger.append _ (h.toTracked.append hlt).allocated hkeep hlaunch hlaunchissued
          hlaunchkind hlaunchshows
        exact (h.ledger .launch).append_other (hne hkind (by decide))
      · rw [Requests.add_ne _ hklaunch, Requests.add_ne _ hkmachine]
        have hout := kind_notMem_launchKinds hklaunch hkmachine
        have hkept := (h.ledger k).keeps hkeep hout h.allocated
        apply Ledger.append_other
        · apply hkept.append_other
          exact hne hkind' fun heq => hkmachine (Requested.kind_injective heq.symm)
        · exact hne hlaunchkind fun heq => hklaunch (Requested.kind_injective heq.symm)
    subnets := by
      rw [Requests.add_ne _ (by decide), Requests.add_ne _ (by decide)]
      exact h.subnets
    groups := by
      rw [Requests.add_ne _ (by decide), Requests.add_ne _ (by decide)]
      exact h.groups
    associations := by
      rw [Requests.add_ne _ (by decide), Requests.add_ne _ (by decide)]
      exact h.associations
    launches := by
      rw [Requests.add_self, Requests.add_ne _ (by decide), List.map_append, h.launches]
      rfl
    machines := by
      rw [Requests.add_ne _ (by decide), Requests.add_self, List.map_append, h.machines]
      rfl
    copies := by
      rw [Requests.add_ne _ (by decide), Requests.add_self]
      intro e he
      rcases List.mem_append.mp he with he | he
      · exact h.copies e he
      · rw [List.mem_singleton.mp he]
        exact hnew
    pools := fun x hx => by
      rcases List.mem_append.mp hx with hx | hx
      · exact h.pools x hx
      · rw [List.mem_singleton.mp hx]
        exact hpools
    securities := by
      rw [Requests.add_ne _ (by decide), Requests.add_self]
      intro e he
      rcases List.mem_append.mp he with he | he
      · exact h.securities_keeps hkeep e he
      · rw [List.mem_singleton.mp he]
        exact hsecurity }

/-- What the end of a component's loop body does once the rules have been added: the launch
configuration shows its name and those of the groups, and the autoscaling group refers to it. -/
structure LaunchMade (env : Env) (b : InfrastructureBuilder) (fixed : Fixed)
    (componentKey : String) (groups : List (Option DocId)) (autoscalingGroup launch : DocId)
    (s s' : Store) : Prop where
  keep : Keeps launchKinds s s'
  lt : launch < s'.next
  isKind : (s'.doc launch).IsKind Requested.launch.kind
  issued : IsIssued (fixed.ownOf .launch) s.next launch
  shown : ∃ names, List.Forall₂ (fun group name => ∃ id, group = some id ∧
      (s.doc id).specAttr? "name" = some name) groups names ∧
    Shows [("name", launchName env b componentKey), ("security_groups", .list names)]
      (s'.doc launch)
  machine : ∀ key, (s'.doc autoscalingGroup).specAttr? key =
    (List.lookup key [("launch_configuration", launchName env b componentKey)]).or
      ((s.doc autoscalingGroup).specAttr? key)
  machines : ∀ id < s.next, (s.doc id).IsKind vmKind → id ≠ autoscalingGroup →
    s'.doc id = s.doc id
  launches : ∀ id < s.next, (s.doc id).IsKind Requested.launch.kind → id ≠ launch →
    s'.doc id = s.doc id

/-- The end of the loop body, from the store the autoscaling group was made in. -/
theorem Represents.launchMade (h : Represents env b fixed s ids requests p)
    {lp : InfrastructureBuilder.SubnetLoop} {componentKey : String} {autoscalingGroup : DocId}
    {emitted : List DocId}
    (hgroups : ∀ id, some id ∈ lp.securityGroupsToCreate →
      id < s.next ∧ (s.doc id).IsKind Requested.group.kind)
    (hother : some autoscalingGroup ∉ lp.securityGroupsToCreate)
    (hlt : autoscalingGroup < s.next) (hkind : (s.doc autoscalingGroup).IsKind vmKind)
    (hrun : b.launch env fixed.shared componentKey lp autoscalingGroup s = .ok (emitted, s')) :
    ∃ s₁ launch, RulesGrown env (rulesIn ((s.doc autoscalingGroup).specAttr? "security"))
        lp.securityGroupsToCreate s s₁ ∧
      emitted = lp.infrastructure ++ [autoscalingGroup, launch] ∧
      LaunchMade env b fixed componentKey lp.securityGroupsToCreate autoscalingGroup launch
        s₁ s' := by
  simp only [InfrastructureBuilder.launch, BuildM.bind_eq_ok, lift_eq_ok,
    InfrastructureBuilder.setImageIdForLaunchConfiguration] at hrun
  obtain ⟨_, s₁, hrules, launch, s₂, hlaunch, keyName, _, hkeyName, _, s₃, hsetKey, _, s₄,
    ⟨osFullName, _, hosName, imageId, _, ⟨-, rfl⟩, hsetImage⟩, name, _, hname, _, s₅, hsetName,
    mountEfs, _, hmount, hmounts⟩ := hrun
  obtain ⟨-, rfl⟩ := specAttr_eq_ok.mp hkeyName
  obtain ⟨-, rfl⟩ := specAttr_eq_ok.mp hosName
  obtain ⟨hread, rfl⟩ := specAttr_eq_ok.mp hname
  obtain ⟨-, rfl⟩ := specAttr_eq_ok.mp hmount
  have hgrown := addRules_grown hother hgroups hrules
  have h₁ := h.rulesStep hgrown
  have hgroups₁ : ∀ id, some id ∈ lp.securityGroupsToCreate →
      id < s₁.next ∧ (s₁.doc id).IsKind Requested.group.kind := fun id hid =>
    ⟨(hgroups id hid).1.trans_le hgrown.keep.next,
      (hgrown.keep.isKind (hgroups id hid).1 _).mpr (hgroups id hid).2⟩
  obtain ⟨hkeep₂, hframe₂, hlaunchlt, hlaunchkind, hissued, groupNames, hgroupNames, hshows₂⟩ :=
    getLaunchConfiguration_eq_ok h₁.toTracked hgroups₁ hlaunch
  -- the key and the image of the launch configuration
  have hkeyed := assigned_setSpecAttr hlaunchkind (by decide) hsetKey
  have himaged := hkeyed.trans (assigned_setSpecAttr hkeyed.isKind (by decide) hsetImage)
  have hkeep₄ := hkeep₂.trans himaged.keep
  have hframe₄ := hframe₂.trans himaged.frame
  have hshows₄ : Shows [("name", launchName env b componentKey),
      ("security_groups", .list groupNames)] (s₄.doc launch) := by
    apply shows_of_forall
    refine List.forall_mem_cons.mpr ⟨?_, List.forall_mem_singleton.mpr ?_⟩
    · rw [himaged.read]
      exact hshows₂ "name" _ rfl
    · rw [himaged.read]
      exact hshows₂ "security_groups" _ rfl
  obtain rfl : name = launchName env b componentKey :=
    Option.some.inj (hread.symm.trans (hshows₄ "name" _ rfl))
  -- the name of the launch configuration in the autoscaling group
  have hlt₁ : autoscalingGroup < s₁.next := hlt.trans_le hgrown.keep.next
  have hkind₁ : (s₁.doc autoscalingGroup).IsKind vmKind :=
    (hgrown.others _ hother) ▸ hkind
  have hdoc₄ : s₄.doc autoscalingGroup = s₁.doc autoscalingGroup :=
    hkeep₄.same hlt₁ hkind₁ (by decide)
  have hnamed := assigned_setSpecAttr (hdoc₄ ▸ hkind₁ : (s₄.doc autoscalingGroup).IsKind vmKind)
    (fun _ => by decide) hsetName
  have hkeep₅ : Keeps launchKinds s₁ s₅ :=
    (hkeep₄.mono (by simp [launchKinds])).trans (hnamed.keep.mono (by simp [launchKinds]))
  obtain ⟨hkeep₆, rfl⟩ : Keeps {"infrastructure/efs-storage"} s₅ s' ∧
      emitted = lp.infrastructure ++ [autoscalingGroup, launch] := by
    split at hmounts
    · obtain ⟨_, s₆, hefs, hret⟩ := BuildM.bind_eq_ok.mp hmounts
      obtain ⟨rfl, rfl⟩ := BuildM.pure_eq_ok.mp hret
      have hefsKind := (hkeep₅.isKind h₁.efsConfig _).mpr h₁.efsKind
      exact ⟨efsAddMountTargets_keeps (h₁.efsConfig.trans_le hkeep₅.next) hefsKind hefs, rfl⟩
    · obtain ⟨rfl, rfl⟩ := BuildM.pure_eq_ok.mp hmounts
      exact ⟨.refl _ _, rfl⟩
  have hdoc : s'.doc autoscalingGroup = s₅.doc autoscalingGroup :=
    hkeep₆.same (hlt₁.trans_le hkeep₅.next) hnamed.isKind (by decide)
  have hne : launch ≠ autoscalingGroup := by
    rintro rfl
    have hkind₄ := himaged.isKind
    rw [hdoc₄] at hkind₄
    simpa [Requested.kind, vmKind] using hkind₄.symm.trans hkind₁
  have hlaunchlt₅ := (hlaunchlt.trans_le himaged.keep.next).trans_le hnamed.keep.next
  have hlaunchdoc : s'.doc launch = s₄.doc launch := by
    rw [hkeep₆.same hlaunchlt₅
      ((hnamed.keep.isKind (hlaunchlt.trans_le himaged.keep.next) _).mpr himaged.isKind)
      (by decide)]
    exact hnamed.frame.2 launch (hlaunchlt.trans_le himaged.keep.next) hne
  refine ⟨s₁, launch, hgrown, rfl, ?_⟩
  exact {
    keep := hkeep₅.trans (hkeep₆.mono (by simp [launchKinds]))
    lt := hlaunchlt₅.trans_le hkeep₆.next
    isKind := hlaunchdoc ▸ himaged.isKind
    issued := hissued
    shown := ⟨groupNames, hgroupNames, hlaunchdoc ▸ hshows₄⟩
    machine := fun key => by rw [hdoc, hnamed.read, hdoc₄]
    machines := fun id hid hisKind hother => by
      have hsame₄ := hkeep₄.same hid hisKind (by decide)
      have hsame₅ := hnamed.frame.2 id (hid.trans_le hkeep₄.next) hother
      rw [hkeep₆.same (hid.trans_le hkeep₅.next) (hsame₅ ▸ hsame₄ ▸ hisKind) (by decide), hsame₅,
        hsame₄]
    launches := fun id hid hisKind hother => by
      have hsame₄ := hframe₄.2 id hid hother
      have hsame₅ := hnamed.keep.same (hid.trans_le hkeep₄.next) (hsame₄ ▸ hisKind) (by decide)
      rw [hkeep₆.same (hid.trans_le hkeep₅.next) (hsame₅ ▸ hsame₄ ▸ hisKind) (by decide), hsame₅,
        hsame₄] }

/-- What a component's loop body does after its subnets: the autoscaling group is made,
its rules are added to the security groups, and the launch configuration is made. -/
structure Launched (env : Env) (rules : List Val) (groups : List (Option DocId))
    (s s' : Store) : Prop where
  stages : ∃ s₁ s₂, Keeps {vmKind} s s₁ ∧ RulesGrown env rules groups s₁ s₂ ∧
    Keeps launchKinds s₂ s'

/-- The subnets of a component are documents of another kind than its machines. -/
theorem InLoop.subnets_made {q : SubnetPlan} {lp : InfrastructureBuilder.SubnetLoop}
    {placed : List Placed} (h : InLoop env b fixed s lp requests placed q) :
    ∀ id ∈ lp.subnetsToCreate, id < s.next ∧ (s.doc id).IsKind Requested.subnet.kind := by
  intro id hid
  obtain ⟨a, -, hmem⟩ := exists_of_mem_forall₂ h.subnetsToCreate hid
  obtain ⟨hmem, hkind⟩ := (h.ledger .subnet).mem_ids hmem
  exact ⟨h.allocated id hmem, hkind⟩

theorem InLoop.subnets_not_machines {q : SubnetPlan} {lp : InfrastructureBuilder.SubnetLoop}
    {placed : List Placed} (h : InLoop env b fixed s lp requests placed q) :
    ∀ id ∈ lp.subnetsToCreate, id < s.next ∧ ∃ kind ≠ vmKind, (s.doc id).IsKind kind := by
  intro id hid
  obtain ⟨hlt, hkind⟩ := h.subnets_made id hid
  exact ⟨hlt, _, by decide, hkind⟩

/-- The security groups of a component are security groups. -/
theorem InLoop.groups_made {q : SubnetPlan} {lp : InfrastructureBuilder.SubnetLoop}
    {placed : List Placed} (h : InLoop env b fixed s lp requests placed q) :
    ∀ id, some id ∈ lp.securityGroupsToCreate →
      id < s.next ∧ (s.doc id).IsKind Requested.group.kind := by
  intro id hid
  obtain ⟨a, -, hgot⟩ := exists_of_mem_forall₂ h.groupsToCreate hid
  cases hgroup : a.group with
  | none =>
      rw [hgroup] at hgot
      cases hgot
  | some r =>
      rw [hgroup] at hgot
      obtain ⟨_, heq, hmem⟩ := hgot
      cases heq
      obtain ⟨hmem, hkind⟩ := (h.ledger .group).mem_ids hmem
      exact ⟨h.allocated id hmem, hkind⟩

/-- The documents of a component whose subnets are there. -/
theorem InLoop.place {q : SubnetPlan} {lp : InfrastructureBuilder.SubnetLoop}
    {placed : List Placed} (h : InLoop env b fixed s lp requests placed q)
    {component : String × Val} {autoscalingGroup : DocId} {emitted : List DocId} {s₁ : Store}
    (hmachine : b.getAutoscalingGroup env component.1 component.2 lp.subnetsToCreate 0 s =
      .ok (autoscalingGroup, s₁))
    (hpools : ∀ d ∈ subnetDefinitions component.2, ∃ pool, d.getItem "address_pool" = .ok pool)
    (hrun : b.launch env fixed.shared component.1 lp autoscalingGroup s₁ = .ok (emitted, s')) :
    ∃ requests', (∀ k, requests k ⊆ requests' k) ∧ requests' .group = requests .group ∧
      Represents env b fixed s' emitted requests'
        ⟨q.requests, placed ++ [⟨component, q.attached, q.requests⟩]⟩ ∧
      Launched env (rulesIn (securityOfComponent env b fixed component.2))
        lp.securityGroupsToCreate s s' := by
  have hgroups := h.groups_made
  obtain ⟨hkeep₁, hsame₁, hnew, hlt, hkind₁, machineSelector, names, hselector, hnames, hshows₁,
    hsecurity₁⟩ := getAutoscalingGroup_eq_ok h.docs h.unique h.subnets_not_machines hmachine
  have h₁ := h.toRepresents.machineStep hkeep₁ hsame₁
  have hother : some autoscalingGroup ∉ lp.securityGroupsToCreate := fun hmem =>
    absurd (hgroups _ hmem).1 (Nat.not_lt.mpr hnew)
  have hgroups₁ : ∀ id, some id ∈ lp.securityGroupsToCreate →
      id < s₁.next ∧ (s₁.doc id).IsKind Requested.group.kind := fun id hid =>
    ⟨(hgroups id hid).1.trans_le hkeep₁.next,
      (hkeep₁.isKind (hgroups id hid).1 _).mpr (hgroups id hid).2⟩
  obtain ⟨s₂, launch, hgrown, rfl, hmade⟩ := h₁.launchMade hgroups₁ hother hlt hkind₁ hrun
  have h₂ := h₁.rulesStep hgrown
  obtain ⟨groupNames, hgroupNames, hlaunchshows⟩ := hmade.shown
  have hlt₂ : autoscalingGroup < s₂.next := hlt.trans_le hgrown.keep.next
  have hdoc₂ : s₂.doc autoscalingGroup = s₁.doc autoscalingGroup := hgrown.others _ hother
  have hkind₂ : (s₂.doc autoscalingGroup).IsKind vmKind := hdoc₂ ▸ hkind₁
  have hread : ∀ key, (s'.doc autoscalingGroup).specAttr? key =
      (List.lookup key [("launch_configuration", launchName env b component.1)]).or
        ((s₁.doc autoscalingGroup).specAttr? key) := fun key => by
    rw [hmade.machine, hdoc₂]
  have hsecurity : (s₁.doc autoscalingGroup).specAttr? "security" =
      securityOfComponent env b fixed component.2 := by
    rw [hsecurity₁, h.security, securityOfComponent, hselector]
    rfl
  have hshows : Shows (machineFields env b fixed.replaced ⟨component, q.attached, q.requests⟩)
      (s'.doc autoscalingGroup) := by
    apply shows_of_forall
    simp only [machineFields, List.forall_mem_cons]
    refine ⟨?_, ?_, ?_, fun _ h => absurd h List.not_mem_nil⟩
    · rw [hread]
      exact hshows₁ "name" _ rfl
    · rw [hread, ← h.subnetNames_eq hnames component]
      exact hshows₁ "subnet_names" _ rfl
    · rw [hread]
      rfl
  rw [h₂.groupNames_eq h.groupsToCreate hgroupNames] at hlaunchshows
  refine ⟨(requests.add .machine autoscalingGroup ⟨component, q.attached, q.requests⟩).add .launch
      launch ⟨component, q.attached, q.requests⟩, fun k => ?_, ?_, ?_,
    ⟨s₁, s₂, hkeep₁, ?_, hmade.keep⟩⟩
  · exact List.Subset.trans (requests.subset_add _ k _ _) (Requests.subset_add _ _ k _ _)
  · rw [Requests.add_ne _ (by decide), Requests.add_ne _ (by decide)]
  · apply h₂.emit hmade.keep hlt₂ _ hkind₂ hmade.machines _ hshows _ hmade.lt hmade.isKind
      hmade.launches _ hlaunchshows hpools
    · exact fun hmem => absurd (h.docs _ hmem) (Nat.not_lt.mpr hnew)
    · exact (h.ledger .machine).issue h.allocated hnew _
    · exact (hread "security").trans hsecurity
    · exact (h₂.ledger .launch).issue h₂.allocated hmade.issued _
  · rwa [hsecurity] at hgrown

/-! ## The component loop -/

/-- What an active component does to the security groups, where the user does not
replace them. -/
structure GroupsStep (env : Env) (rules : List Val) (attached : List Attached) (s s' : Store)
    (requests requests' : Requests) : Prop where
  stages : ∃ groups s₁, Keeps subnetKinds s s₁ ∧ NewGroups env s s₁ requests requests' ∧
    (∀ e ∈ requests' .group, e.1 < s₁.next ∧ (s₁.doc e.1).IsKind Requested.group.kind) ∧
    List.Forall₂ (fun found a => Got (requests' .group) found a.group) groups attached ∧
    Launched env rules groups s₁ s'

/-- The kinds of the documents that are made or change in the loop. -/
def loopKinds : Set String :=
  {kind | kind = "infrastructure/efs-storage" ∨ ∃ k : Requested, kind = k.kind}

theorem kind_mem_loopKinds (k : Requested) : k.kind ∈ loopKinds := Or.inr ⟨k, rfl⟩

theorem subnetKinds_subset : subnetKinds ⊆ loopKinds := by
  rintro _ (rfl | rfl | rfl)
  · exact kind_mem_loopKinds .subnet
  · exact kind_mem_loopKinds .group
  · exact kind_mem_loopKinds .association

theorem launchKinds_subset : launchKinds ⊆ loopKinds := by
  rintro _ (rfl | rfl | rfl)
  · exact kind_mem_loopKinds .launch
  · exact kind_mem_loopKinds .machine
  · exact Or.inl rfl

theorem Launched.keep {rules : List Val} {groups : List (Option DocId)}
    (h : Launched env rules groups s s') : Keeps loopKinds s s' := by
  obtain ⟨s₁, s₂, hkeep₁, hgrown, hkeep₂⟩ := h.stages
  refine ((hkeep₁.mono ?_).trans (hgrown.keep.mono ?_)).trans (hkeep₂.mono launchKinds_subset)
  · exact Set.singleton_subset_iff.mpr (kind_mem_loopKinds .machine)
  · exact Set.singleton_subset_iff.mpr (kind_mem_loopKinds .group)

/-- A component is inactive and nothing happens, or it gets its subnets, its autoscaling group
and its launch configuration. -/
theorem buildComponent_cases {shared : InfrastructureBuilder.Shared} {component : String × Val}
    {emitted : List DocId}
    (h : b.buildComponent env shared ids component s = .ok (emitted, s')) :
    (isActive component.2 = false ∧ emitted = ids ∧ s' = s) ∨
    (isActive component.2 = true ∧ ∃ lp s₁ autoscalingGroup s₂,
      b.buildSubnets env shared.routeTable shared.vpcName component.1 ⟨ids, [], [], 0⟩
        (subnetDefinitions component.2) s = .ok (lp, s₁) ∧
      b.getAutoscalingGroup env component.1 component.2 lp.subnetsToCreate 0 s₁ =
        .ok (autoscalingGroup, s₂) ∧
      b.launch env shared component.1 lp autoscalingGroup s₂ = .ok (emitted, s')) := by
  simp only [InfrastructureBuilder.buildComponent, InfrastructureBuilder.componentSubnets,
    BuildM.bind_eq_ok, lift_eq_ok] at h
  obtain ⟨lp, s₁, ⟨count, _, ⟨hcount, rfl⟩, inactive, _, ⟨hinactive, rfl⟩, hsubnets⟩, h⟩ := h
  cases inactive with
  | true =>
      obtain ⟨rfl, rfl⟩ := BuildM.pure_eq_ok.mp hsubnets
      obtain ⟨rfl, rfl⟩ := BuildM.pure_eq_ok.mp h
      exact Or.inl ⟨by simp [isActive, hcount, Except.bind, hinactive], rfl, rfl⟩
  | false =>
      simp only [Bool.false_eq_true, if_false, BuildM.bind_eq_ok, lift_eq_ok] at hsubnets
      obtain ⟨subnets, _, ⟨hvalue, rfl⟩, items, _, ⟨hitems, rfl⟩, lp', s₂, hbuild, hret⟩ :=
        hsubnets
      obtain ⟨rfl, rfl⟩ := BuildM.pure_eq_ok.mp hret
      obtain ⟨autoscalingGroup, s₃, hmachine, hlaunch⟩ := BuildM.bind_eq_ok.mp h
      have hdefinitions : subnetDefinitions component.2 = items := by
        simp [subnetDefinitions, hvalue, Except.bind, hitems, Except.toOption]
      exact Or.inr ⟨by simp [isActive, hcount, Except.bind, hinactive], lp', s₂, autoscalingGroup,
        s₃, hdefinitions ▸ hbuild, hmachine, hlaunch⟩

/-- One component gets what the plan says. -/
theorem Represents.buildComponent (h : Represents env b fixed s ids requests p)
    {component : String × Val} {emitted : List DocId}
    (hrun : b.buildComponent env fixed.shared ids component s = .ok (emitted, s')) :
    ∃ requests', Keeps loopKinds s s' ∧ (∀ k, requests k ⊆ requests' k) ∧
      Represents env b fixed s' emitted requests' (planComponent fixed.replaced p component) ∧
      (isActive component.2 = false → s' = s ∧ requests' = requests) ∧
      (isActive component.2 = true → fixed.own Requested.group.kind = none →
        GroupsStep env (rulesIn (securityOfComponent env b fixed component.2))
          (planSubnets fixed.replaced component.1 ⟨p.requests, [], 0⟩
            (subnetDefinitions component.2)).attached s s' requests requests') := by
  rcases buildComponent_cases hrun with ⟨hactive, rfl, rfl⟩ |
    ⟨hactive, lp', s₁, autoscalingGroup, s₃, hbuild, hmachine, hlaunch⟩
  · refine ⟨requests, .refl _ _, fun _ => List.Subset.refl _, ?_, fun _ => ⟨rfl, rfl⟩,
      fun htrue => ?_⟩
    · rw [planComponent, hactive, if_neg (by decide)]
      exact h
    · rw [hactive] at htrue
      cases htrue
  · have hstart : InLoop env b fixed s ⟨ids, [], [], 0⟩ requests p.placed
        ⟨p.requests, [], 0⟩ := { h with
      subnetsToCreate := .nil
      groupsToCreate := .nil
      index := rfl }
    obtain ⟨requests₁, hkeep₁, hsub₁, h₁, hnew⟩ := hstart.buildSubnets hbuild
    obtain ⟨requests₂, hsub₂, hgroups, h₂, hlaunched⟩ :=
      h₁.place hmachine (buildSubnets_pools hbuild) hlaunch
    refine ⟨requests₂, (hkeep₁.mono subnetKinds_subset).trans hlaunched.keep,
      fun k => List.Subset.trans (hsub₁ k) (hsub₂ k), ?_, fun hfalse => ?_, fun _ hnone => ?_⟩
    · rw [planComponent, hactive, if_pos rfl]
      exact h₂
    · rw [hactive] at hfalse
      cases hfalse
    · refine ⟨lp'.securityGroupsToCreate, _, hkeep₁, ⟨(hnew hnone).old, ?_⟩, ?_, ?_, hlaunched⟩
      · rw [hgroups]
        exact (hnew hnone).new
      · rw [hgroups]
        intro e he
        obtain ⟨hmem, hkind⟩ := (h₁.ledger .group).mem_ids (r := e.2) he
        exact ⟨h₁.allocated _ hmem, hkind⟩
      · rw [hgroups]
        exact h₁.groupsToCreate

/-- The components get what the plan says. -/
theorem Represents.buildComponents (h : Represents env b fixed s ids requests p)
    {components : Entries} {emitted : List DocId}
    (hrun : b.buildComponents env fixed.shared ids components s = .ok (emitted, s')) :
    ∃ requests', Keeps loopKinds s s' ∧ Represents env b fixed s' emitted requests'
      (planComponents fixed.replaced p components) := by
  induction components generalizing s ids requests p with
  | nil =>
      obtain ⟨rfl, rfl⟩ := BuildM.pure_eq_ok.mp hrun
      exact ⟨requests, .refl _ _, h⟩
  | cons component rest ih =>
      obtain ⟨infrastructure, s₁, hfirst, hrest⟩ := BuildM.bind_eq_ok.mp hrun
      obtain ⟨requests₁, hkeep₁, -, h₁, -⟩ := h.buildComponent hfirst
      obtain ⟨requests₂, hkeep₂, h₂⟩ := ih h₁ hrest
      exact ⟨requests₂, hkeep₁.trans hkeep₂, h₂⟩

end

end Aws

end LambdaStack
