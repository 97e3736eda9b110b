/-
# What an AWS infrastructure refers to

Where the user replaces none of the documents a component brings, each subnet is told
from the others by its component and its index there, and every name that is mentioned
is that of a request of the plan.
-/

import LambdaStack.Engine.Providers.Aws.MountTargets
import LambdaStack.Engine.Providers.References
import LambdaStack.Helpers.ResourceNames

namespace LambdaStack

open Lib BuildM

namespace Aws

/-! ## The requests of a plan -/

/-- What tells the subnets of a plan apart. -/
def SubnetRequest.slot (r : SubnetRequest) : String × Nat := (r.componentKey, r.index)

/-- What a subnet definition gets has been requested. -/
def Attached.Known (requests : List SubnetRequest) (a : Attached) : Prop :=
  a.subnet ∈ requests ∧ ∀ r, a.group = some r → r ∈ requests

theorem Attached.Known.mono {requests more : List SubnetRequest} {a : Attached}
    (h : a.Known requests) (hsub : requests ⊆ more) : a.Known more :=
  ⟨hsub h.1, fun r hr => hsub (h.2 r hr)⟩

/-- The requests are told apart, also those of the component that is being placed. -/
structure SubnetPlan.Slotted (done : List String) (componentKey : String) (q : SubnetPlan) :
    Prop where
  nodup : (q.requests.map SubnetRequest.slot).Nodup
  keys : ∀ r ∈ q.requests, r.componentKey ∈ done ∨ r.componentKey = componentKey ∧ r.index < q.index
  attached : ∀ a ∈ q.attached, a.Known q.requests

theorem SubnetPlan.Slotted.planSubnet {done : List String} {componentKey : String}
    {q : SubnetPlan} (h : q.Slotted done componentKey) (hnew : componentKey ∉ done)
    (subnetDefinition : Val) :
    (planSubnet .neither componentKey q subnetDefinition).Slotted done componentKey := by
  simp only [Aws.planSubnet, Replaced.neither, visible_false]
  cases hfind : q.requests.find? (isForPool subnetDefinition) with
  | some r =>
      have hmem := List.mem_of_find?_eq_some hfind
      refine ⟨h.nodup, h.keys, ?_⟩
      intro a ha
      rcases List.mem_append.mp ha with ha | ha
      · exact h.attached a ha
      · rw [List.mem_singleton.mp ha]
        exact ⟨hmem, fun _ heq => Option.some.inj heq ▸ hmem⟩
  | none =>
      refine ⟨?_, ?_, ?_⟩
      · rw [List.map_append, List.map_singleton, List.nodup_append]
        refine ⟨h.nodup, List.nodup_singleton _, ?_⟩
        rintro slot hslot _ hlast rfl
        obtain ⟨r, hr, rfl⟩ := List.mem_map.mp hslot
        obtain ⟨hkey, hindex⟩ := Prod.mk.inj (List.mem_singleton.mp hlast)
        rcases h.keys r hr with hdone | ⟨-, hlt⟩
        · rw [hkey] at hdone
          exact hnew hdone
        · exact absurd hindex hlt.ne
      · intro r hr
        rcases List.mem_append.mp hr with hr | hr
        · exact (h.keys r hr).imp_right fun hlast => ⟨hlast.1, Nat.lt_succ_of_lt hlast.2⟩
        · rw [List.mem_singleton.mp hr]
          exact Or.inr ⟨rfl, Nat.lt_succ_self _⟩
      · intro a ha
        rcases List.mem_append.mp ha with ha | ha
        · exact (h.attached a ha).mono (List.subset_append_left _ _)
        · rw [List.mem_singleton.mp ha]
          exact ⟨by simp, fun _ heq => by simp [Option.some.inj heq]⟩

theorem SubnetPlan.Slotted.planSubnets {done : List String} {componentKey : String}
    {q : SubnetPlan} (h : q.Slotted done componentKey) (hnew : componentKey ∉ done)
    (subnets : List Val) :
    (planSubnets .neither componentKey q subnets).Slotted done componentKey := by
  induction subnets generalizing q with
  | nil => exact h
  | cons subnetDefinition rest ih => exact ih (h.planSubnet hnew subnetDefinition)

/-- The requests of a plan are told apart by their slots, and the placed components have
what has been requested. -/
structure Plan.Slotted (done : List String) (p : Plan) : Prop where
  nodup : (p.requests.map SubnetRequest.slot).Nodup
  keys : ∀ r ∈ p.requests, r.componentKey ∈ done
  attached : ∀ x ∈ p.placed, ∀ a ∈ x.attached, a.Known p.requests

theorem Plan.Slotted.planComponent {done : List String} {p : Plan} (h : p.Slotted done)
    {component : String × Val} (hnew : component.1 ∉ done) :
    (planComponent .neither p component).Slotted (done ++ [component.1]) := by
  rw [Aws.planComponent]
  split
  · have hstart : SubnetPlan.Slotted done component.1 ⟨p.requests, [], 0⟩ :=
      ⟨h.nodup, fun r hr => Or.inl (h.keys r hr), fun _ ha => absurd ha List.not_mem_nil⟩
    have hend := hstart.planSubnets hnew (subnetDefinitions component.2)
    refine ⟨hend.nodup, ?_, ?_⟩
    · intro r hr
      rcases hend.keys r hr with hdone | ⟨hkey, -⟩
      · exact List.mem_append_left _ hdone
      · rw [hkey]
        exact List.mem_append_right _ (List.mem_singleton_self _)
    · intro x hx a ha
      rcases List.mem_append.mp hx with hx | hx
      · have hgrown := requests_planSubnets .neither component.1 ⟨p.requests, [], 0⟩
          (subnetDefinitions component.2)
        exact (h.attached x hx a ha).mono hgrown.subset
      · rw [List.mem_singleton.mp hx] at ha
        exact hend.attached a ha
  · exact ⟨h.nodup, fun r hr => List.mem_append_left _ (h.keys r hr), h.attached⟩

theorem Plan.Slotted.planComponents {done : List String} {p : Plan} (h : p.Slotted done)
    {components : Entries} (hkeys : (done ++ dictKeys components).Nodup) :
    (planComponents .neither p components).Slotted (done ++ dictKeys components) := by
  induction components generalizing p done with
  | nil => simpa [Aws.planComponents] using h
  | cons component rest ih =>
      rw [dictKeys, List.map_cons, List.append_cons] at hkeys ⊢
      have hnew : component.1 ∉ done := by
        intro hmem
        have hfirst := (List.nodup_append.mp (List.nodup_append.mp hkeys).1).2.2
        exact hfirst _ hmem _ (List.mem_singleton_self _) rfl
      exact ih (h.planComponent hnew) hkeys

theorem plan_slotted {components : Entries} (hkeys : (dictKeys components).Nodup) :
    (plan .neither components).Slotted (dictKeys components) := by
  have hstart : Plan.Slotted [] ⟨[], []⟩ :=
    ⟨List.nodup_nil, fun _ h => absurd h List.not_mem_nil, fun _ h => absurd h List.not_mem_nil⟩
  simpa [plan] using hstart.planComponents hkeys

/-- A component is placed at most once. -/
theorem placed_nodup {components : Entries} (hkeys : (dictKeys components).Nodup) :
    ((plan .neither components).placed.map fun x => x.component.1).Nodup := by
  have hmap : (plan .neither components).placed.map (fun x => x.component.1) =
      dictKeys (components.filter fun component => isActive component.2) := by
    rw [dictKeys, ← plan_components .neither, List.map_map]
    rfl
  rw [hmap]
  exact hkeys.sublist (List.filter_sublist.map Prod.fst)

section

variable {env : Env} {b : InfrastructureBuilder} {fixed : Fixed} {s s' : Store}
  {ids : List DocId} {requests : Requests} {p : Plan} {components : Entries}

/-! ## The names of the documents -/

theorem indexed_eq (hlower : LowersWords env.lower) (hkeys : KeysApart env.lower components)
    {resourceType key other : String} {i j : Nat} (htype : Plain resourceType)
    (hkey : key ∈ dictKeys components) (hother : other ∈ dictKeys components)
    (h : b.indexed env resourceType i key = b.indexed env resourceType j other) :
    key = other ∧ i = j := by
  simp only [InfrastructureBuilder.indexed, InfrastructureBuilder.resource, Val.scalar.injEq,
    Scalar.str.injEq, and_true] at h
  exact hkeys.index_eq hlower htype hkey hother h

theorem Represents.ledger_none (h : Represents env b fixed s ids requests p)
    (hown : ∀ k, fixed.ownOf k = none) (k : Requested) :
    Ledger none k.kind (fieldsOf env b fixed.replaced k) s ids (requests k) :=
  hown k ▸ h.ledger k

/-- Subnets, security groups and associations are named after their slots. -/
theorem slot_eq (hlower : LowersWords env.lower) (hkeys : KeysApart env.lower components)
    {resourceType : String} (htype : Plain resourceType) {r r' : SubnetRequest}
    (hr : r ∈ (plan .neither components).requests) (hr' : r' ∈ (plan .neither components).requests)
    (h : b.indexed env resourceType r.index r.componentKey =
      b.indexed env resourceType r'.index r'.componentKey) : r.slot = r'.slot := by
  have hslots := plan_slotted hkeys.nodup
  obtain ⟨hkey, hindex⟩ := indexed_eq hlower hkeys htype (hslots.keys r hr) (hslots.keys r' hr') h
  exact Prod.ext hkey hindex

/-- The documents the components bring have names of their own. -/
theorem Represents.namesOf_nodup
    (h : Represents env b fixed s ids requests (plan .neither components))
    (hown : ∀ k, fixed.ownOf k = none) (hlower : LowersWords env.lower)
    (hkeys : KeysApart env.lower components) (k : Requested) : (namesOf k.kind s ids).Nodup := by
  have hslots := plan_slotted hkeys.nodup
  have hplaced := placed_nodup hkeys.nodup
  have hcomponent : ∀ x ∈ (plan .neither components).placed,
      x.component.1 ∈ dictKeys components := by
    intro x hx
    have hmem : x.component ∈ components.filter fun component => isActive component.2 := by
      rw [← plan_components .neither]
      exact List.mem_map_of_mem hx
    exact List.mem_map_of_mem (List.mem_filter.mp hmem).1
  cases k with
  | subnet =>
      have hname : ∀ r : SubnetRequest, (fieldsOf env b fixed.replaced .subnet r).lookup "name" =
          some (subnetName env b r) := fun _ => rfl
      refine (h.ledger_none hown .subnet).namesOf_nodup hname (h.subnets ▸ hslots.nodup) ?_
      rw [h.subnets]
      exact fun r hr r' hr' => slot_eq hlower hkeys (by decide) hr hr'
  | group =>
      have hname : ∀ r : SubnetRequest, (fieldsOf env b fixed.replaced .group r).lookup "name" =
          some (groupName env b r) := fun _ => rfl
      refine (h.ledger_none hown .group).namesOf_nodup hname (h.groups ▸ hslots.nodup) ?_
      rw [h.groups]
      exact fun r hr r' hr' => slot_eq hlower hkeys (by decide) hr hr'
  | association =>
      have hname : ∀ r : SubnetRequest,
          (fieldsOf env b fixed.replaced .association r).lookup "name" =
            some (b.resource env "route-association"
              (some (r.componentKey ++ "-" ++ toString r.index))) := fun _ => rfl
      refine (h.ledger_none hown .association).namesOf_nodup hname
        (h.associations ▸ hslots.nodup) ?_
      rw [h.associations]
      intro r hr r' hr' heq
      simp only [InfrastructureBuilder.resource, Val.scalar.injEq, Scalar.str.injEq,
        and_true] at heq
      obtain ⟨hkey, hindex⟩ := (resourceName_componentIndex_eq_iff hlower).mp heq
      exact Prod.ext (hkeys.eq (hslots.keys r hr) (hslots.keys r' hr') hkey) hindex
  | launch =>
      have hname : ∀ x : Placed, (fieldsOf env b fixed.replaced .launch x).lookup "name" =
          some (launchName env b x.component.1) := fun _ => rfl
      refine (h.ledger_none hown .launch).namesOf_nodup hname (h.launches ▸ hplaced) ?_
      rw [h.launches]
      intro x hx x' hx' heq
      simp only [launchName, InfrastructureBuilder.resource, Val.scalar.injEq,
        Scalar.str.injEq, and_true] at heq
      exact hkeys.eq (hcomponent x hx) (hcomponent x' hx') (resourceName_eq_iff.mp heq)
  | machine =>
      have hname : ∀ x : Placed, (fieldsOf env b fixed.replaced .machine x).lookup "name" =
          some (b.indexed env "asg" 0 x.component.1) := fun _ => rfl
      refine (h.ledger_none hown .machine).namesOf_nodup hname (h.machines ▸ hplaced) ?_
      rw [h.machines]
      exact fun x hx x' hx' heq => (indexed_eq hlower hkeys (by decide)
        (hcomponent x hx) (hcomponent x' hx') heq).1

/-! ## What the documents of the components mention -/

/-- How the documents of a run refer to one another by what the builder assigns. -/
def references : List Reference :=
  [⟨"infrastructure/default-security-group", specNames "vpc_name", "infrastructure/vpc"⟩,
    ⟨"infrastructure/internet-gateway", specNames "vpc_name", "infrastructure/vpc"⟩,
    ⟨"infrastructure/route-table", specNames "vpc_name", "infrastructure/vpc"⟩,
    ⟨Requested.subnet.kind, specNames "vpc_name", "infrastructure/vpc"⟩,
    ⟨Requested.group.kind, specNames "vpc_name", "infrastructure/vpc"⟩,
    ⟨Requested.association.kind, specNames "subnet_name", Requested.subnet.kind⟩,
    ⟨Requested.association.kind, specNames "route_table_name", "infrastructure/route-table"⟩,
    ⟨Requested.launch.kind, specNames "security_groups", Requested.group.kind⟩,
    ⟨Requested.machine.kind, specNames "subnet_names", Requested.subnet.kind⟩,
    ⟨Requested.machine.kind, specNames "launch_configuration", Requested.launch.kind⟩]

/-- The subnets of the mount targets of a file system. -/
def mountSubnets (x : Val) : List Val :=
  (specNames "mount_targets" x).filterMap (·.attr? "subnet_name")

/-- How the file system refers to the subnets of its mount targets. -/
def mountReference : Reference :=
  ⟨"infrastructure/efs-storage", mountSubnets, Requested.subnet.kind⟩

/-- The vpc and the route table of a run are emitted under their names, and the documents
made before the loop are in the vpc. -/
structure Anchored (env : Env) (b : InfrastructureBuilder) (s : Store) (ids : List DocId) :
    Prop where
  vpc : IsEmitted "infrastructure/vpc" (vpcName env b) s ids
  routeTable : IsEmitted "infrastructure/route-table" (routeTableName env b) s ids
  inVpc : ∀ kind ∈ ["infrastructure/default-security-group", "infrastructure/internet-gateway",
    "infrastructure/route-table"], ∀ id ∈ ids, (s.doc id).IsKind kind →
      (s.doc id).specAttr? "vpc_name" = some (vpcName env b)

/-- The documents made before the loop mention the vpc. -/
theorem Anchored.closed (h : Anchored env b s ids) {kind : String}
    (hmem : kind ∈ ["infrastructure/default-security-group", "infrastructure/internet-gateway",
      "infrastructure/route-table"]) :
    Reference.Closed ⟨kind, specNames "vpc_name", "infrastructure/vpc"⟩ s ids := by
  intro id hid hkind name hname
  obtain ⟨value, hread, hmentioned⟩ := mem_specNames hname
  rw [h.inVpc kind hmem id hid hkind] at hread
  cases hread
  rw [mem_mentioned_str hmentioned]
  exact h.vpc

/-- The documents the components bring mention emitted documents only. -/
theorem Represents.closed
    (h : Represents env b fixed s ids requests (plan .neither components))
    (hown : ∀ k, fixed.ownOf k = none) (hreplaced : fixed.replaced = .neither)
    (hkeys : (dictKeys components).Nodup) (hanchored : Anchored env b s ids) :
    ∀ r ∈ references, r.Closed s ids := by
  have hattached := (plan_slotted hkeys).attached
  have hsubnet : ∀ r ∈ (plan .neither components).requests,
      IsEmitted Requested.subnet.kind (subnetName env b r) s ids := by
    have hname : ∀ r : SubnetRequest, (fieldsOf env b fixed.replaced .subnet r).lookup "name" =
        some (subnetName env b r) := fun _ => rfl
    rw [← h.subnets]
    exact fun r hr => (h.ledger_none hown .subnet).isEmitted hname hr
  have hgroup : ∀ r ∈ (plan .neither components).requests,
      IsEmitted Requested.group.kind (groupName env b r) s ids := by
    have hname : ∀ r : SubnetRequest, (fieldsOf env b fixed.replaced .group r).lookup "name" =
        some (groupName env b r) := fun _ => rfl
    rw [← h.groups]
    exact fun r hr => (h.ledger_none hown .group).isEmitted hname hr
  have hlaunch : ∀ x ∈ (plan .neither components).placed,
      IsEmitted Requested.launch.kind (launchName env b x.component.1) s ids := by
    have hname : ∀ x : Placed, (fieldsOf env b fixed.replaced .launch x).lookup "name" =
        some (launchName env b x.component.1) := fun _ => rfl
    rw [← h.launches]
    exact fun x hx => (h.ledger_none hown .launch).isEmitted hname hx
  simp only [references, List.forall_mem_cons]
  refine ⟨hanchored.closed (by simp), hanchored.closed (by simp), hanchored.closed (by simp),
    ?_, ?_, ?_, ?_, ?_, ?_, ?_, fun _ h => absurd h List.not_mem_nil⟩
  · refine (h.ledger_none hown .subnet).closed (fun _ => rfl) fun r hr name hname => ?_
    rw [mem_mentioned_str hname]
    exact hanchored.vpc
  · refine (h.ledger_none hown .group).closed (fun _ => rfl) fun r hr name hname => ?_
    rw [mem_mentioned_str hname]
    exact hanchored.vpc
  · refine (h.ledger_none hown .association).closed (fun _ => rfl) fun r hr name hname => ?_
    rw [mem_mentioned_str hname]
    exact hsubnet r (h.associations ▸ hr)
  · refine (h.ledger_none hown .association).closed (fun _ => rfl) fun r hr name hname => ?_
    rw [mem_mentioned_str hname]
    exact hanchored.routeTable
  · refine (h.ledger_none hown .launch).closed (fun _ => rfl) fun x hx name hname => ?_
    obtain ⟨a, ha, hgroupName⟩ := List.mem_filterMap.mp hname
    obtain ⟨r, hr, rfl⟩ := Option.map_eq_some_iff.mp hgroupName
    rw [hreplaced]
    exact hgroup r ((hattached x (h.launches ▸ hx) a ha).2 r hr)
  · refine (h.ledger_none hown .machine).closed (fun _ => rfl) fun x hx name hname => ?_
    obtain ⟨a, ha, rfl⟩ := List.mem_map.mp hname
    rw [hreplaced]
    exact hsubnet a.subnet (hattached x (h.machines ▸ hx) a ha).1
  · refine (h.ledger_none hown .machine).closed (fun _ => rfl) fun x hx name hname => ?_
    rw [mem_mentioned_str hname]
    exact hlaunch x (h.machines ▸ hx)

/-! ## The mount targets -/

/-- The mount targets of the file system are the old ones and some with known names. -/
def TargetsNamed (own : List Val) (isName : Val → Prop) (s : Store) (efsConfig : DocId) : Prop :=
  ∀ items, (s.doc efsConfig).specAttr? "mount_targets" = some (.list items) →
    ∀ target ∈ items, target ∈ own ∨
      ∃ name, target.attr? "subnet_name" = some name ∧ isName name

theorem TargetsNamed.mono {own : List Val} {isName isName' : Val → Prop} {efsConfig : DocId}
    (h : TargetsNamed own isName s efsConfig) (hsub : ∀ name, isName name → isName' name) :
    TargetsNamed own isName' s efsConfig := by
  intro items hitems target htarget
  rcases h items hitems target htarget with hown | ⟨name, hread, hname⟩
  · exact Or.inl hown
  · exact Or.inr ⟨name, hread, hsub name hname⟩

/-- A mount target is named after its subnet. -/
theorem TargetsNamed.efsAddMountTargetConfig {own : List Val} {isName : Val → Prop}
    {efsConfig subnet : DocId} {u : Unit} (h : TargetsNamed own isName s efsConfig)
    (hname : ∀ name, (s.doc subnet).specAttr? "name" = some name → isName name)
    (hrun : InfrastructureBuilder.efsAddMountTargetConfig efsConfig subnet s = .ok (u, s')) :
    TargetsNamed own isName s' efsConfig := by
  simp only [InfrastructureBuilder.efsAddMountTargetConfig, BuildM.bind_eq_ok, lift_eq_ok] at hrun
  obtain ⟨value, _, hread, old, _, ⟨hold, rfl⟩, zone, _, hread', found, _, ⟨-, rfl⟩, hrun⟩ := hrun
  obtain ⟨hvalue, rfl⟩ := specAttr_eq_ok.mp hread
  obtain ⟨-, rfl⟩ := specAttr_eq_ok.mp hread'
  obtain rfl : value = .list old := by
    cases value with
    | list items => exact congrArg Val.list (Except.ok.inj hold)
    | scalar | dict => cases hold
  cases found with
  | some _ =>
      obtain ⟨-, rfl⟩ := BuildM.pure_eq_ok.mp hrun
      exact h
  | none =>
      simp only [BuildM.bind_eq_ok, lift_eq_ok] at hrun
      obtain ⟨subnetName, _, hreadName, name, _, ⟨-, rfl⟩, hset⟩ := hrun
      obtain ⟨hsubnetName, rfl⟩ := specAttr_eq_ok.mp hreadName
      obtain ⟨doc, hdoc, rfl⟩ := setSpecAttr_eq_ok.mp hset
      intro items hitems target htarget
      rw [s.write_doc_self, Val.specAttr?_withSpecAttr hdoc, if_pos rfl] at hitems
      cases hitems
      rcases List.mem_append.mp htarget with htarget | htarget
      · exact h old hvalue target htarget
      · rw [List.mem_singleton.mp htarget]
        exact Or.inr ⟨subnetName, rfl, hname subnetName hsubnetName⟩

theorem TargetsNamed.efsAddMountTargets {own : List Val} {isName : Val → Prop}
    {efsConfig : DocId} {subnets : List DocId} {u : Unit} (h : TargetsNamed own isName s efsConfig)
    (hlt : efsConfig < s.next) (hkind : (s.doc efsConfig).IsKind "infrastructure/efs-storage")
    (hsubnets : ∀ id ∈ subnets, id < s.next ∧ (s.doc id).IsKind Requested.subnet.kind ∧
      ∀ name, (s.doc id).specAttr? "name" = some name → isName name)
    (hrun : InfrastructureBuilder.efsAddMountTargets efsConfig subnets s = .ok (u, s')) :
    TargetsNamed own isName s' efsConfig := by
  induction subnets generalizing s with
  | nil =>
      obtain ⟨-, rfl⟩ := BuildM.pure_eq_ok.mp hrun
      exact h
  | cons subnet rest ih =>
      obtain ⟨_, s₁, hfirst, hrest⟩ := BuildM.bind_eq_ok.mp hrun
      rw [List.forall_mem_cons] at hsubnets
      have hkeep := efsAddMountTargetConfig_keeps hkind hfirst
      refine ih (h.efsAddMountTargetConfig hsubnets.1.2.2 hfirst) (hlt.trans_le hkeep.next)
        ((hkeep.isKind hlt _).mpr hkind) (fun id hid => ?_) hrest
      obtain ⟨hidlt, hisSubnet, hname⟩ := hsubnets.2 id hid
      have hsame : s₁.doc id = s.doc id := hkeep.same hidlt hisSubnet (by decide)
      exact ⟨hidlt.trans_le hkeep.next, hsame ▸ hisSubnet, hsame ▸ hname⟩

/-! ## The component loop -/

/-- The documents and the mount targets of the components that have been placed. -/
structure Linked (env : Env) (b : InfrastructureBuilder) (fixed : Fixed) (start : List DocId)
    (own : List Val) (s : Store) (ids : List DocId) (p : Plan) : Prop where
  emits : Emits requestedKinds s start ids
  targets : TargetsNamed own (fun name => ∃ r ∈ p.requests, name = subnetName env b r) s
    fixed.shared.efsConfig

/-- One component adds its documents and its mount targets. -/
theorem Linked.buildComponent {start : List DocId} {own : List Val}
    (h : Represents env b fixed s ids requests p) (hl : Linked env b fixed start own s ids p)
    (hsubnet : fixed.own Requested.subnet.kind = none) {component : String × Val}
    {emitted : List DocId}
    (hrun : b.buildComponent env fixed.shared ids component s = .ok (emitted, s')) :
    Linked env b fixed start own s' emitted (planComponent fixed.replaced p component) := by
  rcases buildComponent_cases hrun with ⟨hactive, rfl, rfl⟩ |
    ⟨hactive, lp, s₁, autoscalingGroup, s₂, hbuild, hmachine, hlaunch⟩
  · rw [planComponent, hactive, if_neg (by decide)]
    exact hl
  · have hstart : InLoop env b fixed s ⟨ids, [], [], 0⟩ requests p.placed
        ⟨p.requests, [], 0⟩ := { h with
      subnetsToCreate := .nil
      groupsToCreate := .nil
      index := rfl }
    obtain ⟨requests₁, hkeep₁, -, h₁, -⟩ := hstart.buildSubnets hbuild
    obtain ⟨-, hemits₁⟩ := buildSubnets_emits h.docs hbuild
    obtain ⟨mountEfs, s₃, hmade, hend⟩ := h₁.machineMade h.toTracked hkeep₁ hmachine hlaunch
    have hemits := hmade.emits hkeep₁ hemits₁ hl.emits
    have hgrown := (requests_planSubnets fixed.replaced component.1 ⟨p.requests, [], 0⟩
      (subnetDefinitions component.2)).subset
    rw [planComponent, hactive, if_pos rfl]
    generalize planSubnets fixed.replaced component.1 ⟨p.requests, [], 0⟩
      (subnetDefinitions component.2) = q at h₁ hgrown ⊢
    have hefsKind : (s₃.doc fixed.shared.efsConfig).IsKind "infrastructure/efs-storage" := by
      rw [hmade.efs]
      exact h.efsKind
    have htargets : TargetsNamed own (fun name => ∃ r ∈ q.requests, name = subnetName env b r) s₃
        fixed.shared.efsConfig := by
      intro items hitems
      rw [hmade.efs] at hitems
      refine (hl.targets.mono fun name hrequested => ?_) items hitems
      obtain ⟨r, hr, hname⟩ := hrequested
      exact ⟨r, hgrown hr, hname⟩
    split at hend
    · have hsubnets : ∀ id ∈ lp.subnetsToCreate, id < s₃.next ∧
          (s₃.doc id).IsKind Requested.subnet.kind ∧
          ∀ name, (s₃.doc id).specAttr? "name" = some name →
            ∃ r ∈ q.requests, name = subnetName env b r := by
        intro id hid
        obtain ⟨hlt, hsame⟩ := hmade.subnets_same h₁ id hid
        refine ⟨hlt, hsame ▸ (h₁.subnets_made id hid).2, fun name hname => ?_⟩
        obtain ⟨a, -, hmem⟩ := exists_of_mem_forall₂ h₁.subnetsToCreate hid
        have hshown := (h₁.ledger .subnet).specAttr?_eq hmem "name" rfl
        rw [hsame, hshown, show fixed.ownOf .subnet = none from hsubnet, Option.isSome_none,
          current_false] at hname
        have hrequests : (requests₁ .subnet).map Prod.snd = q.requests := h₁.subnets
        refine ⟨a.subnet, ?_, (Option.some.inj hname).symm⟩
        rw [← hrequests]
        exact List.mem_map_of_mem (f := Prod.snd) hmem
      exact ⟨hemits.keeps (efsAddMountTargets_keeps hmade.efsLt hefsKind hend),
        htargets.efsAddMountTargets hmade.efsLt hefsKind hsubnets hend⟩
    · subst hend
      exact ⟨hemits, htargets⟩

/-- The components one after another. -/
theorem Linked.buildComponents {start : List DocId} {own : List Val}
    (h : Represents env b fixed s ids requests p) (hl : Linked env b fixed start own s ids p)
    (hsubnet : fixed.own Requested.subnet.kind = none) {emitted : List DocId}
    (hrun : b.buildComponents env fixed.shared ids components s = .ok (emitted, s')) :
    ∃ requests', Keeps loopKinds s s' ∧
      Represents env b fixed s' emitted requests' (planComponents fixed.replaced p components) ∧
      Linked env b fixed start own s' emitted (planComponents fixed.replaced p components) := by
  induction components generalizing s ids requests p with
  | nil =>
      obtain ⟨rfl, rfl⟩ := BuildM.pure_eq_ok.mp hrun
      exact ⟨requests, .refl _ _, h, hl⟩
  | cons component rest ih =>
      obtain ⟨ids₁, s₁, hfirst, hrest⟩ := BuildM.bind_eq_ok.mp hrun
      obtain ⟨requests₁, hkeep₁, -, h₁, -⟩ := h.buildComponent hfirst
      obtain ⟨requests₂, hkeep₂, h₂, hl₂⟩ := ih h₁ (hl.buildComponent h hsubnet hfirst) hrest
      exact ⟨requests₂, hkeep₁.trans hkeep₂, h₂, hl₂⟩

/-! ## The whole run -/

/-- The kinds of the documents a component brings from the input or the defaults. -/
def componentKinds : List String :=
  [Requested.subnet.kind, Requested.group.kind, Requested.association.kind, Requested.launch.kind]

/-- The items of a list, none where it is no list. -/
def itemsOf : Option Val → List Val
  | some (.list items) => items
  | _ => []

/-- The mount targets the file system has before the run: those of the user's document, or
of the default. -/
def ownTargets (env : Env) (b : InfrastructureBuilder) (s : Store) : List Val :=
  itemsOf (loadedPart .aws env.toBuilderEnv b.docs "infrastructure/efs-storage" "mount_targets" s)

/-- Each mount target is one the file system had before, or that of an emitted subnet. -/
def MountsClosed (own : List Val) (s : Store) (ids : List DocId) : Prop :=
  ∀ id ∈ ids, (s.doc id).IsKind "infrastructure/efs-storage" →
    TargetsNamed own (fun name => IsEmitted Requested.subnet.kind name s ids) s id

/-- The documents made before the loop are in the vpc that is emitted with them. -/
theorem start_anchored {keys : KeySource} {start : InfrastructureBuilder.Start}
    (hdocs : ∀ id ∈ b.docs, id < s.next) (h : b.start env keys s = .ok (start, s')) :
    Anchored env b s' start.infrastructure := by
  obtain ⟨vpc, resourceGroup, gateway, hbuilt, -, hids, -⟩ := start_built hdocs h
  have hdoc := hbuilt.docs
  simp only [startDocs, List.forall_mem_cons] at hdoc
  obtain ⟨⟨-, k₁, -⟩, ⟨-, k₂, hvpc⟩, ⟨-, k₃, hgroup, -⟩, ⟨-, k₄, -⟩, ⟨-, k₅, hgateway⟩,
    ⟨-, k₆, hrouteVpc, hrouteTable⟩, -, -⟩ := hdoc
  rw [hids]
  refine ⟨⟨vpc, by simp, k₂, hvpc⟩, ⟨start.shared.routeTable, by simp, k₆, hrouteTable⟩, ?_⟩
  intro kind hmem id hid hkind
  simp only [List.mem_cons, List.not_mem_nil, or_false] at hid
  rcases hid with rfl | rfl | rfl | rfl | rfl | rfl
  · cases hkind.symm.trans k₁
    simp at hmem
  · cases hkind.symm.trans k₂
    simp at hmem
  · exact hgroup
  · cases hkind.symm.trans k₄
    simp at hmem
  · exact hgateway
  · exact hrouteVpc

/-- Before the loop the file system has the mount targets it had. -/
theorem start_targetsNamed {keys : KeySource} {start : InfrastructureBuilder.Start}
    (hdocs : ∀ id ∈ b.docs, id < s.next) (h : b.start env keys s = .ok (start, s'))
    (isName : Val → Prop) :
    TargetsNamed (ownTargets env b s) isName s' start.shared.efsConfig := by
  obtain ⟨vpc, resourceGroup, gateway, hbuilt, -⟩ := start_built hdocs h
  have hdoc := hbuilt.docs
  simp only [startDocs, List.forall_mem_cons] at hdoc
  obtain ⟨-, -, -, -, -, -, ⟨-, -, hloaded⟩, -⟩ := hdoc
  intro items hitems target htarget
  rw [hitems] at hloaded
  refine Or.inl ?_
  rw [ownTargets, ← hloaded]
  exact htarget

/-- Of a kind no component brings there is at most one document. -/
theorem single_of_start {keys : KeySource} {start : InfrastructureBuilder.Start} {s₁ : Store}
    {emitted : List DocId} {kind : String} (hdocs : ∀ id ∈ b.docs, id < s.next)
    (hstart : b.start env keys s = .ok (start, s₁)) {changing : Set String}
    (hkeep : Keeps changing s₁ s') (hother : kind ∉ requestedKinds)
    (hemits : Emits requestedKinds s' start.infrastructure ids)
    (hend : emitted = ids ∨ emitted = ids ++ [start.shared.efsConfig]) :
    (ofKind kind s' emitted).length ≤ 1 := by
  obtain ⟨vpc, resourceGroup, gateway, hbuilt, -, hids, -⟩ := start_built hdocs hstart
  have hmade : List.Forall₂ (fun id kind => (s'.doc id).IsKind kind)
      (start.infrastructure ++ [start.shared.efsConfig])
      ((startDocs env b s start vpc resourceGroup gateway).map StartDoc.kind) := by
    have hsame : start.infrastructure ++ [start.shared.efsConfig] =
        (startDocs env b s start vpc resourceGroup gateway).map StartDoc.id := by
      rw [hids]
      rfl
    rw [hsame, List.forall₂_map_left_iff, List.forall₂_map_right_iff, List.forall₂_same]
    intro d hd
    obtain ⟨hlt, hisKind, -⟩ := hbuilt.docs d hd
    exact (hkeep.isKind hlt _).mpr hisKind
  have hsingle := length_ofKind_le hmade hbuilt.kinds kind
  have hfilter : ofKind kind s' ids = ofKind kind s' start.infrastructure :=
    hemits.filter_eq hother
  have happend : ∀ xs ys, ofKind kind s' (xs ++ ys) = ofKind kind s' xs ++ ofKind kind s' ys :=
    fun xs ys => List.filter_append xs ys
  rw [happend] at hsingle
  rcases hend with rfl | rfl
  · rw [hfilter]
    exact (List.sublist_append_left _ _).length_le.trans hsingle
  · rw [happend, hfilter]
    exact hsingle

/-- The component loop leaves the documents made before it as they are. -/
theorem Anchored.emits {ids' : List DocId} (h : Anchored env b s ids)
    (hlt : ∀ id ∈ ids, id < s.next) (hkeep : Keeps loopKinds s s')
    (hemits : Emits requestedKinds s' ids ids') : Anchored env b s' ids' := by
  have hout : ∀ kind ∈ ["infrastructure/default-security-group",
      "infrastructure/internet-gateway", "infrastructure/route-table", "infrastructure/vpc"],
      kind ∉ loopKinds ∧ kind ∉ requestedKinds := by
    intro kind hmem
    simp only [List.mem_cons, List.not_mem_nil, or_false] at hmem
    constructor
    · rintro (heq | ⟨k, heq⟩)
      · rcases hmem with rfl | rfl | rfl | rfl <;> simp at heq
      · rcases hmem with rfl | rfl | rfl | rfl <;> cases k <;> simp [Requested.kind, vmKind] at heq
    · rintro ⟨k, heq⟩
      rcases hmem with rfl | rfl | rfl | rfl <;> cases k <;> simp [Requested.kind, vmKind] at heq
  refine ⟨h.vpc.keeps hlt hkeep (hout _ (by simp)).1 hemits.subset,
    h.routeTable.keeps hlt hkeep (hout _ (by simp)).1 hemits.subset, ?_⟩
  intro kind hmem id hid hkind
  obtain ⟨hloop, hrequested⟩ := hout kind (by simp at hmem ⊢; tauto)
  have hold : id ∈ ids := by
    have hfilter : id ∈ ofKind kind s' ids' := mem_ofKind.mpr ⟨hid, hkind⟩
    rw [ofKind, hemits.filter_eq hrequested] at hfilter
    exact (List.mem_filter.mp hfilter).1
  have hkindBefore := (hkeep.isKind (hlt id hold) kind).mp hkind
  rw [hkeep.same (hlt id hold) hkindBefore hloop]
  exact h.inVpc kind hmem id hold hkindBefore

/-- The rules for the file system leave the names as they are. -/
theorem Anchored.addEfs {efsConfig group : DocId} {emitted : List DocId}
    (h : Anchored env b s ids) (hdocs : ∀ id ∈ b.docs, id < s.next)
    (hlt : ∀ id ∈ ids, id < s.next)
    (hefs : (s'.doc efsConfig).IsKind "infrastructure/efs-storage")
    (hkeep : Keeps efsKinds s s')
    (hrun : b.addEfs env efsConfig group ids s = .ok (emitted, s')) :
    Anchored env b s' emitted := by
  rcases addEfs_cases hrun with ⟨rfl, rfl⟩ | ⟨rfl, hrules⟩
  · exact h
  · obtain ⟨s₁, rules, hkeep₁, hset⟩ := addSecurityRulesInboundEfs_assigned hdocs hrules
    obtain ⟨doc, hdoc, rfl⟩ := setSpecAttr_eq_ok.mp hset
    have hsub : ids ⊆ ids ++ [efsConfig] := List.subset_append_left _ _
    refine ⟨h.vpc.keeps hlt hkeep (by simp [efsKinds]) hsub,
      h.routeTable.keeps hlt hkeep (by simp [efsKinds]) hsub, ?_⟩
    intro kind hmem id hid hkind
    rcases List.mem_append.mp hid with hid | hid
    · have hkindBefore := (hkeep.isKind (hlt id hid) kind).mp hkind
      have hread := h.inVpc kind hmem id hid hkindBefore
      have hne : kind ∉ ({"infrastructure/security-group-rule"} : Set String) := by
        rintro rfl
        simp at hmem
      rw [← hkeep₁.same (hlt id hid) hkindBefore hne] at hread
      by_cases heq : id = group
      · subst heq
        rw [s₁.write_doc_self, Val.specAttr?_withSpecAttr hdoc, if_neg (by decide)]
        exact hread
      · rw [(s₁.frame_write (Set.mem_singleton group) doc).2 id
          ((hlt id hid).trans_le hkeep₁.next) heq]
        exact hread
    · rw [List.mem_singleton.mp hid, Val.IsKind, hefs] at hkind
      cases hkind
      simp at hmem

/-- The components bring documents of their own, and their keys stay different in names. -/
structure NamedApart (env : Env) (b : InfrastructureBuilder) (s : Store) : Prop where
  docs : ∀ id ∈ b.docs, id < s.next
  unique : ∀ id ∈ b.docs, (s.doc id).KeysUnique
  own : ∀ kind ∈ componentKinds, ∀ id ∈ b.docs, ¬ (s.doc id).IsKind kind
  lower : LowersWords env.lower
  keys : ∀ components, (attrPath b.clusterModel ["specification", "components"]).bind
    Val.asDict = .ok components → KeysApart env.lower components

/-- The documents of a run have different names, what the builder assigns mentions emitted
documents only, and so do the mount targets it adds to those of the file system. -/
theorem run_wellFormedGraph {keys : KeySource} {infrastructure : List DocId}
    (h : NamedApart env b s) (hrun : b.run env keys s = .ok (infrastructure, s')) :
    WellFormedGraph references s' infrastructure ∧
      MountsClosed (ownTargets env b s) s' infrastructure := by
  have hnone : ∀ kind ∈ componentKinds, ownDoc b.docs kind s = none := fun kind hmem =>
    List.find?_eq_none.mpr fun id hid hholds => h.own kind hmem id hid (holds?_kindIs.mp hholds)
  simp only [InfrastructureBuilder.run, BuildM.bind_eq_ok] at hrun
  obtain ⟨start, s₁, hstart, emitted, s₂, hloop, hefs⟩ := hrun
  obtain ⟨fixed, hshared, -, hown, hcomponents, ⟨hlt, hkind⟩, h₁⟩ :=
    start_represents h.docs h.unique hstart
  obtain ⟨vpc, resourceGroup, gateway, hbuilt, -, hids, -⟩ := start_built h.docs hstart
  have hkeys := h.keys _ hcomponents
  have hownOf : ∀ k, fixed.ownOf k = none := by
    intro k
    cases k with
    | machine => rfl
    | subnet | group | association | launch =>
        exact (hown _).trans (hnone _ (by simp [componentKinds]))
  have hreplaced : fixed.replaced = .neither := by
    rw [Fixed.replaced, show fixed.own Requested.subnet.kind = none from hownOf .subnet,
      show fixed.own Requested.group.kind = none from hownOf .group]
    rfl
  have hl₁ : Linked env b fixed start.infrastructure (ownTargets env b s) s₁ start.infrastructure
      ⟨[], []⟩ := ⟨.refl _ _ _, hshared ▸ start_targetsNamed h.docs hstart _⟩
  rw [← hshared] at hloop hefs
  obtain ⟨requests, hkeep₂, h₂, hl₂⟩ := hl₁.buildComponents h₁ (hownOf .subnet) hloop
  obtain ⟨hkeep₃, h₃⟩ :=
    h₂.addEfs (hlt.trans_le hkeep₂.next) ((hkeep₂.isKind hlt _).mpr hkind) hefs
  have hanchored := ((start_anchored h.docs hstart).emits h₁.allocated hkeep₂ hl₂.emits).addEfs
    h₂.docs h₂.allocated h₃.efsKind hkeep₃ hefs
  rw [hreplaced, show planComponents .neither ⟨[], []⟩ start.components =
    plan .neither start.components from rfl] at h₃
  have hend : infrastructure = emitted ∨ infrastructure = emitted ++ [start.shared.efsConfig] := by
    rw [← hshared]
    exact (addEfs_cases hefs).imp And.left And.left
  have hkeep : Keeps Set.univ s₁ s' :=
    (hkeep₂.mono (Set.subset_univ _)).trans (hkeep₃.mono (Set.subset_univ _))
  have hsingle : ∀ {kind : String} {ids : List DocId}, kind ∉ requestedKinds →
      (ids = emitted ∨ ids = emitted ++ [start.shared.efsConfig]) →
      (ofKind kind s' ids).length ≤ 1 := fun hother hend =>
    single_of_start h.docs hstart hkeep hother (hl₂.emits.keeps hkeep₃) hend
  refine ⟨⟨fun kind => ?_, h₃.closed hownOf hreplaced hkeys.nodup hanchored⟩, ?_⟩
  · by_cases hrequested : kind ∈ requestedKinds
    · obtain ⟨k, rfl⟩ := hrequested
      exact h₃.namesOf_nodup hownOf h.lower hkeys k
    · exact namesOf_nodup_of_single (hsingle hrequested hend)
  · intro id hid hisEfs
    obtain rfl : id = fixed.shared.efsConfig := by
      have hother : "infrastructure/efs-storage" ∉ requestedKinds := by
        rintro ⟨k, heq⟩
        cases k <;> simp [Requested.kind, vmKind] at heq
      refine eq_of_single (hsingle hother (Or.inr rfl)) ?_ hisEfs (by simp [hshared]) h₃.efsKind
      rcases hend with rfl | rfl
      · exact List.mem_append_left _ hid
      · exact hid
    have hsame : s'.doc fixed.shared.efsConfig = s₂.doc fixed.shared.efsConfig :=
      hkeep₃.same h₂.efsConfig h₂.efsKind (by simp [efsKinds])
    have hnamed : ∀ name, (∃ r ∈ (plan .neither start.components).requests,
        name = subnetName env b r) → IsEmitted Requested.subnet.kind name s' infrastructure := by
      rintro _ ⟨r, hr, rfl⟩
      rw [← h₃.subnets] at hr
      exact (h₃.ledger_none hownOf .subnet).isEmitted (fun _ => rfl) hr
    intro items hitems
    rw [hsame] at hitems
    exact (hl₂.targets.mono (hreplaced ▸ hnamed)) items hitems

end

end Aws

end LambdaStack
