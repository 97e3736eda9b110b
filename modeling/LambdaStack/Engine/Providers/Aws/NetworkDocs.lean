/-
# The network documents of an AWS run

A run of the AWS builder refines the network plan: the emitted subnets, security
groups, route table associations, autoscaling groups and launch configurations
are those the plan requests, and each shows the request it got last. The
invariant is one ledger for each kind of document.
-/

import LambdaStack.Engine.Providers.Aws.InfrastructureBuilder
import LambdaStack.Engine.Providers.Aws.NetworkPlan

namespace LambdaStack

open Lib BuildM

namespace Aws

/-- The documents a run requests for its components. -/
inductive Requested
  | subnet
  | group
  | association
  | launch
  | machine
  deriving DecidableEq

namespace Requested

/-- The kind of the documents. -/
def kind : Requested → String
  | .subnet => "infrastructure/subnet"
  | .group => "infrastructure/security-group"
  | .association => "infrastructure/route-table-association"
  | .launch => "infrastructure/launch-configuration"
  | .machine => vmKind

/-- What a document is requested for. -/
abbrev Request : Requested → Type
  | .subnet | .group | .association => SubnetRequest
  | .launch | .machine => Placed

theorem kind_injective : Function.Injective kind := by
  intro k other h
  cases k <;> cases other <;> first | rfl | simp [kind, vmKind] at h

end Requested

/-- The kinds of the documents a run makes before the component loop. -/
def startKinds : List String :=
  ["infrastructure/public-key", "infrastructure/vpc", "infrastructure/default-security-group",
    "infrastructure/resource-group", "infrastructure/internet-gateway",
    "infrastructure/route-table", "infrastructure/efs-storage"]

theorem kind_notMem_startKinds (k : Requested) : k.kind ∉ startKinds := by
  cases k <;> decide

/-- The requests a run has made, with the documents they got. -/
abbrev Requests : Type := LambdaStack.Requests Requested.Request

/-- What does not change in the component loop. -/
structure Fixed where
  shared : InfrastructureBuilder.Shared
  /-- The input documents before the run. -/
  docs : List Val
  /-- The user's own document of a kind. -/
  own : String → Option DocId

section

variable (env : Env) (b : InfrastructureBuilder)

def vpcName : Val := b.resource env "vpc" none

def routeTableName : Val := b.resource env "route-table" none

def subnetName (r : SubnetRequest) : Val := b.indexed env "subnet" r.index r.componentKey

def groupName (r : SubnetRequest) : Val := b.indexed env "security-group" r.index r.componentKey

def subnetFields (r : SubnetRequest) : List (String × Val) :=
  [("vpc_name", vpcName env b), ("cidr_block", r.addressPool),
    ("availability_zone", r.availabilityZone), ("name", subnetName env b r),
    ("cluster_name", .str b.clusterName)]

def groupFields (r : SubnetRequest) : List (String × Val) :=
  [("name", groupName env b r), ("vpc_name", vpcName env b), ("cidr_block", r.addressPool),
    ("cluster_name", .str b.clusterName)]

def associationFields (r : SubnetRequest) : List (String × Val) :=
  [("name", b.resource env "route-association"
      (some (r.componentKey ++ "-" ++ toString r.index))),
    ("subnet_name", subnetName env b r), ("route_table_name", routeTableName env b)]

/-- The name of the launch configuration of a component. -/
def launchName (componentKey : String) : Val :=
  b.resource env "launch-config" (some componentKey)

section

variable (replaced : Replaced)

/-- The names the groups of a component show when they are read. -/
def groupNamesOf (p : Placed) : List Val :=
  p.attached.filterMap fun a => a.group.map fun r =>
    groupName env b (current replaced.group p.requests r)

/-- The names the subnets of a component show when they are read. -/
def subnetNamesOf (p : Placed) : List Val :=
  p.attached.map fun a => subnetName env b (current replaced.subnet p.requests a.subnet)

def launchFields (p : Placed) : List (String × Val) :=
  [("name", launchName env b p.component.1),
    ("security_groups", .list (groupNamesOf env b replaced p))]

def machineFields (p : Placed) : List (String × Val) :=
  [("name", b.indexed env "asg" 0 p.component.1),
    ("subnet_names", .list (subnetNamesOf env b replaced p)),
    ("launch_configuration", launchName env b p.component.1)]

/-- What a requested document shows. -/
def fieldsOf : (k : Requested) → k.Request → List (String × Val)
  | .subnet => subnetFields env b
  | .group => groupFields env b
  | .association => associationFields env b
  | .launch => launchFields env b replaced
  | .machine => machineFields env b replaced

end

variable (fixed : Fixed)

/-- The kinds the user replaces. -/
def Fixed.replaced : Replaced where
  subnet := (fixed.own Requested.subnet.kind).isSome
  group := (fixed.own Requested.group.kind).isSome

/-- Autoscaling groups are copies, never the user's document. -/
def Fixed.ownOf : Requested → Option DocId
  | .machine => none
  | k => fixed.own k.kind

/-- The `security` part of a component's machine definition. -/
def securityOfComponent (componentValue : Val) : Option Val :=
  (componentValue.getAttr "machine").toOption.bind
    (machineSecurity env.toBuilderEnv b.clusterModel fixed.docs)

/-- The documents the loop refers to are there, and what it looks up in the input
documents is as it was before the run. -/
structure Tracked (s : Store) (ids : List DocId) : Prop where
  docs : ∀ id ∈ b.docs, id < s.next
  unique : ∀ id ∈ b.docs, (s.doc id).KeysUnique
  allocated : ∀ id ∈ ids, id < s.next
  own : ∀ kind, ownDoc b.docs kind s = fixed.own kind
  security : ∀ machineSelector,
    machineSecurity env.toBuilderEnv b.clusterModel (b.docs.map s.doc) machineSelector =
      machineSecurity env.toBuilderEnv b.clusterModel fixed.docs machineSelector
  vpcName : fixed.shared.vpcName = vpcName env b
  routeTable : fixed.shared.routeTable < s.next
  routeTableKind : (s.doc fixed.shared.routeTable).IsKind "infrastructure/route-table"
  routeTableName : (s.doc fixed.shared.routeTable).specAttr? "name" =
    some (routeTableName env b)
  efsConfig : fixed.shared.efsConfig < s.next
  efsKind : (s.doc fixed.shared.efsConfig).IsKind "infrastructure/efs-storage"

/-- The store and the emitted documents after the requests of a plan. -/
structure Represents (s : Store) (ids : List DocId) (requests : Requests) (p : Plan) : Prop
    extends Tracked env b fixed s ids where
  ledger : ∀ k, Ledger (fixed.ownOf k) k.kind (fieldsOf env b fixed.replaced k) s ids (requests k)
  subnets : (requests .subnet).map Prod.snd = p.requests
  groups : (requests .group).map Prod.snd = p.requests
  associations : (requests .association).map Prod.snd = p.requests
  launches : (requests .launch).map Prod.snd = p.placed
  machines : (requests .machine).map Prod.snd = p.placed
  copies : ∀ e ∈ requests .machine, e.1 ∉ b.docs
  pools : ∀ x ∈ p.placed, ∀ d ∈ subnetDefinitions x.component.2,
    ∃ pool, d.getItem "address_pool" = .ok pool
  securities : ∀ e ∈ requests .machine,
    (s.doc e.1).specAttr? "security" = securityOfComponent env b fixed e.2.component.2

end

section

variable {env : Env} {b : InfrastructureBuilder} {fixed : Fixed}
  {s s' : Store} {ids : List DocId} {id : DocId}
  {requests : Requests} {p : Plan} {changing : Set String}

/-! ## Steps on documents of other kinds -/

theorem Tracked.keeps (h : Tracked env b fixed s ids) (hkeep : Keeps changing s s')
    (hout : "infrastructure/route-table" ∉ changing) : Tracked env b fixed s' ids where
  docs id hid := (h.docs id hid).trans_le hkeep.next
  unique id hid := (hkeep.doc id (h.docs id hid)).unique (h.unique id hid)
  allocated id hid := (h.allocated id hid).trans_le hkeep.next
  own kind := (hkeep.ownDoc_eq h.docs kind).trans (h.own kind)
  security machineSelector := by
    have hsteps : List.Forall₂ (DocStep changing) (b.docs.map s.doc) (b.docs.map s'.doc) := by
      rw [List.forall₂_map_left_iff, List.forall₂_map_right_iff, List.forall₂_same]
      exact fun id hid => hkeep.doc id (h.docs id hid)
    exact (machineSecurity_congr hsteps _ _).trans (h.security machineSelector)
  vpcName := h.vpcName
  routeTable := h.routeTable.trans_le hkeep.next
  routeTableKind := (hkeep.isKind h.routeTable _).mpr h.routeTableKind
  routeTableName := by
    rw [hkeep.same h.routeTable h.routeTableKind hout]
    exact h.routeTableName
  efsConfig := h.efsConfig.trans_le hkeep.next
  efsKind := (hkeep.isKind h.efsConfig _).mpr h.efsKind

theorem Tracked.append (h : Tracked env b fixed s ids) (hlt : id < s.next) :
    Tracked env b fixed s (ids ++ [id]) :=
  { h with
    allocated := fun other hother => by
      rcases List.mem_append.mp hother with hother | hother
      · exact h.allocated other hother
      · rwa [List.mem_singleton.mp hother] }

/-- No step changes the `security` part of an autoscaling group. -/
theorem Represents.securities_keeps (h : Represents env b fixed s ids requests p)
    (hkeep : Keeps changing s s') : ∀ e ∈ requests .machine,
      (s'.doc e.1).specAttr? "security" = securityOfComponent env b fixed e.2.component.2 := by
  intro e he
  obtain ⟨hmem, hkind⟩ := (h.ledger .machine).mem_ids (r := e.2) he
  rw [(hkeep.doc e.1 (h.allocated e.1 hmem)).security hkind]
  exact h.securities e he

theorem Represents.keeps (h : Represents env b fixed s ids requests p)
    (hkeep : Keeps changing s s') (hout : ∀ k : Requested, k.kind ∉ changing)
    (hroute : "infrastructure/route-table" ∉ changing) :
    Represents env b fixed s' ids requests p :=
  { h with
    toTracked := h.toTracked.keeps hkeep hroute
    ledger := fun k => (h.ledger k).keeps hkeep (hout k) h.allocated
    securities := h.securities_keeps hkeep }

theorem Represents.append_other (h : Represents env b fixed s ids requests p)
    (hlt : id < s.next) (hkind : ∀ k : Requested, ¬ (s.doc id).IsKind k.kind) :
    Represents env b fixed s (ids ++ [id]) requests p :=
  { h with
    toTracked := h.toTracked.append hlt
    ledger := fun k => (h.ledger k).append_other (hkind k) }

/-! ## A request -/

/-- A getter that assigns fields to the document of a requested kind. -/
theorem Tracked.config (h : Tracked env b fixed s ids) {k : Requested}
    (hk : k ≠ .machine) {fields : List (String × Val)} (hfields : (dictKeys fields).Nodup)
    (hrun : b.config env k.kind fields s = .ok (id, s')) :
    Keeps {k.kind} s s' ∧ s.Frame {id} s' ∧ id < s'.next ∧ (s'.doc id).IsKind k.kind ∧
      IsIssued (fixed.ownOf k) s.next id ∧ Shows fields (s'.doc id) := by
  have hvm : ConfigKind k.kind := by
    cases k with
    | machine => exact absurd rfl hk
    | _ => decide
  obtain ⟨hkeep, hframe, hlt, hkind, hown, hread⟩ := configWith_eq_ok h.docs hvm hfields hrun
  refine ⟨hkeep, hframe, hlt, hkind, ?_, hread⟩
  have hownOf : fixed.ownOf k = ownDoc b.docs k.kind s := by
    rw [h.own]
    cases k with
    | machine => exact absurd rfl hk
    | _ => rfl
  rw [hownOf]
  exact hown

/-- What a getter of a requested kind does for a request: its document is the next one
that is emitted, and it shows the request. -/
structure Answered (env : Env) (b : InfrastructureBuilder) (fixed : Fixed) {k : Requested}
    (r : k.Request) (s s' : Store) (ids : List DocId) (requests : Requests) (id : DocId) :
    Prop where
  keep : Keeps {k.kind} s s'
  frame : s.Frame {id} s'
  lt : id < s'.next
  isKind : (s'.doc id).IsKind k.kind
  issued : IsIssued (fixed.ownOf k) s.next id
  shown : Shows (fieldsOf env b fixed.replaced k r) (s'.doc id)
  tracked : Tracked env b fixed s' (ids ++ [id])
  ledger : ∀ other, Ledger (fixed.ownOf other) other.kind (fieldsOf env b fixed.replaced other)
    s' (ids ++ [id]) (requests.add k id r other)

theorem Tracked.answer (h : Tracked env b fixed s ids)
    (hledger : ∀ k, Ledger (fixed.ownOf k) k.kind (fieldsOf env b fixed.replaced k) s ids
      (requests k))
    {k : Requested} (hk : k ≠ .machine) {r : k.Request}
    (hfields : (dictKeys (fieldsOf env b fixed.replaced k r)).Nodup)
    (hrun : b.config env k.kind (fieldsOf env b fixed.replaced k r) s = .ok (id, s')) :
    Answered env b fixed r s s' ids requests id := by
  obtain ⟨hkeep, hframe, hlt, hkind, hown, hshows⟩ := h.config hk hfields hrun
  have hroute : "infrastructure/route-table" ∉ ({k.kind} : Set String) := by
    cases k <;> decide
  exact {
    keep := hkeep
    frame := hframe
    lt := hlt
    isKind := hkind
    issued := hown
    shown := hshows
    tracked := (h.keeps hkeep hroute).append hlt
    ledger := ledger_add Requested.kind_injective hledger h.allocated hkeep hframe hown hkind
      hshows }

/-! ## The subnets of a component -/

/-- The variables of the loop over the subnets of a component. -/
structure InLoop (env : Env) (b : InfrastructureBuilder) (fixed : Fixed) (s : Store)
    (p : InfrastructureBuilder.SubnetLoop) (requests : Requests) (placed : List Placed)
    (q : SubnetPlan) : Prop
    extends Represents env b fixed s p.infrastructure requests ⟨q.requests, placed⟩ where
  subnetsToCreate : List.Forall₂ (fun id a => (id, a.subnet) ∈ requests .subnet)
    p.subnetsToCreate q.attached
  groupsToCreate : List.Forall₂ (fun found a => Got (requests .group) found a.group)
    p.securityGroupsToCreate q.attached
  index : p.subnetIndex = q.index

theorem holds?_isOfPool {subnetDefinition pool : Val}
    (hpool : subnetDefinition.getItem "address_pool" = .ok pool) (kind : String) (x : Val) :
    Holds? (InfrastructureBuilder.isOfPool kind subnetDefinition x) =
      (Holds? (kindIs kind x) && (x.specAttr? "cidr_block").any (·.pyEq pool)) := by
  unfold InfrastructureBuilder.isOfPool
  cases hkind : kindIs kind x with
  | error e => rfl
  | ok answer =>
      cases answer with
      | false => rfl
      | true =>
          simp only [ok_bind, if_true, Holds?, Bool.true_and, Val.specAttr?, attrPath,
            List.foldlM_cons, List.foldlM_nil, Val.getAttr]
          cases hspec : x.attr? "specification" with
          | none => rfl
          | some spec =>
              cases hcidr : spec.attr? "cidr_block" with
              | none => simp [hcidr]
              | some own => simp [hcidr, hpool, pure, Except.pure]

theorem definitionItem_of_ok {key : String} {subnetDefinition value : Val}
    (h : subnetDefinition.getItem key = .ok value) :
    definitionItem key subnetDefinition = value := by
  simp [definitionItem, h, Except.toOption]

/-- Searching the emitted documents for the address pool of a definition. -/
theorem Represents.select (h : Represents env b fixed s ids requests p)
    {subnetDefinition pool : Val}
    (hpool : subnetDefinition.getItem "address_pool" = .ok pool) :
    Got (requests .subnet) (ids.find? (Holds? ∘ (InfrastructureBuilder.isOfPool
        Requested.subnet.kind subnetDefinition ∘ s.doc)))
      ((visible fixed.replaced.subnet p.requests).find? (isForPool subnetDefinition)) ∧
    Got (requests .group) (ids.find? (Holds? ∘ (InfrastructureBuilder.isOfPool
        Requested.group.kind subnetDefinition ∘ s.doc)))
      ((visible fixed.replaced.group p.requests).find? (isForPool subnetDefinition)) := by
  have hsame : isForPool subnetDefinition =
      (fun value : Val => value.pyEq pool) ∘ SubnetRequest.addressPool := by
    funext r
    rw [isForPool, definitionItem_of_ok hpool]
    rfl
  have hsubnetPool : ∀ r : SubnetRequest,
      (fieldsOf env b fixed.replaced .subnet r).lookup "cidr_block" = some r.addressPool :=
    fun _ => rfl
  have hgroupPool : ∀ r : SubnetRequest,
      (fieldsOf env b fixed.replaced .group r).lookup "cidr_block" = some r.addressPool :=
    fun _ => rfl
  have hsubnet := (h.ledger .subnet).find?_eq hsubnetPool (·.pyEq pool) (holds?_isOfPool hpool _)
  have hgroup := (h.ledger .group).find?_eq hgroupPool (·.pyEq pool) (holds?_isOfPool hpool _)
  rw [h.subnets] at hsubnet
  rw [h.groups] at hgroup
  rw [hsame]
  exact ⟨hsubnet, hgroup⟩

/-- The rules a security group has before any component adds its own. -/
def baseRules (env : Env) : Option Val :=
  (env.schema.loadSchemaObj "aws" Requested.group.kind).toOption.bind (·.specAttr? "rules")

/-- What happens to the security groups while the subnets of a component are built,
where the user does not replace them. -/
structure NewGroups (env : Env) (s s' : Store) (requests requests' : Requests) : Prop where
  old : ∀ e ∈ requests .group, s'.doc e.1 = s.doc e.1
  new : ∀ e ∈ requests' .group, e ∈ requests .group ∨
    (s'.doc e.1).specAttr? "rules" = baseRules env

/-- The kinds of the documents a subnet definition brings. -/
def subnetKinds : Set String :=
  {Requested.subnet.kind, Requested.group.kind, Requested.association.kind}

/-- A new security group, and what the steps around it leave of the security groups. -/
theorem Represents.newGroups (h : Represents env b fixed s ids requests p) {r : SubnetRequest}
    {s₁ s₂ s₃ : Store} {ids₁ : List DocId} {requests₁ requests' : Requests} {group : DocId}
    (hkeep₁ : Keeps {Requested.subnet.kind} s s₁)
    (htracked₁ : Tracked env b fixed s₁ ids₁)
    (hgroup : Answered env b fixed (k := .group) r s₁ s₂ ids₁ requests₁ group)
    (hrun : b.config env Requested.group.kind (groupFields env b r) s₁ = .ok (group, s₂))
    (hkeep₃ : Keeps {Requested.association.kind} s₂ s₃)
    (hrequests : requests' .group = requests .group ++ ([(group, r)] : List (DocId × _)))
    (hnone : fixed.own Requested.group.kind = none) : NewGroups env s s₃ requests requests' := by
  have hnew : s₁.next ≤ group := by
    have hown : IsIssued (fixed.own Requested.group.kind) s₁.next group := hgroup.issued
    rwa [hnone] at hown
  constructor
  · intro e he
    obtain ⟨hmem, hkind⟩ := (h.ledger .group).mem_ids (r := e.2) he
    have hlt := h.allocated _ hmem
    have hne : e.1 ≠ group := (hlt.trans_le (hkeep₁.next.trans hnew)).ne
    have hsame₁ : s₁.doc e.1 = s.doc e.1 := hkeep₁.same hlt hkind (by decide)
    have hsame₂ : s₂.doc e.1 = s₁.doc e.1 := hgroup.frame.2 _ (hlt.trans_le hkeep₁.next) hne
    have hkind₂ : (s₂.doc e.1).IsKind Requested.group.kind := by
      rw [hsame₂, hsame₁]
      exact hkind
    rw [hkeep₃.same (hlt.trans_le (hkeep₁.next.trans hgroup.keep.next)) hkind₂ (by decide),
      hsame₂, hsame₁]
  · intro e he
    rw [hrequests, List.mem_append, List.mem_singleton] at he
    refine he.imp_right fun heq => ?_
    obtain ⟨default, hdefault, hread⟩ := configWith_default htracked₁.docs (by decide)
      (by simp [groupFields]) ((htracked₁.own _).trans hnone) hrun
    have hdefault : env.schema.loadSchemaObj "aws" Requested.group.kind = .ok default := hdefault
    rw [heq, hkeep₃.same hgroup.lt hgroup.isKind (by decide), hread, baseRules, hdefault]
    rfl

/-- A subnet, its security group and its association are emitted for a request. -/
theorem InLoop.emit {q : SubnetPlan} {lp : InfrastructureBuilder.SubnetLoop}
    {placed : List Placed} (h : InLoop env b fixed s lp requests placed q) {r : SubnetRequest}
    {subnet group association : DocId} {attached : List Attached}
    {requests' : Requests} (hkeep : Keeps subnetKinds s s')
    (hrequests : requests' =
      ((requests.add .subnet subnet r).add .group group r).add .association association r)
    (htracked : Tracked env b fixed s' (lp.infrastructure ++ [subnet, group, association]))
    (hledger : ∀ k, Ledger (fixed.ownOf k) k.kind (fieldsOf env b fixed.replaced k) s'
      (lp.infrastructure ++ [subnet, group, association]) (requests' k))
    (hattached : attached = q.attached ++ [⟨r, some r⟩]) :
    (∀ k, requests k ⊆ requests' k) ∧ InLoop env b fixed s'
      ⟨lp.infrastructure ++ [subnet, group, association], lp.subnetsToCreate ++ [subnet],
        lp.securityGroupsToCreate ++ [some group], lp.subnetIndex + 1⟩ requests' placed
      ⟨q.requests ++ [r], attached, q.index + 1⟩ := by
  have hsub : ∀ k, requests k ⊆ requests' k := by
    intro k
    let requests₁ : Requests := requests.add .subnet subnet r
    let requests₂ : Requests := requests₁.add .group group r
    rw [hrequests]
    apply List.Subset.trans (requests.subset_add .subnet k subnet r)
    apply List.Subset.trans (requests₁.subset_add .group k group r)
    exact requests₂.subset_add .association k association r
  have hsubnets : requests' .subnet = requests .subnet ++ ([(subnet, r)] : List (DocId × _)) := by
    simp [hrequests, Requests.add]
  have hgroups : requests' .group = requests .group ++ ([(group, r)] : List (DocId × _)) := by
    simp [hrequests, Requests.add]
  have hassociations : requests' .association =
      requests .association ++ ([(association, r)] : List (DocId × _)) := by
    simp [hrequests, Requests.add]
  have hlaunches : requests' .launch = requests .launch := by
    simp [hrequests, Requests.add]
  have hmachines : requests' .machine = requests .machine := by
    simp [hrequests, Requests.add]
  refine ⟨hsub, ?_⟩
  rw [hattached]
  exact {
    toTracked := htracked
    ledger := hledger
    subnets := by rw [hsubnets, List.map_append, h.subnets]; rfl
    groups := by rw [hgroups, List.map_append, h.groups]; rfl
    associations := by rw [hassociations, List.map_append, h.associations]; rfl
    launches := by rw [hlaunches, h.launches]
    machines := by rw [hmachines, h.machines]
    copies := by rw [hmachines]; exact h.copies
    pools := h.pools
    securities := by
      rw [hmachines]
      exact h.securities_keeps hkeep
    subnetsToCreate := by
      apply List.rel_append
      · exact h.subnetsToCreate.imp fun _ _ hmem => hsub .subnet hmem
      · exact .cons (by rw [hsubnets]; simp) .nil
    groupsToCreate := by
      apply List.rel_append
      · exact h.groupsToCreate.imp fun _ _ hgot => hgot.mono (hsub .group)
      · exact .cons ⟨group, rfl, by rw [hgroups]; simp⟩ .nil
    index := by
      change lp.subnetIndex + 1 = q.index + 1
      rw [h.index] }

/-- The documents of a definition that brings a new address pool. -/
theorem InLoop.introduce {q : SubnetPlan} {lp : InfrastructureBuilder.SubnetLoop}
    {placed : List Placed} (h : InLoop env b fixed s lp requests placed q)
    {componentKey : String} {subnetDefinition pool zone : Val} {s₁ s₂ s₃ : Store}
    {subnet group association : DocId} {subnetName' routeTableName' : Val}
    (hpool : subnetDefinition.getItem "address_pool" = .ok pool)
    (hzone : subnetDefinition.getItem "availability_zone" = .ok zone)
    (hfind : (visible fixed.replaced.subnet q.requests).find? (isForPool subnetDefinition) = none)
    (hsubnet : b.getSubnet env subnetDefinition componentKey fixed.shared.vpcName lp.subnetIndex
      s = .ok (subnet, s₁))
    (hgroup : b.getSecurityGroup env subnet componentKey fixed.shared.vpcName lp.subnetIndex s₁ =
      .ok (group, s₂))
    (hname : (s₂.doc subnet).specAttr? "name" = some subnetName')
    (hroute : (s₂.doc fixed.shared.routeTable).specAttr? "name" = some routeTableName')
    (hassociation : b.getRouteTableAssociation env routeTableName' componentKey subnetName'
      lp.subnetIndex s₂ = .ok (association, s₃)) :
    ∃ requests', Keeps subnetKinds s s₃ ∧ (∀ k, requests k ⊆ requests' k) ∧
      InLoop env b fixed s₃ ⟨lp.infrastructure ++ [subnet, group, association],
        lp.subnetsToCreate ++ [subnet], lp.securityGroupsToCreate ++ [some group],
        lp.subnetIndex + 1⟩ requests' placed
        (planSubnet fixed.replaced componentKey q subnetDefinition) ∧
      (fixed.own Requested.group.kind = none → NewGroups env s s₃ requests requests') := by
  have hr : newRequest componentKey q.index subnetDefinition =
      ⟨componentKey, lp.subnetIndex, pool, zone⟩ := by
    rw [newRequest, definitionItem_of_ok hpool, definitionItem_of_ok hzone, h.index]
  have hplan : planSubnet fixed.replaced componentKey q subnetDefinition =
      ⟨q.requests ++ [⟨componentKey, lp.subnetIndex, pool, zone⟩],
        q.attached ++ [⟨⟨componentKey, lp.subnetIndex, pool, zone⟩,
          some ⟨componentKey, lp.subnetIndex, pool, zone⟩⟩], q.index + 1⟩ := by
    rw [planSubnet, hfind, hr]
  simp only [InfrastructureBuilder.getSubnet, BuildM.bind_eq_ok, lift_eq_ok] at hsubnet
  obtain ⟨_, _, ⟨hpool', rfl⟩, _, _, ⟨hzone', rfl⟩, hconfig₁⟩ := hsubnet
  cases hpool.symm.trans hpool'
  cases hzone.symm.trans hzone'
  rw [h.vpcName] at hconfig₁ hgroup
  have hanswer₁ : Answered env b fixed (k := .subnet)
      ⟨componentKey, lp.subnetIndex, pool, zone⟩ s s₁ lp.infrastructure requests subnet :=
    h.toTracked.answer h.ledger (by decide) (by simp [fieldsOf, subnetFields]) hconfig₁
  simp only [InfrastructureBuilder.getSecurityGroup, BuildM.bind_eq_ok] at hgroup
  obtain ⟨cidrBlock, _, hread, hconfig₂⟩ := hgroup
  obtain ⟨hcidr, rfl⟩ := specAttr_eq_ok.mp hread
  obtain rfl : cidrBlock = pool :=
    Option.some.inj (hcidr.symm.trans (hanswer₁.shown "cidr_block" pool rfl))
  have hanswer₂ : Answered env b fixed (k := .group)
      ⟨componentKey, lp.subnetIndex, cidrBlock, zone⟩ s₁ s₂ (lp.infrastructure ++ [subnet])
      (requests.add .subnet subnet ⟨componentKey, lp.subnetIndex, cidrBlock, zone⟩) group :=
    hanswer₁.tracked.answer hanswer₁.ledger (by decide) (by simp [fieldsOf, groupFields]) hconfig₂
  have hsame₂ : s₂.doc subnet = s₁.doc subnet :=
    hanswer₂.keep.same hanswer₁.lt hanswer₁.isKind (by decide)
  obtain rfl : subnetName' =
      subnetName env b ⟨componentKey, lp.subnetIndex, cidrBlock, zone⟩ := by
    rw [hsame₂] at hname
    exact Option.some.inj (hname.symm.trans (hanswer₁.shown "name" _ rfl))
  obtain rfl : routeTableName' = routeTableName env b :=
    Option.some.inj (hroute.symm.trans hanswer₂.tracked.routeTableName)
  have hanswer₃ : Answered env b fixed (k := .association)
      ⟨componentKey, lp.subnetIndex, cidrBlock, zone⟩ s₂ s₃
      (lp.infrastructure ++ [subnet] ++ [group]) _ association :=
    hanswer₂.tracked.answer hanswer₂.ledger (by decide) (by simp [fieldsOf, associationFields])
      hassociation
  have hids : lp.infrastructure ++ [subnet] ++ [group] ++ [association] =
      lp.infrastructure ++ [subnet, group, association] := by
    simp
  have hkeep : Keeps subnetKinds s s₃ :=
    ((hanswer₁.keep.mono (by simp [subnetKinds])).trans
      (hanswer₂.keep.mono (by simp [subnetKinds]))).trans
        (hanswer₃.keep.mono (by simp [subnetKinds]))
  obtain ⟨hsub, hloop⟩ := h.emit hkeep rfl (hids ▸ hanswer₃.tracked)
    (fun k => hids ▸ hanswer₃.ledger k) rfl
  refine ⟨_, hkeep, hsub, hplan ▸ hloop, fun hnone => ?_⟩
  exact h.toRepresents.newGroups hanswer₁.keep hanswer₁.tracked hanswer₂ hconfig₂
    hanswer₃.keep (by simp [Requests.add]) hnone

/-- A subnet definition that is built has an address pool, also where the subnet is there. -/
theorem buildSubnet_pool {lp lp' : InfrastructureBuilder.SubnetLoop} {routeTable : DocId}
    {vpcName subnetDefinition : Val} {componentKey : String}
    (hrun : b.buildSubnet env routeTable vpcName componentKey lp subnetDefinition s =
      .ok (lp', s')) : ∃ pool, subnetDefinition.getItem "address_pool" = .ok pool := by
  simp only [InfrastructureBuilder.buildSubnet, BuildM.bind_eq_ok] at hrun
  obtain ⟨found, _, hread, foundGroup, _, hread', hrun⟩ := hrun
  obtain ⟨hsubnet, rfl⟩ := reads_eq_ok.mp hread
  obtain ⟨-, rfl⟩ := reads_eq_ok.mp hread'
  cases found with
  | some subnet =>
      -- the subnet was found because it has the pool of the definition
      have hholds := List.find?_some (selectFirst_eq_ok hsubnet).symm
      rw [Function.comp_apply, holds?_eq_true, Function.comp_apply,
        InfrastructureBuilder.isOfPool, Lib.bind_eq_ok] at hholds
      obtain ⟨answer, -, hholds⟩ := hholds
      cases answer with
      | false => cases hholds
      | true =>
          simp only [if_true, Lib.bind_eq_ok] at hholds
          obtain ⟨_, -, pool, hpool, -⟩ := hholds
          exact ⟨pool, hpool⟩
  | none =>
      simp only [BuildM.bind_eq_ok, InfrastructureBuilder.getSubnet, lift_eq_ok] at hrun
      obtain ⟨_, _, ⟨pool, _, ⟨hpool, -⟩, -⟩, -⟩ := hrun
      exact ⟨pool, hpool⟩

theorem buildSubnets_pools {lp lp' : InfrastructureBuilder.SubnetLoop} {routeTable : DocId}
    {vpcName : Val} {componentKey : String} {subnets : List Val}
    (hrun : b.buildSubnets env routeTable vpcName componentKey lp subnets s = .ok (lp', s')) :
    ∀ d ∈ subnets, ∃ pool, d.getItem "address_pool" = .ok pool := by
  induction subnets generalizing lp s with
  | nil => exact fun _ h => absurd h List.not_mem_nil
  | cons subnetDefinition rest ih =>
      obtain ⟨lp₁, s₁, hfirst, hrest⟩ := BuildM.bind_eq_ok.mp hrun
      exact List.forall_mem_cons.mpr ⟨buildSubnet_pool hfirst, ih hrest⟩

/-- One subnet definition gets what the plan says. -/
theorem InLoop.buildSubnet {q : SubnetPlan} {lp lp' : InfrastructureBuilder.SubnetLoop}
    {placed : List Placed} (h : InLoop env b fixed s lp requests placed q)
    {componentKey : String} {subnetDefinition : Val}
    (hrun : b.buildSubnet env fixed.shared.routeTable fixed.shared.vpcName componentKey lp
      subnetDefinition s = .ok (lp', s')) :
    ∃ requests', Keeps subnetKinds s s' ∧ (∀ k, requests k ⊆ requests' k) ∧
      InLoop env b fixed s' lp' requests' placed
        (planSubnet fixed.replaced componentKey q subnetDefinition) ∧
      (fixed.own Requested.group.kind = none → NewGroups env s s' requests requests') := by
  obtain ⟨pool, hpool⟩ := buildSubnet_pool hrun
  simp only [InfrastructureBuilder.buildSubnet, BuildM.bind_eq_ok] at hrun
  obtain ⟨found, _, hread, foundGroup, _, hread', hrun⟩ := hrun
  obtain ⟨hsubnet, rfl⟩ := reads_eq_ok.mp hread
  obtain ⟨hgroup, rfl⟩ := reads_eq_ok.mp hread'
  have hsubnet := selectFirst_eq_ok hsubnet
  have hgroup := selectFirst_eq_ok hgroup
  cases found with
  | some subnet =>
      obtain ⟨rfl, rfl⟩ := BuildM.pure_eq_ok.mp hrun
      obtain ⟨hgot, hgotGroup⟩ : Got (requests .subnet) (some subnet) _ ∧
          Got (requests .group) foundGroup _ := by
        rw [hsubnet, hgroup]
        exact h.toRepresents.select hpool
      cases hfind : (visible fixed.replaced.subnet q.requests).find?
          (isForPool subnetDefinition) with
      | none =>
          rw [hfind] at hgot
          cases hgot
      | some r =>
          rw [hfind] at hgot
          obtain ⟨id, heq, hmem⟩ := hgot
          cases heq
          refine ⟨requests, .refl _ _, fun _ => List.Subset.refl _, ?_,
            fun _ => ⟨fun _ _ => rfl, fun _ he => Or.inl he⟩⟩
          rw [planSubnet, hfind]
          exact { h with
            subnetsToCreate := List.rel_append h.subnetsToCreate (.cons hmem .nil)
            groupsToCreate := List.rel_append h.groupsToCreate (.cons hgotGroup .nil) }
  | none =>
      simp only [BuildM.bind_eq_ok] at hrun
      obtain ⟨subnet, s₁, hget, group, s₂, hgetGroup, routeTableName, _, hroute, subnetName', _,
        hname, association, s₃, hassociation, hrun⟩ := hrun
      obtain ⟨hrouteName, rfl⟩ := specAttr_eq_ok.mp hroute
      obtain ⟨hsubnetName, rfl⟩ := specAttr_eq_ok.mp hname
      obtain ⟨rfl, rfl⟩ := BuildM.pure_eq_ok.mp hrun
      obtain ⟨zone, hzone⟩ : ∃ zone,
          subnetDefinition.getItem "availability_zone" = .ok zone := by
        simp only [InfrastructureBuilder.getSubnet, BuildM.bind_eq_ok, lift_eq_ok] at hget
        obtain ⟨_, _, ⟨-, -⟩, zone, _, ⟨hzone, -⟩, -⟩ := hget
        exact ⟨zone, hzone⟩
      obtain ⟨hgot, -⟩ : Got (requests .subnet) none _ ∧ True := by
        rw [hsubnet]
        exact ⟨(h.toRepresents.select hpool).1, trivial⟩
      cases hfind : (visible fixed.replaced.subnet q.requests).find?
          (isForPool subnetDefinition) with
      | some r =>
          rw [hfind] at hgot
          obtain ⟨id, heq, -⟩ := hgot
          cases heq
      | none =>
          exact h.introduce hpool hzone hfind hget hgetGroup hsubnetName hrouteName hassociation

/-- The subnet definitions of a component get what the plan says. -/
theorem InLoop.buildSubnets {q : SubnetPlan} {lp lp' : InfrastructureBuilder.SubnetLoop}
    {placed : List Placed} (h : InLoop env b fixed s lp requests placed q)
    {componentKey : String} {subnets : List Val}
    (hrun : b.buildSubnets env fixed.shared.routeTable fixed.shared.vpcName componentKey lp
      subnets s = .ok (lp', s')) :
    ∃ requests', Keeps subnetKinds s s' ∧ (∀ k, requests k ⊆ requests' k) ∧
      InLoop env b fixed s' lp' requests' placed
        (planSubnets fixed.replaced componentKey q subnets) ∧
      (fixed.own Requested.group.kind = none → NewGroups env s s' requests requests') := by
  induction subnets generalizing lp s requests q with
  | nil =>
      obtain ⟨rfl, rfl⟩ := BuildM.pure_eq_ok.mp hrun
      exact ⟨requests, .refl _ _, fun _ => List.Subset.refl _, h,
        fun _ => ⟨fun _ _ => rfl, fun _ he => Or.inl he⟩⟩
  | cons subnetDefinition rest ih =>
      obtain ⟨lp₁, s₁, hfirst, hrest⟩ := BuildM.bind_eq_ok.mp hrun
      obtain ⟨requests₁, hkeep₁, hsub₁, h₁, hnew₁⟩ := h.buildSubnet hfirst
      obtain ⟨requests₂, hkeep₂, hsub₂, h₂, hnew₂⟩ := ih h₁ hrest
      refine ⟨requests₂, hkeep₁.trans hkeep₂, fun k => List.Subset.trans (hsub₁ k) (hsub₂ k), h₂,
        fun hnone => ⟨fun e he => ?_, fun e he => ?_⟩⟩
      · rw [(hnew₂ hnone).old e (hsub₁ .group he), (hnew₁ hnone).old e he]
      · rcases (hnew₂ hnone).new e he with he | hrules
        · refine ((hnew₁ hnone).new e he).imp_right fun hrules => ?_
          rw [(hnew₂ hnone).old e he, hrules]
        · exact Or.inr hrules

end

end Aws

end LambdaStack
