/-
# The rules of shared security groups

Where the user replaces neither subnets nor security groups, the security group of a
subnet has the rules of the components attached to the subnet, no other rules, and no
rule twice, however the components share address pools and machine definitions.
-/

import LambdaStack.Engine.Providers.Aws.NetworkRun
import LambdaStack.Engine.Providers.Aws.MachineTags

namespace LambdaStack

open Lib BuildM

namespace Aws

section

variable (env : Env) (b : InfrastructureBuilder) (fixed : Fixed)

/-- A component is attached to the group that was made for a request. -/
def IsAttached (x : Placed) (r : SubnetRequest) : Prop := ∃ a ∈ x.attached, a.group = some r

/-- The rules of a component. -/
def rulesOfComponent (x : Placed) : List Val :=
  rulesIn (securityOfComponent env b fixed x.component.2)

/-- The rules of a group are those of the components attached to it. -/
structure FromComponents (placed : List Placed) (r : SubnetRequest) (rules : List Val) :
    Prop where
  complete : ∀ x ∈ placed, IsAttached x r → ∀ rule ∈ rulesOfComponent env b fixed x,
    HasStringFields rule → ∃ own ∈ rules, SameRule env own rule
  sound : ∀ rule ∈ rules, ∃ x ∈ placed, IsAttached x r ∧ rule ∈ rulesOfComponent env b fixed x
  apart : rules.Pairwise fun rule other => ¬ SameRule env rule other

/-- The rules of every group are those of the components attached to it. -/
def RulesTracked (s : Store) (requests : Requests) (placed : List Placed) : Prop :=
  ∀ id r, (id, r) ∈ requests .group → ∃ rules,
    (s.doc id).specAttr? "rules" = some (.list rules) ∧ FromComponents env b fixed placed r rules

end

section

variable {env : Env} {b : InfrastructureBuilder} {fixed : Fixed} {s s' : Store}
  {ids ids' : List DocId} {requests requests' : Requests} {p p' : Plan} {placed : List Placed}
  {r : SubnetRequest} {rules : List Val} {x : Placed}

/-! ## One more component -/

/-- A component whose rules are added to the group. -/
theorem FromComponents.attach (h : FromComponents env b fixed placed r rules)
    (hattached : IsAttached x r) {new : List Val}
    (hext : Extended (SameRule env) (rulesOfComponent env b fixed x) rules new) :
    FromComponents env b fixed (placed ++ [x]) r new where
  complete y hy hyr rule hrule hstrings := by
    rcases List.mem_append.mp hy with hy | hy
    · obtain ⟨own, hown, hsame⟩ := h.complete y hy hyr rule hrule hstrings
      exact ⟨own, hext.grows hown, hsame⟩
    · rw [List.mem_singleton.mp hy] at hrule
      exact hext.covers rule hrule (.refl hstrings)
  sound rule hrule := by
    rcases hext.sound rule hrule with hold | hadded
    · obtain ⟨y, hy, hyr, hmem⟩ := h.sound rule hold
      exact ⟨y, List.mem_append.mpr (Or.inl hy), hyr, hmem⟩
    · exact ⟨x, by simp, hattached, hadded⟩
  apart := hext.apart h.apart

/-- A component with other groups. -/
theorem FromComponents.skip (h : FromComponents env b fixed placed r rules)
    (hattached : ¬ IsAttached x r) : FromComponents env b fixed (placed ++ [x]) r rules where
  complete y hy hyr rule hrule hstrings := by
    rcases List.mem_append.mp hy with hy | hy
    · exact h.complete y hy hyr rule hrule hstrings
    · rw [List.mem_singleton.mp hy] at hyr
      exact absurd hyr hattached
  sound rule hrule := by
    obtain ⟨y, hy, hyr, hmem⟩ := h.sound rule hrule
    exact ⟨y, List.mem_append.mpr (Or.inl hy), hyr, hmem⟩
  apart := h.apart

/-- A group no component is attached to yet. -/
theorem FromComponents.nil (h : ∀ x ∈ placed, ¬ IsAttached x r) :
    FromComponents env b fixed placed r [] where
  complete x hx hxr := absurd hxr (h x hx)
  sound _ hrule := absurd hrule List.not_mem_nil
  apart := .nil

/-- The documents of different group requests are different, and so are the requests. -/
structure GroupsApart (requests : Requests) : Prop where
  docs : ((requests .group).map Prod.fst).Nodup
  requests : ((requests .group).map Prod.snd).Nodup

theorem GroupsApart.request_eq (h : GroupsApart requests) {id : DocId} {r' : SubnetRequest}
    (hr : (id, r) ∈ requests .group) (hr' : (id, r') ∈ requests .group) : r = r' :=
  congrArg Prod.snd (List.inj_on_of_nodup_map h.docs hr hr' rfl)

theorem GroupsApart.doc_eq (h : GroupsApart requests) {id id' : DocId}
    (hr : (id, r) ∈ requests .group) (hr' : (id', r) ∈ requests .group) : id = id' :=
  congrArg Prod.fst (List.inj_on_of_nodup_map h.requests hr hr' rfl)

theorem Represents.groupsApart (h : Represents env b fixed s ids requests p) (hp : p.Places)
    (hown : fixed.own Requested.group.kind = none) : GroupsApart requests where
  docs := by
    have hissued := (h.ledger .group).issued
    rwa [show fixed.ownOf .group = none from hown] at hissued
  requests := by
    rw [h.groups]
    exact hp.apart.nodup

/-- An active component adds its rules to the groups it is attached to and to no other. -/
theorem RulesTracked.step (h : RulesTracked env b fixed s requests placed)
    (hapart : GroupsApart requests') (hsub : requests .group ⊆ requests' .group)
    (hplaced : ∀ x ∈ placed, ∀ r, IsAttached x r → r ∈ (requests .group).map Prod.snd)
    (hbase : baseRules env = some (.list []))
    (hstep : GroupsStep env (rulesOfComponent env b fixed x) x.attached s s' requests requests') :
    RulesTracked env b fixed s' requests' (placed ++ [x]) := by
  intro id r hmem
  obtain ⟨groups, s₁, -, hnew, hgroups, hgot, hlaunched⟩ := hstep.stages
  obtain ⟨s₂, s₃, hkeep₂, hgrown, hkeep₃⟩ := hlaunched.stages
  obtain ⟨hlt₁, hkind₁⟩ := hgroups _ hmem
  -- the group before the rules of the component are added
  obtain ⟨old, hold, hfrom⟩ : ∃ old, (s₁.doc id).specAttr? "rules" = some (.list old) ∧
      FromComponents env b fixed placed r old := by
    by_cases hbefore : (id, r) ∈ requests .group
    · obtain ⟨old, hold, hfrom⟩ := h id r hbefore
      exact ⟨old, (hnew.old _ hbefore ▸ hold : _), hfrom⟩
    · refine ⟨[], ?_, .nil fun y hy hyr => hbefore ?_⟩
      · rw [(hnew.new _ hmem).resolve_left hbefore, hbase]
      · obtain ⟨⟨other, _⟩, he, rfl⟩ := List.mem_map.mp (hplaced y hy r hyr)
        rwa [← hapart.doc_eq (hsub he) hmem]
  have hsame₂ : s₂.doc id = s₁.doc id := hkeep₂.same hlt₁ hkind₁ (by decide)
  have hlt₂ := hlt₁.trans_le hkeep₂.next
  have hkind₂ : (s₂.doc id).IsKind Requested.group.kind := hsame₂ ▸ hkind₁
  have hsame₄ : s'.doc id = s₃.doc id := hkeep₃.same (hlt₂.trans_le hgrown.keep.next)
    ((hgrown.keep.isKind hlt₂ _).mpr hkind₂) (kind_notMem_launchKinds (by decide) (by decide))
  rw [← hsame₂] at hold
  rw [hsame₄]
  by_cases hin : some id ∈ groups
  · obtain ⟨new, hrules, hext⟩ := hgrown.grown id hin old hold
    have hattached : IsAttached x r := by
      obtain ⟨a, ha, hgot⟩ := exists_of_mem_forall₂ hgot hin
      refine ⟨a, ha, ?_⟩
      cases hgroup : a.group with
      | none =>
          rw [hgroup] at hgot
          cases hgot
      | some r' =>
          rw [hgroup] at hgot
          obtain ⟨_, heq, hmem'⟩ := hgot
          cases heq
          rw [hapart.request_eq hmem hmem']
    exact ⟨new, hrules, hfrom.attach hattached hext⟩
  · refine ⟨old, ?_, hfrom.skip ?_⟩
    · rw [hgrown.others id hin]
      exact hold
    · rintro ⟨a, ha, hgroup⟩
      obtain ⟨found, hfound, hgot⟩ := exists_of_mem_forall₂ hgot.flip ha
      simp only [hgroup] at hgot
      obtain ⟨other, rfl, hmem'⟩ := hgot
      rw [hapart.doc_eq hmem hmem'] at hin
      exact hin hfound

/-- The components add their rules one after another. -/
theorem RulesTracked.buildComponents {components : Entries}
    (h : Represents env b fixed s ids requests p) (hp : p.Places)
    (hrules : RulesTracked env b fixed s requests p.placed)
    (hreplaced : fixed.replaced = .neither) (hown : fixed.own Requested.group.kind = none)
    (hbase : baseRules env = some (.list []))
    (hcomponents : ∀ component ∈ components, component.2.WellFormed)
    (hrun : b.buildComponents env fixed.shared ids components s = .ok (ids', s')) :
    ∃ requests', Keeps loopKinds s s' ∧ Represents env b fixed s' ids' requests'
        (planComponents .neither p components) ∧
      RulesTracked env b fixed s' requests' (planComponents .neither p components).placed := by
  induction components generalizing s ids requests p with
  | nil =>
      obtain ⟨rfl, rfl⟩ := BuildM.pure_eq_ok.mp hrun
      exact ⟨requests, .refl _ _, h, hrules⟩
  | cons component rest ih =>
      obtain ⟨emitted, s₁, hfirst, hrest⟩ := BuildM.bind_eq_ok.mp hrun
      obtain ⟨requests₁, hkeep₁, hsub, h₁, hinactive, hactive⟩ := h.buildComponent hfirst
      rw [hreplaced] at h₁ hactive
      have hp₁ := planComponent_places hp (hcomponents component (by simp))
      have hrules₁ : RulesTracked env b fixed s₁ requests₁
          (planComponent .neither p component).placed := by
        cases hcount : isActive component.2 with
        | false =>
            obtain ⟨rfl, rfl⟩ := hinactive hcount
            rw [planComponent, hcount, if_neg (by decide)]
            exact hrules
        | true =>
            have hplaced : ∀ x ∈ p.placed, ∀ r, IsAttached x r →
                r ∈ (requests .group).map Prod.snd := by
              rintro x hx r ⟨a, ha, hgroup⟩
              obtain ⟨d, -, hgets⟩ := exists_of_mem_forall₂ (hp.placed x hx).flip ha
              rw [h.groups, ← Option.some.inj (hgets.2.symm.trans hgroup)]
              exact List.mem_of_find?_eq_some hgets.1
            have hapart := h₁.groupsApart hp₁ hown
            rw [planComponent, hcount, if_pos rfl]
            exact hrules.step hapart (hsub .group) hplaced hbase (hactive hcount hown)
      obtain ⟨requests₂, hkeep₂, h₂, hrules₂⟩ :=
        ih h₁ hp₁ hrules₁ (fun c hc => hcomponents c (by simp [hc])) hrest
      exact ⟨requests₂, hkeep₁.trans hkeep₂, h₂, hrules₂⟩

/-! ## The emitted documents -/

/-- The security group document of a subnet definition, found as the builder finds it. -/
def groupOfSubnet (s : Store) (infrastructure : List DocId) (subnetDefinition : Val) :
    Option DocId :=
  infrastructure.find? (Holds? ∘ (InfrastructureBuilder.isOfPool Requested.group.kind
    subnetDefinition ∘ s.doc))

/-- The rules of an emitted autoscaling group. -/
def machineRules (s : Store) (autoscalingGroup : DocId) : List Val :=
  rulesIn ((s.doc autoscalingGroup).specAttr? "security")

/-- The emitted autoscaling groups with the components they were made for. -/
structure Members (env : Env) (b : InfrastructureBuilder) (s : Store)
    (infrastructure : List DocId) (components : Entries)
    (members : List ((String × Val) × DocId)) : Prop where
  components : members.map Prod.fst = components.filter fun component => isActive component.2
  machines : members.map Prod.snd =
    infrastructure.filter fun id => Holds? (kindIs vmKind (s.doc id))
  names : ∀ m ∈ members,
    (s.doc m.2).specAttr? "name" = some (b.indexed env "asg" 0 m.1.1)

/-- The security group of a subnet has the rules of the components attached to the
subnet, no rule of another component, and no rule twice. -/
structure HasMembersRules (env : Env) (s : Store) (infrastructure : List DocId)
    (members : List ((String × Val) × DocId)) (group : DocId) (rules : List Val) : Prop where
  complete : ∀ m ∈ members, (∃ d ∈ subnetDefinitions m.1.2,
      groupOfSubnet s infrastructure d = some group) →
    ∀ rule ∈ machineRules s m.2, HasStringFields rule → ∃ own ∈ rules, SameRule env own rule
  sound : ∀ rule ∈ rules, ∃ m ∈ members, (∃ d ∈ subnetDefinitions m.1.2,
    groupOfSubnet s infrastructure d = some group) ∧ rule ∈ machineRules s m.2
  apart : rules.Pairwise fun rule other => ¬ SameRule env rule other ∧ ¬ SameRule env other rule

/-- The machines of a run with the components they were requested for. -/
def membersOf (requests : Requests) : List ((String × Val) × DocId) :=
  (requests .machine).map fun e => (e.2.component, e.1)

theorem Represents.members {replaced : Replaced} {components : Entries}
    (h : Represents env b fixed s ids requests (plan replaced components)) :
    Members env b s ids components (membersOf requests) where
  components := by
    have hmap := placed_planComponents replaced ⟨[], []⟩ components
    rw [List.map_nil, List.nil_append] at hmap
    rw [← hmap, membersOf, List.map_map]
    change _ = (plan replaced components).placed.map Placed.component
    rw [← h.machines, List.map_map]
    rfl
  machines := by
    rw [membersOf, List.map_map]
    exact (h.ledger .machine).order.symm
  names m hm := by
    obtain ⟨e, he, rfl⟩ := List.mem_map.mp hm
    exact (h.ledger .machine).specAttr?_eq (r := e.2) he "name" rfl

/-- The group of a subnet definition is the one that was made for its request. -/
theorem Represents.groupOfSubnet_eq (h : Represents env b fixed s ids requests p)
    (hreplaced : fixed.replaced = .neither) {d : Val} {a : Attached}
    (hpool : ∃ pool, d.getItem "address_pool" = .ok pool) (hgets : GetsFirst p.requests d a) :
    ∃ group, groupOfSubnet s ids d = some group ∧ (group, a.subnet) ∈ requests .group := by
  obtain ⟨pool, hpool⟩ := hpool
  obtain ⟨-, hgot⟩ := h.select hpool
  rw [hreplaced, Replaced.neither, visible_false, hgets.1] at hgot
  exact hgot

/-- A component is attached to a group when the group is that of one of its subnets. -/
theorem Represents.isAttached_iff (h : Represents env b fixed s ids requests p)
    (hreplaced : fixed.replaced = .neither) (hp : p.Places) (hapart : GroupsApart requests)
    (hx : x ∈ p.placed) {group : DocId} (hmem : (group, r) ∈ requests .group) :
    IsAttached x r ↔ ∃ d ∈ subnetDefinitions x.component.2,
      groupOfSubnet s ids d = some group := by
  constructor
  · rintro ⟨a, ha, hgroup⟩
    obtain ⟨d, hd, hgets⟩ := exists_of_mem_forall₂ (hp.placed x hx).flip ha
    obtain ⟨group', hfound, hmem'⟩ := h.groupOfSubnet_eq hreplaced (h.pools x hx d hd) hgets
    rw [Option.some.inj (hgets.2.symm.trans hgroup)] at hmem'
    rw [hapart.doc_eq hmem hmem']
    exact ⟨d, hd, hfound⟩
  · rintro ⟨d, hd, hfound⟩
    obtain ⟨a, ha, hgets⟩ := exists_of_mem_forall₂ (hp.placed x hx) hd
    obtain ⟨group', hfound', hmem'⟩ := h.groupOfSubnet_eq hreplaced (h.pools x hx d hd) hgets
    rw [← Option.some.inj (hfound.symm.trans hfound')] at hmem'
    exact ⟨a, ha, by rw [hgets.2, hapart.request_eq hmem hmem']⟩

/-- The documents at the end of a run are those of the plan, with the rules of the
components. -/
theorem run_rulesTracked {keys : KeySource} {infrastructure : List DocId}
    (hdocs : ∀ id ∈ b.docs, id < s.next) (hunique : ∀ id ∈ b.docs, (s.doc id).KeysUnique)
    (hwf : b.clusterModel.WellFormed)
    (hsubnet : ownDoc b.docs Requested.subnet.kind s = none)
    (hgroup : ownDoc b.docs Requested.group.kind s = none)
    (hbase : baseRules env = some (.list []))
    (h : b.run env keys s = .ok (infrastructure, s')) :
    ∃ fixed components requests,
      fixed.replaced = .neither ∧ fixed.own Requested.group.kind = none ∧
      (attrPath b.clusterModel ["specification", "components"]).bind Val.asDict =
        .ok components ∧
      (plan .neither components).Places ∧
      Represents env b fixed s' infrastructure requests (plan .neither components) ∧
      RulesTracked env b fixed s' requests (plan .neither components).placed := by
  simp only [InfrastructureBuilder.run, BuildM.bind_eq_ok] at h
  obtain ⟨start, s₁, hstart, emitted, s₂, hloop, hefs⟩ := h
  obtain ⟨fixed, hshared, -, hown, hcomponents, ⟨hlt, hkind⟩, h₁⟩ :=
    start_represents hdocs hunique hstart
  have hgroup : fixed.own Requested.group.kind = none := (hown _).trans hgroup
  have hreplaced : fixed.replaced = .neither := by
    rw [Fixed.replaced, hgroup, hown, hsubnet]
    rfl
  have hcomponentswf := components_wellFormed hwf hcomponents
  rw [← hshared] at hloop hefs
  have hstarted : RulesTracked env b fixed s₁ (fun _ => []) [] :=
    fun _ _ hmem => absurd hmem List.not_mem_nil
  obtain ⟨requests, hkeep, h₂, hrules⟩ := hstarted.buildComponents h₁ places_nil hreplaced hgroup
    hbase hcomponentswf hloop
  obtain ⟨hkeep₃, h₃⟩ := h₂.addEfs (hlt.trans_le hkeep.next) ((hkeep.isKind hlt _).mpr hkind) hefs
  refine ⟨fixed, start.components, requests, hreplaced, hgroup, hcomponents,
    planComponents_places places_nil hcomponentswf, h₃, fun id r hmem => ?_⟩
  obtain ⟨rules, hread, hfrom⟩ := hrules id r hmem
  obtain ⟨hid, hisKind⟩ := (h₂.ledger .group).mem_ids hmem
  rw [hkeep₃.same (h₂.allocated id hid) hisKind (kind_notMem_efsKinds .group)]
  exact ⟨rules, hread, hfrom⟩

/-- Where the user replaces neither subnets nor security groups, the security group of every
subnet of an active component has the rules of the autoscaling groups of the components
attached to the subnet, up to the comparison of rules, no other rules and no rule twice. -/
theorem run_hasMembersRules {keys : KeySource} {infrastructure : List DocId}
    (hdocs : ∀ id ∈ b.docs, id < s.next) (hunique : ∀ id ∈ b.docs, (s.doc id).KeysUnique)
    (hwf : b.clusterModel.WellFormed)
    (hsubnet : ∀ id ∈ b.docs, ¬ (s.doc id).IsKind "infrastructure/subnet")
    (hgroup : ∀ id ∈ b.docs, ¬ (s.doc id).IsKind "infrastructure/security-group")
    (hbase : baseRules env = some (.list []))
    (h : b.run env keys s = .ok (infrastructure, s')) :
    ∃ components members,
      (attrPath b.clusterModel ["specification", "components"]).bind Val.asDict =
        .ok components ∧
      Members env b s' infrastructure components members ∧
      ∀ m ∈ members, ∀ d ∈ subnetDefinitions m.1.2, ∃ group rules,
        groupOfSubnet s' infrastructure d = some group ∧
        (s'.doc group).specAttr? "rules" = some (.list rules) ∧
        HasMembersRules env s' infrastructure members group rules := by
  have hnone : ∀ {kind : String}, (∀ id ∈ b.docs, ¬ (s.doc id).IsKind kind) →
      ownDoc b.docs kind s = none := fun hkind =>
    List.find?_eq_none.mpr fun id hid hholds => hkind id hid (holds?_kindIs.mp hholds)
  obtain ⟨fixed, components, requests, hreplaced, hown, hcomponents, hp, hrep, hrules⟩ :=
    run_rulesTracked hdocs hunique hwf (hnone hsubnet) (hnone hgroup) hbase h
  have hapart := hrep.groupsApart hp hown
  have hplaced : ∀ {x}, x ∈ (plan .neither components).placed ↔
      ∃ id, (id, x) ∈ requests .machine := by
    intro x
    rw [← hrep.machines, List.mem_map]
    exact ⟨fun ⟨e, he, hx⟩ => ⟨e.1, hx ▸ he⟩, fun ⟨id, he⟩ => ⟨_, he, rfl⟩⟩
  have hmachineRules : ∀ {id x}, (id, x) ∈ requests .machine →
      machineRules s' id = rulesOfComponent env b fixed x := fun hmem =>
    congrArg rulesIn (hrep.securities _ hmem)
  refine ⟨components, membersOf requests, hcomponents, hrep.members, ?_⟩
  intro m hm d hd
  obtain ⟨⟨id, x⟩, he, rfl⟩ := List.mem_map.mp hm
  have hx := hplaced.mpr ⟨id, he⟩
  obtain ⟨a, -, hgets⟩ := exists_of_mem_forall₂ (hp.placed x hx) hd
  obtain ⟨group, hfound, hmem⟩ :=
    hrep.groupOfSubnet_eq hreplaced (hrep.pools x hx d hd) hgets
  obtain ⟨rules, hread, hfrom⟩ := hrules _ _ hmem
  refine ⟨group, rules, hfound, hread, ?_, ?_, ?_⟩
  · intro m hm hsubnet rule hrule hstrings
    obtain ⟨⟨id', y⟩, hy, rfl⟩ := List.mem_map.mp hm
    rw [hmachineRules hy] at hrule
    have hattached := (hrep.isAttached_iff hreplaced hp hapart (hplaced.mpr ⟨id', hy⟩)
      hmem).mpr hsubnet
    exact hfrom.complete y (hplaced.mpr ⟨id', hy⟩) hattached rule hrule hstrings
  · intro rule hrule
    obtain ⟨y, hy, hattached, hin⟩ := hfrom.sound rule hrule
    obtain ⟨id', hmem'⟩ := hplaced.mp hy
    refine ⟨(y.component, id'), List.mem_map.mpr ⟨_, hmem', rfl⟩,
      (hrep.isAttached_iff hreplaced hp hapart hy hmem).mp hattached, ?_⟩
    rw [hmachineRules hmem']
    exact hin
  · exact hfrom.apart.imp fun hne => ⟨hne, fun hsame => hne hsame.symm⟩

/-- Two components whose machines have one definition and that share one of two subnets. -/
theorem run_hasMembersRules_sample :
    ∃ infrastructure s', ClusterSample.sharing.run ClusterSample.env ClusterSample.keys
        ClusterSample.store = .ok (infrastructure, s') ∧
      ∃ components members,
        (attrPath ClusterSample.sharing.clusterModel
          ["specification", "components"]).bind Val.asDict = .ok components ∧
        Members ClusterSample.env ClusterSample.sharing s' infrastructure components members ∧
        ∀ m ∈ members, ∀ d ∈ subnetDefinitions m.1.2, ∃ group rules,
          groupOfSubnet s' infrastructure d = some group ∧
          (s'.doc group).specAttr? "rules" = some (.list rules) ∧
          HasMembersRules ClusterSample.env s' infrastructure members group rules := by
  obtain ⟨⟨infrastructure, s'⟩, hrun⟩ :=
    Lib.exists_ok_of_isSome ClusterSample.run_sharing
  have hother : ∀ kind, kind ≠ vmKind → ∀ id ∈ ClusterSample.sharing.docs,
      ¬ (ClusterSample.store.doc id).IsKind kind := by
    intro kind hkind id hid
    simp only [ClusterSample.sharing, ClusterSample.builder, List.mem_cons, List.not_mem_nil,
      or_false] at hid
    rcases hid with rfl | rfl <;> exact fun h => hkind (by cases h; rfl)
  refine ⟨infrastructure, s', hrun, run_hasMembersRules (ClusterSample.docs_lt _)
    (fun id hid => (ClusterSample.docs_wellFormed _ id hid).keysUnique) ?_
    (hother _ (by decide)) (hother _ (by decide)) rfl hrun⟩
  simp [ClusterSample.sharing, ClusterSample.builder, ClusterSample.clusterModel,
    ClusterSample.component]

end

end Aws

end LambdaStack
