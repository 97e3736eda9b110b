/-
# What an Azure infrastructure refers to

Where the user replaces none of the documents a component brings, subnets are told from
one another by their components, machines also by their index there, and every name the
builder assigns is that of a request of the plan. A machine of a component that names an
availability set of the input mentions that set.
-/

import LambdaStack.Engine.Providers.Azure.EmissionRun
import LambdaStack.Engine.Providers.Azure.Versions
import LambdaStack.Engine.Providers.References

namespace LambdaStack

open Lib BuildM

namespace Azure.Emission

/-! ## The requests of a plan -/

/-- What tells the machines of a plan apart. -/
def MachineRequest.slot (m : MachineRequest) : String × Nat := (m.componentKey, m.index)

/-- What a machine gets has been requested. -/
structure MachineRequest.Known (p : Plan) (m : MachineRequest) : Prop where
  subnet : m.subnet ∈ p.requests
  group : ∀ r, m.group = some r → r ∈ p.requests
  availabilitySet : ∀ name, m.availabilitySet = some name → name ∈ p.sets

/-- The requests of a plan are told apart, and the machines have what has been requested. -/
structure Plan.Slotted (done : List String) (p : Plan) : Prop where
  requests : (p.requests.map SubnetRequest.componentKey).Nodup
  requestKeys : ∀ r ∈ p.requests, r.componentKey ∈ done
  machines : (p.machines.map MachineRequest.slot).Nodup
  machineKeys : ∀ m ∈ p.machines, m.componentKey ∈ done
  sets : p.sets.Nodup
  known : ∀ m ∈ p.machines, m.Known p

section

variable {docs : List Val} {p q : Plan} {component : String × Val} {components : Entries}
  {done : List String} {sets : List String} {requests : List SubnetRequest} {r : SubnetRequest}
  {m : MachineRequest}

theorem MachineRequest.Known.mono (h : m.Known p) (hrequests : p.requests ⊆ q.requests)
    (hsets : p.sets ⊆ q.sets) : m.Known q :=
  ⟨hrequests h.subnet, fun r hr => hrequests (h.group r hr),
    fun name hname => hsets (h.availabilitySet name hname)⟩

theorem subnetOf_cases (requests : List SubnetRequest) (r : SubnetRequest) :
    (subnetOf false requests r).1 = requests ∧ (subnetOf false requests r).2 ∈ requests ∨
      subnetOf false requests r = (requests ++ [r], r) := by
  rw [subnetOf, visible_false]
  cases hfind : requests.find? (isForPool r.addressPool) with
  | some found => exact Or.inl ⟨rfl, List.mem_of_find?_eq_some hfind⟩
  | none => exact Or.inr rfl

theorem subnetOf_mem (requests : List SubnetRequest) (r : SubnetRequest) :
    (subnetOf false requests r).2 ∈ (subnetOf false requests r).1 := by
  rcases subnetOf_cases requests r with ⟨hsame, hmem⟩ | heq
  · rwa [hsame]
  · simp [heq]

theorem subset_addSet (sets : List String) (availabilitySet : Option String) :
    sets ⊆ addSet sets availabilitySet := by
  cases availabilitySet with
  | none => exact List.Subset.refl _
  | some name =>
      rw [addSet]
      split
      · exact List.Subset.refl _
      · exact List.subset_append_left _ _

theorem mem_addSet (sets : List String) (name : String) : name ∈ addSet sets (some name) := by
  rw [addSet]
  split
  · assumption
  · simp

theorem addSet_nodup (h : sets.Nodup) (availabilitySet : Option String) :
    (addSet sets availabilitySet).Nodup := by
  cases availabilitySet with
  | none => exact h
  | some name =>
      rw [addSet]
      split
      · exact h
      · next hnotin => exact List.concat_eq_append ▸ List.Nodup.concat hnotin h

/-- A component that has not been placed yet. -/
theorem Plan.Slotted.planComponent (h : p.Slotted done) (hnew : component.1 ∉ done) :
    (planComponent false docs p component).Slotted (done ++ [component.1]) := by
  have hbefore : ∀ {key : String}, key ∈ done → key ∈ done ++ [component.1] :=
    fun hkey => List.mem_append_left _ hkey
  rw [Emission.planComponent]
  split
  · exact { h with
      requestKeys := fun r hr => hbefore (h.requestKeys r hr)
      machineKeys := fun m hm => hbefore (h.machineKeys m hm) }
  · have hgrown := (requests_subnetOf false p.requests ⟨component.1, poolOf component.2⟩).subset
    have hcases := subnetOf_cases p.requests ⟨component.1, poolOf component.2⟩
    have hmem := subnetOf_mem p.requests ⟨component.1, poolOf component.2⟩
    generalize subnetOf false p.requests ⟨component.1, poolOf component.2⟩ = q
      at hgrown hcases hmem ⊢
    have hmachine : ∀ m ∈ machinesOf component.1 q (setOf docs component.2)
        (machineCount component.2), m.componentKey = component.1 := by
      intro m hm
      obtain ⟨index, -, rfl⟩ := List.mem_map.mp hm
      rfl
    refine ⟨?_, ?_, ?_, ?_, addSet_nodup h.sets _, ?_⟩
    · rcases hcases with ⟨hsame, -⟩ | rfl
      · change (q.1.map SubnetRequest.componentKey).Nodup
        rw [hsame]
        exact h.requests
      · rw [List.map_append, List.map_singleton, ← List.concat_eq_append]
        refine List.Nodup.concat (fun hkey => hnew ?_) h.requests
        obtain ⟨r, hr, hsame⟩ := List.mem_map.mp hkey
        have heq : r.componentKey = component.1 := hsame
        rw [← heq]
        exact h.requestKeys r hr
    · intro r hr
      rcases hcases with ⟨hsame, -⟩ | rfl
      · exact hbefore (h.requestKeys r (hsame ▸ hr))
      · rcases List.mem_append.mp hr with hr | hr
        · exact hbefore (h.requestKeys r hr)
        · rw [List.mem_singleton.mp hr]
          simp
    · rw [List.map_append, List.nodup_append]
      refine ⟨h.machines, ?_, ?_⟩
      · rw [machinesOf, List.map_map]
        exact List.nodup_range.map fun i j heq => (Prod.mk.inj heq).2
      · rintro slot hslot _ hlast rfl
        obtain ⟨m, hm, rfl⟩ := List.mem_map.mp hslot
        obtain ⟨m', hm', hsame⟩ := List.mem_map.mp hlast
        apply hnew
        rw [← hmachine m' hm', (Prod.mk.inj hsame).1]
        exact h.machineKeys m hm
    · intro m hm
      rcases List.mem_append.mp hm with hm | hm
      · exact hbefore (h.machineKeys m hm)
      · rw [hmachine m hm]
        simp
    · intro m hm
      rcases List.mem_append.mp hm with hm | hm
      · exact (h.known m hm).mono hgrown (subset_addSet _ _)
      · obtain ⟨index, -, rfl⟩ := List.mem_map.mp hm
        refine ⟨hmem, fun r hr => List.mem_of_getLast? hr, fun name hname => ?_⟩
        change setOf docs component.2 = some name at hname
        rw [hname]
        exact mem_addSet _ _

theorem Plan.Slotted.planComponents (h : p.Slotted done)
    (hkeys : (done ++ dictKeys components).Nodup) :
    (planComponents false docs p components).Slotted (done ++ dictKeys components) := by
  induction components generalizing p done with
  | nil => simpa [Emission.planComponents] using h
  | cons component rest ih =>
      rw [dictKeys, List.map_cons, List.append_cons] at hkeys ⊢
      have hnew : component.1 ∉ done := by
        intro hmem
        have hfirst := (List.nodup_append.mp (List.nodup_append.mp hkeys).1).2.2
        exact hfirst _ hmem _ (List.mem_singleton_self _) rfl
      exact ih (h.planComponent hnew) hkeys

theorem plan_slotted (docs : List Val) (hkeys : (dictKeys components).Nodup) :
    (plan false docs components).Slotted (dictKeys components) := by
  have hstart : Plan.Slotted [] ⟨[], [], []⟩ :=
    ⟨List.nodup_nil, fun _ h => absurd h List.not_mem_nil, List.nodup_nil,
      fun _ h => absurd h List.not_mem_nil, List.nodup_nil, fun _ h => absurd h List.not_mem_nil⟩
  simpa [plan] using hstart.planComponents hkeys

/-- The machines of a plan have the availability sets their components name. -/
theorem planComponents_sets (docs : List Val) (p : Plan) (components : Entries) :
    (planComponents false docs p components).machines.map MachineRequest.availabilitySet =
      p.machines.map MachineRequest.availabilitySet ++ components.flatMap fun component =>
        List.replicate (machineCount component.2) (setOf docs component.2) := by
  induction components generalizing p with
  | nil => simp [Emission.planComponents]
  | cons component rest ih =>
      have hfirst : (Emission.planComponent false docs p component).machines.map
          MachineRequest.availabilitySet = p.machines.map MachineRequest.availabilitySet ++
            List.replicate (machineCount component.2) (setOf docs component.2) := by
        rw [Emission.planComponent]
        split
        · next hzero => simp [hzero]
        · have hsame : (machinesOf component.1 (subnetOf false p.requests
              ⟨component.1, poolOf component.2⟩) (setOf docs component.2)
              (machineCount component.2)).map MachineRequest.availabilitySet =
              List.replicate (machineCount component.2) (setOf docs component.2) := by
            simp [machinesOf, Function.comp_def]
          rw [List.map_append, hsame]
      rw [List.flatMap_cons, ← List.append_assoc, ← hfirst]
      exact ih _

end

/-! ## The names of the documents -/

/-- The name the user gives an availability set. -/
def setName (doc : Val) : Option String :=
  if Holds? (kindIs availabilitySetKind doc) then
    (doc.attr? "name").bind fun name => name.asStr.toOption
  else none

/-- The names of the availability sets stay different in the names of their resources. -/
def SetsApart (lower : String → String) (docs : List Val) : Prop :=
  ((docs.filterMap setName).map (resourceKey lower)).Nodup

theorem mem_setNames {docs : List Val} {name : String}
    (h : (docs.find? (Holds? ∘ kindAndNameAre availabilitySetKind (.str name))).isSome = true) :
    name ∈ docs.filterMap setName := by
  obtain ⟨doc, hdoc⟩ := Option.isSome_iff_exists.mp h
  have hholds := List.find?_some hdoc
  obtain ⟨hkind, hname⟩ := kindAndNameAre_eq_ok_true.mp (holds?_eq_true.mp hholds)
  obtain ⟨own, hown, heq⟩ := attrIs_eq_ok.mp hname
  rw [pyEq_str_eq_true] at heq
  refine List.mem_filterMap.mpr ⟨doc, List.mem_of_find?_eq_some hdoc, ?_⟩
  rw [setName, if_pos (holds?_kindIs.mpr hkind), hown, Option.bind_some,
    Val.asStr_eq_ok.mpr heq]
  rfl

section

variable {env : BuilderEnv} {b : InfrastructureBuilder} {fixed : Fixed} {s s' : Store}
  {ids : List DocId} {id : DocId} {requests : Requests} {p : Progress} {q : Plan}
  {components : Entries}

theorem Recorded.ledger_none (h : Recorded env b fixed s ids requests)
    (hown : ∀ k, fixed.ownOf k = none) (k : Requested) :
    Ledger none k.kind (fieldsOf env b fixed.replaced k) s ids (requests k) :=
  hown k ▸ h.ledger k

/-! What a run has requested of each kind is what the plan requests. -/

theorem Represents.subnets (h : Represents env b fixed s p requests q) :
    (requests .subnet).map Prod.snd = q.requests := h.requested .subnet

theorem Represents.groups (h : Represents env b fixed s p requests q) :
    (requests .group).map Prod.snd =
      if b.useNetworkSecurityGroups.truthy then q.requests else [] := h.requested .group

theorem Represents.associations (h : Represents env b fixed s p requests q) :
    (requests .association).map Prod.snd =
      if b.useNetworkSecurityGroups.truthy then q.requests else [] := h.requested .association

theorem Represents.interfaces (h : Represents env b fixed s p requests q) :
    (requests .interface).map Prod.snd = q.machines := h.requested .interface

theorem Represents.publicIps (h : Represents env b fixed s p requests q) :
    (requests .publicIp).map Prod.snd = if b.usePublicIps.truthy then q.machines else [] :=
  h.requested .publicIp

theorem Represents.machines (h : Represents env b fixed s p requests q) :
    (requests .machine).map Prod.snd = q.machines := h.requested .machine

theorem Represents.availabilitySets (h : Represents env b fixed s p requests q) :
    (requests .availabilitySet).map Prod.snd = q.sets := h.requested .availabilitySet

theorem sublist_ite {α : Type*} (c : Bool) (items : List α) :
    (if c then items else []).Sublist items := by
  split
  · exact List.Sublist.refl _
  · exact List.nil_sublist _

/-- The documents the components bring have names of their own. -/
theorem Represents.namesOf_nodup
    (h : Represents env b fixed s p requests (plan false fixed.docs components))
    (hown : ∀ k, fixed.ownOf k = none) (hlower : LowersWords env.lower)
    (hkeys : KeysApart env.lower components) (hsets : SetsApart env.lower fixed.docs)
    (k : Requested) : (namesOf k.kind s p.ids).Nodup := by
  have hslots := plan_slotted fixed.docs hkeys.nodup
  have hledger := h.ledger_none hown
  have hsubnetName : ∀ {resourceType : String}, Plain resourceType →
      ∀ r ∈ (plan false fixed.docs components).requests,
      ∀ r' ∈ (plan false fixed.docs components).requests,
      b.indexed env resourceType 0 r.componentKey = b.indexed env resourceType 0 r'.componentKey →
      r.componentKey = r'.componentKey := by
    intro resourceType htype r hr r' hr' heq
    simp only [InfrastructureBuilder.indexed, InfrastructureBuilder.resource, Val.scalar.injEq,
      Scalar.str.injEq, and_true] at heq
    exact (hkeys.index_eq hlower htype (hslots.requestKeys r hr) (hslots.requestKeys r' hr') heq).1
  have hmachineName : ∀ {resourceType : String}, Plain resourceType →
      ∀ m ∈ (plan false fixed.docs components).machines,
      ∀ m' ∈ (plan false fixed.docs components).machines,
      b.indexed env resourceType m.index m.componentKey =
        b.indexed env resourceType m'.index m'.componentKey → m.slot = m'.slot := by
    intro resourceType htype m hm m' hm' heq
    simp only [InfrastructureBuilder.indexed, InfrastructureBuilder.resource, Val.scalar.injEq,
      Scalar.str.injEq, and_true] at heq
    obtain ⟨hkey, hindex⟩ :=
      hkeys.index_eq hlower htype (hslots.machineKeys m hm) (hslots.machineKeys m' hm') heq
    exact Prod.ext hkey hindex
  cases k with
  | subnet =>
      have hname : ∀ r : SubnetRequest, (fieldsOf env b fixed.replaced .subnet r).lookup "name" =
          some (subnetName env b r) := fun _ => rfl
      refine (hledger .subnet).namesOf_nodup hname (h.subnets ▸ hslots.requests) ?_
      rw [h.subnets]
      exact hsubnetName (by decide)
  | group =>
      have hname : ∀ r : SubnetRequest, (fieldsOf env b fixed.replaced .group r).lookup "name" =
          some (groupName env b r) := fun _ => rfl
      have hsub := sublist_ite b.useNetworkSecurityGroups.truthy
        (plan false fixed.docs components).requests
      refine (hledger .group).namesOf_nodup hname
        (h.groups ▸ hslots.requests.sublist (hsub.map _)) ?_
      rw [h.groups]
      exact fun r hr r' hr' =>
        hsubnetName (by decide) r (hsub.subset hr) r' (hsub.subset hr')
  | association =>
      have hname : ∀ r : SubnetRequest,
          (fieldsOf env b fixed.replaced .association r).lookup "name" =
            some (b.indexed env "ssga" 0 r.componentKey) := fun _ => rfl
      have hsub := sublist_ite b.useNetworkSecurityGroups.truthy
        (plan false fixed.docs components).requests
      refine (hledger .association).namesOf_nodup hname
        (h.associations ▸ hslots.requests.sublist (hsub.map _)) ?_
      rw [h.associations]
      exact fun r hr r' hr' =>
        hsubnetName (by decide) r (hsub.subset hr) r' (hsub.subset hr')
  | interface =>
      have hname : ∀ m : MachineRequest,
          (fieldsOf env b fixed.replaced .interface m).lookup "name" =
            some (interfaceName env b m) := fun _ => rfl
      refine (hledger .interface).namesOf_nodup hname (h.interfaces ▸ hslots.machines) ?_
      rw [h.interfaces]
      exact hmachineName (by decide)
  | publicIp =>
      have hname : ∀ m : MachineRequest, (fieldsOf env b fixed.replaced .publicIp m).lookup "name" =
          some (publicIpName env b m) := fun _ => rfl
      have hsub := sublist_ite b.usePublicIps.truthy (plan false fixed.docs components).machines
      refine (hledger .publicIp).namesOf_nodup hname
        (h.publicIps ▸ hslots.machines.sublist (hsub.map _)) ?_
      rw [h.publicIps]
      exact fun m hm m' hm' =>
        hmachineName (by decide) m (hsub.subset hm) m' (hsub.subset hm')
  | machine =>
      have hname : ∀ m : MachineRequest, (fieldsOf env b fixed.replaced .machine m).lookup "name" =
          some (b.indexed env "vm" m.index m.componentKey) := fun _ => rfl
      refine (hledger .machine).namesOf_nodup hname (h.machines ▸ hslots.machines) ?_
      rw [h.machines]
      exact hmachineName (by decide)
  | availabilitySet =>
      have hname : ∀ name : String,
          (fieldsOf env b fixed.replaced .availabilitySet name).lookup "name" =
            some (availabilitySetName env b name) := fun _ => rfl
      have hmem : ∀ name ∈ (requests .availabilitySet).map Prod.snd,
          name ∈ fixed.docs.filterMap setName := by
        intro name hname
        obtain ⟨e, he, rfl⟩ := List.mem_map.mp hname
        apply mem_setNames
        rw [← h.find?_iff, h.setDocs e he]
        rfl
      have hdistinct : (((requests .availabilitySet).map Prod.snd).map id).Nodup := by
        rw [h.availabilitySets, List.map_id]
        exact hslots.sets
      refine (hledger .availabilitySet).namesOf_nodup hname hdistinct ?_
      intro name hname name' hname' heq
      simp only [availabilitySetName, InfrastructureBuilder.resource, Val.scalar.injEq,
        Scalar.str.injEq, and_true] at heq
      exact List.inj_on_of_nodup_map hsets (hmem name hname) (hmem name' hname')
        ((resourceName_word_eq_iff hlower).mp heq)

/-! ## What the documents of the components mention -/

/-- How the documents of a run refer to one another by what the builder assigns. -/
def references : List Reference :=
  [⟨Requested.association.kind, specNames "subnet_name", Requested.subnet.kind⟩,
    ⟨Requested.association.kind, specNames "security_group_name", Requested.group.kind⟩,
    ⟨Requested.interface.kind, specNames "subnet_name", Requested.subnet.kind⟩,
    ⟨Requested.interface.kind, specNames "security_group_name", Requested.group.kind⟩,
    ⟨Requested.interface.kind, specNames "public_ip_name", Requested.publicIp.kind⟩,
    ⟨Requested.machine.kind, specNames "network_interface_name", Requested.interface.kind⟩]

/-- How machines refer to availability sets. -/
def setReference : Reference :=
  ⟨Requested.machine.kind, specNames "availability_set_name", Requested.availabilitySet.kind⟩

/-- The availability sets of the input that the machines of a cluster get, in their order. -/
def setsOf (docs : List Val) (components : Entries) : List (Option String) :=
  components.flatMap fun component =>
    List.replicate (machineCount component.2) (setOf docs component.2)

/-- Each machine of a component that names an availability set of the input mentions an
emitted one. -/
def SetsMentioned (docs : List Val) (components : Entries) (s : Store) (ids : List DocId) : Prop :=
  List.Forall₂ (fun id availabilitySet => availabilitySet.isSome = true →
    ∃ name, (s.doc id).specAttr? "availability_set_name" = some name ∧
      IsEmitted Requested.availabilitySet.kind name s ids)
    (ofKind Requested.machine.kind s ids) (setsOf docs components)

/-- The documents the components bring mention emitted documents only. -/
theorem Represents.closed
    (h : Represents env b fixed s p requests (plan false fixed.docs components))
    (hown : ∀ k, fixed.ownOf k = none) (hkeys : (dictKeys components).Nodup) :
    ∀ r ∈ references, r.Closed s p.ids := by
  have hknown := (plan_slotted fixed.docs hkeys).known
  have hledger := h.ledger_none hown
  have hsubnet : ∀ r ∈ (plan false fixed.docs components).requests,
      IsEmitted Requested.subnet.kind (subnetName env b r) s p.ids := by
    have hname : ∀ r : SubnetRequest, (fieldsOf env b fixed.replaced .subnet r).lookup "name" =
        some (subnetName env b r) := fun _ => rfl
    rw [← h.subnets]
    exact fun r hr => (hledger .subnet).isEmitted hname hr
  have hgroup : b.useNetworkSecurityGroups.truthy = true →
      ∀ r ∈ (plan false fixed.docs components).requests,
        IsEmitted Requested.group.kind (groupName env b r) s p.ids := by
    intro huse r hr
    have hname : ∀ r : SubnetRequest, (fieldsOf env b fixed.replaced .group r).lookup "name" =
        some (groupName env b r) := fun _ => rfl
    refine (hledger .group).isEmitted hname ?_
    rwa [h.groups, if_pos huse]
  have hpublicIp : b.usePublicIps.truthy = true →
      ∀ m ∈ (plan false fixed.docs components).machines,
        IsEmitted Requested.publicIp.kind (publicIpName env b m) s p.ids := by
    intro huse m hm
    have hname : ∀ m : MachineRequest, (fieldsOf env b fixed.replaced .publicIp m).lookup "name" =
        some (publicIpName env b m) := fun _ => rfl
    refine (hledger .publicIp).isEmitted hname ?_
    rwa [h.publicIps, if_pos huse]
  have hinterface : ∀ m ∈ (plan false fixed.docs components).machines,
      IsEmitted Requested.interface.kind (interfaceName env b m) s p.ids := by
    have hname : ∀ m : MachineRequest, (fieldsOf env b fixed.replaced .interface m).lookup "name" =
        some (interfaceName env b m) := fun _ => rfl
    rw [← h.interfaces]
    exact fun m hm => (hledger .interface).isEmitted hname hm
  have hassociated : ∀ r ∈ (requests .association).map Prod.snd,
      b.useNetworkSecurityGroups.truthy = true ∧
        r ∈ (plan false fixed.docs components).requests := by
    intro r hr
    rw [h.associations] at hr
    split at hr
    · next huse => exact ⟨huse, hr⟩
    · cases hr
  have hreplaced : ∀ k, k ≠ .machine → k ≠ .availabilitySet → fixed.replaced k = false := by
    intro k hmachine hset
    have hnone := hown k
    cases k with
    | machine => exact absurd rfl hmachine
    | availabilitySet => exact absurd rfl hset
    | _ => exact congrArg Option.isSome hnone
  simp only [references, List.forall_mem_cons]
  refine ⟨?_, ?_, ?_, ?_, ?_, ?_, fun _ h => absurd h List.not_mem_nil⟩
  · refine (hledger .association).closed (fun _ => rfl) fun r hr name hname => ?_
    rw [mem_mentioned_str hname]
    exact hsubnet r (hassociated r hr).2
  · refine (hledger .association).closed (fun _ => rfl) fun r hr name hname => ?_
    rw [mem_mentioned_str hname]
    exact hgroup (hassociated r hr).1 r (hassociated r hr).2
  · refine (hledger .interface).closed (fun _ => rfl) fun m hm name hname => ?_
    rw [h.interfaces] at hm
    rw [mem_mentioned_str hname, hreplaced .subnet (by decide) (by decide)]
    exact hsubnet m.subnet (hknown m hm).subnet
  · refine (hledger .interface).closed (fun _ => rfl) fun m hm name hname => ?_
    rw [h.interfaces] at hm
    rw [groupNameOf] at hname
    split at hname
    · next huse =>
        cases hgroupOf : m.group with
        | none =>
            rw [hgroupOf] at hname
            cases hname
        | some r =>
            rw [hgroupOf, hreplaced .group (by decide) (by decide)] at hname
            rw [mem_mentioned_str hname]
            exact hgroup huse r ((hknown m hm).group r hgroupOf)
    · cases hname
  · refine (hledger .interface).closed (fun _ => rfl) fun m hm name hname => ?_
    rw [h.interfaces] at hm
    split at hname
    · next huse =>
        rw [mem_mentioned_str hname]
        exact hpublicIp huse m hm
    · cases hname
  · refine (hledger .machine).closed (fun _ => rfl) fun m hm name hname => ?_
    rw [h.machines] at hm
    rw [mem_mentioned_str hname]
    exact hinterface m hm

/-- The machines of components that name an availability set of the input are in it. -/
theorem Represents.setsMentioned
    (h : Represents env b fixed s p requests (plan false fixed.docs components))
    (hown : ∀ k, fixed.ownOf k = none) (hkeys : (dictKeys components).Nodup) :
    SetsMentioned fixed.docs components s p.ids := by
  have hknown := (plan_slotted fixed.docs hkeys).known
  have hledger := h.ledger_none hown
  have hsets : setsOf fixed.docs components =
      (requests .machine).map fun e => e.2.availabilitySet := by
    have hplan := planComponents_sets fixed.docs ⟨[], [], []⟩ components
    rw [show planComponents false fixed.docs ⟨[], [], []⟩ components =
      plan false fixed.docs components from rfl, ← h.machines, List.map_map] at hplan
    exact hplan.symm
  have horder : ofKind Requested.machine.kind s p.ids = (requests .machine).map Prod.fst :=
    (hledger .machine).order
  rw [SetsMentioned, horder, hsets, List.forall₂_map_left_iff, List.forall₂_map_right_iff,
    List.forall₂_same]
  intro e he hsome
  obtain ⟨name, hname⟩ := Option.isSome_iff_exists.mp hsome
  have hm : e.2 ∈ (plan false fixed.docs components).machines := by
    rw [← h.machines]
    exact List.mem_map_of_mem (f := Prod.snd) he
  have hmem := (hknown e.2 hm).availabilitySet name hname
  rw [← h.availabilitySets] at hmem
  refine ⟨availabilitySetName env b name, ?_, ?_⟩
  · refine (hledger .machine).specAttr?_eq he "availability_set_name" ?_
    change (machineFields env b e.2).lookup "availability_set_name" = _
    simp [machineFields, hname, List.lookup_cons]
  · exact (hledger .availabilitySet).isEmitted (fun _ => rfl) hmem

/-! ## The component loop -/

/-- The kinds of the documents the components bring. -/
abbrev requestedKinds : Set String := Set.range Requested.kind

/-- The documents that were emitted after those of the start are of requested kinds. -/
structure Emitting (b : InfrastructureBuilder) (start : List DocId) (s : Store)
    (ids : List DocId) : Prop where
  docs : ∀ id ∈ b.docs, id < s.next
  emits : Emits requestedKinds s start ids

variable {start : List DocId} {p' : Progress} {componentKey : String}

theorem Emitting.keeps {changing : Set String} (h : Emitting b start s ids)
    (hkeep : Keeps changing s s') : Emitting b start s' ids :=
  ⟨fun id hid => (h.docs id hid).trans_le hkeep.next, h.emits.keeps hkeep⟩

theorem Emitting.append (h : Emitting b start s p.ids) (k : Requested) (hlt : id < s.next)
    (hkind : (s.doc id).IsKind k.kind) (component : Option String) :
    Emitting b start s (p.append id component).ids := by
  rw [Progress.ids_append]
  exact ⟨h.docs, h.emits.append hlt (Set.mem_range_self k) hkind⟩

/-- A getter whose document is emitted. -/
theorem Emitting.config (h : Emitting b start s p.ids) {k : Requested} (hvm : ConfigKind k.kind)
    {fields : List (String × Val)} (hfields : (dictKeys fields).Nodup)
    (hrun : configWith .azure env b.docs k.kind fields s = .ok (id, s'))
    (component : Option String) :
    Keeps {k.kind} s s' ∧ Emitting b start s' (p.append id component).ids := by
  obtain ⟨hkeep, -, hlt, hkind, -⟩ := configWith_eq_ok h.docs hvm hfields hrun
  exact ⟨hkeep, (h.keeps hkeep).append k hlt hkind component⟩

theorem Emitting.subnetFor (h : Emitting b start s p.ids) {addressPool : Val}
    {vmConfig subnet : DocId}
    (hrun : b.subnetFor env componentKey addressPool vmConfig p s = .ok ((subnet, p'), s')) :
    Emitting b start s' p'.ids := by
  simp only [InfrastructureBuilder.subnetFor, BuildM.bind_eq_ok] at hrun
  obtain ⟨found, _, hread, hrun⟩ := hrun
  obtain ⟨-, rfl⟩ := reads_eq_ok.mp hread
  cases found with
  | some found =>
      obtain ⟨heq, rfl⟩ := BuildM.pure_eq_ok.mp hrun
      cases heq
      exact h
  | none =>
      obtain ⟨_, s₁, hsubnet, hrun⟩ := BuildM.bind_eq_ok.mp hrun
      obtain ⟨-, h₁⟩ := h.config (k := .subnet) (by decide) (by simp) hsubnet (some componentKey)
      split at hrun
      · simp only [BuildM.bind_eq_ok, lift_eq_ok] at hrun
        obtain ⟨security, _, hread, rules, _, ⟨-, rfl⟩, nsg, s₂, hnsg, subnetName, _, hread',
          nsgName, _, hread'', association, s₃, hassociation, hrun⟩ := hrun
        obtain ⟨-, rfl⟩ := specAttr_eq_ok.mp hread
        obtain ⟨-, rfl⟩ := specAttr_eq_ok.mp hread'
        obtain ⟨-, rfl⟩ := specAttr_eq_ok.mp hread''
        obtain ⟨heq, rfl⟩ := BuildM.pure_eq_ok.mp hrun
        cases heq
        obtain ⟨-, h₂⟩ := h₁.config (k := .group) (by decide) (by simp) hnsg (some componentKey)
        exact (h₂.config (k := .association) (by decide) (by simp) hassociation
          (some componentKey)).2
      · obtain ⟨heq, rfl⟩ := BuildM.pure_eq_ok.mp hrun
        cases heq
        exact h₁

theorem Emitting.availabilitySetFor (h : Emitting b start s p.ids) {componentValue : Val}
    {found : Option DocId}
    (hrun : b.availabilitySetFor env componentKey componentValue p s = .ok ((found, p'), s')) :
    Emitting b start s' p'.ids := by
  unfold InfrastructureBuilder.availabilitySetFor at hrun
  cases hname : componentValue.attr? "availability_set" with
  | none =>
      simp only [hname] at hrun
      obtain ⟨heq, rfl⟩ := BuildM.pure_eq_ok.mp hrun
      cases heq
      exact h
  | some name =>
      simp only [hname] at hrun
      obtain ⟨known, _, hread, hrun⟩ := BuildM.bind_eq_ok.mp hrun
      obtain ⟨-, rfl⟩ := reads_eq_ok.mp hread
      cases known with
      | some id =>
          obtain ⟨heq, rfl⟩ := BuildM.pure_eq_ok.mp hrun
          cases heq
          exact h
      | none =>
          simp only [InfrastructureBuilder.getAvailabilitySet, BuildM.bind_eq_ok] at hrun
          obtain ⟨created, s₁, ⟨own, _, hread', hcreate⟩, hrun⟩ := hrun
          obtain ⟨hown, rfl⟩ := reads_eq_ok.mp hread'
          cases own with
          | none =>
              obtain ⟨rfl, rfl⟩ := BuildM.pure_eq_ok.mp hcreate
              obtain ⟨heq, rfl⟩ := BuildM.pure_eq_ok.mp hrun
              cases heq
              exact h
          | some id =>
              -- The availability set is a document of the user.
              have hown := selectFirst_eq_ok hown
              have hlt := h.docs id (List.mem_of_find?_eq_some hown.symm)
              have hholds := List.find?_some hown.symm
              have hkind : (s.doc id).IsKind availabilitySetKind :=
                (kindAndNameAre_eq_ok_true.mp (holds?_eq_true.mp hholds)).1
              simp only [BuildM.bind_eq_ok, lift_eq_ok] at hcreate
              obtain ⟨_, _, ⟨-, rfl⟩, _, s₂, hset, hpure⟩ := hcreate
              obtain ⟨rfl, rfl⟩ := BuildM.pure_eq_ok.mp hpure
              obtain ⟨heq, rfl⟩ := BuildM.pure_eq_ok.mp hrun
              cases heq
              have hkeep := (assigned_setSpecAttr hkind (by decide) hset).keep
              exact (h.keeps hkeep).append .availabilitySet (hlt.trans_le hkeep.next)
                ((hkeep.isKind hlt _).mpr hkind) (some componentKey)

theorem Emitting.publicIpFor (h : Emitting b start s p.ids) {vmConfig : DocId} {index : Nat}
    {name : Val} (hrun : b.publicIpFor env componentKey vmConfig index p s = .ok ((name, p'), s')) :
    Keeps {publicIpKind} s s' ∧ Emitting b start s' p'.ids := by
  unfold InfrastructureBuilder.publicIpFor at hrun
  split at hrun
  · simp only [InfrastructureBuilder.getPublicIp, BuildM.bind_eq_ok, lift_eq_ok] at hrun
    obtain ⟨publicIp, s₁, ⟨_, _, hread, _, _, ⟨-, rfl⟩, _, _, ⟨-, rfl⟩, _, _, ⟨-, rfl⟩, _, _,
      ⟨-, rfl⟩, hconfig⟩, _, _, hread', hrun⟩ := hrun
    obtain ⟨-, rfl⟩ := specAttr_eq_ok.mp hread
    obtain ⟨-, rfl⟩ := specAttr_eq_ok.mp hread'
    obtain ⟨heq, rfl⟩ := BuildM.pure_eq_ok.mp hrun
    cases heq
    exact h.config (k := .publicIp) (by decide) (by simp) hconfig (some componentKey)
  · obtain ⟨heq, rfl⟩ := BuildM.pure_eq_ok.mp hrun
    cases heq
    exact ⟨.refl _ _, h⟩

theorem nsgName_store {name : Val} (hrun : b.nsgName p s = .ok (name, s')) : s' = s := by
  unfold InfrastructureBuilder.nsgName at hrun
  split at hrun
  · cases hnsg : p.nsg with
    | none =>
        rw [hnsg] at hrun
        obtain ⟨habsurd, -⟩ := lift_eq_ok.mp hrun
        cases habsurd
    | some nsg =>
        rw [hnsg] at hrun
        obtain ⟨-, rfl⟩ := specAttr_eq_ok.mp hrun
        rfl
  · obtain ⟨-, rfl⟩ := BuildM.pure_eq_ok.mp hrun
    rfl

/-- One machine with its interface and public IP. -/
theorem Emitting.buildMachine (h : Emitting b start s p.ids) {vmConfig subnet : DocId}
    {availabilitySet : Option DocId} {index : Nat} (hvm : vmConfig < s.next)
    (hvmKind : (s.doc vmConfig).IsKind vmKind)
    (hrun : b.buildMachine env componentKey vmConfig subnet availabilitySet p index s =
      .ok (p', s')) : Keeps machineKinds s s' ∧ Emitting b start s' p'.ids := by
  rw [InfrastructureBuilder.buildMachine, BuildM.bind_eq_ok] at hrun
  obtain ⟨⟨publicIp, p₁⟩, s₁, hpublicIp, hrun⟩ := hrun
  simp only [InfrastructureBuilder.getNetworkInterface, BuildM.bind_eq_ok, lift_eq_ok] at hrun
  obtain ⟨nsgName, s₂, hnsg, subnetName, _, hread, nic, s₃, ⟨_, _, hread', _, _, ⟨-, rfl⟩, hnic⟩,
    nicName, _, hread'', vm, s₄, hvmRun, hret⟩ := hrun
  obtain ⟨-, rfl⟩ := specAttr_eq_ok.mp hread
  obtain ⟨-, rfl⟩ := specAttr_eq_ok.mp hread'
  obtain ⟨-, rfl⟩ := specAttr_eq_ok.mp hread''
  obtain ⟨rfl, rfl⟩ := BuildM.pure_eq_ok.mp hret
  obtain ⟨hkeep₁, h₁⟩ := h.publicIpFor hpublicIp
  obtain rfl : s₂ = s₁ := nsgName_store hnsg
  obtain ⟨hkeep₃, h₃⟩ :=
    h₁.config (k := .interface) (by decide) (by simp) hnic (some componentKey)
  have hkeep : Keeps machineKinds s s₃ :=
    (hkeep₁.mono (by simp [machineKinds])).trans (hkeep₃.mono (by simp [machineKinds,
      Requested.kind]))
  obtain ⟨hkeep₄, hlt, hkind⟩ := getVm_eq_ok ((hkeep.isKind hvm _).mpr hvmKind) hvmRun
  exact ⟨hkeep.trans (hkeep₄.mono (by simp [machineKinds])),
    (h₃.keeps hkeep₄).append .machine hlt hkind (some componentKey)⟩

theorem Emitting.buildMachines (h : Emitting b start s p.ids) {vmConfig subnet : DocId}
    {availabilitySet : Option DocId} {index remaining : Nat} (hvm : vmConfig < s.next)
    (hvmKind : (s.doc vmConfig).IsKind vmKind)
    (hrun : b.buildMachines env componentKey vmConfig subnet availabilitySet p index remaining s =
      .ok (p', s')) : Keeps machineKinds s s' ∧ Emitting b start s' p'.ids := by
  induction remaining generalizing p s index with
  | zero =>
      obtain ⟨rfl, rfl⟩ := BuildM.pure_eq_ok.mp hrun
      exact ⟨.refl _ _, h⟩
  | succ remaining ih =>
      obtain ⟨p₁, s₁, hfirst, hrest⟩ := BuildM.bind_eq_ok.mp hrun
      obtain ⟨hkeep₁, h₁⟩ := h.buildMachine hvm hvmKind hfirst
      obtain ⟨hkeep₂, h₂⟩ :=
        ih h₁ (hvm.trans_le hkeep₁.next) ((hkeep₁.isKind hvm _).mpr hvmKind) hrest
      exact ⟨hkeep₁.trans hkeep₂, h₂⟩

theorem Emitting.buildComponent (h : Emitting b start s p.ids)
    (hrep : Represents env b fixed s p requests q) {component : String × Val}
    (hrun : b.buildComponent env fixed.cloudInit p component.1 component.2 s = .ok (p', s')) :
    Keeps Set.univ s s' ∧ Emitting b start s' p'.ids := by
  simp only [InfrastructureBuilder.buildComponent, BuildM.bind_eq_ok, lift_eq_ok] at hrun
  obtain ⟨count, _, ⟨-, rfl⟩, inactive, _, ⟨-, rfl⟩, hrun⟩ := hrun
  split at hrun
  · obtain ⟨rfl, rfl⟩ := BuildM.pure_eq_ok.mp hrun
    exact ⟨.refl _ _, h⟩
  · simp only [BuildM.bind_eq_ok, lift_eq_ok, specAttr_eq_ok] at hrun
    obtain ⟨vmConfig, s₁, hmachine, enabled, _, ⟨-, rfl⟩, _, s₂, hset, addressPool, _, ⟨-, rfl⟩,
      ⟨subnet, p₃⟩, s₃, hsubnet, ⟨set, p₄⟩, s₄, havailable, vmCount, _, ⟨-, rfl⟩, hrun⟩ := hrun
    obtain ⟨hkeep₁, -, hmachineOrNull, -⟩ := getVirtualMachine_keeps h.docs hrep.unique hmachine
    obtain ⟨hkeep₂, -⟩ := setSpecAttr_machine hmachineOrNull (by decide) hset
    obtain ⟨hvm, hvmKind, hrep₂⟩ := hrep.machineDefinition hmachine hset
    obtain ⟨requests₃, hkeep₃, -, -, hrep₃⟩ := hrep₂.subnetFor hsubnet
    obtain ⟨requests₄, hkeep₄, -⟩ := hrep₃.availabilitySetFor havailable
    have h₃ := ((h.keeps hkeep₁).keeps hkeep₂).subnetFor hsubnet
    have hvm₃ := hvm.trans_le hkeep₃.next
    have hvmKind₃ := (hkeep₃.isKind hvm vmKind).mpr hvmKind
    obtain ⟨hkeep₅, h₅⟩ := (h₃.availabilitySetFor havailable).buildMachines
      (hvm₃.trans_le hkeep₄.next) ((hkeep₄.isKind hvm₃ vmKind).mpr hvmKind₃) hrun
    have hall : ∀ {changing s s'}, Keeps changing s s' → Keeps Set.univ s s' :=
      fun hkeep => hkeep.mono (Set.subset_univ _)
    exact ⟨(hall (hkeep₁.trans hkeep₂)).trans
      ((hall hkeep₃).trans ((hall hkeep₄).trans (hall hkeep₅))), h₅⟩

theorem Emitting.buildComponents (h : Emitting b start s p.ids)
    (hrep : Represents env b fixed s p requests q)
    (hrun : b.buildComponents env fixed.cloudInit p components s = .ok (p', s')) :
    Keeps Set.univ s s' ∧ Emitting b start s' p'.ids := by
  induction components generalizing s p requests q with
  | nil =>
      obtain ⟨rfl, rfl⟩ := BuildM.pure_eq_ok.mp hrun
      exact ⟨.refl _ _, h⟩
  | cons component rest ih =>
      obtain ⟨p₁, s₁, hfirst, hrest⟩ := BuildM.bind_eq_ok.mp hrun
      obtain ⟨requests₁, hrep₁⟩ := hrep.buildComponent hfirst
      obtain ⟨hkeep₁, h₁⟩ := h.buildComponent hrep hfirst
      obtain ⟨hkeep₂, h₂⟩ := ih h₁ hrep₁ hrest
      exact ⟨hkeep₁.trans hkeep₂, h₂⟩

/-! ## The whole run -/

/-- The kinds of the documents a component brings from the input or the defaults. -/
def componentKinds : List String :=
  [Requested.subnet.kind, Requested.group.kind, Requested.association.kind,
    Requested.interface.kind, Requested.publicIp.kind]

/-- The components bring documents of their own, and their keys and those of the
availability sets stay different in names. -/
structure NamedApart (env : BuilderEnv) (b : InfrastructureBuilder) (s : Store) : Prop where
  docs : ∀ id ∈ b.docs, id < s.next
  unique : ∀ id ∈ b.docs, (s.doc id).KeysUnique
  own : ∀ kind ∈ componentKinds, ∀ id ∈ b.docs, ¬ (s.doc id).IsKind kind
  lower : LowersWords env.lower
  keys : ∀ components, componentsOf b.clusterModel = .ok components →
    KeysApart env.lower components
  sets : SetsApart env.lower (b.docs.map s.doc)

/-- The documents of a run have different names, what the builder assigns mentions emitted
documents only, and so do the machines of components that name an availability set. -/
theorem run_wellFormedGraph {infrastructure : List Emitted} (h : NamedApart env b s)
    (hrun : b.run env s = .ok (infrastructure, s')) :
    WellFormedGraph references s' (infrastructure.map Emitted.doc) ∧
      ∃ components, componentsOf b.clusterModel = .ok components ∧
        SetsMentioned (b.docs.map s.doc) components s' (infrastructure.map Emitted.doc) := by
  obtain ⟨fixed, components, start, s₁, p, s₂, hfixed, hown, hcomponents, hstart, h₁, hloop, hos,
    rfl⟩ := run_cases h.docs h.unique hrun
  have hkeys := h.keys _ hcomponents
  have hsets := h.sets
  have hownOf : ∀ k, fixed.ownOf k = none := by
    intro k
    have hnone : ∀ kind ∈ componentKinds, fixed.own kind = none := fun kind hmem => by
      rw [hown]
      exact List.find?_eq_none.mpr fun id hid hholds =>
        h.own kind hmem id hid (holds?_kindIs.mp hholds)
    cases k with
    | machine | availabilitySet => rfl
    | subnet | group | association | interface | publicIp =>
        exact hnone _ (by simp [componentKinds])
  have hreplaced : fixed.replaced .subnet = false := congrArg Option.isSome (hownOf .subnet)
  obtain ⟨requests, h₂⟩ := h₁.buildComponents hloop
  have hemitting : Emitting b (Progress.mk start none).ids s₁ (Progress.mk start none).ids :=
    ⟨h₁.docs, .refl _ _ _⟩
  obtain ⟨hkeep₂, hemitted⟩ := hemitting.buildComponents h₁ hloop
  obtain ⟨hkeep₃, h₃⟩ := h₂.setOsDistribution hos
  rw [hreplaced, show planComponents false fixed.docs ⟨[], [], []⟩ components =
    plan false fixed.docs components from rfl] at h₃
  have hemits := (hemitted.keeps hkeep₃).emits
  have hkeep : Keeps Set.univ s₁ s' := hkeep₂.trans (hkeep₃.mono (Set.subset_univ _))
  rw [← hfixed] at hsets ⊢
  refine ⟨⟨fun kind => ?_, h₃.closed hownOf hkeys.nodup⟩, components, hcomponents,
    h₃.setsMentioned hownOf hkeys.nodup⟩
  by_cases hrequested : kind ∈ requestedKinds
  · obtain ⟨k, rfl⟩ := hrequested
    exact h₃.namesOf_nodup hownOf h.lower hkeys hsets k
  · refine namesOf_nodup_of_single ?_
    have hlt : ∀ id ∈ (Progress.mk start none).ids ++ [fixed.cloudInit], id < s₁.next :=
      List.forall_mem_append.mpr ⟨h₁.allocated, List.forall_mem_singleton.mpr h₁.cloudInit⟩
    have hmade := ((List.forall₂_and_left _ _).mpr ⟨hlt, hstart⟩).imp fun id kind h =>
      (hkeep.isKind h.1 kind).mpr h.2.1
    have hsingle := length_ofKind_le hmade (by decide) kind
    have hfilter : ofKind kind s' p.ids = ofKind kind s' (Progress.mk start none).ids :=
      hemits.filter_eq hrequested
    have happend : ∀ xs ys, ofKind kind s' (xs ++ ys) = ofKind kind s' xs ++ ofKind kind s' ys :=
      fun xs ys => List.filter_append xs ys
    change (ofKind kind s' (p.append fixed.cloudInit none).ids).length ≤ 1
    rwa [Progress.ids_append, happend, hfilter, ← happend]

end

end Azure.Emission

end LambdaStack
