/-
# The documents of an Azure cluster as a plan

Which subnets, availability sets and machines the components of a cluster request, as
a function of the cluster model. A component gets the subnet of its address pool that
was requested first, and the security group that was requested last; a subnet document
the user replaces shows the request made last.
-/

import LambdaStack.Engine.Providers.AddressPools
import LambdaStack.Engine.Providers.Azure.MachineTags
import LambdaStack.Engine.Providers.Ledger

namespace LambdaStack

open Lib

namespace Azure.Emission

/-- A request for a subnet, its security group and their association. -/
structure SubnetRequest where
  componentKey : String
  addressPool : Val

/-- A request for a machine, its interface and its public IP. -/
structure MachineRequest where
  componentKey : String
  index : Nat
  subnet : SubnetRequest
  /-- The request made last, whose group the loop variable refers to. -/
  group : Option SubnetRequest
  /-- The requests for subnets made until then. -/
  requests : List SubnetRequest
  availabilitySet : Option String

/-- What the components have requested so far. -/
structure Plan where
  requests : List SubnetRequest
  sets : List String
  machines : List MachineRequest

/-- `component_value.subnets[0]['address_pool']`. -/
def poolOf (componentValue : Val) : Val :=
  (InfrastructureBuilder.addressPoolOf componentValue).toOption.getD .null

/-- A request for an address pool. -/
def isForPool (addressPool : Val) (r : SubnetRequest) : Bool := r.addressPool.pyEq addressPool

/-- The requests for subnets after one of a component, and the one the component gets. -/
def subnetOf (replaced : Bool) (requests : List SubnetRequest) (r : SubnetRequest) :
    List SubnetRequest × SubnetRequest :=
  match (LambdaStack.visible replaced requests).find? (isForPool r.addressPool) with
  | some found => (requests, found)
  | none => (requests ++ [r], r)

/-- The name of the availability set a component asks for, where the user has one of that
name. -/
def setOf (docs : List Val) (componentValue : Val) : Option String :=
  match componentValue.attr? "availability_set" with
  | none => none
  | some name =>
      match docs.find? (Holds? ∘ kindAndNameAre "infrastructure/availability-set" name) with
      | none => none
      | some _ => name.asStr.toOption

/-- The availability sets that have been requested after one more request. -/
def addSet (sets : List String) : Option String → List String
  | none => sets
  | some name => if name ∈ sets then sets else sets ++ [name]

/-- The machines of a component. -/
def machinesOf (componentKey : String) (q : List SubnetRequest × SubnetRequest)
    (availabilitySet : Option String) (count : Nat) : List MachineRequest :=
  (List.range count).map fun index =>
    ⟨componentKey, index, q.2, q.1.getLast?, q.1, availabilitySet⟩

/-- One component. -/
def planComponent (replaced : Bool) (docs : List Val) (p : Plan) (component : String × Val) :
    Plan :=
  if machineCount component.2 = 0 then p
  else
    let q := subnetOf replaced p.requests ⟨component.1, poolOf component.2⟩
    let availabilitySet := setOf docs component.2
    ⟨q.1, addSet p.sets availabilitySet,
      p.machines ++ machinesOf component.1 q availabilitySet (machineCount component.2)⟩

/-- The components of a cluster in their order. -/
def planComponents (replaced : Bool) (docs : List Val) (p : Plan) (components : Entries) : Plan :=
  components.foldl (planComponent replaced docs) p

/-- The plan of a cluster. -/
def plan (replaced : Bool) (docs : List Val) (components : Entries) : Plan :=
  planComponents replaced docs ⟨[], [], []⟩ components

/-! ## Where one subnet serves all components -/

variable {replaced : Bool} {docs : List Val} {p : Plan} {component : String × Val}
  {components : Entries} {r : SubnetRequest} {requests : List SubnetRequest}

theorem requests_subnetOf (replaced : Bool) (requests : List SubnetRequest) (r : SubnetRequest) :
    requests <+: (subnetOf replaced requests r).1 := by
  rw [subnetOf]
  split
  · exact List.prefix_rfl
  · exact List.prefix_append _ _

theorem requests_planComponent (replaced : Bool) (docs : List Val) (p : Plan)
    (component : String × Val) :
    p.requests <+: (planComponent replaced docs p component).requests := by
  rw [planComponent]
  split
  · exact List.prefix_rfl
  · exact requests_subnetOf _ _ _

theorem requests_planComponents (replaced : Bool) (docs : List Val) (p : Plan)
    (components : Entries) :
    p.requests <+: (planComponents replaced docs p components).requests := by
  induction components generalizing p with
  | nil => exact List.prefix_rfl
  | cons component rest ih =>
      exact (requests_planComponent replaced docs p component).trans (ih _)

theorem subnetOf_ne_nil (replaced : Bool) (requests : List SubnetRequest) (r : SubnetRequest) :
    (subnetOf replaced requests r).1 ≠ [] := by
  rw [subnetOf]
  split
  · next found hfind =>
      rintro rfl
      cases replaced <;> cases hfind
  · exact List.append_ne_nil_of_right_ne_nil _ (List.cons_ne_nil _ _)

theorem machines_planComponent (replaced : Bool) (docs : List Val) (p : Plan)
    (component : String × Val) :
    p.machines <+: (planComponent replaced docs p component).machines := by
  rw [planComponent]
  split
  · exact List.prefix_rfl
  · exact List.prefix_append _ _

theorem machines_planComponents (replaced : Bool) (docs : List Val) (p : Plan)
    (components : Entries) :
    p.machines <+: (planComponents replaced docs p components).machines := by
  induction components generalizing p with
  | nil => exact List.prefix_rfl
  | cons component rest ih =>
      exact (machines_planComponent replaced docs p component).trans (ih _)

/-- A component with machines requests a subnet and machines. -/
theorem planComponents_ne_nil (replaced : Bool) (docs : List Val) (p : Plan)
    (hmem : component ∈ components) (hcount : machineCount component.2 ≠ 0) :
    (planComponents replaced docs p components).requests ≠ [] ∧
      (planComponents replaced docs p components).machines ≠ [] := by
  induction components generalizing p with
  | nil => cases hmem
  | cons other rest ih =>
      rcases List.mem_cons.mp hmem with rfl | hmem
      · have hfirst : (planComponent replaced docs p component).requests ≠ [] ∧
            (planComponent replaced docs p component).machines ≠ [] := by
          rw [planComponent, if_neg hcount]
          refine ⟨subnetOf_ne_nil _ _ _, List.append_ne_nil_of_right_ne_nil _ ?_⟩
          simpa [machinesOf] using hcount
        constructor
        · intro hnil
          have hprefix := requests_planComponents replaced docs
            (planComponent replaced docs p component) rest
          exact hfirst.1 (List.prefix_nil.mp (hnil ▸ hprefix))
        · intro hnil
          have hprefix := machines_planComponents replaced docs
            (planComponent replaced docs p component) rest
          exact hfirst.2 (List.prefix_nil.mp (hnil ▸ hprefix))
      · exact ih _ hmem

theorem planComponent_eq
    (h : replaced = true → (planComponent false docs p component).requests.length ≤ 1) :
    planComponent replaced docs p component = planComponent false docs p component := by
  have hvisible : LambdaStack.visible replaced p.requests = p.requests :=
    visible_eq fun hreplaced =>
      (requests_planComponent false docs p component).length_le.trans (h hreplaced)
  simp only [planComponent, subnetOf, hvisible, visible_false]

/-- A user's subnet that is requested at most once changes nothing in the plan. -/
theorem planComponents_eq
    (h : replaced = true → (planComponents false docs p components).requests.length ≤ 1) :
    planComponents replaced docs p components = planComponents false docs p components := by
  induction components generalizing p with
  | nil => rfl
  | cons component rest ih =>
      have hfirst : planComponent replaced docs p component =
          planComponent false docs p component :=
        planComponent_eq fun hreplaced =>
          (requests_planComponents false docs _ rest).length_le.trans (h hreplaced)
      rw [planComponents, List.foldl_cons, hfirst]
      exact ih h

/-! ## Where the user does not replace subnets -/

theorem poolOf_wellFormed {componentValue : Val} (h : componentValue.WellFormed) :
    (poolOf componentValue).WellFormed := by
  unfold poolOf
  cases hpool : InfrastructureBuilder.addressPoolOf componentValue with
  | error e => exact .scalar _
  | ok pool =>
      rw [InfrastructureBuilder.addressPoolOf, Lib.bind_eq_ok] at hpool
      obtain ⟨subnets, hsubnets, hpool⟩ := hpool
      rw [Lib.bind_eq_ok] at hpool
      obtain ⟨subnet, hsubnet, hpool⟩ := hpool
      have hwf := h.attr? (Val.getAttr_eq_ok.mp hsubnets)
      exact (hwf.getIndex hsubnet).attr? (Val.getItem_eq_ok.mp hpool)

/-- Subnets are requested for different pools, each component has got the first one for
its pool, and each machine has the subnet of its component. -/
structure Plan.Places (p : Plan) (components : Entries) : Prop where
  apart : Apart SubnetRequest.addressPool p.requests
  pools : ∀ component ∈ components, machineCount component.2 ≠ 0 →
    ∃ r, p.requests.find? (isForPool (poolOf component.2)) = some r
  machines : ∀ m ∈ p.machines, m.requests <+: p.requests ∧ m.subnet ∈ m.requests ∧
    m.group = m.requests.getLast?

theorem places_nil : (⟨[], [], []⟩ : Plan).Places [] where
  apart := .nil _
  pools _ h := absurd h List.not_mem_nil
  machines _ h := absurd h List.not_mem_nil

theorem find?_of_begins {more : List SubnetRequest} {addressPool : Val}
    (hbegin : requests <+: more) (h : requests.find? (isForPool addressPool) = some r) :
    more.find? (isForPool addressPool) = some r := by
  obtain ⟨rest, rfl⟩ := hbegin
  rw [List.find?_append, h]
  rfl

/-- The subnet a component gets is the first one for its pool. -/
theorem subnetOf_places (h : Apart SubnetRequest.addressPool requests)
    (hwf : r.addressPool.WellFormed) :
    Apart SubnetRequest.addressPool (subnetOf false requests r).1 ∧
      (subnetOf false requests r).1.find? (isForPool r.addressPool) =
        some (subnetOf false requests r).2 := by
  rw [subnetOf, visible_false]
  cases hfind : requests.find? (isForPool r.addressPool) with
  | some found => exact ⟨h, hfind⟩
  | none =>
      refine ⟨h.append hwf hfind, ?_⟩
      rw [List.find?_append, hfind, List.find?_singleton, isForPool, Val.pyEq_refl hwf]
      rfl

theorem planComponent_places {done : Entries} (h : p.Places done)
    (hwf : component.2.WellFormed) :
    (planComponent false docs p component).Places (done ++ [component]) := by
  have hgrown := requests_planComponent false docs p component
  rw [planComponent] at hgrown ⊢
  split
  · next hzero =>
      refine ⟨h.apart, ?_, h.machines⟩
      intro other hother hcount
      rcases List.mem_append.mp hother with hother | hother
      · exact h.pools other hother hcount
      · rw [List.mem_singleton.mp hother] at hcount
        exact absurd hzero hcount
  · next hcount =>
      rw [if_neg hcount] at hgrown
      obtain ⟨happart, hfind⟩ := subnetOf_places (r := ⟨component.1, poolOf component.2⟩) h.apart
        (poolOf_wellFormed hwf)
      refine ⟨happart, ?_, ?_⟩
      · intro other hother hcount
        rcases List.mem_append.mp hother with hother | hother
        · obtain ⟨r, hr⟩ := h.pools other hother hcount
          exact ⟨r, find?_of_begins hgrown hr⟩
        · rw [List.mem_singleton.mp hother]
          exact ⟨_, hfind⟩
      · intro m hm
        rcases List.mem_append.mp hm with hm | hm
        · obtain ⟨hbegin, hsubnet, hgroup⟩ := h.machines m hm
          exact ⟨hbegin.trans hgrown, hsubnet, hgroup⟩
        · obtain ⟨index, -, rfl⟩ := List.mem_map.mp hm
          exact ⟨List.prefix_rfl, List.mem_of_find?_eq_some hfind, rfl⟩

theorem planComponents_places {done : Entries} (h : p.Places done)
    (hwf : ∀ component ∈ components, component.2.WellFormed) :
    (planComponents false docs p components).Places (done ++ components) := by
  induction components generalizing p done with
  | nil => simpa [planComponents] using h
  | cons component rest ih =>
      rw [List.append_cons]
      exact ih (planComponent_places h (hwf component (by simp)))
        fun other hother => hwf other (by simp [hother])

end Azure.Emission

end LambdaStack
