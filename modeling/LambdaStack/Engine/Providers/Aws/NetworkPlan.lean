/-
# The network of an AWS cluster as a plan

Which subnets the components of a cluster request, and which subnet and security
group each subnet definition gets, as a function of the cluster model. A
definition gets the subnet of its address pool that was requested first; a kind
the user replaces is one document, which shows the request made last.
-/

import LambdaStack.Engine.Providers.AddressPools
import LambdaStack.Engine.Providers.Ledger

namespace LambdaStack

namespace Aws

/-- A request for a subnet, its security group and its route table association. -/
structure SubnetRequest where
  componentKey : String
  index : Nat
  addressPool : Val
  availabilityZone : Val

/-- The kinds of documents the user replaces. -/
structure Replaced where
  subnet : Bool
  group : Bool

/-- What a subnet definition gets: the requests its subnet and its group were made for. -/
structure Attached where
  subnet : SubnetRequest
  group : Option SubnetRequest

/-- The state of the loop over the subnets of a component. -/
structure SubnetPlan where
  requests : List SubnetRequest
  attached : List Attached
  index : Nat

/-- `subnet_definition[key]`. -/
def definitionItem (key : String) (subnetDefinition : Val) : Val :=
  (subnetDefinition.getItem key).toOption.getD .null

/-- A request for the address pool of a subnet definition. -/
def isForPool (subnetDefinition : Val) (r : SubnetRequest) : Bool :=
  r.addressPool.pyEq (definitionItem "address_pool" subnetDefinition)

/-- The request a subnet definition makes when no subnet has its pool. -/
def newRequest (componentKey : String) (index : Nat) (subnetDefinition : Val) : SubnetRequest :=
  ⟨componentKey, index, definitionItem "address_pool" subnetDefinition,
    definitionItem "availability_zone" subnetDefinition⟩

/-- One subnet definition. -/
def planSubnet (replaced : Replaced) (componentKey : String) (p : SubnetPlan)
    (subnetDefinition : Val) : SubnetPlan :=
  match (visible replaced.subnet p.requests).find? (isForPool subnetDefinition) with
  | some r =>
      let group := (visible replaced.group p.requests).find? (isForPool subnetDefinition)
      { p with attached := p.attached ++ [⟨r, group⟩] }
  | none =>
      let r := newRequest componentKey p.index subnetDefinition
      ⟨p.requests ++ [r], p.attached ++ [⟨r, some r⟩], p.index + 1⟩

/-- The subnet definitions of a component. -/
def planSubnets (replaced : Replaced) (componentKey : String) (p : SubnetPlan)
    (subnets : List Val) : SubnetPlan :=
  subnets.foldl (planSubnet replaced componentKey) p

/-- `component_value['count'] < 1` is false. -/
def isActive (componentValue : Val) : Bool :=
  match (componentValue.getItem "count").bind Val.ltOne with
  | .ok false => true
  | _ => false

/-- The subnet definitions of a component, `component_value.subnets`. -/
def subnetDefinitions (componentValue : Val) : List Val :=
  ((componentValue.getAttr "subnets").bind Val.asList).toOption.getD []

/-- A component whose subnets are there, with the requests made until then. -/
structure Placed where
  component : String × Val
  attached : List Attached
  requests : List SubnetRequest

/-- The requests so far, and the components that have been placed. -/
structure Plan where
  requests : List SubnetRequest
  placed : List Placed

/-- One component. -/
def planComponent (replaced : Replaced) (p : Plan) (component : String × Val) : Plan :=
  if isActive component.2 then
    let q := planSubnets replaced component.1 ⟨p.requests, [], 0⟩ (subnetDefinitions component.2)
    ⟨q.requests, p.placed ++ [⟨component, q.attached, q.requests⟩]⟩
  else p

/-- The components of a cluster in their order. -/
def planComponents (replaced : Replaced) (p : Plan) (components : Entries) : Plan :=
  components.foldl (planComponent replaced) p

/-- The plan of a cluster. -/
def plan (replaced : Replaced) (components : Entries) : Plan :=
  planComponents replaced ⟨[], []⟩ components

/-! ## Where the user replaces neither subnets nor security groups -/

/-- Neither kind is replaced. -/
def Replaced.neither : Replaced := ⟨false, false⟩

/-- A definition has got the subnet and the group of the first request for its pool. -/
def GetsFirst (requests : List SubnetRequest) (subnetDefinition : Val) (a : Attached) : Prop :=
  requests.find? (isForPool subnetDefinition) = some a.subnet ∧ a.group = some a.subnet

variable {requests : List SubnetRequest} {subnetDefinition : Val}
  {a : Attached} {q : SubnetPlan} {p : Plan}

theorem GetsFirst.append (h : GetsFirst requests subnetDefinition a)
    (more : List SubnetRequest) : GetsFirst (requests ++ more) subnetDefinition a := by
  refine ⟨?_, h.2⟩
  rw [List.find?_append, h.1]
  rfl

theorem definitionItem_wellFormed (h : subnetDefinition.WellFormed) (key : String) :
    (definitionItem key subnetDefinition).WellFormed := by
  unfold definitionItem
  cases hitem : subnetDefinition.getItem key with
  | error e => exact .scalar _
  | ok value => exact h.attr? (Val.getItem_eq_ok.mp hitem)

theorem subnetDefinitions_wellFormed {componentValue : Val} (h : componentValue.WellFormed)
    (hmem : subnetDefinition ∈ subnetDefinitions componentValue) :
    subnetDefinition.WellFormed := by
  unfold subnetDefinitions at hmem
  cases hvalue : componentValue.getAttr "subnets" with
  | error e => simp [hvalue, Except.bind, Except.toOption] at hmem
  | ok value =>
      have hwf := h.attr? (Val.getAttr_eq_ok.mp hvalue)
      cases value with
      | list items =>
          simp only [hvalue, Except.bind, Val.asList, Except.toOption, Option.getD_some] at hmem
          exact Val.wellFormed_list_iff.mp hwf subnetDefinition hmem
      | scalar | dict => simp [hvalue, Except.bind, Val.asList, Except.toOption] at hmem

theorem planSubnet_getsFirst (componentKey : String) {done : List Val}
    (happart : Apart SubnetRequest.addressPool q.requests)
    (hdone : List.Forall₂ (GetsFirst q.requests) done q.attached)
    (hdefinition : subnetDefinition.WellFormed) :
    (∃ more, (planSubnet .neither componentKey q subnetDefinition).requests =
      q.requests ++ more) ∧
    Apart SubnetRequest.addressPool (planSubnet .neither componentKey q subnetDefinition).requests ∧
    List.Forall₂ (GetsFirst (planSubnet .neither componentKey q subnetDefinition).requests)
      (done ++ [subnetDefinition])
      (planSubnet .neither componentKey q subnetDefinition).attached := by
  simp only [planSubnet, Replaced.neither, visible_false]
  cases hfind : q.requests.find? (isForPool subnetDefinition) with
  | some r =>
      refine ⟨⟨[], (List.append_nil _).symm⟩, happart, List.rel_append hdone (.cons ?_ .nil)⟩
      exact ⟨hfind, rfl⟩
  | none =>
      have hpool := definitionItem_wellFormed hdefinition "address_pool"
      refine ⟨⟨_, rfl⟩, happart.append hpool hfind, List.rel_append ?_ (.cons ⟨?_, rfl⟩ .nil)⟩
      · exact hdone.imp fun _ _ hgets => hgets.append _
      · rw [List.find?_append, hfind, List.find?_singleton, isForPool,
          show (newRequest componentKey q.index subnetDefinition).addressPool =
            definitionItem "address_pool" subnetDefinition from rfl, Val.pyEq_refl hpool]
        rfl

theorem planSubnets_getsFirst (componentKey : String) {done subnets : List Val}
    (happart : Apart SubnetRequest.addressPool q.requests)
    (hdone : List.Forall₂ (GetsFirst q.requests) done q.attached)
    (hsubnets : ∀ subnetDefinition ∈ subnets, subnetDefinition.WellFormed) :
    (∃ more, (planSubnets .neither componentKey q subnets).requests = q.requests ++ more) ∧
    Apart SubnetRequest.addressPool (planSubnets .neither componentKey q subnets).requests ∧
    List.Forall₂ (GetsFirst (planSubnets .neither componentKey q subnets).requests)
      (done ++ subnets) (planSubnets .neither componentKey q subnets).attached := by
  induction subnets generalizing q done with
  | nil => exact ⟨⟨[], (List.append_nil _).symm⟩, happart, by simpa [planSubnets] using hdone⟩
  | cons subnetDefinition rest ih =>
      obtain ⟨⟨first, hfirst⟩, happart₁, hdone₁⟩ := planSubnet_getsFirst componentKey happart
        hdone (hsubnets subnetDefinition (by simp))
      obtain ⟨⟨more, hmore⟩, happart₂, hdone₂⟩ :=
        ih happart₁ hdone₁ fun d hd => hsubnets d (by simp [hd])
      refine ⟨⟨first ++ more, ?_⟩, happart₂, ?_⟩
      · rw [← List.append_assoc, ← hfirst]
        exact hmore
      · rw [List.append_cons]
        exact hdone₂

/-- Every definition of a placed component has the first request for its pool. -/
structure Plan.Places (p : Plan) : Prop where
  apart : Apart SubnetRequest.addressPool p.requests
  placed : ∀ x ∈ p.placed,
    List.Forall₂ (GetsFirst p.requests) (subnetDefinitions x.component.2) x.attached

theorem planComponent_places (h : p.Places) {component : String × Val}
    (hcomponent : component.2.WellFormed) : (planComponent .neither p component).Places := by
  rw [planComponent]
  split
  · obtain ⟨⟨more, hmore⟩, happart, hgets⟩ :=
      @planSubnets_getsFirst ⟨p.requests, [], 0⟩ component.1 [] _ h.apart .nil
        fun d hd => subnetDefinitions_wellFormed hcomponent hd
    refine ⟨happart, fun x hx => ?_⟩
    rcases List.mem_append.mp hx with hx | hx
    · have hold : List.Forall₂ (GetsFirst (p.requests ++ more)) _ x.attached :=
        (h.placed x hx).imp fun _ _ hgets => hgets.append more
      rw [show p.requests ++ more = _ from hmore.symm] at hold
      exact hold
    · rw [List.mem_singleton.mp hx]
      exact hgets
  · exact h

theorem planComponents_places (h : p.Places) {components : Entries}
    (hcomponents : ∀ component ∈ components, component.2.WellFormed) :
    (planComponents .neither p components).Places := by
  induction components generalizing p with
  | nil => exact h
  | cons component rest ih =>
      exact ih (planComponent_places h (hcomponents component (by simp)))
        fun c hc => hcomponents c (by simp [hc])

theorem places_nil : (⟨[], []⟩ : Plan).Places where
  apart := .nil _
  placed _ h := absurd h List.not_mem_nil

/-- The placed components are the active ones in their order. -/
theorem placed_planComponents (replaced : Replaced) (p : Plan) (components : Entries) :
    (planComponents replaced p components).placed.map Placed.component =
      p.placed.map Placed.component ++ components.filter fun component => isActive component.2 := by
  induction components generalizing p with
  | nil => simp [planComponents]
  | cons component rest ih =>
      rw [planComponents, List.foldl_cons]
      refine (ih _).trans ?_
      rw [planComponent, List.filter_cons]
      split <;> simp

/-- The components that are placed are those that are active. -/
theorem plan_components (replaced : Replaced) (components : Entries) :
    (plan replaced components).placed.map Placed.component =
      components.filter fun component => isActive component.2 :=
  placed_planComponents replaced ⟨[], []⟩ components

/-! ## Where the user does not replace subnets -/

/-- Two states of the subnet loop that differ in what groups the definitions got only. -/
structure SubnetPlan.Agree (q q' : SubnetPlan) : Prop where
  requests : q.requests = q'.requests
  attached : q.attached.map Attached.subnet = q'.attached.map Attached.subnet
  index : q.index = q'.index

theorem planSubnet_agree {replaced : Replaced} (hsubnet : replaced.subnet = false)
    (componentKey : String) {q q' : SubnetPlan} (h : q.Agree q') (subnetDefinition : Val) :
    (planSubnet replaced componentKey q subnetDefinition).Agree
      (planSubnet .neither componentKey q' subnetDefinition) := by
  simp only [planSubnet, hsubnet, Replaced.neither, visible_false, h.requests, h.index]
  cases q'.requests.find? (isForPool subnetDefinition) with
  | some r => exact ⟨rfl, by simp [h.attached], rfl⟩
  | none => exact ⟨rfl, by simp [h.attached], rfl⟩

theorem planSubnets_agree {replaced : Replaced} (hsubnet : replaced.subnet = false)
    (componentKey : String) {q q' : SubnetPlan} (h : q.Agree q') (subnets : List Val) :
    (planSubnets replaced componentKey q subnets).Agree
      (planSubnets .neither componentKey q' subnets) := by
  induction subnets generalizing q q' with
  | nil => exact h
  | cons subnetDefinition rest ih =>
      exact ih (planSubnet_agree hsubnet componentKey h subnetDefinition)

/-- A component that has been placed with the subnets another plan has placed it with. -/
def Placed.Agree (x y : Placed) : Prop :=
  x.component = y.component ∧ x.attached.map Attached.subnet = y.attached.map Attached.subnet

/-- Whether the user replaces security groups changes nothing about the subnets. -/
theorem planComponents_agree {replaced : Replaced} (hsubnet : replaced.subnet = false)
    {p p' : Plan} (hrequests : p.requests = p'.requests)
    (hplaced : List.Forall₂ Placed.Agree p.placed p'.placed) (components : Entries) :
    (planComponents replaced p components).requests =
      (planComponents .neither p' components).requests ∧
    List.Forall₂ Placed.Agree (planComponents replaced p components).placed
      (planComponents .neither p' components).placed := by
  induction components generalizing p p' with
  | nil => exact ⟨hrequests, hplaced⟩
  | cons component rest ih =>
      rw [planComponents, planComponents, List.foldl_cons, List.foldl_cons, planComponent,
        planComponent]
      split
      · have hstart : SubnetPlan.Agree ⟨p.requests, [], 0⟩ ⟨p'.requests, [], 0⟩ :=
          ⟨hrequests, rfl, rfl⟩
        have hagree := planSubnets_agree hsubnet component.1 hstart (subnetDefinitions component.2)
        exact ih hagree.requests
          (List.rel_append hplaced (.cons ⟨rfl, hagree.attached⟩ .nil))
      · exact ih hrequests hplaced

/-- Every definition of a placed component has the subnet requested first for its pool. -/
def Plan.PlacesSubnets (p : Plan) : Prop :=
  ∀ x ∈ p.placed, List.Forall₂ (fun d r => p.requests.find? (isForPool d) = some r)
    (subnetDefinitions x.component.2) (x.attached.map Attached.subnet)

theorem plan_placesSubnets {replaced : Replaced} (hsubnet : replaced.subnet = false)
    {components : Entries} (hcomponents : ∀ component ∈ components, component.2.WellFormed) :
    (plan replaced components).PlacesSubnets := by
  obtain ⟨hrequests, hplaced⟩ := planComponents_agree hsubnet
    (rfl : (⟨[], []⟩ : Plan).requests = (⟨[], []⟩ : Plan).requests) .nil components
  intro x hx
  obtain ⟨y, hy, hcomponent, hattached⟩ := Lib.exists_of_mem_forall₂ hplaced hx
  have hgets := (planComponents_places places_nil hcomponents).placed y hy
  rw [hattached, hcomponent, List.forall₂_map_right_iff, plan, hrequests]
  exact hgets.imp fun _ _ h => h.1

/-- The requests are for address pools and zones of the components' definitions. -/
theorem planComponents_wellFormed {replaced : Replaced} {p : Plan} {components : Entries}
    (hp : ∀ r ∈ p.requests, r.addressPool.WellFormed ∧ r.availabilityZone.WellFormed)
    (hcomponents : ∀ component ∈ components, component.2.WellFormed) :
    ∀ r ∈ (planComponents replaced p components).requests,
      r.addressPool.WellFormed ∧ r.availabilityZone.WellFormed := by
  have hsubnets : ∀ (componentKey : String) (subnets : List Val) (q : SubnetPlan),
      (∀ d ∈ subnets, d.WellFormed) →
      (∀ r ∈ q.requests, r.addressPool.WellFormed ∧ r.availabilityZone.WellFormed) →
      ∀ r ∈ (planSubnets replaced componentKey q subnets).requests,
        r.addressPool.WellFormed ∧ r.availabilityZone.WellFormed := by
    intro componentKey subnets
    induction subnets with
    | nil => exact fun q _ hq => hq
    | cons d rest ih =>
        intro q hwf hq
        rw [List.forall_mem_cons] at hwf
        refine ih _ hwf.2 fun r hr => ?_
        rw [planSubnet] at hr
        split at hr
        · exact hq r hr
        · rcases List.mem_append.mp hr with hr | hr
          · exact hq r hr
          · rw [List.mem_singleton.mp hr]
            exact ⟨definitionItem_wellFormed hwf.1 _, definitionItem_wellFormed hwf.1 _⟩
  induction components generalizing p with
  | nil => exact hp
  | cons component rest ih =>
      rw [List.forall_mem_cons] at hcomponents
      refine ih (fun r hr => ?_) hcomponents.2
      rw [planComponent] at hr
      split at hr
      · exact hsubnets _ _ ⟨p.requests, [], 0⟩
          (fun d hd => subnetDefinitions_wellFormed hcomponents.1 hd) hp r hr
      · exact hp r hr

/-! ## Where one document serves all requests of a kind -/

/-- Where subnets or security groups are replaced there is at most one request. -/
def Replaced.Few (replaced : Replaced) (requests : List SubnetRequest) : Prop :=
  replaced.subnet = true ∨ replaced.group = true → requests.length ≤ 1

variable {replaced : Replaced} {componentKey : String} {subnets : List Val}

theorem Replaced.Few.of_begins {more : List SubnetRequest} (h : replaced.Few more)
    (hbegin : requests <+: more) : replaced.Few requests :=
  fun hreplaced => hbegin.length_le.trans (h hreplaced)

theorem requests_planSubnet (replaced : Replaced) (componentKey : String) (q : SubnetPlan)
    (subnetDefinition : Val) :
    q.requests <+: (planSubnet replaced componentKey q subnetDefinition).requests := by
  rw [planSubnet]
  split
  · exact List.prefix_rfl
  · exact List.prefix_append _ _

theorem requests_planSubnets (replaced : Replaced) (componentKey : String) (q : SubnetPlan)
    (subnets : List Val) :
    q.requests <+: (planSubnets replaced componentKey q subnets).requests := by
  induction subnets generalizing q with
  | nil => exact List.prefix_rfl
  | cons subnetDefinition rest ih =>
      exact (requests_planSubnet replaced componentKey q subnetDefinition).trans (ih _)

theorem requests_planComponent (replaced : Replaced) (p : Plan) (component : String × Val) :
    p.requests <+: (planComponent replaced p component).requests := by
  rw [planComponent]
  split
  · exact requests_planSubnets _ _ ⟨p.requests, [], 0⟩ _
  · exact List.prefix_rfl

theorem requests_planComponents (replaced : Replaced) (p : Plan) (components : Entries) :
    p.requests <+: (planComponents replaced p components).requests := by
  induction components generalizing p with
  | nil => exact List.prefix_rfl
  | cons component rest ih =>
      exact (requests_planComponent replaced p component).trans (ih _)

/-- A definition finds a request or makes one. -/
theorem requests_planSubnet_ne_nil (replaced : Replaced) (componentKey : String) (q : SubnetPlan)
    (subnetDefinition : Val) :
    (planSubnet replaced componentKey q subnetDefinition).requests ≠ [] := by
  rw [planSubnet]
  cases hfind : (visible replaced.subnet q.requests).find? (isForPool subnetDefinition) with
  | some r =>
      intro hnil
      rw [show q.requests = [] from hnil] at hfind
      cases hshared : replaced.subnet <;> simp [visible, hshared] at hfind
  | none => simp

/-- An active component with subnet definitions makes requests, or finds some. -/
theorem requests_planComponents_ne_nil (replaced : Replaced) (p : Plan) {components : Entries}
    {component : String × Val} (hmem : component ∈ components)
    (hactive : isActive component.2 = true) (hsubnets : subnetDefinitions component.2 ≠ []) :
    (planComponents replaced p components).requests ≠ [] := by
  induction components generalizing p with
  | nil => cases hmem
  | cons first rest ih =>
      rcases List.mem_cons.mp hmem with rfl | hmem
      · have hfirst : (planComponent replaced p component).requests ≠ [] := by
          rw [planComponent, if_pos hactive]
          obtain ⟨d, others, hdefinitions⟩ := List.exists_cons_of_ne_nil hsubnets
          rw [hdefinitions]
          intro hnil
          exact requests_planSubnet_ne_nil replaced component.1 ⟨p.requests, [], 0⟩ d
            (List.prefix_nil.mp (hnil ▸ requests_planSubnets replaced component.1 _ others))
        intro hnil
        exact hfirst (List.prefix_nil.mp (hnil ▸ requests_planComponents replaced _ rest))
      · exact ih (planComponent replaced p first) hmem

theorem planSubnet_eq (h : replaced.Few q.requests) :
    planSubnet replaced componentKey q subnetDefinition =
      planSubnet .neither componentKey q subnetDefinition := by
  have hsubnet : visible replaced.subnet q.requests = q.requests :=
    visible_eq fun hreplaced => h (Or.inl hreplaced)
  have hgroup : visible replaced.group q.requests = q.requests :=
    visible_eq fun hreplaced => h (Or.inr hreplaced)
  simp only [planSubnet, Replaced.neither, visible_false, hsubnet, hgroup]

theorem planSubnets_eq
    (h : replaced.Few (planSubnets .neither componentKey q subnets).requests) :
    planSubnets replaced componentKey q subnets = planSubnets .neither componentKey q subnets := by
  induction subnets generalizing q with
  | nil => rfl
  | cons subnetDefinition rest ih =>
      have hfirst : replaced.Few q.requests := h.of_begins (requests_planSubnets _ _ q _)
      rw [planSubnets, List.foldl_cons, planSubnet_eq hfirst]
      exact ih h

theorem planComponent_eq {component : String × Val}
    (h : replaced.Few (planComponent .neither p component).requests) :
    planComponent replaced p component = planComponent .neither p component := by
  rw [planComponent] at h
  rw [planComponent, planComponent]
  split
  · next hactive =>
      rw [if_pos hactive] at h
      rw [planSubnets_eq h]
  · rfl

/-- A user's document that is requested at most once changes nothing in the plan. -/
theorem planComponents_eq {components : Entries}
    (h : replaced.Few (planComponents .neither p components).requests) :
    planComponents replaced p components = planComponents .neither p components := by
  induction components generalizing p with
  | nil => rfl
  | cons component rest ih =>
      have hfirst : replaced.Few (planComponent .neither p component).requests :=
        h.of_begins (requests_planComponents _ _ rest)
      rw [planComponents, List.foldl_cons, planComponent_eq hfirst]
      exact ih h

/-- A component is placed among the requests made until then. -/
theorem requests_placed {x : Placed} {components : Entries}
    (hx : x ∈ (planComponents replaced p components).placed)
    (hold : ∀ x ∈ p.placed, x.requests <+: p.requests) :
    x.requests <+: (planComponents replaced p components).requests := by
  induction components generalizing p with
  | nil => exact hold x hx
  | cons component rest ih =>
      apply ih hx
      intro y hy
      have hgrown := requests_planComponent replaced p component
      rw [planComponent] at hy hgrown ⊢
      split at hy
      · next hactive =>
          rw [if_pos hactive] at hgrown ⊢
          rcases List.mem_append.mp hy with hy | hy
          · exact (hold y hy).trans hgrown
          · cases List.mem_singleton.mp hy
            exact List.prefix_rfl
      · next hactive =>
          rw [if_neg hactive]
          exact hold y hy

end Aws

end LambdaStack
