/-
# The documents of an Azure run

A run of the Azure builder refines the plan: the emitted subnets, security groups,
associations, interfaces, public IPs, machines and availability sets are those the plan
requests, and each shows the request it got last. The invariant is one ledger for each
kind of document.
-/

import LambdaStack.Engine.Providers.Azure.EmissionPlan
import LambdaStack.Engine.Providers.Azure.NetworkDocs

namespace LambdaStack

open Lib BuildM

namespace Azure.Emission

/-- The documents a run requests for its components. -/
inductive Requested
  | subnet
  | group
  | association
  | interface
  | publicIp
  | machine
  | availabilitySet
  deriving DecidableEq

namespace Requested

/-- The kind of the documents. -/
def kind : Requested → String
  | .subnet => subnetKind
  | .group => groupKind
  | .association => associationKind
  | .interface => interfaceKind
  | .publicIp => publicIpKind
  | .machine => vmKind
  | .availabilitySet => availabilitySetKind

/-- What a document is requested for. -/
abbrev Request : Requested → Type
  | .subnet | .group | .association => SubnetRequest
  | .interface | .publicIp | .machine => MachineRequest
  | .availabilitySet => String

theorem kind_injective : Function.Injective kind := by
  intro k other h
  cases k <;> cases other <;> first | rfl | exact absurd h (by decide)

end Requested

/-- The kinds of the documents a run makes outside the component loop. -/
def startKinds : List String :=
  ["infrastructure/resource-group", "infrastructure/vnet", "infrastructure/storage-share",
    cloudInitKind]

theorem kind_notMem_startKinds (k : Requested) : k.kind ∉ startKinds := by
  cases k <;> decide

/-- The requests a run has made, with the documents they got. -/
abbrev Requests : Type := LambdaStack.Requests Requested.Request

/-- What does not change in the component loop. -/
structure Fixed where
  /-- The input documents before the run. -/
  docs : List Val
  /-- The user's own document of a kind. -/
  own : String → Option DocId
  cloudInit : DocId

section

variable (env : BuilderEnv) (b : InfrastructureBuilder)

def subnetName (r : SubnetRequest) : Val := b.indexed env "subnet" 0 r.componentKey

def groupName (r : SubnetRequest) : Val := b.indexed env "nsg" 0 r.componentKey

def interfaceName (m : MachineRequest) : Val := b.indexed env "nic" m.index m.componentKey

def publicIpName (m : MachineRequest) : Val := b.indexed env "pubip" m.index m.componentKey

def availabilitySetName (name : String) : Val := b.resource env (name ++ "-" ++ "aset") none

def subnetFields (r : SubnetRequest) : List (String × Val) :=
  [("name", subnetName env b r), ("address_prefix", r.addressPool),
    ("cluster_name", .str b.clusterName)]

def groupFields (r : SubnetRequest) : List (String × Val) := [("name", groupName env b r)]

def associationFields (r : SubnetRequest) : List (String × Val) :=
  [("name", b.indexed env "ssga" 0 r.componentKey), ("subnet_name", subnetName env b r),
    ("security_group_name", groupName env b r)]

def machineFields (m : MachineRequest) : List (String × Val) :=
  [("name", b.indexed env "vm" m.index m.componentKey),
    ("network_interface_name", interfaceName env b m)] ++
  m.availabilitySet.toList.map fun name =>
    ("availability_set_name", availabilitySetName env b name)

section

variable (replaced : Requested → Bool)

/-- The name of the group a machine's interface gets, when it is read. -/
def groupNameOf (m : MachineRequest) : Val :=
  if b.useNetworkSecurityGroups.truthy then
    match m.group with
    | some r => groupName env b (current (replaced .group) m.requests r)
    | none => .str ""
  else .str ""

def interfaceFields (m : MachineRequest) : List (String × Val) :=
  [("name", interfaceName env b m), ("security_group_name", groupNameOf env b replaced m),
    ("subnet_name", subnetName env b (current (replaced .subnet) m.requests m.subnet)),
    ("public_ip_name", if b.usePublicIps.truthy then publicIpName env b m else .str "")]

/-- What a requested document shows. -/
def fieldsOf : (k : Requested) → k.Request → List (String × Val)
  | .subnet => subnetFields env b
  | .group => groupFields env b
  | .association => associationFields env b
  | .interface => interfaceFields env b replaced
  | .publicIp => fun m => [("name", publicIpName env b m)]
  | .machine => machineFields env b
  | .availabilitySet => fun name => [("name", availabilitySetName env b name)]

end

variable (fixed : Fixed)

/-- The user replaces a kind. -/
def Fixed.replaced (k : Requested) : Bool := (fixed.own k.kind).isSome

/-- Machines are copies and availability sets documents of the user, each with a name of
its own. -/
def Fixed.ownOf : Requested → Option DocId
  | .machine | .availabilitySet => none
  | k => fixed.own k.kind

/-- The documents the loop refers to are there, and what it looks up in the input
documents is as it was before the run. -/
structure Tracked (s : Store) (ids : List DocId) : Prop where
  docs : ∀ id ∈ b.docs, id < s.next
  unique : ∀ id ∈ b.docs, (s.doc id).KeysUnique
  allocated : ∀ id ∈ ids, id < s.next
  own : ∀ kind, ownDoc b.docs kind s = fixed.own kind
  named : List.Forall₂ (fun id doc => (s.doc id).attr? "kind" = doc.attr? "kind" ∧
    (s.doc id).attr? "name" = doc.attr? "name") b.docs fixed.docs
  cloudInit : fixed.cloudInit < s.next
  cloudInitKind : (s.doc fixed.cloudInit).IsKind cloudInitKind

/-- The requests of a kind that a plan makes. -/
def requestsOf (p : Plan) : (k : Requested) → List k.Request
  | .subnet => p.requests
  | .group | .association => if b.useNetworkSecurityGroups.truthy then p.requests else []
  | .interface | .machine => p.machines
  | .publicIp => if b.usePublicIps.truthy then p.machines else []
  | .availabilitySet => p.sets

/-- The ledgers of the emitted documents. -/
structure Recorded (s : Store) (ids : List DocId) (requests : Requests) : Prop
    extends Tracked b fixed s ids where
  ledger : ∀ k, Ledger (fixed.ownOf k) k.kind (fieldsOf env b fixed.replaced k) s ids (requests k)

/-- The store and the emitted documents after the requests of a plan. -/
structure Represents (s : Store) (p : Progress) (requests : Requests) (q : Plan) : Prop
    extends Recorded env b fixed s p.ids requests where
  requested : ∀ k, (requests k).map Prod.snd = requestsOf b q k
  sets : ∀ e ∈ requests .availabilitySet, (s.doc e.1).attrStr? "name" = some e.2
  setDocs : ∀ e ∈ requests .availabilitySet, b.docs.find?
    (Holds? ∘ (kindAndNameAre availabilitySetKind (.str e.2) ∘ s.doc)) = some e.1
  copies : ∀ e ∈ requests .machine, e.1 ∉ b.docs
  nsg : b.useNetworkSecurityGroups.truthy = true → Got (requests .group) p.nsg q.requests.getLast?

end

section

variable {env : BuilderEnv} {b : InfrastructureBuilder} {fixed : Fixed} {s s' : Store}
  {ids : List DocId} {id : DocId} {requests : Requests} {p : Progress} {q : Plan}
  {changing : Set String}

/-! ## Steps on documents of other kinds -/

theorem Tracked.keeps (h : Tracked b fixed s ids) (hkeep : Keeps changing s s') :
    Tracked b fixed s' ids where
  docs id hid := (h.docs id hid).trans_le hkeep.next
  unique id hid := (hkeep.doc id (h.docs id hid)).unique (h.unique id hid)
  allocated id hid := (h.allocated id hid).trans_le hkeep.next
  own kind := (hkeep.ownDoc_eq h.docs kind).trans (h.own kind)
  named := by
    refine List.Forall₂.imp (fun id doc ⟨hid, hkind, hname⟩ => ?_)
      ((List.forall₂_and_left _ _).mpr ⟨h.docs, h.named⟩)
    have hstep := hkeep.doc id hid
    exact ⟨hstep.kind.trans hkind, hstep.name.trans hname⟩
  cloudInit := h.cloudInit.trans_le hkeep.next
  cloudInitKind := (hkeep.isKind h.cloudInit _).mpr h.cloudInitKind

theorem Tracked.append (h : Tracked b fixed s ids) (hlt : id < s.next) :
    Tracked b fixed s (ids ++ [id]) :=
  { h with
    allocated := fun other hother => by
      rcases List.mem_append.mp hother with hother | hother
      · exact h.allocated other hother
      · rwa [List.mem_singleton.mp hother] }

/-- A search for a kind and a name among the input documents finds what it found before
the run. -/
theorem Tracked.find?_iff (h : Tracked b fixed s ids) (kind : String) (name : Val) :
    (b.docs.find? (Holds? ∘ (kindAndNameAre kind name ∘ s.doc))).isSome =
      (fixed.docs.find? (Holds? ∘ kindAndNameAre kind name)).isSome := by
  have hsame : ∀ id ∈ b.docs, ∀ doc ∈ fixed.docs, (s.doc id).attr? "kind" = doc.attr? "kind" ∧
      (s.doc id).attr? "name" = doc.attr? "name" →
      (Holds? ∘ (kindAndNameAre kind name ∘ s.doc)) id =
        (Holds? ∘ kindAndNameAre kind name) doc := by
    rintro id - doc - ⟨hkind, hname⟩
    simp only [Function.comp_apply, kindAndNameAre, kindIs, attrIs, Val.getAttr, hkind, hname]
  rcases find?_forall₂ h.named hsame with ⟨hx, hy⟩ | ⟨x, y, hx, hy, -⟩
  · rw [hx, hy]
    rfl
  · rw [hx, hy]
    rfl

/-- No step changes what a search for a kind and a name finds. -/
theorem Tracked.find?_keeps (h : Tracked b fixed s ids) (hkeep : Keeps changing s s')
    (kind : String) (name : Val) :
    b.docs.find? (Holds? ∘ (kindAndNameAre kind name ∘ s'.doc)) =
      b.docs.find? (Holds? ∘ (kindAndNameAre kind name ∘ s.doc)) := by
  apply List.find?_congr
  intro id hid
  have hstep := hkeep.doc id (h.docs id hid)
  simp only [Function.comp_apply, kindAndNameAre, kindIs, attrIs, Val.getAttr, hstep.kind,
    hstep.name]

theorem Recorded.keeps (h : Recorded env b fixed s ids requests) (hkeep : Keeps changing s s')
    (hout : ∀ k : Requested, k.kind ∉ changing) : Recorded env b fixed s' ids requests where
  toTracked := h.toTracked.keeps hkeep
  ledger k := (h.ledger k).keeps hkeep (hout k) h.allocated

theorem Recorded.append_other (h : Recorded env b fixed s ids requests) (hlt : id < s.next)
    (hkind : ∀ k : Requested, ¬ (s.doc id).IsKind k.kind) :
    Recorded env b fixed s (ids ++ [id]) requests where
  toTracked := h.toTracked.append hlt
  ledger k := (h.ledger k).append_other (hkind k)

/-- No step changes the names of the availability sets. -/
theorem Represents.sets_keeps (h : Represents env b fixed s p requests q)
    (hkeep : Keeps changing s s') :
    ∀ e ∈ requests .availabilitySet, (s'.doc e.1).attrStr? "name" = some e.2 := by
  intro e he
  obtain ⟨hmem, -⟩ := (h.ledger .availabilitySet).mem_ids (r := e.2) he
  rw [Val.attrStr?, (hkeep.doc e.1 (h.allocated e.1 hmem)).name]
  exact h.sets e he

theorem Represents.setDocs_keeps (h : Represents env b fixed s p requests q)
    (hkeep : Keeps changing s s') : ∀ e ∈ requests .availabilitySet, b.docs.find?
      (Holds? ∘ (kindAndNameAre availabilitySetKind (.str e.2) ∘ s'.doc)) = some e.1 := by
  intro e he
  rw [h.find?_keeps hkeep]
  exact h.setDocs e he

theorem Represents.keeps (h : Represents env b fixed s p requests q)
    (hkeep : Keeps changing s s') (hout : ∀ k : Requested, k.kind ∉ changing) :
    Represents env b fixed s' p requests q :=
  { h with
    toRecorded := h.toRecorded.keeps hkeep hout
    sets := h.sets_keeps hkeep
    setDocs := h.setDocs_keeps hkeep }

theorem Represents.append_other (h : Represents env b fixed s p requests q)
    (hlt : id < s.next) (hkind : ∀ k : Requested, ¬ (s.doc id).IsKind k.kind)
    (component : Option String) :
    Represents env b fixed s (p.append id component) requests q :=
  { h with
    toRecorded := by
      rw [Progress.ids_append]
      exact h.toRecorded.append_other hlt hkind }

/-- A step on machine definitions that are the user's. -/
theorem Represents.machineStep (h : Represents env b fixed s p requests q)
    (hkeep : Keeps {vmKind} s s') (hsame : ∀ id < s.next, id ∉ b.docs → s'.doc id = s.doc id) :
    Represents env b fixed s' p requests q :=
  { h with
    toTracked := h.toTracked.keeps hkeep
    ledger := fun k => by
      by_cases hk : k = .machine
      · subst hk
        apply (h.ledger .machine).congr
        · intro id hid
          exact hkeep.isKind (h.allocated id hid) _
        · intro id r hmem hshows
          have hlt := h.allocated id ((h.ledger .machine).mem_ids hmem).1
          rwa [hsame id hlt (h.copies _ hmem)]
      · exact (h.ledger k).keeps hkeep (fun heq => hk (Requested.kind_injective heq))
          h.allocated
    sets := h.sets_keeps hkeep
    setDocs := h.setDocs_keeps hkeep }

/-! ## A request -/

/-- A getter that assigns fields to the document of a requested kind. -/
theorem Recorded.config (h : Recorded env b fixed s ids requests) {k : Requested}
    (hk : k ≠ .machine) (hset : k ≠ .availabilitySet) {fields : List (String × Val)}
    (hfields : (dictKeys fields).Nodup)
    (hrun : configWith .azure env b.docs k.kind fields s = .ok (id, s')) {r : k.Request}
    (hshown : ∀ field ∈ fieldsOf env b fixed.replaced k r, fields.lookup field.1 = some field.2) :
    Keeps {k.kind} s s' ∧ id < s'.next ∧ (s'.doc id).IsKind k.kind ∧
      Shows (fieldsOf env b fixed.replaced k r) (s'.doc id) ∧
      Recorded env b fixed s' (ids ++ [id]) (requests.add k id r) := by
  have hvm : ConfigKind k.kind := by
    cases k with
    | machine => exact absurd rfl hk
    | _ => decide
  obtain ⟨hkeep, hframe, hlt, hkind, hown, hread⟩ := configWith_eq_ok h.docs hvm hfields hrun
  have hownOf : fixed.ownOf k = ownDoc b.docs k.kind s := by
    rw [h.own]
    cases k with
    | machine => exact absurd rfl hk
    | availabilitySet => exact absurd rfl hset
    | _ => rfl
  have hissued : IsIssued (fixed.ownOf k) s.next id := by
    rw [hownOf]
    exact hown
  have hshows : Shows (fieldsOf env b fixed.replaced k r) (s'.doc id) :=
    shows_of_forall fun field hfield => hread field.1 field.2 (hshown field hfield)
  exact ⟨hkeep, hlt, hkind, hshows, (h.toTracked.keeps hkeep).append hlt,
    ledger_add Requested.kind_injective h.ledger h.allocated hkeep hframe hissued hkind hshows⟩

/-! ## The subnet of a component -/

/-- The kinds of the documents a new address pool brings. -/
def poolKinds : Set String := {subnetKind, groupKind, associationKind}

theorem holds?_isSubnetOf_any (addressPool x : Val) :
    Holds? (isSubnetOf addressPool x) = (Holds? (kindIs subnetKind x) &&
      (x.specAttr? "address_prefix").any (·.pyEq addressPool)) := by
  rw [holds?_isSubnetOf, specPair]
  cases x.specAttr? "address_prefix" <;> rfl

/-- Searching the emitted subnets for an address pool. -/
theorem Represents.selectSubnet (h : Represents env b fixed s p requests q) (addressPool : Val) :
    Got (requests .subnet) (p.ids.find? (Holds? ∘ (isSubnetOf addressPool ∘ s.doc)))
      ((LambdaStack.visible (fixed.replaced .subnet) q.requests).find?
        (isForPool addressPool)) := by
  have hpool : ∀ r : SubnetRequest,
      (fieldsOf env b fixed.replaced .subnet r).lookup "address_prefix" = some r.addressPool :=
    fun _ => rfl
  have hgot := (h.ledger .subnet).find?_eq hpool (·.pyEq addressPool)
    (holds?_isSubnetOf_any addressPool)
  rw [h.requested .subnet] at hgot
  exact hgot

/-- A component that brings a new address pool, with its security group. -/
theorem Represents.introduce (h : Represents env b fixed s p requests q)
    (hgroups : b.useNetworkSecurityGroups.truthy = true) {r : SubnetRequest} {rules : Val}
    {subnet nsg association : DocId} {subnetName' nsgName' : Val} {s₁ s₂ s₃ : Store}
    (hsubnet : b.getSubnet env r.addressPool r.componentKey 0 s = .ok (subnet, s₁))
    (hnsg : b.getNetworkSecurityGroup env r.componentKey rules 0 s₁ = .ok (nsg, s₂))
    (hsubnetName : (s₂.doc subnet).specAttr? "name" = some subnetName')
    (hnsgName : (s₂.doc nsg).specAttr? "name" = some nsgName')
    (hassociation : b.getSubnetNetworkSecurityGroupAssociation env r.componentKey subnetName'
      nsgName' 0 s₂ = .ok (association, s₃)) (component : Option String) :
    ∃ requests', Keeps poolKinds s s₃ ∧ (∀ k, requests k ⊆ requests' k) ∧
      (subnet, r) ∈ requests' .subnet ∧
      Represents env b fixed s₃
        ({ (p.append subnet component).append nsg component with nsg := some nsg }.append
          association component) requests' { q with requests := q.requests ++ [r] } := by
  obtain ⟨hkeep₁, hlt₁, hkind₁, hshows₁, h₁⟩ :=
    h.toRecorded.config (k := .subnet) (by decide) (by decide) (by simp) hsubnet (r := r)
      (by simp [fieldsOf, subnetFields, subnetName, List.lookup_cons])
  obtain ⟨hkeep₂, hlt₂, hkind₂, hshows₂, h₂⟩ :=
    h₁.config (k := .group) (by decide) (by decide) (by simp) hnsg (r := r)
      (by simp [fieldsOf, groupFields, groupName, List.lookup_cons])
  have hsame₂ : s₂.doc subnet = s₁.doc subnet := hkeep₂.same hlt₁ hkind₁ (by decide)
  obtain rfl : subnetName' = subnetName env b r := by
    rw [hsame₂] at hsubnetName
    exact Option.some.inj (hsubnetName.symm.trans (hshows₁ "name" _ rfl))
  obtain rfl : nsgName' = groupName env b r :=
    Option.some.inj (hnsgName.symm.trans (hshows₂ "name" _ rfl))
  obtain ⟨hkeep₃, hlt₃, hkind₃, hshows₃, h₃⟩ :=
    h₂.config (k := .association) (by decide) (by decide) (by simp) hassociation (r := r)
      (by simp [fieldsOf, associationFields, List.lookup_cons])
  let requests₁ : Requests := requests.add .subnet subnet r
  let requests₂ : Requests := requests₁.add .group nsg r
  let requests₃ : Requests := requests₂.add .association association r
  have hsub : ∀ k, requests k ⊆ requests₃ k := by
    intro k
    apply List.Subset.trans (requests.subset_add .subnet k subnet r)
    apply List.Subset.trans (requests₁.subset_add .group k nsg r)
    exact requests₂.subset_add .association k association r
  have hkeep : Keeps poolKinds s s₃ :=
    ((hkeep₁.mono (by simp [poolKinds, Requested.kind])).trans
      (hkeep₂.mono (by simp [poolKinds, Requested.kind]))).trans
      (hkeep₃.mono (by simp [poolKinds, Requested.kind]))
  have hmachines : requests₃ .machine = requests .machine := by
    simp [requests₃, requests₂, requests₁, Requests.add]
  have hsets : requests₃ .availabilitySet = requests .availabilitySet := by
    simp [requests₃, requests₂, requests₁, Requests.add]
  refine ⟨requests₃, hkeep, hsub, by simp [requests₃, requests₂, requests₁, Requests.add], ?_⟩
  exact {
    toRecorded := by simpa [Progress.ids, Progress.append] using h₃
    requested := fun k => by
      have hk := h.requested k
      cases k <;> simp_all [requests₃, requests₂, requests₁, Requests.add, requestsOf]
    sets := by
      rw [hsets]
      exact h.sets_keeps hkeep
    setDocs := by
      rw [hsets]
      exact h.setDocs_keeps hkeep
    copies := by
      rw [hmachines]
      exact h.copies
    nsg := fun _ => by
      rw [List.getLast?_append, List.getLast?_singleton, Option.some_or]
      exact ⟨nsg, rfl, by simp [requests₃, requests₂, requests₁, Requests.add]⟩ }

/-- A component that brings a new address pool, where no security groups are used. -/
theorem Represents.introduceAlone (h : Represents env b fixed s p requests q)
    (hgroups : b.useNetworkSecurityGroups.truthy = false) {r : SubnetRequest} {subnet : DocId}
    {s₁ : Store}
    (hsubnet : b.getSubnet env r.addressPool r.componentKey 0 s = .ok (subnet, s₁))
    (component : Option String) :
    ∃ requests', Keeps poolKinds s s₁ ∧ (∀ k, requests k ⊆ requests' k) ∧
      (subnet, r) ∈ requests' .subnet ∧
      Represents env b fixed s₁ (p.append subnet component) requests'
        { q with requests := q.requests ++ [r] } := by
  obtain ⟨hkeep₁, -, -, -, h₁⟩ :=
    h.toRecorded.config (k := .subnet) (by decide) (by decide) (by simp) hsubnet (r := r)
      (by simp [fieldsOf, subnetFields, subnetName, List.lookup_cons])
  have hmachines : requests.add .subnet subnet r .machine = requests .machine :=
    requests.add_ne (by decide) _ _
  have hsets : requests.add .subnet subnet r .availabilitySet = requests .availabilitySet :=
    requests.add_ne (by decide) _ _
  refine ⟨requests.add .subnet subnet r, hkeep₁.mono (by simp [poolKinds, Requested.kind]),
    fun k => requests.subset_add .subnet k subnet r, by simp, ?_⟩
  exact {
    toRecorded := by simpa using h₁
    requested := fun k => by
      have hk := h.requested k
      cases k <;> simp_all [Requests.add, requestsOf]
    sets := by
      rw [hsets]
      exact h.sets_keeps hkeep₁
    setDocs := by
      rw [hsets]
      exact h.setDocs_keeps hkeep₁
    copies := by
      rw [hmachines]
      exact h.copies
    nsg := fun htrue => by
      rw [hgroups] at htrue
      cases htrue }

/-- A component gets the subnet the plan says. -/
theorem Represents.subnetFor (h : Represents env b fixed s p requests q)
    {componentKey : String} {addressPool : Val} {vmConfig subnet : DocId} {p' : Progress}
    (hrun : b.subnetFor env componentKey addressPool vmConfig p s = .ok ((subnet, p'), s')) :
    ∃ requests', Keeps poolKinds s s' ∧ (∀ k, requests k ⊆ requests' k) ∧
      (subnet, (subnetOf (fixed.replaced .subnet) q.requests ⟨componentKey, addressPool⟩).2) ∈
        requests' .subnet ∧
      Represents env b fixed s' p' requests' { q with
        requests :=
          (subnetOf (fixed.replaced .subnet) q.requests ⟨componentKey, addressPool⟩).1 } := by
  unfold InfrastructureBuilder.subnetFor at hrun
  rw [BuildM.bind_eq_ok] at hrun
  obtain ⟨found, s₀, hselect, hrun⟩ := hrun
  obtain ⟨hfound, rfl⟩ := reads_eq_ok.mp hselect
  have hgot := h.selectSubnet addressPool
  rw [show p.ids.find? _ = found from (selectFirst_eq_ok hfound).symm] at hgot
  cases hfind : (LambdaStack.visible (fixed.replaced .subnet) q.requests).find?
      (isForPool addressPool) with
  | some r =>
      rw [hfind] at hgot
      obtain ⟨id, rfl, hmem⟩ := hgot
      obtain ⟨heq, rfl⟩ := BuildM.pure_eq_ok.mp hrun
      cases heq
      simp only [subnetOf, hfind]
      exact ⟨requests, .refl _ _, fun _ => List.Subset.refl _, hmem, h⟩
  | none =>
      rw [hfind] at hgot
      obtain rfl : found = none := hgot
      simp only [subnetOf, hfind]
      simp only [BuildM.bind_eq_ok] at hrun
      obtain ⟨subnet', s₁, hsubnet, hrun⟩ := hrun
      cases hgroups : b.useNetworkSecurityGroups.truthy with
      | false =>
          simp only [hgroups, Bool.false_eq_true, if_false] at hrun
          obtain ⟨heq, rfl⟩ := BuildM.pure_eq_ok.mp hrun
          cases heq
          exact h.introduceAlone hgroups (r := ⟨componentKey, addressPool⟩) hsubnet _
      | true =>
          simp only [hgroups, if_true, BuildM.bind_eq_ok, lift_eq_ok, specAttr_eq_ok] at hrun
          obtain ⟨_, _, ⟨-, rfl⟩, rules, _, ⟨-, rfl⟩, nsg, s₂, hnsg, subnetName', _,
            ⟨hsubnetName, rfl⟩, nsgName', _, ⟨hnsgName, rfl⟩, association, s₃, hassociation,
            hret⟩ := hrun
          obtain ⟨heq, rfl⟩ := BuildM.pure_eq_ok.mp hret
          cases heq
          exact h.introduce hgroups (r := ⟨componentKey, addressPool⟩) hsubnet hnsg hsubnetName
            hnsgName hassociation _

end

end Azure.Emission

end LambdaStack
