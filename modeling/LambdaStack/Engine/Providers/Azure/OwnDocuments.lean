/-
# Documents that are requested more than once on Azure

Every document of a component shows what was computed for its own component and index,
and every address pool has one subnet, exactly where each kind the user has a document of
is requested with the same fields each time.
-/

import LambdaStack.Engine.Providers.Azure.EmissionRun

namespace LambdaStack

open Lib BuildM

namespace Azure.Emission

section

variable (env : BuilderEnv) (b : InfrastructureBuilder) (docs : List Val) (components : Entries)

/-- The user replaces nothing. -/
def nothingReplaced : Requested → Bool := fun _ => false

/-- Each address pool of a component with machines has one emitted subnet, and the emitted
documents of the components show what was computed for each request. -/
structure OwnDocuments (s : Store) (infrastructure : List DocId) : Prop where
  pools : ∀ component ∈ components, machineCount component.2 ≠ 0 →
    (infrastructure.filter (Holds? ∘ (isSubnetOf (poolOf component.2) ∘ s.doc))).length = 1
  documents : ∀ k, ShowsEach (fieldsOf env b nothingReplaced k) k.kind s infrastructure
    (requestsOf b (plan false docs components) k)

/-- A kind the user has a document of is requested with the same fields each time.
Machines are copies, and each availability set is a document of its own. -/
def RequestedAlike : Prop :=
  ∀ k, k ≠ .machine → k ≠ .availabilitySet → (∃ doc ∈ docs, doc.IsKind k.kind) →
    ∀ r ∈ requestsOf b (plan false docs components) k,
    ∀ r' ∈ requestsOf b (plan false docs components) k,
      fieldsOf env b nothingReplaced k r = fieldsOf env b nothingReplaced k r'

end

section

variable {env : BuilderEnv} {b : InfrastructureBuilder} {fixed : Fixed} {s s' : Store}
  {infrastructure : List Emitted} {nsg : Option DocId} {requests : Requests} {p : Progress}
  {docs : List Val} {components : Entries} {replaced : Requested → Bool}

theorem dictKeys_fieldsOf {k : Requested} (hk : k ≠ .machine) (r r' : k.Request) :
    dictKeys (fieldsOf env b replaced k r) = dictKeys (fieldsOf env b replaced k r') := by
  cases k with
  | machine => exact absurd rfl hk
  | _ => rfl

theorem nodup_fieldsOf {k : Requested} (hk : k ≠ .machine) (r : k.Request) :
    (dictKeys (fieldsOf env b replaced k r)).Nodup := by
  cases k with
  | machine => exact absurd rfl hk
  | _ => simp [fieldsOf, subnetFields, groupFields, associationFields, interfaceFields]

/-- Where what is shown in place of a subnet or a group has its name, the names a machine
refers to are those of its own subnet and group. -/
theorem fieldsOf_eq {q : Plan} (hplaces : q.Places components)
    (hsubnet : replaced .subnet = true → q.requests.length ≤ 1)
    (hgroup : b.useNetworkSecurityGroups.truthy = true → replaced .group = true →
      ∀ r ∈ q.requests, ∀ r' ∈ q.requests, groupName env b r = groupName env b r')
    {k : Requested} {r : k.Request} (hr : r ∈ requestsOf b q k) :
    fieldsOf env b replaced k r = fieldsOf env b nothingReplaced k r := by
  cases k with
  | interface =>
      obtain ⟨hbegin, hmem, hlast⟩ := hplaces.machines r hr
      have hcurrent : current (replaced .subnet) r.requests r.subnet = r.subnet :=
        current_eq hsubnet hbegin (hbegin.subset hmem)
      have hname : groupNameOf env b replaced r = groupNameOf env b nothingReplaced r := by
        unfold groupNameOf
        split
        · next hgroups =>
            cases hg : r.group with
            | none => rfl
            | some g =>
                have hin : g ∈ r.requests := by
                  rw [hg] at hlast
                  exact List.mem_of_getLast? hlast.symm
                cases hshared : replaced .group with
                | false => rfl
                | true =>
                    apply hgroup hgroups hshared
                    · exact hbegin.subset (current_mem true hin)
                    · exact hbegin.subset hin
        · rfl
      change interfaceFields env b replaced r = interfaceFields env b nothingReplaced r
      rw [interfaceFields, hcurrent, hname]
      rfl
  | _ => rfl

theorem Fixed.own_of_ownOf {k : Requested} {own : DocId} (h : fixed.ownOf k = some own) :
    k ≠ .machine ∧ k ≠ .availabilitySet ∧ (fixed.own k.kind).isSome = true := by
  cases k with
  | machine | availabilitySet => cases h
  | _ => exact ⟨by decide, by decide, Option.isSome_iff_exists.mpr ⟨own, h⟩⟩

/-- Requests that compute the same fields are for one address pool. -/
theorem RequestedAlike.few (h : RequestedAlike env b docs components)
    (hplaces : (plan false docs components).Places components)
    (hown : ∀ kind, (fixed.own kind).isSome = true ↔ ∃ doc ∈ docs, doc.IsKind kind) :
    fixed.replaced .subnet = true → (plan false docs components).requests.length ≤ 1 := by
  intro hreplaced
  apply hplaces.apart.length_le_one
  intro r hr r' hr'
  have hsome := (hown Requested.subnet.kind).mp hreplaced
  have heq := congrArg (List.lookup "address_prefix")
    (h .subnet (by decide) (by decide) hsome r hr r' hr')
  exact Option.some.inj heq

theorem RequestedAlike.groupName_eq (h : RequestedAlike env b docs components)
    (hown : ∀ kind, (fixed.own kind).isSome = true ↔ ∃ doc ∈ docs, doc.IsKind kind)
    (hgroups : b.useNetworkSecurityGroups.truthy = true)
    (hreplaced : fixed.replaced .group = true) :
    ∀ r ∈ (plan false docs components).requests, ∀ r' ∈ (plan false docs components).requests,
      groupName env b r = groupName env b r' := by
  intro r hr r' hr'
  have hsome := (hown Requested.group.kind).mp hreplaced
  have hrequests : requestsOf b (plan false docs components) .group =
      (plan false docs components).requests := if_pos hgroups
  have heq := congrArg (List.lookup "name")
    (h .group (by decide) (by decide) hsome r (hrequests ▸ hr) r' (hrequests ▸ hr'))
  exact Option.some.inj heq

theorem Represents.documents
    (h : Represents env b fixed s' p requests (plan (fixed.replaced .subnet) docs components))
    (hplaces : (plan false docs components).Places components)
    (hown : ∀ kind, (fixed.own kind).isSome = true ↔ ∃ doc ∈ docs, doc.IsKind kind)
    (halike : RequestedAlike env b docs components) (k : Requested) :
    ShowsEach (fieldsOf env b nothingReplaced k) k.kind s' p.ids
      (requestsOf b (plan false docs components) k) := by
  have hsubnet := halike.few hplaces hown
  have hplan : plan (fixed.replaced .subnet) docs components = plan false docs components :=
    planComponents_eq hsubnet
  rw [hplan] at h
  rw [← h.requested k]
  apply (h.ledger k).showsEach
  intro r hr
  have hmem := current_mem (fixed.ownOf k).isSome hr
  rw [h.requested k] at hr hmem ⊢
  rw [fieldsOf_eq hplaces hsubnet (halike.groupName_eq hown) hmem]
  cases hshared : fixed.ownOf k with
  | none => rfl
  | some own =>
      rw [hshared] at hmem
      obtain ⟨hmachine, hset, hsome⟩ := Fixed.own_of_ownOf hshared
      exact halike k hmachine hset ((hown _).mp hsome) _ hmem _ hr

/-- A pool has one subnet where every subnet shows its own pool. -/
theorem pool_once {q : Plan} {ids : List DocId} (hplaces : q.Places components)
    (heach : ShowsEach (fieldsOf env b nothingReplaced .subnet) subnetKind s' ids q.requests)
    {component : String × Val} (hcomponent : component ∈ components)
    (hwf : component.2.WellFormed) (hcount : machineCount component.2 ≠ 0) :
    (ids.filter (Holds? ∘ (isSubnetOf (poolOf component.2) ∘ s'.doc))).length = 1 := by
  obtain ⟨r, hr⟩ := hplaces.pools component hcomponent hcount
  have hone := hplaces.apart.countP_eq_one (poolOf_wellFormed hwf) hr
  have hquery : (Holds? ∘ (isSubnetOf (poolOf component.2) ∘ s'.doc)) =
      fun id => ((s'.doc id).specAttr? "address_prefix").any (·.pyEq (poolOf component.2)) &&
        Holds? (kindIs subnetKind (s'.doc id)) := by
    funext id
    rw [Function.comp_apply, Function.comp_apply, holds?_isSubnetOf_any, Bool.and_comm]
  rw [← List.countP_eq_length_filter, hquery, ← List.countP_filter, ← hone]
  apply countP_forall₂ heach
  intro id r hshows
  rw [hshows "address_prefix" _ rfl]
  rfl

/-- Every document of a component is its own exactly where each kind the user has a
document of is requested with the same fields each time. -/
theorem run_ownDocuments_iff (hdocs : ∀ id ∈ b.docs, id < s.next)
    (hunique : ∀ id ∈ b.docs, (s.doc id).KeysUnique) (hwf : b.clusterModel.WellFormed)
    (hrun : b.run env s = .ok (infrastructure, s')) :
    ∃ components, componentsOf b.clusterModel = .ok components ∧
      (OwnDocuments env b (b.docs.map s.doc) components s' (infrastructure.map Emitted.doc) ↔
        RequestedAlike env b (b.docs.map s.doc) components) := by
  obtain ⟨fixed, components, requests, nsg, hfixed, hown, hcomponents, hrep⟩ :=
    run_represents hdocs hunique hrun
  have hcomponentswf := components_wellFormed hwf hcomponents
  have hplaces : (plan false (b.docs.map s.doc) components).Places components :=
    planComponents_places places_nil hcomponentswf
  have hsome : ∀ kind, (fixed.own kind).isSome = true ↔
      ∃ doc ∈ b.docs.map s.doc, doc.IsKind kind := by
    intro kind
    rw [hown, ownDoc, List.find?_isSome]
    simp only [holds?_kindIs, List.mem_map, exists_exists_and_eq_and]
  rw [hfixed] at hrep
  refine ⟨components, hcomponents, ?_, ?_⟩
  · intro ⟨_, hdocuments⟩ k hmachine hset hdoc
    obtain ⟨own, hown'⟩ := Option.isSome_iff_exists.mp ((hsome k.kind).mpr hdoc)
    have hledger := hrep.ledger k
    have hshared : fixed.ownOf k = some own := by
      cases k with
      | machine => exact absurd rfl hmachine
      | availabilitySet => exact absurd rfl hset
      | _ => exact hown'
    rw [hshared] at hledger
    exact hledger.eq_of_showsEach (dictKeys_fieldsOf hmachine) (nodup_fieldsOf hmachine)
      (hdocuments k)
  · intro halike
    have hdocuments := hrep.documents hplaces hsome halike
    refine ⟨?_, hdocuments⟩
    intro component hcomponent hcount
    exact pool_once hplaces (hdocuments .subnet) hcomponent (hcomponentswf _ hcomponent) hcount

end

end Azure.Emission

end LambdaStack
