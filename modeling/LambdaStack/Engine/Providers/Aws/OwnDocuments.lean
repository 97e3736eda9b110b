/-
# Documents that are requested more than once on AWS

Every document of a component shows what was computed for its own component and index,
and every address pool has one subnet, exactly where each kind the user has a document of
is requested with the same fields each time.
-/

import LambdaStack.Engine.Providers.Aws.GroupRules

namespace LambdaStack

open Lib BuildM

namespace Aws

/-- The requests of a kind that a plan makes. -/
def requestsOf (p : Plan) : (k : Requested) → List k.Request
  | .subnet | .group | .association => p.requests
  | .launch | .machine => p.placed

section

variable (env : Env) (b : InfrastructureBuilder) (s : Store) (components : Entries)

/-- Each address pool of an active component has one emitted subnet, and the emitted
documents of the components show what was computed for each request. -/
structure OwnDocuments (infrastructure : List DocId) : Prop where
  pools : ∀ component ∈ components, isActive component.2 = true →
    ∀ d ∈ subnetDefinitions component.2, (infrastructure.filter (Holds? ∘
      (InfrastructureBuilder.isOfPool Requested.subnet.kind d ∘ s.doc))).length = 1
  documents : ∀ k, ShowsEach (fieldsOf env b .neither k) k.kind s infrastructure
    (requestsOf (plan .neither components) k)

/-- A kind the user has a document of is requested with the same fields each time.
Autoscaling groups are copies. -/
def RequestedAlike : Prop :=
  ∀ k, k ≠ .machine → (∃ id ∈ b.docs, (s.doc id).IsKind k.kind) →
    ∀ r ∈ requestsOf (plan .neither components) k, ∀ r' ∈ requestsOf (plan .neither components) k,
      fieldsOf env b .neither k r = fieldsOf env b .neither k r'

end

section

variable {env : Env} {b : InfrastructureBuilder} {fixed : Fixed} {s s' : Store}
  {infrastructure : List DocId} {requests : Requests} {p : Plan} {components : Entries}
  {replaced : Replaced}

theorem Represents.requested (h : Represents env b fixed s infrastructure requests p)
    (k : Requested) : (requests k).map Prod.snd = requestsOf p k := by
  cases k with
  | subnet => exact h.subnets
  | group => exact h.groups
  | association => exact h.associations
  | launch => exact h.launches
  | machine => exact h.machines

theorem dictKeys_fieldsOf (k : Requested) (r r' : k.Request) :
    dictKeys (fieldsOf env b replaced k r) = dictKeys (fieldsOf env b replaced k r') := by
  cases k <;> rfl

theorem nodup_fieldsOf (k : Requested) (r : k.Request) :
    (dictKeys (fieldsOf env b replaced k r)).Nodup := by
  cases k <;> simp [fieldsOf, subnetFields, groupFields, associationFields, launchFields,
    machineFields]

/-- Where at most one request is made for what the user replaces, the names a component
refers to are those of its own subnets and groups. -/
theorem fieldsOf_eq (hplaces : (plan .neither components).Places)
    (hfew : replaced.Few (plan .neither components).requests) {k : Requested} {r : k.Request}
    (hr : r ∈ requestsOf (plan .neither components) k) :
    fieldsOf env b replaced k r = fieldsOf env b .neither k r := by
  have hmem : ∀ x ∈ (plan .neither components).placed, ∀ a ∈ x.attached,
      a.subnet ∈ (plan .neither components).requests ∧ a.group = some a.subnet := by
    intro x hx a ha
    obtain ⟨d, -, hgets⟩ := exists_of_mem_forall₂ (hplaces.placed x hx).flip ha
    exact ⟨List.mem_of_find?_eq_some hgets.1, hgets.2⟩
  have hbegin : ∀ x ∈ (plan .neither components).placed,
      x.requests <+: (plan .neither components).requests := fun x hx =>
    requests_placed hx fun _ h => absurd h List.not_mem_nil
  cases k with
  | subnet | group | association => rfl
  | launch =>
      have hnames : groupNamesOf env b replaced r = groupNamesOf env b .neither r := by
        apply List.filterMap_congr
        intro a ha
        obtain ⟨hsubnet, hgroup⟩ := hmem r hr a ha
        rw [hgroup, Option.map_some, Option.map_some,
          current_eq (fun hreplaced => hfew (Or.inr hreplaced)) (hbegin r hr) hsubnet]
        rfl
      change launchFields env b replaced r = launchFields env b .neither r
      rw [launchFields, hnames]
      rfl
  | machine =>
      have hnames : subnetNamesOf env b replaced r = subnetNamesOf env b .neither r := by
        apply List.map_congr_left
        intro a ha
        rw [current_eq (fun hreplaced => hfew (Or.inl hreplaced)) (hbegin r hr) (hmem r hr a ha).1]
        rfl
      change machineFields env b replaced r = machineFields env b .neither r
      rw [machineFields, hnames]
      rfl

theorem ownDoc_isSome {docs : List DocId} {kind : String} :
    (ownDoc docs kind s).isSome = true ↔ ∃ id ∈ docs, (s.doc id).IsKind kind := by
  rw [ownDoc, List.find?_isSome]
  simp only [holds?_kindIs]

/-- Requests that compute the same fields are for one address pool. -/
theorem RequestedAlike.few (h : RequestedAlike env b s components)
    (hplaces : (plan .neither components).Places)
    (hown : ∀ kind, fixed.own kind = ownDoc b.docs kind s) :
    fixed.replaced.Few (plan .neither components).requests := by
  intro hreplaced
  apply hplaces.apart.length_le_one
  intro r hr r' hr'
  rcases hreplaced with hsubnet | hgroup
  · have hsome : (fixed.own Requested.subnet.kind).isSome = true := hsubnet
    rw [hown, ownDoc_isSome] at hsome
    have heq := congrArg (List.lookup "cidr_block") (h .subnet (by decide) hsome r hr r' hr')
    exact Option.some.inj heq
  · have hsome : (fixed.own Requested.group.kind).isSome = true := hgroup
    rw [hown, ownDoc_isSome] at hsome
    have heq := congrArg (List.lookup "cidr_block") (h .group (by decide) hsome r hr r' hr')
    exact Option.some.inj heq

theorem Represents.documents
    (h : Represents env b fixed s' infrastructure requests (plan fixed.replaced components))
    (hplaces : (plan .neither components).Places)
    (hown : ∀ kind, fixed.own kind = ownDoc b.docs kind s)
    (halike : RequestedAlike env b s components) (k : Requested) :
    ShowsEach (fieldsOf env b .neither k) k.kind s' infrastructure
      (requestsOf (plan .neither components) k) := by
  have hfew := halike.few hplaces hown
  have hplan : plan fixed.replaced components = plan .neither components := planComponents_eq hfew
  rw [hplan] at h
  rw [← h.requested k]
  apply (h.ledger k).showsEach
  intro r hr
  have hmem := current_mem (fixed.ownOf k).isSome hr
  rw [h.requested k] at hr hmem ⊢
  rw [fieldsOf_eq hplaces hfew hmem]
  cases hshared : fixed.ownOf k with
  | none => rfl
  | some own =>
      rw [hshared] at hmem
      have hk : k ≠ .machine := by
        rintro rfl
        cases hshared
      have hsome : ∃ id ∈ b.docs, (s.doc id).IsKind k.kind := by
        rw [← ownDoc_isSome, ← hown]
        cases k with
        | machine => exact absurd rfl hk
        | _ => exact Option.isSome_iff_exists.mpr ⟨own, hshared⟩
      exact halike k hk hsome _ hmem _ hr

/-- A pool of an active component has one subnet where every subnet shows its own pool. -/
theorem Represents.pool_once
    (h : Represents env b fixed s' infrastructure requests (plan .neither components))
    (hplaces : (plan .neither components).Places)
    (heach : ShowsEach (fieldsOf env b .neither .subnet) Requested.subnet.kind s' infrastructure
      (plan .neither components).requests)
    {x : Placed} (hx : x ∈ (plan .neither components).placed)
    (hwf : x.component.2.WellFormed) {d : Val} (hd : d ∈ subnetDefinitions x.component.2) :
    (infrastructure.filter (Holds? ∘
      (InfrastructureBuilder.isOfPool Requested.subnet.kind d ∘ s'.doc))).length = 1 := by
  obtain ⟨pool, hpool⟩ := h.pools x hx d hd
  obtain ⟨a, -, hgets⟩ := exists_of_mem_forall₂ (hplaces.placed x hx) hd
  have hvalue := definitionItem_wellFormed (subnetDefinitions_wellFormed hwf hd) "address_pool"
  have hone := hplaces.apart.countP_eq_one hvalue hgets.1
  have hquery : (Holds? ∘ (InfrastructureBuilder.isOfPool Requested.subnet.kind d ∘ s'.doc)) =
      fun id => ((s'.doc id).specAttr? "cidr_block").any (·.pyEq pool) &&
        Holds? (kindIs Requested.subnet.kind (s'.doc id)) := by
    funext id
    rw [Function.comp_apply, Function.comp_apply, holds?_isOfPool hpool, Bool.and_comm]
  rw [← List.countP_eq_length_filter, hquery, ← List.countP_filter, ← hone]
  apply countP_forall₂ heach
  intro id r hshows
  rw [hshows "cidr_block" _ rfl, definitionItem_of_ok hpool]
  rfl

/-- Every document of a component is its own exactly where each kind the user has a
document of is requested with the same fields each time. -/
theorem run_ownDocuments_iff {keys : KeySource} (hdocs : ∀ id ∈ b.docs, id < s.next)
    (hunique : ∀ id ∈ b.docs, (s.doc id).KeysUnique) (hwf : b.clusterModel.WellFormed)
    (h : b.run env keys s = .ok (infrastructure, s')) :
    ∃ components,
      (attrPath b.clusterModel ["specification", "components"]).bind Val.asDict =
        .ok components ∧
      (OwnDocuments env b s' components infrastructure ↔ RequestedAlike env b s components) := by
  obtain ⟨fixed, components, requests, -, hown, hcomponents, hrep⟩ :=
    InfrastructureBuilder.run_represents hdocs hunique h
  have hcomponentswf := components_wellFormed hwf hcomponents
  have hplaces : (plan .neither components).Places :=
    planComponents_places places_nil hcomponentswf
  refine ⟨components, hcomponents, ?_, ?_⟩
  · intro ⟨_, hdocuments⟩ k hk hsome
    rw [← ownDoc_isSome, ← hown] at hsome
    obtain ⟨own, hown'⟩ := Option.isSome_iff_exists.mp hsome
    have hledger := hrep.ledger k
    have hshared : fixed.ownOf k = some own := by
      cases k with
      | machine => exact absurd rfl hk
      | _ => exact hown'
    rw [hshared] at hledger
    exact hledger.eq_of_showsEach (dictKeys_fieldsOf k) (nodup_fieldsOf k) (hdocuments k)
  · intro halike
    have hdocuments := hrep.documents hplaces hown halike
    refine ⟨?_, hdocuments⟩
    have hplan : plan fixed.replaced components = plan .neither components :=
      planComponents_eq (halike.few hplaces hown)
    rw [hplan] at hrep
    intro component hcomponent hactive d hd
    have hplaced : component ∈ (plan .neither components).placed.map Placed.component := by
      have hmap := placed_planComponents .neither ⟨[], []⟩ components
      rw [List.map_nil, List.nil_append] at hmap
      rw [show (plan .neither components).placed.map Placed.component = _ from hmap]
      exact List.mem_filter.mpr ⟨hcomponent, hactive⟩
    obtain ⟨x, hx, rfl⟩ := List.mem_map.mp hplaced
    exact hrep.pool_once hplaces (hdocuments .subnet) hx (hcomponentswf _ hcomponent) hd

end

end Aws

end LambdaStack
