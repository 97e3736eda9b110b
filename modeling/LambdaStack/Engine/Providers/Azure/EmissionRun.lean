/-
# A run of the Azure builder follows its plan

The parts of the component loop after the subnet: the availability set and the machines
with their interfaces and public IPs. Together with the subnet they keep the invariant,
so the documents of a whole run are those of the plan.
-/

import LambdaStack.Engine.Providers.Azure.EmissionDocs

namespace LambdaStack

open Lib BuildM

namespace Azure.Emission

section

variable {env : BuilderEnv} {b : InfrastructureBuilder} {fixed : Fixed} {s s' : Store}
  {ids : List DocId} {id : DocId} {requests : Requests} {p : Progress} {q : Plan}
  {changing : Set String}

/-! ## The availability set of a component -/

/-- An emitted availability set is the one of its name. -/
theorem Represents.mem_of_selectSet (h : Represents env b fixed s p requests q) {name : Val}
    (hmem : id ∈ p.ids)
    (hholds : Holds? (kindAndNameAre availabilitySetKind name (s.doc id)) = true) :
    ∃ n, name.str? = some n ∧ (id, n) ∈ requests .availabilitySet := by
  obtain ⟨hkind, hattr⟩ := kindAndNameAre_eq_ok_true.mp (holds?_eq_true.mp hholds)
  obtain ⟨own, hown, heq⟩ := attrIs_eq_ok.mp hattr
  have hid : id ∈ (requests .availabilitySet).map Prod.fst := by
    rw [← (h.ledger .availabilitySet).order]
    exact List.mem_filter.mpr ⟨hmem, holds?_kindIs.mpr hkind⟩
  obtain ⟨⟨other, n⟩, he, rfl⟩ := List.mem_map.mp hid
  obtain ⟨shown, hshown, htext⟩ := Val.attrStr?_eq_some.mp (h.sets _ he)
  cases hown.symm.trans hshown
  obtain ⟨type, rfl⟩ := Val.str?_eq_some.mp htext
  exact ⟨n, str_pyEq_eq_true.mp heq, he⟩

/-- An availability set that has not been emitted yet. -/
theorem Represents.issueSet (h : Represents env b fixed s p requests q) {n : String} {u : Unit}
    (hmem : id ∈ b.docs) (hkind : (s.doc id).IsKind availabilitySetKind)
    (hholds : Holds? (kindAndNameAre availabilitySetKind (.str n) (s.doc id)) = true)
    (hnone : ∀ id ∈ p.ids,
      ¬ (Holds? ∘ (kindAndNameAre availabilitySetKind (.str n) ∘ s.doc)) id = true)
    (hfind : b.docs.find? (Holds? ∘ (kindAndNameAre availabilitySetKind (.str n) ∘ s.doc)) =
      some id)
    (hset : setSpecAttr id "name" (availabilitySetName env b n) s = .ok (u, s'))
    (component : Option String) :
    ∃ requests', Keeps {availabilitySetKind} s s' ∧ (∀ k, requests k ⊆ requests' k) ∧
      Got (requests' .availabilitySet) (some id) (some n) ∧
      Represents env b fixed s' (p.append id component) requests'
        { q with sets := addSet q.sets (some n) } := by
  have hassigned := assigned_setSpecAttr hkind (by decide) hset
  have hlt := h.docs id hmem
  have hnew : id ∉ p.ids := fun hid => hnone id hid hholds
  obtain ⟨own, hown, heq⟩ :=
    attrIs_eq_ok.mp (kindAndNameAre_eq_ok_true.mp (holds?_eq_true.mp hholds)).2
  rw [pyEq_str_eq_true] at heq
  have hsets : q.sets = (requests .availabilitySet).map Prod.snd :=
    (h.requested .availabilitySet).symm
  have hnotin : n ∉ q.sets := by
    rw [hsets]
    intro hin
    obtain ⟨⟨other, m⟩, he, rfl⟩ := List.mem_map.mp hin
    obtain ⟨hother, hotherKind⟩ := (h.ledger .availabilitySet).mem_ids he
    apply hnone other hother
    apply holds?_eq_true.mpr
    apply kindAndNameAre_eq_ok_true.mpr
    obtain ⟨shown, hshown, htext⟩ := Val.attrStr?_eq_some.mp (h.sets _ he)
    exact ⟨hotherKind, attrIs_eq_ok.mpr ⟨shown, hshown, pyEq_str_eq_true.mpr htext⟩⟩
  have hissued : Issued none (requests .availabilitySet ++ [(id, n)]) := by
    have hold := (h.ledger .availabilitySet).issued
    change ((requests .availabilitySet ++ [(id, n)]).map Prod.fst).Nodup
    rw [List.map_append, List.nodup_append]
    refine ⟨hold, List.nodup_singleton _, ?_⟩
    rintro other hother _ hid rfl
    obtain ⟨e, he, rfl⟩ := List.mem_map.mp hother
    rw [List.map_singleton, List.mem_singleton] at hid
    have heq : e.1 = id := hid
    apply hnew
    rw [← heq]
    exact ((h.ledger .availabilitySet).mem_ids (r := e.2) he).1
  have hshows : Shows (fieldsOf env b fixed.replaced .availabilitySet n) (s'.doc id) := by
    apply shows_of_forall
    refine List.forall_mem_singleton.mpr ?_
    rw [hassigned.read]
    rfl
  have hkeep : Keeps {Requested.availabilitySet.kind} s s' := hassigned.keep
  have hledger := ledger_append Requested.kind_injective h.ledger h.allocated hkeep
    hassigned.frame hissued hassigned.isKind hshows
  refine ⟨requests.add .availabilitySet id n, hassigned.keep,
    fun k => requests.subset_add .availabilitySet k id n, ⟨id, rfl, by simp⟩, ?_⟩
  have hkept := h.sets_keeps hassigned.keep
  exact {
    toTracked := by
      simpa using (h.toTracked.keeps hassigned.keep).append (hlt.trans_le hassigned.keep.next)
    ledger := fun k => by simpa using hledger k
    requested := fun k => by
      have hk := h.requested k
      cases k <;> simp_all [Requests.add, requestsOf, addSet]
    sets := by
      rw [Requests.add_self]
      intro e he
      rcases List.mem_append.mp he with he | he
      · exact hkept e he
      · rw [List.mem_singleton.mp he, Val.attrStr?, (hassigned.keep.doc id hlt).name, hown]
        exact heq
    setDocs := by
      rw [Requests.add_self]
      intro e he
      rcases List.mem_append.mp he with he | he
      · exact h.setDocs_keeps hassigned.keep e he
      · rw [List.mem_singleton.mp he, h.find?_keeps hassigned.keep]
        exact hfind
    copies := by
      rw [requests.add_ne (by decide)]
      exact h.copies
    nsg := fun htrue => by
      rw [requests.add_ne (by decide)]
      exact h.nsg htrue }

/-- A component gets the availability set the plan says. -/
theorem Represents.availabilitySetFor (h : Represents env b fixed s p requests q)
    {componentKey : String} {componentValue : Val} {availabilitySet : Option DocId}
    {p' : Progress}
    (hrun : b.availabilitySetFor env componentKey componentValue p s =
      .ok ((availabilitySet, p'), s')) :
    ∃ requests', Keeps {availabilitySetKind} s s' ∧ (∀ k, requests k ⊆ requests' k) ∧
      Got (requests' .availabilitySet) availabilitySet (setOf fixed.docs componentValue) ∧
      Represents env b fixed s' p' requests'
        { q with sets := addSet q.sets (setOf fixed.docs componentValue) } := by
  unfold InfrastructureBuilder.availabilitySetFor at hrun
  unfold setOf
  cases hname : componentValue.attr? "availability_set" with
  | none =>
      rw [hname] at hrun
      obtain ⟨heq, rfl⟩ := BuildM.pure_eq_ok.mp hrun
      cases heq
      exact ⟨requests, .refl _ _, fun _ => List.Subset.refl _, rfl, h⟩
  | some name =>
      simp only [hname, BuildM.bind_eq_ok] at hrun
      obtain ⟨found, s₀, hselect, hrun⟩ := hrun
      obtain ⟨hfound, rfl⟩ := reads_eq_ok.mp hselect
      have hfound : found = p.ids.find? _ := selectFirst_eq_ok hfound
      cases found with
      | some id =>
          obtain ⟨heq, rfl⟩ := BuildM.pure_eq_ok.mp hrun
          cases heq
          have hholds := List.find?_some hfound.symm
          obtain ⟨n, hn, hmem⟩ :=
            h.mem_of_selectSet (List.mem_of_find?_eq_some hfound.symm) hholds
          obtain ⟨type, rfl⟩ := Val.str?_eq_some.mp hn
          obtain ⟨doc, hdoc⟩ := Option.isSome_iff_exists.mp
            ((h.find?_iff availabilitySetKind (.str n)).symm.trans (by rw [h.setDocs _ hmem]; rfl))
          have hin : n ∈ q.sets := by
            rw [← show (requests .availabilitySet).map Prod.snd = q.sets from
              h.requested .availabilitySet]
            exact List.mem_map_of_mem (f := Prod.snd) hmem
          simp only [kindAndNameAre_str_class, hdoc, Val.asStr, Except.toOption, addSet, if_pos hin]
          exact ⟨requests, .refl _ _, fun _ => List.Subset.refl _, ⟨id, rfl, hmem⟩, h⟩
      | none =>
          have hnone := List.find?_eq_none.mp hfound.symm
          simp only [InfrastructureBuilder.getAvailabilitySet, BuildM.bind_eq_ok] at hrun
          obtain ⟨created, s₁, ⟨own, _, hread, hcreate⟩, hrun⟩ := hrun
          obtain ⟨hown, rfl⟩ := reads_eq_ok.mp hread
          have hown := selectFirst_eq_ok hown
          have hiff := h.find?_iff availabilitySetKind name
          cases own with
          | none =>
              obtain ⟨rfl, rfl⟩ := BuildM.pure_eq_ok.mp hcreate
              obtain ⟨heq, rfl⟩ := BuildM.pure_eq_ok.mp hrun
              cases heq
              rw [← hown] at hiff
              have hdocs := Option.isNone_iff_eq_none.mp (Option.isSome_eq_false_iff.mp hiff.symm)
              simp only [hdocs, addSet]
              exact ⟨requests, .refl _ _, fun _ => List.Subset.refl _, rfl, h⟩
          | some id =>
              have hmem := List.mem_of_find?_eq_some hown.symm
              have hholds := List.find?_some hown.symm
              have hkind : (s.doc id).IsKind availabilitySetKind :=
                (kindAndNameAre_eq_ok_true.mp (holds?_eq_true.mp hholds)).1
              simp only [BuildM.bind_eq_ok, lift_eq_ok, Val.asStr_eq_ok] at hcreate
              obtain ⟨n, _, ⟨hn, rfl⟩, _, s₂, hset, hpure⟩ := hcreate
              obtain ⟨type, rfl⟩ := Val.str?_eq_some.mp hn
              rw [kindAndNameAre_str_class] at hown hholds hnone hiff
              obtain ⟨rfl, rfl⟩ := BuildM.pure_eq_ok.mp hpure
              obtain ⟨heq, rfl⟩ := BuildM.pure_eq_ok.mp hrun
              cases heq
              rw [← hown] at hiff
              obtain ⟨doc, hdoc⟩ := Option.isSome_iff_exists.mp hiff.symm
              simp only [kindAndNameAre_str_class, hdoc, Val.asStr, Except.toOption]
              exact h.issueSet hmem hkind hholds hnone hown.symm hset (some componentKey)

/-! ## The machines of a component -/

/-- A copy of a machine definition with what a machine gets of its own. -/
theorem getVm_assigned {componentKey : String} {vmConfig vm : DocId}
    {availabilitySet : Option DocId} {networkInterfaceName : Val} {index : Nat}
    (hkind : (s.doc vmConfig).IsKind vmKind) (hset : ∀ set ∈ availabilitySet, set < s.next)
    (hrun : b.getVm env componentKey vmConfig availabilitySet networkInterfaceName index s =
      .ok (vm, s')) :
    ∃ s₁ fields, s₁ = s.alloc (s.doc vmConfig) ∧ vm = s.next ∧ Assigned vm vmKind fields s₁ s' ∧
      fields.lookup "name" = some (b.indexed env "vm" index componentKey) ∧
      fields.lookup "network_interface_name" = some networkInterfaceName ∧
      ∀ set ∈ availabilitySet,
        fields.lookup "availability_set_name" = (s.doc set).specAttr? "name" := by
  simp only [InfrastructureBuilder.getVm, BuildM.bind_eq_ok, readDoc, reads_eq_ok, newDoc_eq_ok,
    lift_eq_ok, appendTags, specAttr_eq_ok] at hrun
  obtain ⟨copy, _, ⟨hcopy, rfl⟩, id, s₁, ⟨rfl, rfl⟩, _, _, ⟨-, rfl⟩, _, s₂, hfields, hrun⟩ := hrun
  cases hcopy
  have hlt : s.next < (s.alloc (s.doc vmConfig)).next := Nat.lt_succ_self _
  have hkind₁ : ((s.alloc (s.doc vmConfig)).doc s.next).IsKind vmKind := by
    rw [s.alloc_doc_self]
    exact hkind
  have h₂ := assigned_setSpecAttrs hlt hkind₁ (by simp) (by simp) hfields
  obtain ⟨_, s₃, ⟨_, _, ⟨-, rfl⟩, _, _, ⟨-, rfl⟩, htags⟩, _, _, ⟨-, rfl⟩, hrun⟩ := hrun
  have h₃ := h₂.trans (assigned_setSpecAttr h₂.isKind (by decide) htags)
  split at hrun
  · simp [lift_eq_ok] at hrun
  · simp only [BuildM.bind_eq_ok, lift_eq_ok] at hrun
    obtain ⟨_, _, ⟨-, rfl⟩, _, s₄, hkey, hrun⟩ := hrun
    have h₄ := h₃.trans (assigned_setSpecAttr h₃.isKind (by decide) hkey)
    cases availabilitySet with
    | none =>
        obtain ⟨rfl, rfl⟩ := BuildM.pure_eq_ok.mp hrun
        exact ⟨_, _, rfl, rfl, h₄, rfl, rfl, by simp⟩
    | some set =>
        simp only [BuildM.bind_eq_ok, specAttr_eq_ok] at hrun
        obtain ⟨name, _, ⟨hname, rfl⟩, _, s₅, hassign, hpure⟩ := hrun
        obtain ⟨rfl, rfl⟩ := BuildM.pure_eq_ok.mp hpure
        have h₅ := h₄.trans (assigned_setSpecAttr h₄.isKind (by decide) hassign)
        refine ⟨_, _, rfl, rfl, h₅, rfl, rfl, ?_⟩
        rintro other hother
        cases hother
        have hlt' : set < s.next := hset set rfl
        have hsame : s₄.doc set = s.doc set := by
          rw [h₄.frame.2 set (hlt'.trans hlt) (Nat.ne_of_lt hlt'), s.alloc_doc_of_lt hlt']
        rw [← hsame, hname]
        rfl

/-- A copy of a machine definition is emitted for a machine. -/
theorem Recorded.machine (h : Recorded env b fixed s ids requests) {m : MachineRequest}
    {vmConfig vm : DocId} {availabilitySet : Option DocId}
    (hkind : (s.doc vmConfig).IsKind vmKind)
    (hset : Got (requests .availabilitySet) availabilitySet m.availabilitySet)
    (hrun : b.getVm env m.componentKey vmConfig availabilitySet (interfaceName env b m) m.index s =
      .ok (vm, s')) :
    Keeps {vmKind} s s' ∧ s.next ≤ vm ∧
      Recorded env b fixed s' (ids ++ [vm]) (requests.add .machine vm m) := by
  have hemitted : ∀ e ∈ requests .availabilitySet, e.1 < s.next := fun e he =>
    h.allocated e.1 ((h.ledger .availabilitySet).mem_ids (r := e.2) he).1
  have hsetLt : ∀ set ∈ availabilitySet, set < s.next := by
    intro set hmem
    cases hname : m.availabilitySet with
    | none =>
        rw [hname] at hset
        cases show availabilitySet = none from hset
        cases hmem
    | some name =>
        rw [hname] at hset
        obtain ⟨id, rfl, he⟩ := hset
        cases hmem
        exact hemitted _ he
  obtain ⟨s₁, fields, rfl, rfl, hassigned, hname, hinterface, havailable⟩ :=
    getVm_assigned hkind hsetLt hrun
  have hkeep : Keeps {Requested.machine.kind} s s' :=
    (Keeps.alloc {vmKind} s (s.doc vmConfig)).trans hassigned.keep
  have hframe : s.Frame {s.next} s' := (s.frame_alloc {s.next} _).trans hassigned.frame
  have hnext : s.next < s'.next :=
    Nat.lt_of_lt_of_le (Nat.lt_succ_self s.next) hassigned.keep.next
  have hread : ∀ key value, fields.lookup key = some value →
      (s'.doc s.next).specAttr? key = some value := by
    intro key value hvalue
    rw [hassigned.read, hvalue, Option.some_or]
  have hshows : Shows (fieldsOf env b fixed.replaced .machine m) (s'.doc s.next) := by
    apply shows_of_forall
    intro field hfield
    change field ∈ machineFields env b m at hfield
    rw [machineFields, List.mem_append] at hfield
    rcases hfield with hfield | hfield
    · rcases List.mem_cons.mp hfield with rfl | hfield
      · exact hread _ _ hname
      · rw [List.mem_singleton.mp hfield]
        exact hread _ _ hinterface
    · obtain ⟨name, hmem, rfl⟩ := List.mem_map.mp hfield
      rw [Option.mem_toList] at hmem
      rw [hmem] at hset
      obtain ⟨set, rfl, he⟩ := hset
      apply hread
      rw [havailable set rfl]
      exact (h.ledger .availabilitySet).specAttr?_eq he "name" rfl
  exact ⟨hkeep, Nat.le_refl _, (h.toTracked.keeps hkeep).append hnext,
    ledger_add Requested.kind_injective h.ledger h.allocated hkeep hframe (Nat.le_refl _)
      hassigned.isKind hshows⟩

/-- `nsg.specification.name` of the loop variable. -/
theorem Recorded.nsgName_eq (h : Recorded env b fixed s ids requests) {m : MachineRequest}
    (hnsg : b.useNetworkSecurityGroups.truthy = true →
      Got (requests .group) p.nsg m.group ∧ (requests .group).map Prod.snd = m.requests)
    {name : Val} (hrun : b.nsgName p s = .ok (name, s')) :
    name = groupNameOf env b fixed.replaced m ∧ s' = s := by
  unfold InfrastructureBuilder.nsgName at hrun
  unfold groupNameOf
  cases hgroups : b.useNetworkSecurityGroups.truthy with
  | false =>
      simp only [hgroups, Bool.false_eq_true, if_false] at hrun ⊢
      obtain ⟨rfl, rfl⟩ := BuildM.pure_eq_ok.mp hrun
      exact ⟨rfl, rfl⟩
  | true =>
      obtain ⟨hgot, hrequests⟩ := hnsg hgroups
      simp only [hgroups, if_true] at hrun ⊢
      cases hgroup : m.group with
      | none =>
          rw [hgroup] at hgot
          rw [show p.nsg = none from hgot] at hrun
          simp [lift_eq_ok] at hrun
      | some r =>
          rw [hgroup] at hgot
          obtain ⟨id, hid, hmem⟩ := hgot
          rw [hid] at hrun
          obtain ⟨hread, rfl⟩ := specAttr_eq_ok.mp hrun
          have hname := (h.ledger .group).specAttr?_eq hmem "name" rfl
          rw [hrequests] at hname
          exact ⟨Option.some.inj (hread.symm.trans hname), rfl⟩

/-- The kinds of the documents a machine brings. -/
def machineKinds : Set String := {publicIpKind, interfaceKind, vmKind}

/-- The public IP of a machine, where there is one. -/
theorem Recorded.publicIpFor (h : Recorded env b fixed s p.ids requests) {m : MachineRequest}
    {vmConfig : DocId} {name : Val} {p' : Progress}
    (hrun : b.publicIpFor env m.componentKey vmConfig m.index p s = .ok ((name, p'), s')) :
    ∃ requests', Keeps machineKinds s s' ∧ p'.nsg = p.nsg ∧
      name = (if b.usePublicIps.truthy then publicIpName env b m else .str "") ∧
      (∀ k ≠ .publicIp, requests' k = requests k) ∧
      (requests' .publicIp).map Prod.snd = (requests .publicIp).map Prod.snd ++
        (if b.usePublicIps.truthy then [m] else []) ∧
      (∀ k, requests k ⊆ requests' k) ∧ Recorded env b fixed s' p'.ids requests' := by
  unfold InfrastructureBuilder.publicIpFor at hrun
  cases hpublic : b.usePublicIps.truthy with
  | false =>
      simp only [hpublic, Bool.false_eq_true, if_false] at hrun ⊢
      obtain ⟨heq, rfl⟩ := BuildM.pure_eq_ok.mp hrun
      cases heq
      exact ⟨requests, .refl _ _, rfl, rfl, fun _ _ => rfl, by simp,
        fun _ => List.Subset.refl _, h⟩
  | true =>
      simp only [hpublic, if_true, BuildM.bind_eq_ok] at hrun ⊢
      obtain ⟨publicIp, s₁, hget, name', _, hread, hpure⟩ := hrun
      obtain ⟨hname, rfl⟩ := specAttr_eq_ok.mp hread
      obtain ⟨heq, rfl⟩ := BuildM.pure_eq_ok.mp hpure
      cases heq
      simp only [InfrastructureBuilder.getPublicIp, BuildM.bind_eq_ok, specAttr_eq_ok,
        lift_eq_ok] at hget
      obtain ⟨_, _, ⟨-, rfl⟩, _, _, ⟨-, rfl⟩, _, _, ⟨-, rfl⟩, _, _, ⟨-, rfl⟩, _, _, ⟨-, rfl⟩,
        hconfig⟩ := hget
      obtain ⟨hkeep, -, -, hshows, h₁⟩ :=
        h.config (k := .publicIp) (by decide) (by decide) (by simp) hconfig (r := m)
          (by simp [fieldsOf, publicIpName, List.lookup_cons])
      refine ⟨requests.add .publicIp publicIp m,
        hkeep.mono (by simp [machineKinds, Requested.kind]), rfl,
        Option.some.inj (hname.symm.trans (hshows "name" _ rfl)),
        fun k hk => requests.add_ne hk _ _, by simp,
        fun k => requests.subset_add .publicIp k publicIp m, ?_⟩
      simpa using h₁

/-- One machine with its interface and public IP. -/
theorem Represents.buildMachine (h : Represents env b fixed s p requests q) {m : MachineRequest}
    (hrequests : m.requests = q.requests) (hgroup : m.group = q.requests.getLast?)
    {vmConfig subnet : DocId} (hvm : vmConfig < s.next) (hvmKind : (s.doc vmConfig).IsKind vmKind)
    (hsubnet : (subnet, m.subnet) ∈ requests .subnet) {availabilitySet : Option DocId}
    (hset : Got (requests .availabilitySet) availabilitySet m.availabilitySet) {p' : Progress}
    (hrun : b.buildMachine env m.componentKey vmConfig subnet availabilitySet p m.index s =
      .ok (p', s')) :
    ∃ requests', Keeps machineKinds s s' ∧ (∀ k, requests k ⊆ requests' k) ∧
      Represents env b fixed s' p' requests' { q with machines := q.machines ++ [m] } := by
  rw [InfrastructureBuilder.buildMachine, BuildM.bind_eq_ok] at hrun
  obtain ⟨⟨publicIp, p₁⟩, s₁, hpublicIp, hrun⟩ := hrun
  simp only [BuildM.bind_eq_ok] at hrun
  obtain ⟨nsgName', s₂, hnsg, subnetName', s₃, hread₃, nic, s₄, hnic, nicName, s₅, hread₅, vm,
    s₆, hvmRun, hpure⟩ := hrun
  obtain ⟨requests₁, hkeep₁, hnsg₁, rfl, hother₁, hpublic₁, hsub₁, h₁⟩ :=
    h.toRecorded.publicIpFor hpublicIp
  have hgroups : b.useNetworkSecurityGroups.truthy = true →
      Got (requests₁ .group) p₁.nsg m.group ∧ (requests₁ .group).map Prod.snd = m.requests := by
    intro htrue
    rw [hother₁ .group (by decide), hnsg₁, hgroup, hrequests, h.requested .group]
    exact ⟨h.nsg htrue, by simp [requestsOf, htrue]⟩
  obtain ⟨rfl, rfl⟩ := h₁.nsgName_eq hgroups hnsg
  obtain ⟨hsubnetName, rfl⟩ := specAttr_eq_ok.mp hread₃
  obtain ⟨hnicName, rfl⟩ := specAttr_eq_ok.mp hread₅
  obtain ⟨rfl, rfl⟩ := BuildM.pure_eq_ok.mp hpure
  obtain rfl : subnetName' =
      subnetName env b (current (fixed.replaced .subnet) m.requests m.subnet) := by
    have hmem : (subnet, m.subnet) ∈ requests₁ .subnet := hsub₁ .subnet hsubnet
    have hname := (h₁.ledger .subnet).specAttr?_eq hmem "name" rfl
    rw [hother₁ .subnet (by decide), h.requested .subnet] at hname
    rw [hrequests]
    exact Option.some.inj (hsubnetName.symm.trans hname)
  simp only [InfrastructureBuilder.getNetworkInterface, BuildM.bind_eq_ok, specAttr_eq_ok,
    lift_eq_ok] at hnic
  obtain ⟨_, _, ⟨-, rfl⟩, _, _, ⟨-, rfl⟩, hconfig⟩ := hnic
  obtain ⟨hkeep₄, -, -, hshows₄, h₄⟩ :=
    h₁.config (k := .interface) (by decide) (by decide) (by simp) hconfig (r := m)
      (by simp [fieldsOf, interfaceFields, interfaceName, List.lookup_cons])
  obtain rfl : nicName = interfaceName env b m :=
    Option.some.inj (hnicName.symm.trans (hshows₄ "name" _ rfl))
  have hvm₁ := hvm.trans_le hkeep₁.next
  have hkind₄ := (hkeep₄.isKind hvm₁ vmKind).mpr ((hkeep₁.isKind hvm vmKind).mpr hvmKind)
  have hset₄ : Got (requests₁.add .interface nic m .availabilitySet) availabilitySet
      m.availabilitySet := by
    rw [Requests.add_ne _ (by decide), hother₁ .availabilitySet (by decide)]
    exact hset
  obtain ⟨hkeep₆, hnew, h₆⟩ := h₄.machine hkind₄ hset₄ hvmRun
  let requests₂ : Requests := requests₁.add .interface nic m
  have hsub : ∀ k, requests k ⊆ requests₂.add .machine vm m k := fun k =>
    List.Subset.trans (hsub₁ k) (List.Subset.trans (requests₁.subset_add .interface k nic m)
      (requests₂.subset_add .machine k vm m))
  have hkeep : Keeps machineKinds s s₆ :=
    (hkeep₁.trans (hkeep₄.mono (by simp [machineKinds, Requested.kind]))).trans
      (hkeep₆.mono (by simp [machineKinds]))
  have hsame : ∀ k, k ≠ .publicIp → k ≠ .interface → k ≠ .machine →
      requests₂.add .machine vm m k = requests k := by
    intro k hpublic hinterface hmachine
    rw [requests₂.add_ne hmachine]
    exact (requests₁.add_ne hinterface _ _).trans (hother₁ k hpublic)
  refine ⟨requests₂.add .machine vm m, hkeep, hsub, ?_⟩
  exact {
    toRecorded := by simpa using h₆
    requested := fun k => by
      have hk := h.requested k
      cases k with
      | publicIp =>
          rw [requests₂.add_ne (by decide),
            show requests₂ .publicIp = requests₁ .publicIp from requests₁.add_ne (by decide) _ _,
            hpublic₁, hk]
          cases hpublic : b.usePublicIps.truthy <;> simp [requestsOf, hpublic]
      | interface =>
          rw [requests₂.add_ne (by decide),
            show requests₂ .interface = _ from requests₁.add_self .interface nic m,
            hother₁ _ (by decide), List.map_append, hk]
          rfl
      | machine =>
          rw [Requests.add_self,
            show requests₂ .machine = requests₁ .machine from requests₁.add_ne (by decide) _ _,
            hother₁ _ (by decide), List.map_append, hk]
          rfl
      | _ =>
          rw [hsame _ (by decide) (by decide) (by decide)]
          exact hk
    sets := by
      rw [hsame _ (by decide) (by decide) (by decide)]
      exact h.sets_keeps hkeep
    setDocs := by
      rw [hsame _ (by decide) (by decide) (by decide)]
      exact h.setDocs_keeps hkeep
    copies := by
      rw [Requests.add_self]
      intro e he
      rcases List.mem_append.mp he with he | he
      · rw [show requests₂ .machine = requests₁ .machine from requests₁.add_ne (by decide) _ _,
          hother₁ _ (by decide)] at he
        exact h.copies e he
      · rw [List.mem_singleton.mp he]
        intro hmem
        exact absurd (h₄.docs vm hmem) (Nat.not_lt.mpr hnew)
    nsg := fun htrue => by
      rw [hsame _ (by decide) (by decide) (by decide)]
      have hnsg := h.nsg htrue
      rw [← hnsg₁] at hnsg
      exact hnsg }

/-- The `index`-th machine of a component. -/
def machineAt (componentKey : String) (q : List SubnetRequest × SubnetRequest)
    (availabilitySet : Option String) (index : Nat) : MachineRequest :=
  ⟨componentKey, index, q.2, q.1.getLast?, q.1, availabilitySet⟩

theorem machinesOf_eq (componentKey : String) (q : List SubnetRequest × SubnetRequest)
    (availabilitySet : Option String) (count : Nat) :
    machinesOf componentKey q availabilitySet count =
      (List.range count).map (machineAt componentKey q availabilitySet) := rfl

/-- The machines of a component from one on. -/
theorem Represents.buildMachines (h : Represents env b fixed s p requests q)
    {componentKey : String} {r : SubnetRequest} {availabilitySet : Option String}
    {vmConfig subnet : DocId} (hvm : vmConfig < s.next) (hvmKind : (s.doc vmConfig).IsKind vmKind)
    (hsubnet : (subnet, r) ∈ requests .subnet) {set : Option DocId}
    (hset : Got (requests .availabilitySet) set availabilitySet) {index remaining : Nat}
    {p' : Progress}
    (hrun : b.buildMachines env componentKey vmConfig subnet set p index remaining s =
      .ok (p', s')) :
    ∃ requests', Represents env b fixed s' p' requests' { q with
      machines := q.machines ++ (List.range' index remaining).map
        (machineAt componentKey (q.requests, r) availabilitySet) } := by
  induction remaining generalizing s p requests q index with
  | zero =>
      obtain ⟨rfl, rfl⟩ := BuildM.pure_eq_ok.mp hrun
      exact ⟨requests, by simpa using h⟩
  | succ remaining ih =>
      rw [InfrastructureBuilder.buildMachines, BuildM.bind_eq_ok] at hrun
      obtain ⟨p₁, s₁, hfirst, hrest⟩ := hrun
      obtain ⟨requests₁, hkeep, hsub, h₁⟩ :=
        h.buildMachine (m := machineAt componentKey (q.requests, r) availabilitySet index) rfl rfl
          hvm hvmKind hsubnet hset hfirst
      obtain ⟨requests₂, h₂⟩ := ih h₁ (hvm.trans_le hkeep.next)
        ((hkeep.isKind hvm vmKind).mpr hvmKind) (hsub .subnet hsubnet)
        (hset.mono (hsub .availabilitySet)) hrest
      refine ⟨requests₂, ?_⟩
      rw [List.range'_succ, List.map_cons, ← List.singleton_append, ← List.append_assoc]
      exact h₂

/-! ## The components -/

/-- The machine definition of a component. -/
theorem Represents.machineDefinition (h : Represents env b fixed s p requests q)
    {componentValue enabled : Val} {vmConfig : DocId} {s₁ : Store} {u : Unit}
    (hmachine : getVirtualMachine .azure env b.toBuilderDocs componentValue s = .ok (vmConfig, s₁))
    (hset : setSpecAttr vmConfig "use_cloud_init_custom_data" enabled s₁ = .ok (u, s')) :
    vmConfig < s'.next ∧ (s'.doc vmConfig).IsKind vmKind ∧
      Represents env b fixed s' p requests q := by
  obtain ⟨hkeep₁, hlt₁, hmachineOrNull, -⟩ := getVirtualMachine_keeps h.docs h.unique hmachine
  obtain ⟨hframe₁, hmodel⟩ := getVirtualMachine_frame h.docs hmachine
  obtain ⟨hkeep₂, hkind₂, -⟩ := setSpecAttr_machine hmachineOrNull (by decide) hset
  obtain ⟨doc, -, rfl⟩ := setSpecAttr_eq_ok.mp hset
  have hframe := hframe₁.trans (s₁.frame_write (Set.mem_singleton vmConfig) doc)
  refine ⟨hlt₁, hkind₂, h.machineStep (hkeep₁.trans hkeep₂) ?_⟩
  intro id hid hout
  apply hframe.2 id hid
  rintro rfl
  rcases hmodel with hmem | hle
  · exact hout hmem
  · exact absurd hid (Nat.not_lt.mpr hle)

theorem Represents.buildComponent (h : Represents env b fixed s p requests q)
    {component : String × Val} {p' : Progress}
    (hrun : b.buildComponent env fixed.cloudInit p component.1 component.2 s = .ok (p', s')) :
    ∃ requests', Represents env b fixed s' p' requests'
      (planComponent (fixed.replaced .subnet) fixed.docs q component) := by
  simp only [InfrastructureBuilder.buildComponent, BuildM.bind_eq_ok, lift_eq_ok] at hrun
  obtain ⟨count, _, ⟨hcount, rfl⟩, inactive, _, ⟨hinactive, rfl⟩, hrun⟩ := hrun
  unfold planComponent
  split at hrun
  · next hidle =>
      obtain ⟨rfl, rfl⟩ := BuildM.pure_eq_ok.mp hrun
      rw [if_pos (machineCount_idle hcount (hidle ▸ hinactive))]
      exact ⟨requests, h⟩
  · next hactive =>
      simp only [BuildM.bind_eq_ok, lift_eq_ok, specAttr_eq_ok] at hrun
      obtain ⟨vmConfig, s₁, hmachine, enabled, _, ⟨-, rfl⟩, _, s₂, hset, addressPool, _,
        ⟨hpool, rfl⟩, ⟨subnet, p₃⟩, s₃, hsubnet, ⟨set, p₄⟩, s₄, havailable, vmCount, _,
        ⟨hvmCount, rfl⟩, hrun⟩ := hrun
      obtain ⟨hmachines, hpositive⟩ :=
        machineCount_active hcount (Bool.eq_false_iff.mpr hactive ▸ hinactive) hvmCount
      rw [hmachines, if_neg hpositive]
      have hpoolOf : poolOf component.2 = addressPool := by
        rw [poolOf, hpool]
        rfl
      rw [hpoolOf]
      obtain ⟨hvm, hvmKind, h₂⟩ := h.machineDefinition hmachine hset
      obtain ⟨requests₃, hkeep₃, -, hmem, h₃⟩ := h₂.subnetFor hsubnet
      obtain ⟨requests₄, hkeep₄, hsub₄, hgot, h₄⟩ := h₃.availabilitySetFor havailable
      have hvm₃ := hvm.trans_le hkeep₃.next
      have hkind₃ := (hkeep₃.isKind hvm vmKind).mpr hvmKind
      obtain ⟨requests₅, h₅⟩ := h₄.buildMachines (hvm₃.trans_le hkeep₄.next)
        ((hkeep₄.isKind hvm₃ vmKind).mpr hkind₃) (hsub₄ .subnet hmem) hgot hrun
      refine ⟨requests₅, ?_⟩
      simp only [machinesOf_eq, List.range_eq_range']
      exact h₅

theorem Represents.buildComponents (h : Represents env b fixed s p requests q)
    {components : Entries} {p' : Progress}
    (hrun : b.buildComponents env fixed.cloudInit p components s = .ok (p', s')) :
    ∃ requests', Represents env b fixed s' p' requests'
      (planComponents (fixed.replaced .subnet) fixed.docs q components) := by
  induction components generalizing s p requests q with
  | nil =>
      obtain ⟨rfl, rfl⟩ := BuildM.pure_eq_ok.mp hrun
      exact ⟨requests, h⟩
  | cons component rest ih =>
      rw [InfrastructureBuilder.buildComponents, BuildM.bind_eq_ok] at hrun
      obtain ⟨p₁, s₁, hfirst, hrest⟩ := hrun
      obtain ⟨requests₁, h₁⟩ := h.buildComponent hfirst
      exact ih h₁ hrest

/-! ## The whole run -/

/-- A run makes four documents, builds the components and sets the distribution. -/
theorem run_cases {infrastructure : List Emitted} (hdocs : ∀ id ∈ b.docs, id < s.next)
    (hunique : ∀ id ∈ b.docs, (s.doc id).KeysUnique)
    (hrun : b.run env s = .ok (infrastructure, s')) :
    ∃ fixed components start s₁ p s₂, fixed.docs = b.docs.map s.doc ∧
      (∀ kind, fixed.own kind = ownDoc b.docs kind s) ∧
      componentsOf b.clusterModel = .ok components ∧
      List.Forall₂ (fun id kind => (s₁.doc id).IsKind kind ∧
          ∀ own, fixed.own kind = some own → id = own)
        ((Progress.mk start none).ids ++ [fixed.cloudInit]) startKinds ∧
      Represents env b fixed s₁ ⟨start, none⟩ (fun _ => []) ⟨[], [], []⟩ ∧
      b.buildComponents env fixed.cloudInit ⟨start, none⟩ components s₁ = .ok (p, s₂) ∧
      InfrastructureBuilder.setOsDistribution env fixed.cloudInit p s₂ = .ok ((), s') ∧
      (p.append fixed.cloudInit none).infrastructure = infrastructure := by
  simp only [InfrastructureBuilder.run, BuildM.bind_eq_ok, lift_eq_ok,
    InfrastructureBuilder.getResourceGroup, InfrastructureBuilder.getVirtualNetwork] at hrun
  obtain ⟨resourceGroup, s₁, ⟨_, _, ⟨-, rfl⟩, hresourceGroup⟩, vnet, s₂,
    ⟨_, _, ⟨-, rfl⟩, hvnet⟩, sharedStorage, s₃, hstorage, cloudInit, s₄, hcloudInit,
    value, _, ⟨hvalue, rfl⟩, components, _, ⟨hcomponents, rfl⟩, p, s₅, hloop, _, s₆, hos,
    hpure⟩ := hrun
  obtain ⟨heq, rfl⟩ := BuildM.pure_eq_ok.mp hpure
  obtain ⟨hkeep₁, -, hlt₁, hkind₁, hown₁, -⟩ :=
    configWith_eq_ok hdocs (by decide) (by simp) hresourceGroup
  have hdocs₁ : ∀ id ∈ b.docs, id < s₁.next := fun id hid => (hdocs id hid).trans_le hkeep₁.next
  obtain ⟨hkeep₂, -, hlt₂, hkind₂, hown₂, -⟩ :=
    configWith_eq_ok hdocs₁ (by decide) (by simp) hvnet
  have hdocs₂ : ∀ id ∈ b.docs, id < s₂.next := fun id hid => (hdocs₁ id hid).trans_le hkeep₂.next
  obtain ⟨hkeep₃, -, hlt₃, hkind₃, hown₃, -⟩ :=
    configWith_eq_ok hdocs₂ (by decide) (by simp) hstorage
  have hdocs₃ : ∀ id ∈ b.docs, id < s₃.next := fun id hid => (hdocs₂ id hid).trans_le hkeep₃.next
  obtain ⟨hkeep₄, -, hlt₄, hkind₄, hown₄, -⟩ :=
    configWith_eq_ok hdocs₃ (by decide) (by simp) hcloudInit
  have hstart : ∀ {changing s s'}, Keeps changing s s' → Keeps Set.univ s s' :=
    fun hkeep => hkeep.mono (Set.subset_univ _)
  have hkeep₃₄ := hstart hkeep₄
  have hkeep₂₄ := (hstart hkeep₃).trans hkeep₃₄
  have hkeep₁₄ := (hstart hkeep₂).trans hkeep₂₄
  have hkeep := (hstart hkeep₁).trans hkeep₁₄
  have hfound : ∀ {kind : String} {s₀ : Store} {id : DocId},
      ownDoc b.docs kind s₀ = ownDoc b.docs kind s →
      IsIssued (ownDoc b.docs kind s₀) s₀.next id →
      ∀ own, ownDoc b.docs kind s = some own → id = own := by
    intro kind s₀ id hsame hissued own hown
    rw [hsame, hown] at hissued
    exact hissued
  have hkeep₀₂ := (hstart hkeep₁).trans (hstart hkeep₂)
  have hkeep₀₃ := hkeep₀₂.trans (hstart hkeep₃)
  have hmade : List.Forall₂ (fun id kind => id < s₄.next ∧ (s₄.doc id).IsKind kind ∧
      ∀ own, ownDoc b.docs kind s = some own → id = own)
      [resourceGroup, vnet, sharedStorage, cloudInit] startKinds :=
    .cons ⟨hlt₁.trans_le hkeep₁₄.next, (hkeep₁₄.isKind hlt₁ _).mpr hkind₁, hfound rfl hown₁⟩
      (.cons ⟨hlt₂.trans_le hkeep₂₄.next, (hkeep₂₄.isKind hlt₂ _).mpr hkind₂,
          hfound (hkeep₁.ownDoc_eq hdocs _) hown₂⟩
        (.cons ⟨hlt₃.trans_le hkeep₃₄.next, (hkeep₃₄.isKind hlt₃ _).mpr hkind₃,
            hfound (hkeep₀₂.ownDoc_eq hdocs _) hown₃⟩
          (.cons ⟨hlt₄, hkind₄, hfound (hkeep₀₃.ownDoc_eq hdocs _) hown₄⟩ .nil)))
  have hemitted : ∀ id ∈ [resourceGroup, vnet, sharedStorage],
      id < s₄.next ∧ ∃ kind ∈ startKinds, (s₄.doc id).IsKind kind := by
    intro id hid
    obtain ⟨kind, hmem, hlt, hkind, -⟩ :=
      exists_of_mem_forall₂ hmade (List.mem_append_left [cloudInit] hid)
    exact ⟨hlt, kind, hmem, hkind⟩
  let fixed : Fixed := ⟨b.docs.map s.doc, fun kind => ownDoc b.docs kind s, cloudInit⟩
  refine ⟨fixed, components, [⟨resourceGroup, none⟩, ⟨vnet, none⟩, ⟨sharedStorage, none⟩], s₄, p,
    s₅, rfl, fun _ => rfl, by simp [componentsOf, hvalue, hcomponents],
    hmade.imp fun _ _ h => h.2, ?_, hloop, hos, heq⟩
  exact {
    docs := fun id hid => (hdocs id hid).trans_le hkeep.next
    unique := fun id hid => (hkeep.doc id (hdocs id hid)).unique (hunique id hid)
    allocated := fun id hid => (hemitted id hid).1
    own := hkeep.ownDoc_eq hdocs
    named := by
      rw [List.forall₂_map_right_iff, List.forall₂_same]
      intro id hid
      exact ⟨(hkeep.doc id (hdocs id hid)).kind, (hkeep.doc id (hdocs id hid)).name⟩
    cloudInit := hlt₄
    cloudInitKind := hkind₄
    ledger := fun k => .nil _ _ _ fun id hid hkind => by
      obtain ⟨-, kind, hmem, hisKind⟩ := hemitted id hid
      cases hisKind.symm.trans hkind
      exact kind_notMem_startKinds k hmem
    requested := fun k => by
      cases k <;> simp [requestsOf]
    sets := fun _ h => absurd h List.not_mem_nil
    setDocs := fun _ h => absurd h List.not_mem_nil
    copies := fun _ h => absurd h List.not_mem_nil
    nsg := fun _ => rfl }

/-- The data for the cloud is emitted with the distribution of the first machine. -/
theorem Represents.setOsDistribution (h : Represents env b fixed s p requests q) {u : Unit}
    (hrun : InfrastructureBuilder.setOsDistribution env fixed.cloudInit p s = .ok (u, s')) :
    Keeps {cloudInitKind} s s' ∧
      Represents env b fixed s' (p.append fixed.cloudInit none) requests q := by
  have hkeep := setOsDistribution_keeps h.cloudInitKind hrun
  have hout : ∀ k : Requested, k.kind ∉ ({cloudInitKind} : Set String) := by
    intro k hk
    apply kind_notMem_startKinds k
    rw [Set.mem_singleton_iff.mp hk]
    simp [startKinds]
  have h₁ := h.keeps hkeep hout
  have hother : ∀ k : Requested, ¬ (s'.doc fixed.cloudInit).IsKind k.kind := by
    intro k hk
    apply kind_notMem_startKinds k
    have hkind : k.kind = cloudInitKind := by simpa using hk.symm.trans h₁.cloudInitKind
    rw [hkind]
    simp [startKinds]
  exact ⟨hkeep, h₁.append_other h₁.cloudInit hother none⟩

/-- The documents a run emits for the components are those of the plan, and each shows
what the plan says. -/
theorem run_represents {infrastructure : List Emitted} (hdocs : ∀ id ∈ b.docs, id < s.next)
    (hunique : ∀ id ∈ b.docs, (s.doc id).KeysUnique)
    (hrun : b.run env s = .ok (infrastructure, s')) :
    ∃ fixed components requests nsg, fixed.docs = b.docs.map s.doc ∧
      (∀ kind, fixed.own kind = ownDoc b.docs kind s) ∧
      componentsOf b.clusterModel = .ok components ∧
      Represents env b fixed s' ⟨infrastructure, nsg⟩ requests
        (plan (fixed.replaced .subnet) fixed.docs components) := by
  obtain ⟨fixed, components, start, s₁, p, s₂, hfixed, hown, hcomponents, -, h₁, hloop, hos,
    rfl⟩ := run_cases hdocs hunique hrun
  obtain ⟨requests, h₂⟩ := h₁.buildComponents hloop
  obtain ⟨-, h₃⟩ := h₂.setOsDistribution hos
  exact ⟨fixed, components, requests, p.nsg, hfixed, hown, hcomponents, h₃⟩

end

end Azure.Emission

end LambdaStack
