/-
# The access to the file system

After the components the builder lets the subnets of the authorized autoscaling groups
reach the file system: it appends a rule to the default security group for each subnet
of each group. The search that should find a rule it has appended before compares the
port with a number, and the rules have the port as a string, so it finds none: a CIDR
block gets one rule for every time it is used.
-/

import LambdaStack.Engine.Providers.Aws.GroupRules
import LambdaStack.Engine.Providers.Aws.MountTargets

namespace LambdaStack

open Lib BuildM

namespace Aws

section

variable {env : Env} {b : InfrastructureBuilder} {fixed : Fixed} {s s' : Store}
  {ids infrastructure : List DocId} {requests : Requests} {p : Plan}

/-! ## The rules of the authorized groups -/

/-- The port of the file system, as a string or a number. -/
def isNfsPort (port : Val) : Bool := port.pyEq (.str "2049") || port.pyEq (.int 2049)

/-- A rule that lets a source in to the port of the file system. -/
def isNfsIngressRule (source rule : Val) : Bool :=
  (rule.attr? "direction").any (·.pyEq (.str "ingress")) &&
    (rule.attr? "destination_port_range").any isNfsPort &&
    (rule.attr? "source_address_prefix").any (·.pyEq source)

/-- The kind of the rules. -/
abbrev ruleKind : String := "infrastructure/security-group-rule"

/-- The fields of a rule that lets a block in. -/
def nfsFields (block : Val) : List (String × Val) :=
  [("direction", .str "ingress"), ("destination_port_range", .str "2049"),
    ("source_address_prefix", block)]

/-- The rule documents appended so far, each for its block. -/
structure RulesFor (s : Store) (added : List DocId) (blocks : List Val) : Prop where
  lt : ∀ id ∈ added, id < s.next
  shown : List.Forall₂ (fun id block => Shows (nfsFields block) (s.doc id)) added blocks

/-- The CIDR block of the one subnet of a name. -/
def IsBlockOf (s : Store) (infrastructure : List DocId) (subnetName block : Val) : Prop :=
  ∃ subnet, infrastructure.filter (Holds? ∘
      (InfrastructureBuilder.isSubnetNamed subnetName ∘ s.doc)) = [subnet] ∧
    (s.doc subnet).specAttr? "cidr_block" = some block

/-- Documents have been added, and none has changed. -/
abbrev OnlyAdds : Store → Store → Prop := Store.Evolves Eq

theorem IsBlockOf.before {subnetName block : Val}
    (hblock : IsBlockOf s' infrastructure subnetName block) (h : OnlyAdds s s')
    (hids : ∀ id ∈ infrastructure, id < s.next) :
    IsBlockOf s infrastructure subnetName block := by
  obtain ⟨subnet, hfilter, hcidr⟩ := hblock
  have hmem : subnet ∈ infrastructure := by
    have hsingle : subnet ∈ infrastructure.filter (Holds? ∘
        (InfrastructureBuilder.isSubnetNamed subnetName ∘ s'.doc)) := by simp [hfilter]
    exact (List.mem_filter.mp hsingle).1
  refine ⟨subnet, ?_, h.doc subnet (hids subnet hmem) ▸ hcidr⟩
  rw [← hfilter]
  refine List.filter_congr fun id hid => ?_
  simp only [Function.comp_apply, h.doc id (hids id hid)]

theorem RulesFor.keeps {added : List DocId} {blocks : List Val}
    (hrules : RulesFor s added blocks) (h : OnlyAdds s s') : RulesFor s' added blocks where
  lt id hid := (hrules.lt id hid).trans_le h.next_le
  shown := by
    refine ((List.forall₂_and_left added blocks).mpr ⟨hrules.lt, hrules.shown⟩).imp ?_
    rintro id block ⟨hlt, hshows⟩
    rwa [← h.doc id hlt]

/-- No rule that has been appended is found again. -/
theorem selectFirst_nfsRule {added : List DocId} {blocks specs : List Val} {source : Val}
    {found : Option Val} (hrules : RulesFor s added blocks)
    (hspecs : added.mapM (fun id => (s.doc id).getAttr "specification") = .ok specs)
    (h : selectFirst specs (InfrastructureBuilder.isNfsRuleFrom source) = .ok found) :
    found = none := by
  rw [selectFirst_eq_ok h, List.find?_eq_none]
  intro rule hrule hholds
  obtain ⟨id, hid, hspec⟩ := exists_of_mem_mapM hspecs hrule
  obtain ⟨block, -, hshows⟩ := exists_of_mem_forall₂ hrules.shown hid
  have hport : rule.attr? "destination_port_range" = some (.str "2049") := by
    have hread := hshows "destination_port_range" _ rfl
    rwa [Val.specAttr?, Val.getAttr_eq_ok.mp hspec] at hread
  rw [Function.comp_apply, holds?_eq_true, InfrastructureBuilder.isNfsRuleFrom] at hholds
  obtain ⟨own, -, hholds⟩ := Lib.bind_eq_ok.mp hholds
  split at hholds
  · obtain ⟨port, hread, hsame⟩ := Lib.bind_eq_ok.mp hholds
    rw [Val.getAttr_eq_ok, hport] at hread
    cases hread
    exact absurd (Except.ok.inj hsame) (by decide)
  · cases hholds

/-- One subnet name: a rule for the block of its subnet is appended, whatever there is. -/
theorem addNfsRule_eq_ok {added added' : List DocId} {blocks : List Val} {subnetName : Val}
    (hdocs : ∀ id ∈ b.docs, id < s.next) (hown : ∀ id ∈ b.docs, ¬ (s.doc id).IsKind ruleKind)
    (hrules : RulesFor s added blocks)
    (h : b.addNfsRule env infrastructure [] added subnetName s = .ok (added', s')) :
    OnlyAdds s s' ∧ ∃ block, IsBlockOf s infrastructure subnetName block ∧
      RulesFor s' added' (blocks ++ [block]) := by
  simp only [InfrastructureBuilder.addNfsRule, InfrastructureBuilder.specsOf, BuildM.bind_eq_ok,
    lift_eq_ok, List.nil_append] at h
  obtain ⟨subnet, _, hsubnet, cidrBlock, _, hcidr, specs, _, hread, found, _, ⟨hfound, rfl⟩, h⟩ :=
    h
  obtain ⟨hselect, rfl⟩ := reads_eq_ok.mp hsubnet
  obtain ⟨hblock, rfl⟩ := specAttr_eq_ok.mp hcidr
  obtain ⟨hspecs, rfl⟩ := reads_eq_ok.mp hread
  obtain rfl := selectFirst_nfsRule hrules hspecs hfound
  simp only [BuildM.bind_eq_ok, lift_eq_ok] at h
  obtain ⟨name, _, hname, _, _, ⟨-, rfl⟩, _, _, ⟨-, rfl⟩, rule, s₁, hconfig, h⟩ := h
  obtain ⟨-, rfl⟩ := specAttr_eq_ok.mp hname
  obtain ⟨rfl, rfl⟩ := BuildM.pure_eq_ok.mp h
  have hnone : ownDoc b.docs ruleKind s = none :=
    List.find?_eq_none.mpr fun id hid hholds => hown id hid (holds?_kindIs.mp hholds)
  obtain ⟨hkeep, hframe, hlt, -, hissued, hshows⟩ :=
    configWith_eq_ok hdocs (by decide) (by simp) hconfig
  rw [hnone] at hissued
  have hadds : OnlyAdds s s₁ :=
    ⟨hkeep.next, fun id hid => (hframe.2 id hid (hid.trans_le hissued).ne).symm⟩
  have hkept := hrules.keeps hadds
  refine ⟨hadds, cidrBlock, ⟨subnet, selectSingle_eq_ok hselect, hblock⟩, fun id hid => ?_, ?_⟩
  · rcases List.mem_append.mp hid with hid | hid
    · exact hkept.lt id hid
    · rwa [List.mem_singleton.mp hid]
  · apply List.rel_append hkept.shown (.cons _ .nil)
    apply shows_of_forall
    simp only [nfsFields, List.forall_mem_cons]
    exact ⟨hshows _ _ rfl, hshows _ _ rfl, hshows _ _ rfl, fun _ h => absurd h List.not_mem_nil⟩

/-- The subnet names of a group one after another. -/
theorem addNfsRules_eq_ok {added added' : List DocId} {blocks subnetNames : List Val}
    (hdocs : ∀ id ∈ b.docs, id < s.next) (hown : ∀ id ∈ b.docs, ¬ (s.doc id).IsKind ruleKind)
    (hids : ∀ id ∈ infrastructure, id < s.next) (hrules : RulesFor s added blocks)
    (h : b.addNfsRules env infrastructure [] added subnetNames s = .ok (added', s')) :
    OnlyAdds s s' ∧ ∃ new, List.Forall₂ (IsBlockOf s infrastructure) subnetNames new ∧
      RulesFor s' added' (blocks ++ new) := by
  induction subnetNames generalizing s added blocks with
  | nil =>
      obtain ⟨rfl, rfl⟩ := BuildM.pure_eq_ok.mp h
      exact ⟨Std.Refl.refl _, [], .nil, by rwa [List.append_nil]⟩
  | cons subnetName rest ih =>
      obtain ⟨added₁, s₁, hfirst, hrest⟩ := BuildM.bind_eq_ok.mp h
      obtain ⟨hadds₁, block, hblock, hrules₁⟩ := addNfsRule_eq_ok hdocs hown hrules hfirst
      obtain ⟨hadds₂, new, hnew, hrules₂⟩ := ih
        (fun id hid => (hdocs id hid).trans_le hadds₁.next_le)
        (fun id hid => hadds₁.doc id (hdocs id hid) ▸ hown id hid)
        (fun id hid => (hids id hid).trans_le hadds₁.next_le) hrules₁ hrest
      refine ⟨Trans.trans hadds₁ hadds₂, block :: new, .cons hblock ?_, ?_⟩
      · exact hnew.imp fun _ _ hblock => hblock.before hadds₁ hids
      · rwa [List.append_assoc] at hrules₂

/-- A list in the specification of a document. -/
def shownList (s : Store) (key : String) (id : DocId) : List Val :=
  (((s.doc id).specAttr? key).map Val.asList).bind Except.toOption |>.getD []

theorem shownList_eq {key : String} {id : DocId} {items : List Val}
    (h : (s.doc id).specAttr? key = some (.list items)) : shownList s key id = items := by
  rw [shownList, h]
  rfl

/-- The authorized groups one after another. -/
theorem addNfsRulesOf_eq_ok {added added' groups : List DocId} {blocks : List Val}
    (hdocs : ∀ id ∈ b.docs, id < s.next) (hown : ∀ id ∈ b.docs, ¬ (s.doc id).IsKind ruleKind)
    (hids : ∀ id ∈ infrastructure, id < s.next) (hgroups : ∀ id ∈ groups, id < s.next)
    (hrules : RulesFor s added blocks)
    (h : b.addNfsRulesOf env infrastructure [] added groups s = .ok (added', s')) :
    OnlyAdds s s' ∧ ∃ new, List.Forall₂ (IsBlockOf s infrastructure)
        (groups.flatMap (shownList s "subnet_names")) new ∧
      RulesFor s' added' (blocks ++ new) := by
  induction groups generalizing s added blocks with
  | nil =>
      obtain ⟨rfl, rfl⟩ := BuildM.pure_eq_ok.mp h
      exact ⟨Std.Refl.refl _, [], .nil, by rwa [List.append_nil]⟩
  | cons group rest ih =>
      simp only [InfrastructureBuilder.addNfsRulesOf, BuildM.bind_eq_ok, lift_eq_ok] at h
      obtain ⟨value, _, hread, names, _, ⟨hnames, rfl⟩, added₁, s₁, hfirst, hrest⟩ := h
      obtain ⟨hvalue, rfl⟩ := specAttr_eq_ok.mp hread
      rw [Val.asList_eq_ok.mp hnames] at hvalue
      rw [List.forall_mem_cons] at hgroups
      obtain ⟨hadds₁, new₁, hnew₁, hrules₁⟩ := addNfsRules_eq_ok hdocs hown hids hrules hfirst
      obtain ⟨hadds₂, new₂, hnew₂, hrules₂⟩ := ih
        (fun id hid => (hdocs id hid).trans_le hadds₁.next_le)
        (fun id hid => hadds₁.doc id (hdocs id hid) ▸ hown id hid)
        (fun id hid => (hids id hid).trans_le hadds₁.next_le)
        (fun id hid => (hgroups.2 id hid).trans_le hadds₁.next_le) hrules₁ hrest
      refine ⟨Trans.trans hadds₁ hadds₂, new₁ ++ new₂, ?_, ?_⟩
      · rw [List.flatMap_cons, shownList_eq hvalue]
        apply List.rel_append hnew₁
        have hsame : rest.flatMap (shownList s₁ "subnet_names") =
            rest.flatMap (shownList s "subnet_names") :=
          List.flatMap_congr fun id hid => by
            rw [shownList, shownList, hadds₁.doc id (hgroups.2 id hid)]
        rw [← hsame]
        exact hnew₂.imp fun _ _ hblock => hblock.before hadds₁ hids
      · rwa [List.append_assoc] at hrules₂

/-- The rules of the default security group, one for each subnet name of an authorized
group. -/
theorem addSecurityRulesInboundEfs_eq_ok {securityGroup : DocId} {u : Unit}
    (hdocs : ∀ id ∈ b.docs, id < s.next) (hown : ∀ id ∈ b.docs, ¬ (s.doc id).IsKind ruleKind)
    (hids : ∀ id ∈ infrastructure, id < s.next)
    (hempty : (s.doc securityGroup).specAttr? "rules" = some (.list []))
    (h : b.addSecurityRulesInboundEfs env infrastructure securityGroup s = .ok (u, s')) :
    ∃ blocks rules, List.Forall₂ (IsBlockOf s infrastructure)
        ((infrastructure.filter (Holds? ∘ (InfrastructureBuilder.isAuthorizedToEfs ∘
          s.doc))).flatMap (shownList s "subnet_names")) blocks ∧
      (s'.doc securityGroup).specAttr? "rules" = some (.list rules) ∧
      List.Forall₂ (fun rule block => ∀ source,
        isNfsIngressRule source rule = block.pyEq source) rules blocks := by
  simp only [InfrastructureBuilder.addSecurityRulesInboundEfs, InfrastructureBuilder.specsOf,
    BuildM.bind_eq_ok, lift_eq_ok] at h
  obtain ⟨groups, _, hselect, own, _, hread, items, _, ⟨hitems, rfl⟩, added, s₁, hadd, specs, _,
    hread', hset⟩ := h
  obtain ⟨hgroups, rfl⟩ := reads_eq_ok.mp hselect
  obtain ⟨hvalue, rfl⟩ := specAttr_eq_ok.mp hread
  obtain ⟨hspecs, rfl⟩ := reads_eq_ok.mp hread'
  rw [Option.some.inj (hvalue.symm.trans hempty)] at hitems
  cases hitems
  obtain rfl := selectAll_eq_ok hgroups
  obtain ⟨-, blocks, hblocks, hrules⟩ := addNfsRulesOf_eq_ok hdocs hown hids
    (fun id hid => hids id (List.mem_filter.mp hid).1) ⟨by simp, .nil⟩ hadd
  obtain ⟨doc, hdoc, rfl⟩ := setSpecAttr_eq_ok.mp hset
  refine ⟨blocks, specs, hblocks, ?_, ?_⟩
  · rw [Store.write_doc_self, Val.specAttr?_withSpecAttr hdoc, if_pos rfl]
    rfl
  · refine forall₂_of_common (mapM_eq_ok.mp hspecs) hrules.shown ?_
    intro id rule block hspec hshows source
    have hread : ∀ key value, (nfsFields block).lookup key = some value →
        rule.attr? key = some value := by
      intro key value hvalue
      have hread := hshows key value hvalue
      rwa [Val.specAttr?, Val.getAttr_eq_ok.mp hspec] at hread
    rw [isNfsIngressRule, hread "direction" _ rfl, hread "destination_port_range" _ rfl,
      hread "source_address_prefix" _ rfl]
    simp [isNfsPort, Val.pyEq]

/-! ## The subnets of the machines -/

/-- The subnet document of a subnet definition, found as the builder finds it. -/
def subnetOfDefinition (s : Store) (infrastructure : List DocId) (subnetDefinition : Val) :
    Option DocId :=
  infrastructure.find? (Holds? ∘ (InfrastructureBuilder.isOfPool Requested.subnet.kind
    subnetDefinition ∘ s.doc))

/-- The machines show the parts of their components' definitions. -/
def ShowsParts (env : Env) (b : InfrastructureBuilder) (fixed : Fixed) (s : Store)
    (requests : Requests) : Prop :=
  ∀ e ∈ requests .machine, ∀ key ∈ efsParts,
    (s.doc e.1).specAttr? key = componentPart env b fixed.docs key e.2.component.2

theorem MountsTracked.showsParts {start : List DocId}
    (h : Represents env b fixed s ids requests p)
    (ht : MountsTracked env b fixed start s ids p.placed) : ShowsParts env b fixed s requests := by
  intro e he key hkey
  have hshown := ht.shown key hkey
  have horder := (h.ledger .machine).order
  rw [shownParts, show ids.filter (fun id => Holds? (kindIs vmKind (s.doc id))) = _ from horder,
    ← h.machines, List.map_map, List.map_map] at hshown
  exact List.map_eq_map_iff.mp hshown e he

/-- A subnet definition of a component has the subnet of its request. -/
theorem Represents.subnetOfDefinition_eq (h : Represents env b fixed s ids requests p)
    (hsubnet : fixed.own Requested.subnet.kind = none) {d : Val} {r : SubnetRequest}
    (hpool : ∃ pool, d.getItem "address_pool" = .ok pool)
    (hfind : p.requests.find? (isForPool d) = some r) :
    ∃ subnet, subnetOfDefinition s ids d = some subnet ∧ (subnet, r) ∈ requests .subnet := by
  obtain ⟨pool, hpool⟩ := hpool
  obtain ⟨hgot, -⟩ := h.select hpool
  rw [show fixed.replaced.subnet = false by rw [Fixed.replaced, hsubnet]; rfl, visible_false,
    hfind] at hgot
  exact hgot

theorem Represents.mem_placed (h : Represents env b fixed s ids requests p) {x : Placed} :
    x ∈ p.placed ↔ ∃ id, (id, x) ∈ requests .machine := by
  rw [← h.machines, List.mem_map]
  exact ⟨fun ⟨e, he, hx⟩ => ⟨e.1, hx ▸ he⟩, fun ⟨id, he⟩ => ⟨_, he, rfl⟩⟩

theorem mem_usedSubnets {docs : List Val} {key : String} {placed : List Placed}
    {r : SubnetRequest} : r ∈ usedSubnets env b docs key placed ↔
      ∃ x ∈ placed, hasPart env b docs key x.component.2 = true ∧
        r ∈ x.attached.map Attached.subnet := by
  simp only [usedSubnets, List.mem_flatMap, List.mem_filter, and_assoc]

/-- A value a subnet of some machine with a part shows. -/
def UsedBy (s : Store) (infrastructure : List DocId) (members : List ((String × Val) × DocId))
    (part key : String) (value : Val) : Prop :=
  ∃ m ∈ members, ((s.doc m.2).specAttr? part).any Val.truthy = true ∧
    ∃ d ∈ subnetDefinitions m.1.2, ∃ subnet, subnetOfDefinition s infrastructure d = some subnet ∧
      ∃ own, (s.doc subnet).specAttr? key = some own ∧ own.pyEq value = true

theorem Represents.usedBy_iff (h : Represents env b fixed s ids requests p)
    (hsubnet : fixed.own Requested.subnet.kind = none) (hplaces : p.PlacesSubnets)
    (hparts : ShowsParts env b fixed s requests) {part key : String} (hpart : part ∈ efsParts)
    {field : SubnetRequest → Val}
    (hfield : ∀ e ∈ requests .subnet, (s.doc e.1).specAttr? key = some (field e.2))
    (value : Val) :
    UsedBy s ids (membersOf requests) part key value ↔
      ∃ r ∈ usedSubnets env b fixed.docs part p.placed, (field r).pyEq value = true := by
  constructor
  · rintro ⟨m, hm, htruthy, d, hd, subnet, hfound, own, hown, hsame⟩
    obtain ⟨⟨id, x⟩, he, rfl⟩ := List.mem_map.mp hm
    have hx := h.mem_placed.mpr ⟨id, he⟩
    obtain ⟨r, hr, hfind⟩ := exists_of_mem_forall₂ (hplaces x hx) hd
    obtain ⟨subnet', hfound', hmem⟩ := h.subnetOfDefinition_eq hsubnet (h.pools x hx d hd) hfind
    cases hfound.symm.trans hfound'
    cases hown.symm.trans (hfield _ hmem)
    refine ⟨r, mem_usedSubnets.mpr ⟨x, hx, ?_, hr⟩, hsame⟩
    rw [hasPart, ← hparts _ he part hpart]
    exact htruthy
  · rintro ⟨r, hr, hsame⟩
    obtain ⟨x, hx, hhas, hr⟩ := mem_usedSubnets.mp hr
    obtain ⟨id, he⟩ := h.mem_placed.mp hx
    obtain ⟨d, hd, hfind⟩ := exists_of_mem_forall₂ (hplaces x hx).flip hr
    obtain ⟨subnet, hfound, hmem⟩ := h.subnetOfDefinition_eq hsubnet (h.pools x hx d hd) hfind
    refine ⟨(x.component, id), List.mem_map.mpr ⟨_, he, rfl⟩, ?_, d, hd, subnet, hfound, _,
      hfield _ hmem, hsame⟩
    rw [hasPart, ← hparts _ he part hpart] at hhas
    exact hhas

/-! ## The blocks of the rules -/

theorem holds?_isAuthorizedToEfs (x : Val) :
    Holds? (InfrastructureBuilder.isAuthorizedToEfs x) =
      (Holds? (kindIs vmKind x) && (x.specAttr? "authorized_to_efs").any Val.truthy) := by
  unfold InfrastructureBuilder.isAuthorizedToEfs
  cases hkind : kindIs vmKind x with
  | error e => rfl
  | ok answer =>
      cases answer with
      | false => rfl
      | true =>
          simp only [ok_bind, if_true, Holds?, Bool.true_and, Val.specAttr?, attrPath,
            List.foldlM_cons, List.foldlM_nil, Val.getAttr]
          cases x.attr? "specification" with
          | none => rfl
          | some spec => cases hflag : spec.attr? "authorized_to_efs" <;> simp [hflag]

/-- The subnet names of the authorized groups are those of the subnets they use. -/
theorem Represents.authorizedNames_eq (h : Represents env b fixed s ids requests p)
    (hsubnet : fixed.own Requested.subnet.kind = none)
    (hparts : ShowsParts env b fixed s requests) :
    (ids.filter (Holds? ∘ (InfrastructureBuilder.isAuthorizedToEfs ∘ s.doc))).flatMap
        (shownList s "subnet_names") =
      (usedSubnets env b fixed.docs "authorized_to_efs" p.placed).map (subnetName env b) := by
  have hsplit : (Holds? ∘ (InfrastructureBuilder.isAuthorizedToEfs ∘ s.doc)) = fun id =>
      ((s.doc id).specAttr? "authorized_to_efs").any Val.truthy &&
        Holds? (kindIs vmKind (s.doc id)) := by
    funext id
    rw [Bool.and_comm]
    exact holds?_isAuthorizedToEfs (s.doc id)
  have horder : ids.filter (fun id => Holds? (kindIs vmKind (s.doc id))) = _ :=
    (h.ledger .machine).order
  have hflag : (requests .machine).filter
        ((fun id => ((s.doc id).specAttr? "authorized_to_efs").any Val.truthy) ∘ Prod.fst) =
      (requests .machine).filter
        ((fun x => hasPart env b fixed.docs "authorized_to_efs" x.component.2) ∘ Prod.snd) := by
    refine List.filter_congr fun e he => ?_
    rw [Function.comp_apply, Function.comp_apply, hparts e he _ (by simp [efsParts])]
    rfl
  rw [hsplit, ← List.filter_filter, horder, List.filter_map, hflag, List.flatMap_map, usedSubnets,
    ← h.machines, List.filter_map, List.flatMap_map, List.map_flatMap]
  refine List.flatMap_congr fun e he => ?_
  have hnames := (h.ledger .machine).specAttr?_eq (r := e.2) (List.mem_filter.mp he).1
    "subnet_names" rfl
  rw [shownList_eq hnames, subnetNamesOf, List.map_map]
  refine List.map_congr_left fun a _ => ?_
  rw [show fixed.replaced.subnet = false by rw [Fixed.replaced, hsubnet]; rfl, current_false]
  rfl

theorem holds?_isSubnetNamed {name : Val} {x : Val} (hkind : x.IsKind Requested.subnet.kind)
    (hname : x.specAttr? "name" = some name) (hwf : name.WellFormed) :
    Holds? (InfrastructureBuilder.isSubnetNamed name x) = true := by
  rw [holds?_eq_true, InfrastructureBuilder.isSubnetNamed]
  have hspec : attrPath x ["specification", "name"] = .ok name := by
    rw [Val.specAttr?, Option.bind_eq_some_iff] at hname
    obtain ⟨spec, hspec, hname⟩ := hname
    simp [attrPath, Val.getAttr, hspec, hname, pure, Except.pure]
  have hsubnet : kindIs "infrastructure/subnet" x = .ok true := kindIs_eq_ok_true.mpr hkind
  simp [hsubnet, hspec, Val.pyEq_refl hwf]

/-- A subnet shows the pool it was requested for, where the user does not replace subnets. -/
theorem Represents.pool_eq (h : Represents env b fixed s ids requests p)
    (hsubnet : fixed.own Requested.subnet.kind = none) {e : DocId × SubnetRequest}
    (he : e ∈ requests .subnet) :
    (s.doc e.1).specAttr? "cidr_block" = some e.2.addressPool := by
  have hshown := (h.ledger .subnet).specAttr?_eq (r := e.2) he "cidr_block" rfl
  rwa [show fixed.ownOf .subnet = none from hsubnet, Option.isSome_none, current_false] at hshown

/-- The block of a subnet's name is the address pool it was requested for. -/
theorem Represents.isBlockOf_eq (h : Represents env b fixed s ids requests p)
    (hsubnet : fixed.own Requested.subnet.kind = none) {e : DocId × SubnetRequest}
    (he : e ∈ requests .subnet) {block : Val}
    (hblock : IsBlockOf s ids (subnetName env b e.2) block) : block = e.2.addressPool := by
  have hname := (h.ledger .subnet).specAttr?_eq (r := e.2) he "name" rfl
  rw [show fixed.ownOf .subnet = none from hsubnet, Option.isSome_none, current_false] at hname
  obtain ⟨subnet, hfilter, hcidr⟩ := hblock
  obtain ⟨hmem, hkind⟩ := (h.ledger .subnet).mem_ids (r := e.2) he
  have hfound : e.1 ∈ ids.filter (Holds? ∘
      (InfrastructureBuilder.isSubnetNamed (subnetName env b e.2) ∘ s.doc)) :=
    List.mem_filter.mpr ⟨hmem, holds?_isSubnetNamed hkind hname (.scalar _)⟩
  rw [hfilter, List.mem_singleton] at hfound
  rw [← hfound, h.pool_eq hsubnet he] at hcidr
  exact (Option.some.inj hcidr).symm

/-- Every subnet in use is requested. -/
theorem Represents.usedSubnets_requested (h : Represents env b fixed s ids requests p)
    (hplaces : p.PlacesSubnets) {docs : List Val} {key : String} :
    ∀ r ∈ usedSubnets env b docs key p.placed, ∃ id, (id, r) ∈ requests .subnet := by
  intro r hr
  obtain ⟨x, hx, -, hr⟩ := mem_usedSubnets.mp hr
  obtain ⟨d, -, hfind⟩ := exists_of_mem_forall₂ (hplaces x hx).flip hr
  have hmem := List.mem_of_find?_eq_some hfind
  rw [← h.subnets, List.mem_map] at hmem
  obtain ⟨e, he, rfl⟩ := hmem
  exact ⟨e.1, he⟩

/-- A rule is appended for every use of a subnet by an authorized group. -/
theorem Represents.nfsRules (h : Represents env b fixed s ids requests p)
    (hsubnet : fixed.own Requested.subnet.kind = none) (hplaces : p.PlacesSubnets)
    (hparts : ShowsParts env b fixed s requests) {securityGroup : DocId} {u : Unit}
    (hown : ∀ id ∈ b.docs, ¬ (s.doc id).IsKind ruleKind)
    (hempty : (s.doc securityGroup).specAttr? "rules" = some (.list []))
    (hrun : b.addSecurityRulesInboundEfs env ids securityGroup s = .ok (u, s')) :
    ∃ rules, (s'.doc securityGroup).specAttr? "rules" = some (.list rules) ∧
      List.Forall₂ (fun rule r => ∀ source,
          isNfsIngressRule source rule = (SubnetRequest.addressPool r).pyEq source) rules
        (usedSubnets env b fixed.docs "authorized_to_efs" p.placed) := by
  obtain ⟨blocks, rules, hblocks, hread, hrules⟩ :=
    addSecurityRulesInboundEfs_eq_ok h.docs hown h.allocated hempty hrun
  rw [h.authorizedNames_eq hsubnet hparts, List.forall₂_map_left_iff] at hblocks
  have hpools : List.Forall₂ (fun r block => block = SubnetRequest.addressPool r)
      (usedSubnets env b fixed.docs "authorized_to_efs" p.placed) blocks := by
    refine ((List.forall₂_and_left _ blocks).mpr
      ⟨h.usedSubnets_requested hplaces, hblocks⟩).imp ?_
    rintro r block ⟨⟨id, he⟩, hblock⟩
    exact h.isBlockOf_eq hsubnet he hblock
  refine ⟨rules, hread, forall₂_of_common hrules.flip hpools.flip ?_⟩
  rintro block rule r hrule rfl
  exact hrule

end

end Aws

end LambdaStack
