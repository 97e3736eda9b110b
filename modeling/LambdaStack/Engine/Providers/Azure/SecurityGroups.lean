/-
# Security groups and the interfaces they guard

Two properties of the infrastructure a run of the Azure builder emits: every
interface names the group its own subnet is associated with, and the rules of a
component are in the group its interfaces name. Both hold exactly when the
network plan of the active components has them.
-/

import LambdaStack.Engine.Providers.Azure.NetworkDocs

namespace LambdaStack

open Lib BuildM

namespace Azure

/-- Every network interface names, as its security group, the group that an
association ties to the interface's own subnet. -/
def InterfacesTied (s : Store) (infrastructure : List Emitted) : Prop :=
  ∀ nic ∈ infrastructure, (s.doc nic.doc).IsKind interfaceKind →
    ∃ a ∈ infrastructure, (s.doc a.doc).IsKind associationKind ∧
      (s.doc a.doc).specAttr? "subnet_name" = (s.doc nic.doc).specAttr? "subnet_name" ∧
      (s.doc a.doc).specAttr? "security_group_name" =
        (s.doc nic.doc).specAttr? "security_group_name"

/-- The rules of a list, none where there is no list. -/
def ruleItems : Option Val → List Val
  | some (.list rules) => rules
  | _ => []

/-- Every rule of an active component is in the group document that an interface
emitted for the component names. -/
def RulesReachInterfaces (cs : List NetComponent) (s : Store) (infrastructure : List Emitted) :
    Prop :=
  ∀ c ∈ cs, ∀ nic ∈ infrastructure, nic.component = some c.key →
    (s.doc nic.doc).IsKind interfaceKind →
      ∃ g ∈ infrastructure, (s.doc g.doc).IsKind groupKind ∧
        (s.doc g.doc).specAttr? "name" = (s.doc nic.doc).specAttr? "security_group_name" ∧
        ∀ rule ∈ ruleItems c.rules, ∃ rule' ∈ ruleItems ((s.doc g.doc).specAttr? "rules"),
          rule'.pyEq rule = true

section

variable {env : BuilderEnv} {b : InfrastructureBuilder}

/-- The part of a component's key its resource names depend on. -/
def NetComponent.resourceKey (env : BuilderEnv) (c : NetComponent) : String :=
  LambdaStack.resourceKey env.lower c.key

theorem subnetName_eq_iff {x y : NetComponent} :
    subnetName env b x = subnetName env b y ↔ x.resourceKey env = y.resourceKey env := by
  simp [subnetName, InfrastructureBuilder.indexed, InfrastructureBuilder.resource, Val.str,
    resourceName_eq_iff, NetComponent.resourceKey]

theorem groupName_eq_iff {x y : NetComponent} :
    groupName env b x = groupName env b y ↔ x.resourceKey env = y.resourceKey env := by
  simp [groupName, InfrastructureBuilder.indexed, InfrastructureBuilder.resource, Val.str,
    resourceName_eq_iff, NetComponent.resourceKey]

theorem mem_shows {kind first second : String} {s : Store} {infrastructure : List Emitted}
    {label : Option String} {fields : Option Val × Option Val} :
    (label, fields) ∈ shows kind first second s infrastructure ↔
      ∃ e ∈ infrastructure, (s.doc e.doc).IsKind kind ∧ e.component = label ∧
        specPair first second (s.doc e.doc) = fields := by
  simp only [shows, List.mem_map, List.mem_filter, holds?_kindIs, Prod.mk.injEq, and_assoc]

variable {replaced : Replaced} {s : Store} {p : Progress} {cs : List NetComponent}

/-- The interfaces that are shown, as the plan places them. -/
theorem Represents.mem_interfaces
    (h : Represents b env replaced s p (introducing replaced.subnet samePool cs)
      (placements replaced.subnet samePool NetComponent.count [] cs))
    {label : Option String} {fields : Option Val × Option Val} :
    (label, fields) ∈ shows interfaceKind "subnet_name" "security_group_name" s
        p.infrastructure ↔
      ∃ e ∈ shownPlacements replaced samePool NetComponent.count cs,
        some e.1.key = label ∧ interfaceFields env b e.2 = fields := by
  rw [h.interfaces]
  exact mem_expose_map _ _ _ _ (fun c : NetComponent => some c.key) _

theorem Represents.mem_associations
    (h : Represents b env replaced s p (introducing replaced.subnet samePool cs)
      (placements replaced.subnet samePool NetComponent.count [] cs))
    {label : Option String} {fields : Option Val × Option Val} :
    (label, fields) ∈ shows associationKind "subnet_name" "security_group_name" s
        p.infrastructure ↔
      ∃ e ∈ shownAssociations replaced samePool cs,
        some e.1.key = label ∧ associationFields env b e.2 = fields := by
  rw [h.associations]
  exact mem_expose_map _ _ _ _ (fun c : NetComponent => some c.key) _

theorem Represents.mem_groups
    (h : Represents b env replaced s p (introducing replaced.subnet samePool cs)
      (placements replaced.subnet samePool NetComponent.count [] cs))
    {label : Option String} {fields : Option Val × Option Val} :
    (label, fields) ∈ shows groupKind "name" "rules" s p.infrastructure ↔
      ∃ e ∈ shownGroups replaced samePool cs,
        some e.1.key = label ∧ groupFields env b e.2 = fields := by
  rw [h.groups]
  exact mem_expose_map _ _ _ _ (fun c : NetComponent => some c.key) _

theorem Represents.interfacesTied_iff
    (h : Represents b env replaced s p (introducing replaced.subnet samePool cs)
      (placements replaced.subnet samePool NetComponent.count [] cs)) :
    InterfacesTied s p.infrastructure ↔
      GroupsFitSubnets replaced samePool NetComponent.count (NetComponent.resourceKey env) cs := by
  constructor
  · intro htied e he
    obtain ⟨nic, hnic, hkind, -, hfields⟩ := mem_shows.mp (h.mem_interfaces.mpr ⟨e, he, rfl, rfl⟩)
    obtain ⟨a, ha, haKind, hsubnet, hgroup⟩ := htied nic hnic hkind
    obtain ⟨e', he', -, hfields'⟩ := h.mem_associations.mp (mem_shows.mpr ⟨a, ha, haKind, rfl, rfl⟩)
    have hsubnet' : subnetName env b e'.2 = subnetName env b e.2.owner :=
      (congrArg Prod.fst hfields').trans (hsubnet.trans (congrArg Prod.fst hfields))
    have hgroup' : groupName env b e'.2 = groupName env b e.2.group :=
      (congrArg Prod.snd hfields').trans (hgroup.trans (congrArg Prod.snd hfields))
    exact ⟨e', he', subnetName_eq_iff.mp hsubnet', groupName_eq_iff.mp hgroup'⟩
  · intro hfit nic hnic hkind
    obtain ⟨e, he, -, hfields⟩ := h.mem_interfaces.mp (mem_shows.mpr ⟨nic, hnic, hkind, rfl, rfl⟩)
    obtain ⟨e', he', howner, hgroup⟩ := hfit e he
    obtain ⟨a, ha, haKind, -, hfields'⟩ :=
      mem_shows.mp (h.mem_associations.mpr ⟨e', he', rfl, rfl⟩)
    refine ⟨a, ha, haKind, ?_, ?_⟩
    · exact (congrArg Prod.fst hfields').trans
        ((subnetName_eq_iff.mpr howner).trans (congrArg Prod.fst hfields))
    · exact (congrArg Prod.snd hfields').trans
        ((groupName_eq_iff.mpr hgroup).trans (congrArg Prod.snd hfields))

theorem Represents.rulesReachInterfaces_iff
    (h : Represents b env replaced s p (introducing replaced.subnet samePool cs)
      (placements replaced.subnet samePool NetComponent.count [] cs))
    (hkeys : (cs.map NetComponent.key).Nodup) :
    RulesReachInterfaces cs s p.infrastructure ↔
      GroupsHaveRules replaced samePool NetComponent.count (NetComponent.resourceKey env)
        (fun c => ruleItems c.rules) Val.pyEq cs := by
  constructor
  · intro hreach e he
    obtain ⟨nic, hnic, hkind, hlabel, hfields⟩ :=
      mem_shows.mp (h.mem_interfaces.mpr ⟨e, he, rfl, rfl⟩)
    have hmem : e.1 ∈ cs := by
      obtain ⟨old, hold, heq⟩ := fst_mem_of_mem_expose he
      obtain ⟨placement, hplacement, rfl⟩ := List.mem_map.mp hold
      exact heq ▸ component_mem_of_mem_placements hplacement
    obtain ⟨g, hg, hgKind, hname, hrules⟩ := hreach e.1 hmem nic hnic hlabel hkind
    obtain ⟨e', he', -, hfields'⟩ := h.mem_groups.mp (mem_shows.mpr ⟨g, hg, hgKind, rfl, rfl⟩)
    have hgroup : groupName env b e'.2 = groupName env b e.2.group :=
      (congrArg Prod.fst hfields').trans (hname.trans (congrArg Prod.snd hfields))
    have hown : e'.2.rules = (s.doc g.doc).specAttr? "rules" := congrArg Prod.snd hfields'
    rw [← hown] at hrules
    exact ⟨e', he', groupName_eq_iff.mp hgroup, hrules⟩
  · intro hrules c hc nic hnic hlabel hkind
    obtain ⟨e, he, hkey, hfields⟩ :=
      h.mem_interfaces.mp (mem_shows.mpr ⟨nic, hnic, hkind, hlabel, rfl⟩)
    have hmem : e.1 ∈ cs := by
      obtain ⟨old, hold, heq⟩ := fst_mem_of_mem_expose he
      obtain ⟨placement, hplacement, rfl⟩ := List.mem_map.mp hold
      exact heq ▸ component_mem_of_mem_placements hplacement
    obtain rfl : e.1 = c := List.inj_on_of_nodup_map hkeys hmem hc (Option.some.inj hkey)
    obtain ⟨e', he', hgroup, hown⟩ := hrules e he
    obtain ⟨g, hg, hgKind, -, hfields'⟩ := mem_shows.mp (h.mem_groups.mpr ⟨e', he', rfl, rfl⟩)
    refine ⟨g, hg, hgKind, ?_, ?_⟩
    · exact (congrArg Prod.fst hfields').trans
        ((groupName_eq_iff.mpr hgroup).trans (congrArg Prod.snd hfields))
    · rw [show (s.doc g.doc).specAttr? "rules" = e'.2.rules from congrArg Prod.snd hfields']
      exact hown

/-- The active components have keys of the cluster model, in its order. -/
theorem keys_activeComponents {clusterModel : Val} {docs : List Val} {components : Entries}
    (h : activeComponents env clusterModel docs components = .ok cs) :
    (cs.map NetComponent.key).Sublist (dictKeys components) := by
  induction components generalizing cs with
  | nil => cases h; exact .slnil
  | cons component rest ih =>
      simp only [activeComponents, Lib.bind_eq_ok, Except.ok.injEq] at h
      obtain ⟨c, hc, rest', hrest, rfl⟩ := h
      cases c with
      | none => exact (ih hrest).cons _
      | some c =>
          have hkey : c.key = component.1 := by
            simp only [netComponent, Lib.bind_eq_ok] at hc
            obtain ⟨_, -, count, -, hc⟩ := hc
            split at hc
            · cases hc
            · simp only [Lib.bind_eq_ok, Except.ok.injEq, Option.some.injEq] at hc
              obtain ⟨_, -, _, -, _, -, rfl⟩ := hc
              rfl
          simp only [Option.toList_some, List.singleton_append, List.map_cons, dictKeys_cons, hkey]
          exact (ih hrest).cons_cons _

theorem nodup_componentsOf {clusterModel : Val} {components : Entries}
    (hwf : clusterModel.WellFormed) (h : componentsOf clusterModel = .ok components) :
    (dictKeys components).Nodup := by
  simp only [componentsOf, attrPath, List.foldlM_cons, List.foldlM_nil, Lib.bind_eq_ok,
    Val.getAttr_eq_ok, Lib.pure_eq_ok] at h
  obtain ⟨value, ⟨spec, hspec, value', hvalue, rfl⟩, hdict⟩ := h
  have hvaluewf := (hwf.attr? hspec).attr? hvalue
  cases value' with
  | dict entries =>
      cases hdict
      exact (Val.wellFormed_dict_iff.mp hvaluewf).1
  | scalar | list => cases hdict

variable {s' : Store} {infrastructure : List Emitted}

/-- Every interface names the group its own subnet is tied to exactly when, for
each shown interface, the component its subnet was created for and the component
the last group was created for have one resource key, and so has a component
whose association is shown. -/
theorem run_interfacesTied_iff (hdocs : ∀ id ∈ b.docs, id < s.next)
    (hwf : ∀ id ∈ b.docs, (s.doc id).WellFormed)
    (hgroups : b.useNetworkSecurityGroups.truthy = true)
    (hrun : b.run env s = .ok (infrastructure, s')) :
    ∃ components cs, componentsOf b.clusterModel = .ok components ∧
      activeComponents env b.clusterModel (b.docs.map s.doc) components = .ok cs ∧
      (InterfacesTied s' infrastructure ↔
        GroupsFitSubnets (replacedIn b.docs s) samePool NetComponent.count
          (NetComponent.resourceKey env) cs) := by
  obtain ⟨components, cs, hcomponents, hcs, nsg, h⟩ :=
    run_represents hdocs (fun id hid => (hwf id hid).keysUnique) hgroups hrun
  exact ⟨components, cs, hcomponents, hcs, h.interfacesTied_iff⟩

/-- The rules of every component reach its interfaces exactly when, for each
shown interface, a shown group with the resource key of the component the last
group was created for has every rule of the interface's component. -/
theorem run_rulesReachInterfaces_iff (hdocs : ∀ id ∈ b.docs, id < s.next)
    (hwf : ∀ id ∈ b.docs, (s.doc id).WellFormed) (hmodel : b.clusterModel.WellFormed)
    (hgroups : b.useNetworkSecurityGroups.truthy = true)
    (hrun : b.run env s = .ok (infrastructure, s')) :
    ∃ components cs, componentsOf b.clusterModel = .ok components ∧
      activeComponents env b.clusterModel (b.docs.map s.doc) components = .ok cs ∧
      (RulesReachInterfaces cs s' infrastructure ↔
        GroupsHaveRules (replacedIn b.docs s) samePool NetComponent.count
          (NetComponent.resourceKey env) (fun c => ruleItems c.rules) Val.pyEq cs) := by
  obtain ⟨components, cs, hcomponents, hcs, nsg, h⟩ :=
    run_represents hdocs (fun id hid => (hwf id hid).keysUnique) hgroups hrun
  exact ⟨components, cs, hcomponents, hcs, h.rulesReachInterfaces_iff
    ((nodup_componentsOf hmodel hcomponents).sublist (keys_activeComponents hcs))⟩

end

/-! ## Components that share a subnet -/

namespace NetworkSample

/-- A default document with every field the builder reads. -/
def defaultDoc (kind : String) : Val :=
  .dict [("kind", .str kind), ("name", .str "default"), ("provider", .str "azure"),
    ("specification", .dict [("enabled", .bool false), ("os_type", .str "linux"),
      ("tags", .list []), ("storage_image_reference", .dict [("offer", .str "UbuntuServer")]),
      ("network_interface", .dict [("enable_accelerated_networking", .bool false)]),
      ("security", .dict [("rules", .list [])])])]

def schema : SchemaDir where
  file _ kind := some [defaultDoc kind]
  kind_eq := by
    rintro provider kind docs ⟨⟩ - doc hdoc
    rw [List.mem_singleton.mp hdoc]
    rfl
  wellFormed := by
    rintro provider kind docs ⟨⟩ doc hdoc
    rw [List.mem_singleton.mp hdoc]
    simp [defaultDoc]

def env : BuilderEnv where
  schema := schema
  version := "1.0.0"
  lower s := String.ofList (s.toList.map Char.toLower)
  readFile _ := some "ssh-rsa"

/-- A machine definition of the user with one rule. -/
def machine (name rule : String) : Val :=
  .dict [("kind", .str "infrastructure/virtual-machine"), ("name", .str name),
    ("provider", .str "azure"),
    ("specification", .dict [("os_type", .str "linux"), ("tags", .list []),
      ("storage_image_reference", .dict [("offer", .str "UbuntuServer")]),
      ("network_interface", .dict [("enable_accelerated_networking", .bool false)]),
      ("security", .dict [("rules", .list [.dict [("name", .str rule)]])])])]

/-- A component with one machine in an address pool. -/
def component (pool machine : String) : Val :=
  .dict [("count", .int 1), ("machine", .str machine),
    ("subnets", .list [.dict [("address_pool", .str pool)]])]

def clusterModel (components : Entries) : Val :=
  .dict [("kind", .str "lambdastack-cluster"), ("provider", .str "azure"),
    ("specification", .dict [("name", .str "test"), ("prefix", .str "ls"),
      ("admin_user", .dict [("name", .str "operations"), ("path", .str "/shared/id_rsa")]),
      ("cloud", .dict [("region", .str "westeurope"), ("vnet_address_pool", .str "10.1.0.0/20"),
        ("default_os_image", .str "default")]), ("components", .dict components)])]

/-- The builder of a cluster with the given components. -/
def builder (components : Entries) : InfrastructureBuilder where
  clusterModel := clusterModel components
  docs := [0, 1]
  manifestDocs := []
  clusterName := "test"
  clusterPrefix := "ls"
  resourceGroupName := "ls-test-rg"
  region := .str "westeurope"
  useNetworkSecurityGroups := .bool true
  usePublicIps := .bool false

def store : Store :=
  Store.alloc (Store.alloc ⟨0, fun _ => .null⟩ (machine "m1" "ssh")) (machine "m2" "https")

/-- The third component joins the subnet of the first, after the second one has
brought a group of its own. -/
def apart : InfrastructureBuilder :=
  builder [("kafka", component "10.1.1.0/24" "m1"), ("logging", component "10.1.2.0/24" "m1"),
    ("monitoring", component "10.1.1.0/24" "m1")]

/-- The second component joins the subnet of the first with other rules. -/
def joining : InfrastructureBuilder :=
  builder [("kafka", component "10.1.1.0/24" "m1"), ("logging", component "10.1.1.0/24" "m2")]

theorem docs_lt (components : Entries) : ∀ id ∈ (builder components).docs, id < store.next := by
  simp [builder, store]

theorem docs_wellFormed (components : Entries) :
    ∀ id ∈ (builder components).docs, (store.doc id).WellFormed := by
  simp [builder, store, Store.alloc, machine]

theorem run_apart : (apart.run env store).toOption.isSome = true := by
  decide +kernel

theorem run_joining : (joining.run env store).toOption.isSome = true := by
  decide +kernel

end NetworkSample

open NetworkSample in
/-- An interface whose subnet is tied to another group than the one it names. -/
theorem run_interfaces_untied :
    ∃ infrastructure s', apart.run env store = .ok (infrastructure, s') ∧
      ¬ InterfacesTied s' infrastructure := by
  obtain ⟨⟨infrastructure, s'⟩, hrun⟩ := Lib.exists_ok_of_isSome run_apart
  obtain ⟨components, cs, hcomponents, hcs, nsg, h⟩ := run_represents (docs_lt _)
    (fun id hid => (docs_wellFormed _ id hid).keysUnique) (by rfl) hrun
  refine ⟨infrastructure, s', hrun, fun htied => ?_⟩
  have hfit := h.interfacesTied_iff.mp htied
  cases hcomponents
  cases hcs
  revert hfit
  unfold GroupsFitSubnets
  decide +kernel

open NetworkSample in
/-- The exact condition for the same cluster. -/
theorem run_interfacesTied_iff_apart :
    ∃ infrastructure s', apart.run env store = .ok (infrastructure, s') ∧
      ∃ components cs, componentsOf apart.clusterModel = .ok components ∧
        activeComponents env apart.clusterModel (apart.docs.map store.doc) components = .ok cs ∧
        (InterfacesTied s' infrastructure ↔
          GroupsFitSubnets (replacedIn apart.docs store) samePool NetComponent.count
            (NetComponent.resourceKey env) cs) := by
  obtain ⟨⟨infrastructure, s'⟩, hrun⟩ := Lib.exists_ok_of_isSome run_apart
  exact ⟨infrastructure, s', hrun,
    run_interfacesTied_iff (docs_lt _) (docs_wellFormed _) (by rfl) hrun⟩

open NetworkSample in
/-- A component whose rule is in no group. -/
theorem run_rules_lost :
    ∃ infrastructure s', joining.run env store = .ok (infrastructure, s') ∧
      ∃ components cs, componentsOf joining.clusterModel = .ok components ∧
        activeComponents env joining.clusterModel (joining.docs.map store.doc) components =
          .ok cs ∧
        ¬ RulesReachInterfaces cs s' infrastructure := by
  obtain ⟨⟨infrastructure, s'⟩, hrun⟩ := Lib.exists_ok_of_isSome run_joining
  obtain ⟨components, cs, hcomponents, hcs, nsg, h⟩ := run_represents (docs_lt _)
    (fun id hid => (docs_wellFormed _ id hid).keysUnique) (by rfl) hrun
  refine ⟨infrastructure, s', hrun, components, cs, hcomponents, hcs, fun hreach => ?_⟩
  cases hcomponents
  cases hcs
  have hrules := (h.rulesReachInterfaces_iff (by decide)).mp hreach
  revert hrules
  unfold GroupsHaveRules
  decide +kernel

open NetworkSample in
/-- The exact condition for the same cluster. -/
theorem run_rulesReachInterfaces_iff_joining :
    ∃ infrastructure s', joining.run env store = .ok (infrastructure, s') ∧
      ∃ components cs, componentsOf joining.clusterModel = .ok components ∧
        activeComponents env joining.clusterModel (joining.docs.map store.doc) components =
          .ok cs ∧
        (RulesReachInterfaces cs s' infrastructure ↔
          GroupsHaveRules (replacedIn joining.docs store) samePool NetComponent.count
            (NetComponent.resourceKey env) (fun c => ruleItems c.rules) Val.pyEq cs) := by
  obtain ⟨⟨infrastructure, s'⟩, hrun⟩ := Lib.exists_ok_of_isSome run_joining
  exact ⟨infrastructure, s', hrun, run_rulesReachInterfaces_iff (docs_lt _) (docs_wellFormed _)
    (by simp [joining, builder, clusterModel, component]) (by rfl) hrun⟩

end Azure

end LambdaStack
