/-
# The Ansible inventory of a cluster

`AnsibleInventoryCreator`: the hosts the provider reports for each active
component go into the group of every role the component is mapped to, and a
group lists a host object once. The provider's proxy is a parameter. Read back
by Ansible, a group of the inventory has the distinct names of the hosts of all
active components mapped to it.
-/

import Mathlib.Data.List.Dedup
import LambdaStack.Helpers.DocListHelpers
import LambdaStack.Helpers.NamingHelpers

namespace LambdaStack

open Lib

/-- `AnsibleHostModel`. -/
structure AnsibleHostModel where
  name : String
  ip : String
  deriving DecidableEq

/-- An `AnsibleHostModel` object. The class defines no equality, so two are equal
when they are one object: the one the proxy made for a component at a position of
its answer. -/
structure HostObject where
  component : String
  index : Nat
  host : AnsibleHostModel
  deriving DecidableEq

/-- `AnsibleInventoryItem`. -/
structure AnsibleInventoryItem where
  role : String
  hosts : List HostObject

/-- The hosts `get_ips_for_feature` of the provider's proxy returns for a component. -/
abbrev APIProxy := String → Res (List AnsibleHostModel)

/-- The objects of an answer of the proxy. -/
def hostObjects (component : String) (ips : List AnsibleHostModel) : List HostObject :=
  ips.zipIdx.map fun (host, index) => ⟨component, index, host⟩

namespace AnsibleInventoryCreator

/-- The groups of `group_duplicated`, a `defaultdict(list)`. -/
abbrev Groups := List (String × List HostObject)

/-- `groups[role]`. -/
def Groups.get (groups : Groups) (role : String) : List HostObject :=
  (groups.lookup role).getD []

/-- The body of the inner loop of `group_duplicated`. -/
def addHost (role : String) (groups : Groups) (host : HostObject) : Groups :=
  let hosts := groups.get role
  dictSet role (if host ∈ hosts then hosts else hosts ++ [host]) groups

/-- The body of the outer loop of `group_duplicated`. -/
def addItem (groups : Groups) (item : AnsibleInventoryItem) : Groups :=
  item.hosts.foldl (addHost item.role) groups

/-- `group_duplicated`. -/
def groupDuplicated (inventory : List AnsibleInventoryItem) : List AnsibleInventoryItem :=
  (inventory.foldl addItem []).map fun (key, value) => ⟨key, value⟩

/-- `get_roles_for_feature`. -/
def getRolesForFeature (configDocs : List Val) (componentKey : String) : Res (List Val) := do
  let featuresMap ← selectSingle configDocs (kindIs "configuration/feature-mapping")
  let mapping ← attrPath featuresMap ["specification", "roles_mapping"]
  let roles ← mapping.getItem componentKey
  roles.asList

/-- The item of one role. -/
def roleItem (hosts : List HostObject) (role : Val) : Res AnsibleInventoryItem := do
  let role ← role.asStr
  .ok ⟨toRoleName role, hosts⟩

/-- The body of the loop of `get_inventory`: the items appended for a component. -/
def componentItems (proxy : APIProxy) (configDocs : List Val) (component : String × Val) :
    Res (List AnsibleInventoryItem) := do
  let count ← component.2.getAttr "count"
  let inactive ← count.ltOne
  if inactive then .ok []
  else do
    let ips ← proxy component.1
    if ips.isEmpty then .ok []
    else do
      let roles ← getRolesForFeature configDocs component.1
      roles.mapM (roleItem (hostObjects component.1 ips))

/-- `cluster_model.specification.components`. -/
def componentsOf (clusterModel : Val) : Res Entries := do
  let components ← attrPath clusterModel ["specification", "components"]
  components.asDict

/-- `get_inventory`. -/
def getInventory (proxy : APIProxy) (clusterModel : Val) (configDocs : List Val) :
    Res (List AnsibleInventoryItem) := do
  let components ← componentsOf clusterModel
  let items ← components.mapM (componentItems proxy configDocs)
  .ok (groupDuplicated items.flatten)

/-! ## What a group holds -/

/-- Some item of the inventory for the role has the host. -/
def InGroup (inventory : List AnsibleInventoryItem) (role : String) (host : HostObject) : Prop :=
  ∃ item ∈ inventory, item.role = role ∧ host ∈ item.hosts

theorem get_addHost (role other : String) (groups : Groups) (host x : HostObject) :
    x ∈ (addHost role groups host).get other ↔
      x ∈ groups.get other ∨ (other = role ∧ x = host) := by
  rw [addHost, Groups.get, lookup_dictSet]
  by_cases hrole : other = role
  · subst hrole
    rw [if_pos rfl, Option.getD_some]
    by_cases hmem : host ∈ groups.get other
    · rw [if_pos hmem]
      constructor
      · exact Or.inl
      · rintro (h | ⟨-, rfl⟩)
        · exact h
        · exact hmem
    · rw [if_neg hmem]
      simp
  · rw [if_neg hrole]
    simp [hrole, Groups.get]

theorem get_addHosts (role other : String) (hosts : List HostObject) (groups : Groups)
    (x : HostObject) :
    x ∈ (hosts.foldl (addHost role) groups).get other ↔
      x ∈ groups.get other ∨ (other = role ∧ x ∈ hosts) := by
  induction hosts generalizing groups with
  | nil => simp
  | cons host rest ih =>
      rw [List.foldl_cons, ih, get_addHost, List.mem_cons]
      tauto

/-- The groups after the items of an inventory have been added. -/
theorem get_addItems (inventory : List AnsibleInventoryItem) (groups : Groups) (role : String)
    (x : HostObject) :
    x ∈ (inventory.foldl addItem groups).get role ↔
      x ∈ groups.get role ∨ InGroup inventory role x := by
  induction inventory generalizing groups with
  | nil => simp [InGroup]
  | cons item rest ih =>
      rw [List.foldl_cons, ih, addItem, get_addHosts]
      simp only [InGroup, List.exists_mem_cons_iff, eq_comm (a := role)]
      tauto

/-- What every state of the groups satisfies: each key once, and under it at
least one host and none twice. -/
structure Groups.Valid (groups : Groups) : Prop where
  keys : (dictKeys groups).Nodup
  hosts : ∀ group ∈ groups, group.2 ≠ [] ∧ group.2.Nodup

theorem Groups.Valid.nodup_get {groups : Groups} (h : groups.Valid) (role : String) :
    (groups.get role).Nodup := by
  unfold Groups.get
  cases hlookup : groups.lookup role with
  | none => exact List.nodup_nil
  | some hosts => exact (h.hosts _ (mem_of_lookup_eq_some hlookup)).2

theorem Groups.Valid.addHost {groups : Groups} (h : groups.Valid) (role : String)
    (host : HostObject) : (addHost role groups host).Valid where
  keys := nodup_dictKeys_dictSet h.keys _
  hosts := by
    intro group hgroup
    rcases mem_dictSet hgroup with rfl | hgroup
    · by_cases hmem : host ∈ groups.get role
      · rw [if_pos hmem]
        exact ⟨List.ne_nil_of_mem hmem, h.nodup_get role⟩
      · rw [if_neg hmem]
        rw [← List.concat_eq_append]
        exact ⟨by simp, (h.nodup_get role).concat hmem⟩
    · exact h.hosts group hgroup

theorem valid_addItems (inventory : List AnsibleInventoryItem) :
    (inventory.foldl addItem []).Valid := by
  suffices h : ∀ groups : Groups, groups.Valid → (inventory.foldl addItem groups).Valid from
    h [] ⟨List.nodup_nil, by simp⟩
  induction inventory with
  | nil => exact fun _ h => h
  | cons item rest ih =>
      intro groups hgroups
      apply ih
      unfold addItem
      generalize item.hosts = hosts
      induction hosts generalizing groups with
      | nil => exact hgroups
      | cons host hosts ihosts => exact ihosts _ (hgroups.addHost item.role host)

/-- Grouping keeps which hosts are in which group. -/
theorem inGroup_groupDuplicated {inventory : List AnsibleInventoryItem} {role : String}
    {x : HostObject} : InGroup (groupDuplicated inventory) role x ↔ InGroup inventory role x := by
  have hget := get_addItems inventory [] role x
  have hvalid := valid_addItems inventory
  rw [show Groups.get [] role = [] from rfl] at hget
  simp only [List.not_mem_nil, false_or] at hget
  rw [← hget]
  unfold InGroup groupDuplicated
  constructor
  · rintro ⟨item, hitem, rfl, hx⟩
    obtain ⟨⟨key, hosts⟩, hgroup, rfl⟩ := List.mem_map.mp hitem
    rwa [Groups.get, lookup_eq_some_of_mem hvalid.keys hgroup]
  · intro hx
    unfold Groups.get at hx
    cases hlookup : (inventory.foldl addItem []).lookup role with
    | none => simp [hlookup] at hx
    | some hosts =>
        rw [hlookup] at hx
        exact ⟨⟨role, hosts⟩, List.mem_map.mpr ⟨_, mem_of_lookup_eq_some hlookup, rfl⟩, rfl, hx⟩

/-- Every group of a grouped inventory has a host, and none twice. -/
theorem hosts_of_mem_groupDuplicated {inventory : List AnsibleInventoryItem}
    {item : AnsibleInventoryItem} (hitem : item ∈ groupDuplicated inventory) :
    item.hosts ≠ [] ∧ item.hosts.Nodup := by
  obtain ⟨group, hgroup, rfl⟩ := List.mem_map.mp hitem
  exact (valid_addItems inventory).hosts group hgroup

/-! ## The hosts the input gives a group -/

/-- The component has a count of at least one. -/
def isActive (componentValue : Val) : Bool :=
  match (do let count ← componentValue.getAttr "count"; count.ltOne : Res Bool) with
  | .ok inactive => !inactive
  | .error _ => false

/-- The feature mapping maps the component to a role of the group. -/
def mapsTo (configDocs : List Val) (group componentKey : String) : Bool :=
  match getRolesForFeature configDocs componentKey with
  | .ok roles => roles.any fun role =>
      match role.asStr with
      | .ok role => toRoleName role == group
      | .error _ => false
  | .error _ => false

/-- The hosts the proxy returns for a component. -/
def answer (proxy : APIProxy) (componentKey : String) : List AnsibleHostModel :=
  match proxy componentKey with
  | .ok ips => ips
  | .error _ => []

/-- The names of the hosts the proxy returns for a component. -/
def hostNames (proxy : APIProxy) (componentKey : String) : List String :=
  match proxy componentKey with
  | .ok ips => ips.map AnsibleHostModel.name
  | .error _ => []

/-- The active components mapped to a group. -/
def contributors (configDocs : List Val) (components : Entries) (group : String) :
    List String :=
  dictKeys (components.filter fun component =>
    isActive component.2 && mapsTo configDocs group component.1)

/-- The distinct names of the hosts of the active components mapped to a group. -/
def roleHosts (proxy : APIProxy) (configDocs : List Val) (components : Entries)
    (group : String) : List String :=
  ((contributors configDocs components group).flatMap (hostNames proxy)).dedup

/-- The distinct names of the hosts in a group of an inventory. -/
def groupNames (inventory : List AnsibleInventoryItem) (group : String) : List String :=
  ((inventory.filter (·.role = group)).flatMap fun item => item.hosts.map (·.host.name)).dedup

/-- The number of hosts in a group of an inventory. -/
def groupSize (inventory : List AnsibleInventoryItem) (group : String) : Nat :=
  (groupNames inventory group).length

/-- The proxy returns as many distinct hosts for an active component as it counts. -/
def AnswersCount (proxy : APIProxy) (components : Entries) : Prop :=
  ∀ component ∈ components, isActive component.2 = true →
    ∃ ips count, proxy component.1 = .ok ips ∧ (ips.map AnsibleHostModel.name).Nodup ∧
      component.2.attr? "count" = some (.scalar count) ∧ count.num? = some (ips.length : Rat)

theorem mem_groupNames {inventory : List AnsibleInventoryItem} {group name : String} :
    name ∈ groupNames inventory group ↔ ∃ x, InGroup inventory group x ∧ x.host.name = name := by
  simp only [groupNames, List.mem_dedup, List.mem_flatMap, List.mem_filter, List.mem_map,
    decide_eq_true_eq, InGroup]
  constructor
  · rintro ⟨item, ⟨hitem, hrole⟩, x, hx, hname⟩
    exact ⟨x, ⟨item, hitem, hrole, hx⟩, hname⟩
  · rintro ⟨x, ⟨item, hitem, hrole, hx⟩, hname⟩
    exact ⟨item, ⟨hitem, hrole⟩, x, hx, hname⟩

theorem nodup_groupNames (inventory : List AnsibleInventoryItem) (group : String) :
    (groupNames inventory group).Nodup :=
  List.nodup_dedup _

theorem mem_contributors {configDocs : List Val} {components : Entries} {group key : String} :
    key ∈ contributors configDocs components group ↔
      ∃ value, (key, value) ∈ components ∧ isActive value = true ∧
        mapsTo configDocs group key = true := by
  simp only [contributors, dictKeys, List.mem_map, List.mem_filter, Bool.and_eq_true]
  constructor
  · rintro ⟨component, ⟨hmem, hactive, hmaps⟩, rfl⟩
    exact ⟨component.2, hmem, hactive, hmaps⟩
  · rintro ⟨value, hmem, hactive, hmaps⟩
    exact ⟨(key, value), ⟨hmem, hactive, hmaps⟩, rfl⟩

theorem mem_roleHosts {proxy : APIProxy} {configDocs : List Val} {components : Entries}
    {group name : String} :
    name ∈ roleHosts proxy configDocs components group ↔
      ∃ key ∈ contributors configDocs components group, name ∈ hostNames proxy key := by
  rw [roleHosts, List.mem_dedup, List.mem_flatMap]

theorem nodup_roleHosts (proxy : APIProxy) (configDocs : List Val) (components : Entries)
    (group : String) : (roleHosts proxy configDocs components group).Nodup :=
  List.nodup_dedup _

section

variable {proxy : APIProxy} {configDocs : List Val} {clusterModel : Val}
  {inventory : List AnsibleInventoryItem}

theorem mem_hostObjects {component : String} {ips : List AnsibleHostModel} {x : HostObject} :
    x ∈ hostObjects component ips ↔ x.component = component ∧ ips[x.index]? = some x.host := by
  unfold hostObjects
  constructor
  · intro hx
    obtain ⟨⟨host, index⟩, hmem, rfl⟩ := List.mem_map.mp hx
    exact ⟨rfl, List.mem_zipIdx_iff_getElem?.mp hmem⟩
  · rintro ⟨rfl, hget⟩
    exact List.mem_map.mpr ⟨(x.host, x.index), List.mem_zipIdx_iff_getElem?.mpr hget, rfl⟩

theorem exists_mem_hostObjects (component : String) {name : String} {ips : List AnsibleHostModel} :
    (∃ x ∈ hostObjects component ips, x.host.name = name) ↔
      name ∈ ips.map AnsibleHostModel.name := by
  simp only [mem_hostObjects, List.mem_map]
  constructor
  · rintro ⟨x, ⟨-, hget⟩, rfl⟩
    exact ⟨x.host, List.mem_of_getElem? hget, rfl⟩
  · rintro ⟨host, hhost, rfl⟩
    obtain ⟨index, hget⟩ := List.getElem?_of_mem hhost
    exact ⟨⟨component, index, host⟩, ⟨rfl, hget⟩, rfl⟩

theorem roleItem_eq_ok {hosts : List HostObject} {role : Val} {item : AnsibleInventoryItem} :
    roleItem hosts role = .ok item ↔ ∃ s, role.str? = some s ∧ item = ⟨toRoleName s, hosts⟩ := by
  simp only [roleItem, bind_eq_ok, Val.asStr_eq_ok, Except.ok.injEq]
  exact ⟨fun ⟨s, hs, h⟩ => ⟨s, hs, h.symm⟩, fun ⟨s, hs, h⟩ => ⟨s, hs, h.symm⟩⟩

theorem mapsTo_eq_true {componentKey : String} {roles : List Val}
    (hroles : getRolesForFeature configDocs componentKey = .ok roles) (group : String) :
    mapsTo configDocs group componentKey = true ↔
      ∃ role ∈ roles, ∃ s, role.str? = some s ∧ toRoleName s = group := by
  simp only [mapsTo, hroles, List.any_eq_true]
  constructor
  · rintro ⟨role, hrole, h⟩
    split at h
    · next s hs => exact ⟨role, hrole, s, Val.asStr_eq_ok.mp hs, beq_iff_eq.mp h⟩
    · cases h
  · rintro ⟨role, hrole, s, hs, rfl⟩
    refine ⟨role, hrole, ?_⟩
    rw [Val.asStr_eq_ok.mpr hs]
    exact beq_self_eq_true _

theorem exists_role_of_mapM {hosts : List HostObject} {roles : List Val}
    {items : List AnsibleInventoryItem} (h : roles.mapM (roleItem hosts) = .ok items)
    {group : String} :
    (∃ item ∈ items, item.role = group) ↔
      ∃ role ∈ roles, ∃ s, role.str? = some s ∧ toRoleName s = group := by
  have hpairs := mapM_eq_ok.mp h
  clear h
  induction hpairs with
  | nil => simp
  | @cons role item roles items hrole hrest ih =>
      obtain ⟨s, hs, rfl⟩ := roleItem_eq_ok.mp hrole
      simp only [List.exists_mem_cons_iff, ih, hs, Option.some.injEq, exists_eq_left']

theorem hostNames_eq (proxy : APIProxy) (componentKey : String) :
    hostNames proxy componentKey = (answer proxy componentKey).map AnsibleHostModel.name := by
  unfold hostNames answer
  cases proxy componentKey <;> rfl

/-- The items of a component name the groups it is mapped to, each with all of
its hosts. -/
theorem componentItems_objects {component : String × Val} {items : List AnsibleInventoryItem}
    (h : componentItems proxy configDocs component = .ok items) (group : String)
    (x : HostObject) :
    InGroup items group x ↔
      isActive component.2 = true ∧ mapsTo configDocs group component.1 = true ∧
        x ∈ hostObjects component.1 (answer proxy component.1) := by
  simp only [componentItems, bind_eq_ok] at h
  obtain ⟨count, hcount, inactive, hinactive, h⟩ := h
  have hactive : isActive component.2 = !inactive := by
    simp only [isActive, hcount, ok_bind, hinactive]
  rw [hactive]
  cases inactive with
  | true =>
      cases h
      simp [InGroup]
  | false =>
      simp only [Bool.false_eq_true, if_false, bind_eq_ok] at h
      obtain ⟨ips, hips, h⟩ := h
      have hanswer : answer proxy component.1 = ips := by
        simp only [answer, hips]
      rw [hanswer]
      cases ips with
      | nil =>
          cases h
          simp [InGroup, hostObjects]
      | cons ip rest =>
          simp only [List.isEmpty_cons, Bool.false_eq_true, if_false, bind_eq_ok] at h
          obtain ⟨roles, hroles, h⟩ := h
          have hgroups : (∃ item ∈ items, item.role = group) ↔
              mapsTo configDocs group component.1 = true := by
            rw [mapsTo_eq_true hroles]
            exact exists_role_of_mapM h
          have hhosts : ∀ item ∈ items, item.hosts = hostObjects component.1 (ip :: rest) := by
            intro item hitem
            obtain ⟨role, -, hrole⟩ := exists_of_mem_mapM h hitem
            obtain ⟨s, -, rfl⟩ := roleItem_eq_ok.mp hrole
            rfl
          rw [← hgroups]
          constructor
          · rintro ⟨item, hitem, hrole, hx⟩
            exact ⟨rfl, ⟨item, hitem, hrole⟩, hhosts item hitem ▸ hx⟩
          · rintro ⟨-, ⟨item, hitem, hrole⟩, hx⟩
            exact ⟨item, hitem, hrole, (hhosts item hitem).symm ▸ hx⟩

/-- The count of a component that the inventory could be built with is compared
with a number. -/
theorem ltOne_of_getInventory {components : Entries}
    (hcomponents : componentsOf clusterModel = .ok components)
    (h : getInventory proxy clusterModel configDocs = .ok inventory)
    {component : String × Val} (hmem : component ∈ components) :
    ∃ count inactive, component.2.attr? "count" = some count ∧ count.ltOne = .ok inactive := by
  rw [getInventory, hcomponents, ok_bind, bind_eq_ok] at h
  obtain ⟨items, hitems, -⟩ := h
  obtain ⟨own, hown⟩ := exists_ok_of_mem_mapM hitems hmem
  simp only [componentItems, bind_eq_ok, Val.getAttr_eq_ok] at hown
  obtain ⟨count, hcount, inactive, hinactive, -⟩ := hown
  exact ⟨count, inactive, hcount, hinactive⟩

/-- The components of a cluster model are a mapping with each key once. -/
theorem nodup_dictKeys_components {components : Entries} (hwf : clusterModel.WellFormed)
    (hcomponents : componentsOf clusterModel = .ok components) :
    (dictKeys components).Nodup := by
  simp only [componentsOf, attrPath, List.foldlM_cons, List.foldlM_nil, bind_eq_ok,
    Val.getAttr_eq_ok, pure_eq_ok] at hcomponents
  obtain ⟨x, ⟨spec, hspec, y, hy, rfl⟩, hdict⟩ := hcomponents
  have hy' : y.WellFormed := (hwf.attr? hspec).attr? hy
  cases y with
  | scalar | list => cases hdict
  | dict entries =>
      cases hdict
      exact (Val.wellFormed_dict_iff.mp hy').1

/-- The host objects of a group of the inventory are those the proxy makes for the
active components mapped to it. -/
theorem getInventory_objects {components : Entries}
    (hcomponents : componentsOf clusterModel = .ok components)
    (h : getInventory proxy clusterModel configDocs = .ok inventory) (group : String)
    (x : HostObject) :
    InGroup inventory group x ↔
      ∃ key ∈ contributors configDocs components group,
        x ∈ hostObjects key (answer proxy key) := by
  rw [getInventory, hcomponents, ok_bind, bind_eq_ok] at h
  obtain ⟨items, hitems, h⟩ := h
  cases h
  rw [inGroup_groupDuplicated, contributors, dictKeys]
  have hpairs := mapM_eq_ok.mp hitems
  clear hitems hcomponents
  induction hpairs with
  | nil => simp [InGroup]
  | @cons component own components items hown hrest ih =>
      have happend : InGroup (own :: items).flatten group x ↔
          InGroup own group x ∨ InGroup items.flatten group x := by
        simp only [InGroup, List.flatten_cons, List.mem_append, or_and_right, exists_or]
      simp only [happend, componentItems_objects hown group x, ih]
      rw [List.filter_cons]
      by_cases hkeep : isActive component.2 && mapsTo configDocs group component.1
      · rw [if_pos hkeep, List.map_cons, List.exists_mem_cons_iff]
        rw [Bool.and_eq_true] at hkeep
        simp only [hkeep, true_and]
      · rw [if_neg hkeep]
        rw [Bool.and_eq_true, not_and] at hkeep
        constructor
        · rintro (⟨hactive, hmaps, -⟩ | h)
          · exact absurd hmaps (hkeep hactive)
          · exact h
        · exact Or.inr

/-- The hosts of a group of the inventory, by name, are those the input gives it. -/
theorem getInventory_names {components : Entries}
    (hcomponents : componentsOf clusterModel = .ok components)
    (h : getInventory proxy clusterModel configDocs = .ok inventory) (group name : String) :
    (∃ x, InGroup inventory group x ∧ x.host.name = name) ↔
      name ∈ roleHosts proxy configDocs components group := by
  simp only [getInventory_objects hcomponents h, mem_roleHosts, hostNames_eq]
  constructor
  · rintro ⟨x, ⟨key, hkey, hx⟩, hname⟩
    exact ⟨key, hkey, (exists_mem_hostObjects key).mp ⟨x, hx, hname⟩⟩
  · rintro ⟨key, hkey, hname⟩
    obtain ⟨x, hx, hname⟩ := (exists_mem_hostObjects key).mpr hname
    exact ⟨x, ⟨key, hkey, hx⟩, hname⟩

/-- A group is in the inventory exactly when the input gives it a host. -/
theorem getInventory_groups {components : Entries}
    (hcomponents : componentsOf clusterModel = .ok components)
    (h : getInventory proxy clusterModel configDocs = .ok inventory) (group : String) :
    (∃ item ∈ inventory, item.role = group) ↔
      roleHosts proxy configDocs components group ≠ [] := by
  rw [ne_eq, List.eq_nil_iff_forall_not_mem, not_forall_not]
  simp only [← getInventory_names hcomponents h]
  constructor
  · rintro ⟨item, hitem, hrole⟩
    have hgrouped : item.hosts ≠ [] := by
      rw [getInventory, hcomponents, ok_bind, bind_eq_ok] at h
      obtain ⟨items, -, h⟩ := h
      cases h
      exact (hosts_of_mem_groupDuplicated hitem).1
    obtain ⟨x, hx⟩ := List.exists_mem_of_ne_nil _ hgrouped
    exact ⟨x.host.name, x, ⟨item, hitem, hrole, hx⟩, rfl⟩
  · rintro ⟨name, x, ⟨item, hitem, hrole, -⟩, -⟩
    exact ⟨item, hitem, hrole⟩

end

end AnsibleInventoryCreator

end LambdaStack
