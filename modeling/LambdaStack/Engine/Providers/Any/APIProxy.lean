/-
# The hosts of a cluster on any machines

`APIProxy` of the provider `any`: the hosts of a component are those of the
machine documents it names, and each call makes new host objects. The inventory
therefore lists a host once for every use of its machine by a component of the
group, since it keeps two objects of one host apart.
-/

import Mathlib.Data.List.Count
import Mathlib.Data.List.Perm.Basic
import Mathlib.Data.List.Nodup
import LambdaStack.Engine.Ansible.AnsibleInventoryCreator

namespace LambdaStack

open Lib AnsibleInventoryCreator

namespace Any

/-- The body of the loop of `get_ips_for_feature`. The fields of a machine are
strings, as its schema asks. -/
def hostOf (configDocs : List Val) (machine : Val) : Res AnsibleHostModel := do
  let machineDoc ← selectFirst configDocs (kindAndNameAre "infrastructure/machine" machine)
  let hostname ← attrPath (machineDoc.getD .null) ["specification", "hostname"]
  let hostname ← hostname.asStr
  let ip ← attrPath (machineDoc.getD .null) ["specification", "ip"]
  let ip ← ip.asStr
  .ok ⟨hostname, ip⟩

/-- The machines a component names. -/
def machinesOf (componentConfig : Val) : Res (List Val) :=
  match componentConfig.attr? "machines" with
  | some machines => machines.asList
  | none => .ok []

/-- The hosts of the machines of a component. -/
def hostsOf (configDocs : List Val) (componentConfig : Val) : Res (List AnsibleHostModel) := do
  let machines ← machinesOf componentConfig
  machines.mapM (hostOf configDocs)

/-- `get_ips_for_feature`. -/
def getIpsForFeature (clusterModel : Val) (configDocs : List Val) : APIProxy :=
  fun componentKey => do
    let components ← attrPath clusterModel ["specification", "components"]
    let componentConfig ← components.getItem componentKey
    hostsOf configDocs componentConfig

end Any

namespace AnsibleInventoryCreator

/-! ## How often a group lists a host -/

/-- The hosts of a group, as often as the inventory lists them. -/
def hostsIn (inventory : List AnsibleInventoryItem) (group : String) : List AnsibleHostModel :=
  (inventory.filter (·.role = group)).flatMap fun item => item.hosts.map (·.host)

theorem nodup_hostObjects (component : String) (ips : List AnsibleHostModel) :
    (hostObjects component ips).Nodup := by
  unfold hostObjects
  apply List.Nodup.of_map HostObject.index
  rw [List.map_map]
  change (ips.zipIdx.map Prod.snd).Nodup
  rw [List.zipIdx_map_snd]
  exact List.nodup_range'

theorem map_host_hostObjects (component : String) (ips : List AnsibleHostModel) :
    (hostObjects component ips).map (·.host) = ips := by
  unfold hostObjects
  rw [List.map_map]
  exact List.zipIdx_map_fst 0 ips

/-- The groups of an inventory are distinct. -/
theorem nodup_roles (inventory : List AnsibleInventoryItem) :
    ((groupDuplicated inventory).map AnsibleInventoryItem.role).Nodup := by
  rw [groupDuplicated, List.map_map]
  exact (valid_addItems inventory).keys

theorem filter_role_of_nodup {inventory : List AnsibleInventoryItem}
    (h : (inventory.map AnsibleInventoryItem.role).Nodup) (group : String) :
    inventory.filter (·.role = group) = (inventory.find? (·.role = group)).toList := by
  induction inventory with
  | nil => rfl
  | cons item rest ih =>
      rw [List.map_cons, List.nodup_cons] at h
      rw [List.filter_cons, List.find?_cons]
      by_cases hrole : item.role = group
      · have hrest : rest.filter (·.role = group) = [] := by
          rw [List.filter_eq_nil_iff]
          intro other hother heq
          rw [decide_eq_true_eq] at heq
          exact h.1 (List.mem_map.mpr ⟨other, hother, heq.trans hrole.symm⟩)
        simp [hrole, hrest]
      · simp only [hrole, decide_false, Bool.false_eq_true, if_false]
        exact ih h.2

section

variable {proxy : APIProxy} {configDocs : List Val} {clusterModel : Val}
  {inventory : List AnsibleInventoryItem}

/-- A group lists the hosts of the contributing components, each as often as they
have it together. -/
theorem hostsIn_perm {components : Entries} (hwf : clusterModel.WellFormed)
    (hcomponents : componentsOf clusterModel = .ok components)
    (h : getInventory proxy clusterModel configDocs = .ok inventory) (group : String) :
    (hostsIn inventory group).Perm
      ((contributors configDocs components group).flatMap (answer proxy)) := by
  obtain ⟨items, rfl⟩ : ∃ items, inventory = groupDuplicated items := by
    rw [getInventory, hcomponents, ok_bind, bind_eq_ok] at h
    obtain ⟨items, -, h⟩ := h
    cases h
    exact ⟨items.flatten, rfl⟩
  -- the objects of the group, without repetition on both sides
  have hobjects : (((groupDuplicated items).filter (·.role = group)).flatMap
      AnsibleInventoryItem.hosts).Perm
      ((contributors configDocs components group).flatMap fun key =>
        hostObjects key (answer proxy key)) := by
    rw [List.perm_ext_iff_of_nodup]
    · intro x
      have hgroup := getInventory_objects hcomponents h group x
      simp only [List.mem_flatMap, List.mem_filter, decide_eq_true_eq, and_assoc]
      exact hgroup
    · rw [filter_role_of_nodup (nodup_roles items)]
      cases hfind : (groupDuplicated items).find? (·.role = group) with
      | none => exact List.nodup_nil
      | some item =>
          rw [Option.toList_some, List.flatMap_singleton]
          exact (hosts_of_mem_groupDuplicated (List.mem_of_find?_eq_some hfind)).2
    · rw [List.nodup_flatMap]
      refine ⟨fun key _ => nodup_hostObjects key _, ?_⟩
      have hkeys : (contributors configDocs components group).Nodup :=
        (nodup_dictKeys_components hwf hcomponents).sublist (List.filter_sublist.map _)
      refine hkeys.imp fun {key other} hne x hx hx' => hne ?_
      exact (mem_hostObjects.mp hx).1.symm.trans (mem_hostObjects.mp hx').1
  have hmap := hobjects.map HostObject.host
  simp only [List.map_flatMap, map_host_hostObjects] at hmap
  exact hmap

end

/-! ## Machines used by several components -/

/-- Some active component that is mapped to the group uses a machine with the host. -/
def UsesHost (configDocs : List Val) (components : Entries) (group : String)
    (host : AnsibleHostModel) : Prop :=
  ∃ component ∈ components, isActive component.2 = true ∧
    mapsTo configDocs group component.1 = true ∧
    ∃ machines, Any.machinesOf component.2 = .ok machines ∧
      ∃ machine ∈ machines, Any.hostOf configDocs machine = .ok host

/-- The hosts of the machines the active components of the group name, one for each
time a component names a machine. -/
def usedHosts (configDocs : List Val) (components : Entries) (group : String) :
    List AnsibleHostModel :=
  (components.filter fun component =>
    isActive component.2 && mapsTo configDocs group component.1).flatMap fun component =>
      (Any.hostsOf configDocs component.2).toOption.getD []

/-- The inventory has each group once, and each group has each of its hosts once. -/
structure ListsOnce (configDocs : List Val) (components : Entries)
    (inventory : List AnsibleInventoryItem) : Prop where
  groups : (inventory.map AnsibleInventoryItem.role).Nodup
  once : ∀ group host, UsesHost configDocs components group host →
    (hostsIn inventory group).count host = 1
  only : ∀ group host, ¬ UsesHost configDocs components group host →
    host ∉ hostsIn inventory group

section

variable {configDocs : List Val} {clusterModel : Val} {components : Entries}
  {inventory : List AnsibleInventoryItem}

/-- The proxy finds a component of the cluster model under its key. -/
theorem getIpsForFeature_of_mem (hwf : clusterModel.WellFormed)
    (hcomponents : componentsOf clusterModel = .ok components) {component : String × Val}
    (hmem : component ∈ components) :
    Any.getIpsForFeature clusterModel configDocs component.1 =
      Any.hostsOf configDocs component.2 := by
  have hkeys := nodup_dictKeys_components hwf hcomponents
  rw [componentsOf, bind_eq_ok] at hcomponents
  obtain ⟨value, hvalue, hdict⟩ := hcomponents
  cases value with
  | scalar | list => cases hdict
  | dict entries =>
      cases hdict
      have hlookup : components.lookup component.1 = some component.2 :=
        lookup_eq_some_of_mem hkeys hmem
      simp [Any.getIpsForFeature, hvalue, Val.getItem, hlookup]

/-- The proxy has answered for every active component. -/
theorem exists_hostsOf_of_active (hwf : clusterModel.WellFormed)
    (hcomponents : componentsOf clusterModel = .ok components)
    (h : getInventory (Any.getIpsForFeature clusterModel configDocs) clusterModel configDocs =
      .ok inventory)
    {component : String × Val} (hmem : component ∈ components)
    (hactive : isActive component.2 = true) :
    ∃ hosts, Any.hostsOf configDocs component.2 = .ok hosts := by
  rw [← getIpsForFeature_of_mem hwf hcomponents hmem]
  rw [getInventory, hcomponents, ok_bind, bind_eq_ok] at h
  obtain ⟨items, hitems, -⟩ := h
  obtain ⟨own, hown⟩ := exists_ok_of_mem_mapM hitems hmem
  simp only [componentItems, bind_eq_ok] at hown
  obtain ⟨count, hcount, inactive, hinactive, hown⟩ := hown
  simp only [isActive, hcount, ok_bind, hinactive, Bool.not_eq_true'] at hactive
  subst hactive
  simp only [Bool.false_eq_true, if_false, bind_eq_ok] at hown
  obtain ⟨ips, hips, -⟩ := hown
  exact ⟨ips, hips⟩

theorem mem_usedHosts (hwf : clusterModel.WellFormed)
    (hcomponents : componentsOf clusterModel = .ok components)
    (h : getInventory (Any.getIpsForFeature clusterModel configDocs) clusterModel configDocs =
      .ok inventory) (group : String) (host : AnsibleHostModel) :
    host ∈ usedHosts configDocs components group ↔
      UsesHost configDocs components group host := by
  simp only [usedHosts, UsesHost, List.mem_flatMap, List.mem_filter, Bool.and_eq_true, and_assoc]
  refine exists_congr fun component => and_congr_right fun hmem => and_congr_right fun hactive =>
    and_congr_right fun _ => ?_
  obtain ⟨hosts, hhosts⟩ := exists_hostsOf_of_active hwf hcomponents h hmem hactive
  have hrun := hhosts
  rw [Any.hostsOf, bind_eq_ok] at hrun
  obtain ⟨machines, hmachines, hrun⟩ := hrun
  simp only [hhosts, Except.toOption, Option.getD_some, mem_mapM_iff hrun, hmachines,
    Except.ok.injEq, exists_eq_left']

theorem hostsIn_perm_usedHosts (hwf : clusterModel.WellFormed)
    (hcomponents : componentsOf clusterModel = .ok components)
    (h : getInventory (Any.getIpsForFeature clusterModel configDocs) clusterModel configDocs =
      .ok inventory) (group : String) :
    (hostsIn inventory group).Perm (usedHosts configDocs components group) := by
  have hperm := hostsIn_perm hwf hcomponents h group
  have hanswers : ∀ component ∈ components,
      answer (Any.getIpsForFeature clusterModel configDocs) component.1 =
        (Any.hostsOf configDocs component.2).toOption.getD [] := by
    intro component hmem
    rw [answer, getIpsForFeature_of_mem hwf hcomponents hmem]
    cases Any.hostsOf configDocs component.2 <;> rfl
  rw [contributors, dictKeys, List.flatMap_map] at hperm
  rw [usedHosts]
  refine hperm.trans (List.Perm.of_eq ?_)
  apply List.flatMap_congr
  intro component hmem
  exact hanswers component (List.mem_of_mem_filter hmem)

/-- The inventory lists every host once exactly when no group has two uses of
machines with one host. -/
theorem listsOnce_iff_nodup_usedHosts (hwf : clusterModel.WellFormed)
    (hcomponents : componentsOf clusterModel = .ok components)
    (h : getInventory (Any.getIpsForFeature clusterModel configDocs) clusterModel configDocs =
      .ok inventory) :
    ListsOnce configDocs components inventory ↔
      ∀ group, (usedHosts configDocs components group).Nodup := by
  have hperm := hostsIn_perm_usedHosts hwf hcomponents h
  have hmem := mem_usedHosts hwf hcomponents h
  constructor
  · intro hlists group
    rw [List.nodup_iff_count_le_one]
    intro host
    rw [← (hperm group).count_eq]
    by_cases huses : UsesHost configDocs components group host
    · exact (hlists.once group host huses).le
    · rw [List.count_eq_zero_of_not_mem (hlists.only group host huses)]
      exact Nat.zero_le 1
  · intro hnodup
    refine ⟨?_, fun group host huses => ?_, fun group host huses hin => ?_⟩
    · rw [getInventory, hcomponents, ok_bind, bind_eq_ok] at h
      obtain ⟨items, -, h⟩ := h
      cases h
      exact nodup_roles items.flatten
    · rw [(hperm group).count_eq]
      exact List.count_eq_one_of_mem (hnodup group) ((hmem group host).mpr huses)
    · exact huses ((hmem group host).mp ((hperm group).mem_iff.mp hin))

end

/-! ## One machine for two components -/

namespace AnySample

/-- A component with one machine. -/
def component (machine : String) : Val :=
  .dict [("count", .int 1), ("machines", .list [.str machine])]

/-- The master and the node of the cluster. -/
def components (master node : String) : Entries :=
  [("kubernetes_master", component master), ("kubernetes_node", component node)]

def clusterModel (master node : String) : Val :=
  .dict [("kind", .str "lambdastack-cluster"), ("provider", .str "any"),
    ("specification", .dict [("components", .dict (components master node))])]

def machine (name ip : String) : Val :=
  .dict [("kind", .str "infrastructure/machine"), ("name", .str name),
    ("specification", .dict [("hostname", .str name), ("ip", .str ip)])]

/-- Both components have the role `node-exporter`. -/
def configDocs : List Val :=
  [machine "host-1" "10.0.0.1", machine "host-2" "10.0.0.2",
    .dict [("kind", .str "configuration/feature-mapping"), ("specification", .dict
      [("roles_mapping", .dict [("kubernetes_master", .list [.str "node-exporter"]),
        ("kubernetes_node", .list [.str "node-exporter"])])])]]

/-- The group, with the host objects of the master and of the node. -/
def inventory (master node : AnsibleHostModel) : List AnsibleInventoryItem :=
  [⟨"node_exporter", [⟨"kubernetes_master", 0, master⟩, ⟨"kubernetes_node", 0, node⟩]⟩]

theorem wellFormed_clusterModel (master node : String) :
    (clusterModel master node).WellFormed := by
  simp [clusterModel, component, components, dictKeys]

/-- The two machines have two hosts. -/
theorem nodup_usedHosts (group : String) :
    (usedHosts configDocs (components "host-1" "host-2") group).Nodup := by
  have hmaster : Any.hostsOf configDocs (component "host-1") = .ok [⟨"host-1", "10.0.0.1"⟩] := rfl
  have hnode : Any.hostsOf configDocs (component "host-2") = .ok [⟨"host-2", "10.0.0.2"⟩] := rfl
  unfold usedHosts components
  by_cases hfirst : mapsTo configDocs group "kubernetes_master" = true <;>
    by_cases hsecond : mapsTo configDocs group "kubernetes_node" = true <;>
      simp [hfirst, hsecond, hmaster, hnode, Except.toOption,
        show isActive (component "host-1") = true from rfl,
        show isActive (component "host-2") = true from rfl]

end AnySample

/-- A machine that two components of a group use is listed twice. -/
theorem shared_machine_listed_twice :
    ¬ ∀ clusterModel configDocs components inventory, clusterModel.WellFormed →
      componentsOf clusterModel = .ok components →
      getInventory (Any.getIpsForFeature clusterModel configDocs) clusterModel configDocs =
        .ok inventory →
      ListsOnce configDocs components inventory := by
  intro h
  have hlists := h (AnySample.clusterModel "host-1" "host-1") AnySample.configDocs
    (AnySample.components "host-1" "host-1")
    (AnySample.inventory ⟨"host-1", "10.0.0.1"⟩ ⟨"host-1", "10.0.0.1"⟩)
    (AnySample.wellFormed_clusterModel _ _) rfl rfl
  have hcount := hlists.once "node_exporter" ⟨"host-1", "10.0.0.1"⟩
    ⟨("kubernetes_master", AnySample.component "host-1"), List.mem_cons_self, rfl, rfl,
      [.str "host-1"], rfl, .str "host-1", List.mem_singleton_self _, rfl⟩
  exact absurd hcount (by decide)

theorem listsOnce_iff_nodup_usedHosts_sample :
    ListsOnce AnySample.configDocs (AnySample.components "host-1" "host-2")
      (AnySample.inventory ⟨"host-1", "10.0.0.1"⟩ ⟨"host-2", "10.0.0.2"⟩) :=
  (listsOnce_iff_nodup_usedHosts (AnySample.wellFormed_clusterModel "host-1" "host-2") rfl
    rfl).mpr AnySample.nodup_usedHosts

end AnsibleInventoryCreator

end LambdaStack
