/-
# Upgrading the inventory

`AnsibleInventoryUpgrade`: the groups of the inventory in the backup directory
become the groups of the new inventory, beside a group for the image registry
where there is none. What Ansible reads from an inventory file is a parameter.
-/

import LambdaStack.Helpers.BuildIo
import LambdaStack.Helpers.ConfigMerger

namespace LambdaStack

open Lib

namespace AnsibleInventoryUpgrade

/-- The names of the groups Ansible adds. -/
def builtin : List String := ["all", "ungrouped"]

/-- What an upgrade of the inventory reads besides the backup. -/
structure Env where
  schema : SchemaDir
  /-- The groups `InventoryManager` reads from a file, `all` and `ungrouped` among
  them, with the hosts of each. -/
  groups : InventoryFile → List (String × List AnsibleHostModel)
  /-- The groups without an inventory file. -/
  builtinGroups : List (String × List AnsibleHostModel)
  builtin_of_mem : ∀ group ∈ builtinGroups, group.1 ∈ builtin

/-- The inventory file has a host in a group. -/
def HasHost (groups : List (String × List AnsibleHostModel)) (group name : String) : Prop :=
  ∃ hosts, (group, hosts) ∈ groups ∧ ∃ host ∈ hosts, host.name = name

/-- Ansible reads back which hosts a file has in which group. -/
def Env.ReadsBack (env : Env) : Prop :=
  ∀ {file group name}, group ∉ builtin →
    (HasHost (env.groups file) group name ↔ HasHost file.groups group name)

variable (env : Env)

/-- The inventory of the backup as `InventoryManager` has loaded it. -/
def loadedGroups (backup : Files) : List (String × List AnsibleHostModel) :=
  match backup.lookup (.top ansibleInventoryFile) with
  | some (.inventory file) => env.groups file
  | _ => env.builtinGroups

/-- The loaded inventory in the structure of the template. -/
def moveLoaded (loaded : List (String × List AnsibleHostModel)) : List AnsibleInventoryItem :=
  (loaded.filter fun group => group.1 ≠ "all" ∧ group.1 ≠ "ungrouped").map
    fun (key, hosts) => ⟨key, hostObjects key hosts⟩

/-- `get_role`. -/
def getRole (inventory : List AnsibleInventoryItem) (roleName : String) :
    Option AnsibleInventoryItem :=
  inventory.find? (·.role = roleName)

/-- Add a group for the image registry if there is none. -/
def addImageRegistry (inventory : List AnsibleInventoryItem) (repository : AnsibleInventoryItem) :
    Res (List AnsibleInventoryItem) :=
  match getRole inventory "image_registry", repository.hosts with
  | some _, _ => .ok inventory
  | none, [] => .error .indexError
  | none, first :: _ =>
      .ok (inventory ++ [⟨"image_registry", hostObjects "image_registry" [first.host]⟩])

/-- The cluster model of the manifest, merged into the default of this version. -/
def upgradeClusterModel (manifestDocs : List Val) : Res Val := do
  let clusterModel ← selectSingle manifestDocs (kindIs "lambdastack-cluster")
  let provider ← clusterModel.getAttr "provider"
  let provider ← provider.asStr
  let defaultClusterModel ← env.schema.loadSchemaObj provider "lambdastack-cluster"
  mergeDocs (some defaultClusterModel) (some clusterModel)

/-- `AnsibleInventoryUpgrade.upgrade`: the inventory file it saves in the build
directory. -/
def upgrade (backup : Files) : Res InventoryFile := do
  let newInventory := moveLoaded (loadedGroups env backup)
  let manifestDocs ← loadManifest backup
  let clusterModel ← upgradeClusterModel env manifestDocs
  match getRole newInventory "repository" with
  | none => .error (.exception ("repository group not found in inventory. " ++
      "Your deployment may not be supported by this version of LambdaStack. " ++
      "You may try to use older version first."))
  | some repository => do
      let newInventory ← addImageRegistry newInventory repository
      saveInventory newInventory clusterModel

variable {env}

theorem mem_groups_saveInventory {inventory : List AnsibleInventoryItem} {clusterModel : Val}
    {file : InventoryFile} (h : saveInventory inventory clusterModel = .ok file) :
    file.groups = inventory.map fun item => (item.role, item.hosts.map HostObject.host) := by
  simp only [saveInventory, bind_eq_ok, Except.ok.injEq] at h
  obtain ⟨user, -, key, -, rfl⟩ := h
  rfl

/-- The hosts of an item that holds the objects of an answer are the answer. -/
theorem map_host_hostObjects (component : String) (ips : List AnsibleHostModel) :
    (hostObjects component ips).map HostObject.host = ips := by
  simp [hostObjects, List.map_map, Function.comp_def]

/-- An added group changes no other. -/
theorem subset_addImageRegistry {inventory extended : List AnsibleInventoryItem}
    {repository : AnsibleInventoryItem}
    (h : addImageRegistry inventory repository = .ok extended) : inventory ⊆ extended := by
  unfold addImageRegistry at h
  split at h
  · cases h
    exact List.Subset.refl _
  · cases h
  · cases h
    exact List.subset_append_left _ _

/-- Every host the backup's inventory has in a group is in that group in the
inventory of the upgrade. -/
theorem upgrade_keepsHosts (hread : env.ReadsBack) {backup : Files} {old new : InventoryFile}
    (hbackup : backup.lookup (.top ansibleInventoryFile) = some (.inventory old))
    (h : upgrade env backup = .ok new) {group name : String} (hgroup : group ∉ builtin)
    (hhost : HasHost old.groups group name) : HasHost new.groups group name := by
  obtain ⟨hosts, hmem, hname⟩ := (hread hgroup).mpr hhost
  have hmoved : (⟨group, hostObjects group hosts⟩ : AnsibleInventoryItem) ∈
      moveLoaded (loadedGroups env backup) := by
    apply List.mem_map.mpr
    refine ⟨(group, hosts), List.mem_filter.mpr ⟨?_, ?_⟩, rfl⟩
    · rw [loadedGroups, hbackup]
      exact hmem
    · simpa [builtin] using hgroup
  simp only [upgrade, bind_eq_ok] at h
  obtain ⟨manifestDocs, -, clusterModel, -, h⟩ := h
  split at h
  · cases h
  · rw [bind_eq_ok] at h
    obtain ⟨extended, hextended, hsave⟩ := h
    refine ⟨hosts, ?_, hname⟩
    rw [mem_groups_saveInventory hsave]
    apply List.mem_map.mpr
    refine ⟨_, subset_addImageRegistry hextended hmoved, ?_⟩
    rw [map_host_hostObjects]

/-- An upgrade that saves an inventory has read one from the backup. -/
theorem exists_inventory_of_upgrade {backup : Files} {new : InventoryFile}
    (h : upgrade env backup = .ok new) :
    ∃ old, backup.lookup (.top ansibleInventoryFile) = some (.inventory old) := by
  by_contra hnone
  have hgroups : loadedGroups env backup = env.builtinGroups := by
    unfold loadedGroups
    split
    · next old hold => exact absurd ⟨old, hold⟩ hnone
    · rfl
  have hmoved : moveLoaded (loadedGroups env backup) = [] := by
    rw [hgroups, moveLoaded, List.map_eq_nil_iff, List.filter_eq_nil_iff]
    intro group hmem
    have hname := env.builtin_of_mem group hmem
    simp only [builtin, List.mem_cons, List.not_mem_nil, or_false] at hname
    rcases hname with hname | hname <;> simp [hname]
  simp only [upgrade, bind_eq_ok, hmoved] at h
  obtain ⟨manifestDocs, -, clusterModel, -, h⟩ := h
  cases h

end AnsibleInventoryUpgrade

end LambdaStack
