/-
# The scaling assertions of an apply

`assert_no_master_downscale` and `assert_no_postgres_nodes_number_change` of
`ApplyEngine` compare the hosts a group has in the existing inventory with the
count of one component of the new cluster model. The inventory sums the hosts of
every component mapped to the group's role, so a second apply of the same input
passes exactly when that one count agrees with the sum.
-/

import LambdaStack.Engine.Ansible.AnsibleInventoryCreator

namespace LambdaStack

open Lib AnsibleInventoryCreator

/-- What the program asks Ansible's `InventoryManager` about an inventory file:
the names of its groups, and the names of the hosts a pattern matches. -/
structure InventoryManager where
  listGroups : List String
  listHosts : String → List String

/-- Ansible reads a group of the inventory file back: it is listed when the file
has it, and its hosts are listed once each, by name. -/
structure InventoryManager.ReadsBack (existing : InventoryManager)
    (inventory : List AnsibleInventoryItem) (group : String) : Prop where
  listed : group ∈ existing.listGroups ↔ ∃ item ∈ inventory, item.role = group
  nodup : (existing.listHosts group).Nodup
  hosts : ∀ name, name ∈ existing.listHosts group ↔
    ∃ x, InGroup inventory group x ∧ x.host.name = name

/-- The manager of a file that lists its groups beside the two Ansible adds. -/
def InventoryManager.ofInventory (inventory : List AnsibleInventoryItem) : InventoryManager where
  listGroups := "all" :: "ungrouped" :: inventory.map AnsibleInventoryItem.role
  listHosts := groupNames inventory

theorem InventoryManager.readsBack_ofInventory (inventory : List AnsibleInventoryItem)
    {group : String} (hall : group ≠ "all") (hungrouped : group ≠ "ungrouped") :
    (ofInventory inventory).ReadsBack inventory group where
  listed := by
    simp only [ofInventory, List.mem_cons, List.mem_map, hall, hungrouped, false_or]
  nodup := nodup_groupNames inventory group
  hosts _ := mem_groupNames

namespace ApplyEngine

/-- What the assertions read besides the cluster model. -/
structure ScalingEnv where
  /-- The integer a string denotes, for `int`. -/
  parseInt : String → Option Int
  /-- The inventory file in the build directory of a cluster, if there is one. -/
  inventories : String → Option InventoryManager

section

variable (env : ScalingEnv)

/-- `int(components[key]['count'])`. -/
def countOf (components : Entries) (key : String) : Res Int := do
  let component ← (Val.dict components).getItem key
  let count ← component.getItem "count"
  count.toInt env.parseInt

/-- `('single_machine' in components) and (int(...['count']) > 0)`. -/
def isSingleMachine (components : Entries) : Res Bool :=
  if "single_machine" ∈ dictKeys components then do
    let count ← countOf env components "single_machine"
    .ok (decide (count > 0))
  else .ok false

/-- The inventory file of the cluster, if there is one. -/
def existingInventory (clusterModel : Val) : Res (Option InventoryManager) := do
  let clusterName ← attrPath clusterModel ["specification", "name"]
  let clusterName ← clusterName.asStr
  .ok (env.inventories clusterName)

/-- The comparison both assertions make where the inventory has the group and the
cluster model the component: the sizes must not stand in the relation `rejected`. -/
def compareCounts (rejected : Int → Int → Bool) (message group : String) (components : Entries) :
    Option InventoryManager → Res Unit
  | none => .ok ()
  | some existing =>
      if group ∈ existing.listGroups ∧ group ∈ dictKeys components then do
        let next ← countOf env components group
        if rejected (existing.listHosts group).length next then .error (.exception message)
        else .ok ()
      else .ok ()

/-- `assert_no_master_downscale`. -/
def assertNoMasterDownscale (clusterModel : Val) : Res Unit := do
  let components ← componentsOf clusterModel
  let single ← isSingleMachine env components
  if single then .ok ()
  else do
    let existing ← existingInventory env clusterModel
    compareCounts env (fun prev next => decide (prev > next))
      ("ControlPlane downscale is not supported yet. Please revert your 'kubernetes_master' " ++
        "count to previous value or increase it to scale up Kubernetes.")
      "kubernetes_master" components existing

/-- `assert_no_postgres_nodes_number_change`. -/
def assertNoPostgresNodesNumberChange (clusterModel : Val) : Res Unit := do
  let components ← componentsOf clusterModel
  let existing ← existingInventory env clusterModel
  compareCounts env (fun prev next => decide (prev ≠ next))
    ("Postgresql scaling is not supported yet. Please revert your 'postgresql' " ++
      "count to previous value.")
    "postgresql" components existing

/-! ## When the assertions pass -/

section

variable {env} {clusterModel : Val} {components : Entries} {existing : InventoryManager}

theorem compareCounts_eq_ok {rejected : Int → Int → Bool} {message group : String} :
    compareCounts env rejected message group components (some existing) = .ok () ↔
      (group ∈ existing.listGroups → group ∈ dictKeys components →
        ∃ next, countOf env components group = .ok next ∧
          rejected (existing.listHosts group).length next = false) := by
  rw [compareCounts]
  by_cases hboth : group ∈ existing.listGroups ∧ group ∈ dictKeys components
  · rw [if_pos hboth, bind_eq_ok]
    simp only [hboth.1, hboth.2, true_imp_iff]
    apply exists_congr
    intro next
    cases rejected (existing.listHosts group).length next <;> simp
  · rw [if_neg hboth]
    exact ⟨fun _ hlisted hkey => absurd ⟨hlisted, hkey⟩ hboth, fun _ => rfl⟩

theorem assertNoMasterDownscale_eq_ok {single : Bool}
    (hcomponents : componentsOf clusterModel = .ok components)
    (hsingle : isSingleMachine env components = .ok single)
    (hexisting : existingInventory env clusterModel = .ok (some existing)) :
    assertNoMasterDownscale env clusterModel = .ok () ↔
      (single = false → "kubernetes_master" ∈ existing.listGroups →
        "kubernetes_master" ∈ dictKeys components →
        ∃ next, countOf env components "kubernetes_master" = .ok next ∧
          ((existing.listHosts "kubernetes_master").length : Int) ≤ next) := by
  rw [assertNoMasterDownscale, hcomponents, ok_bind, hsingle, ok_bind]
  cases single with
  | true => simp
  | false =>
      rw [if_neg Bool.false_ne_true, hexisting, ok_bind, compareCounts_eq_ok]
      simp only [true_imp_iff, decide_eq_false_iff_not, gt_iff_lt, Int.not_lt]

theorem assertNoPostgresNodesNumberChange_eq_ok
    (hcomponents : componentsOf clusterModel = .ok components)
    (hexisting : existingInventory env clusterModel = .ok (some existing)) :
    assertNoPostgresNodesNumberChange env clusterModel = .ok () ↔
      ("postgresql" ∈ existing.listGroups → "postgresql" ∈ dictKeys components →
        ∃ next, countOf env components "postgresql" = .ok next ∧
          ((existing.listHosts "postgresql").length : Int) = next) := by
  rw [assertNoPostgresNodesNumberChange, hcomponents, ok_bind, hexisting, ok_bind,
    compareCounts_eq_ok]
  simp only [decide_eq_false_iff_not, ne_eq, not_not]

end

/-! ## Applying the same input again -/

section

variable (proxy : APIProxy) (configDocs : List Val) (components : Entries)

/-- No more hosts are in the master group than the component counts, unless the
cluster is a single machine one or the group is empty. -/
def MasterFits : Prop :=
  isSingleMachine env components = .ok true ∨
    roleHosts proxy configDocs components "kubernetes_master" = [] ∨
    ∀ count, countOf env components "kubernetes_master" = .ok count →
      ((roleHosts proxy configDocs components "kubernetes_master").length : Int) ≤ count

/-- As many hosts are in the PostgreSQL group as the component counts, unless the
group is empty. -/
def PostgresFits : Prop :=
  roleHosts proxy configDocs components "postgresql" = [] ∨
    ∀ count, countOf env components "postgresql" = .ok count →
      ((roleHosts proxy configDocs components "postgresql").length : Int) = count

end

section

variable {env} {proxy : APIProxy} {clusterModel : Val} {configDocs : List Val}
  {components : Entries} {inventory : List AnsibleInventoryItem} {existing : InventoryManager}

/-- A group read back from the inventory of an apply has the hosts the input
gives it. -/
theorem listHosts_length (hcomponents : componentsOf clusterModel = .ok components)
    (hrun : getInventory proxy clusterModel configDocs = .ok inventory) {group : String}
    (hread : existing.ReadsBack inventory group) :
    (existing.listHosts group).length =
      (roleHosts proxy configDocs components group).length := by
  apply List.Perm.length_eq
  rw [List.perm_ext_iff_of_nodup hread.nodup (nodup_roleHosts ..)]
  intro name
  rw [hread.hosts, getInventory_names hcomponents hrun]

/-- A count that the inventory could be built with is a number. -/
theorem exists_countOf (env : ScalingEnv)
    (hcomponents : componentsOf clusterModel = .ok components)
    (hrun : getInventory proxy clusterModel configDocs = .ok inventory) {key : String}
    (hkey : key ∈ dictKeys components) : ∃ count, countOf env components key = .ok count := by
  cases hlookup : components.lookup key with
  | none => exact absurd hkey (lookup_eq_none_iff_not_mem_dictKeys.mp hlookup)
  | some value =>
      obtain ⟨count, inactive, hcount, hinactive⟩ :=
        ltOne_of_getInventory hcomponents hrun (mem_of_lookup_eq_some hlookup)
      have hitem : value.getItem "count" = .ok count := Val.getItem_eq_ok.mpr hcount
      have hentry : (Val.dict components).getItem key = .ok value :=
        Val.getItem_eq_ok.mpr hlookup
      rw [countOf, hentry, ok_bind, hitem, ok_bind]
      exact Val.exists_toInt_of_ltOne hinactive env.parseInt

theorem exists_isSingleMachine (env : ScalingEnv)
    (hcomponents : componentsOf clusterModel = .ok components)
    (hrun : getInventory proxy clusterModel configDocs = .ok inventory) :
    ∃ single, isSingleMachine env components = .ok single := by
  unfold isSingleMachine
  by_cases hkey : "single_machine" ∈ dictKeys components
  · obtain ⟨count, hcount⟩ := exists_countOf env hcomponents hrun hkey
    exact ⟨decide (count > 0), by rw [if_pos hkey, hcount, ok_bind]⟩
  · exact ⟨false, if_neg hkey⟩

/-- A count that the model has is the count of a component the model has. -/
theorem mem_dictKeys_of_countOf {key : String} {count : Int}
    (h : countOf env components key = .ok count) : key ∈ dictKeys components := by
  simp only [countOf, bind_eq_ok] at h
  obtain ⟨component, hcomponent, -⟩ := h
  exact mem_dictKeys_of_lookup_eq_some (Val.getItem_eq_ok.mp hcomponent)

/-- The comparison of one group, read in the input: `agrees` holds of the number
of hosts the input gives the group and of the count of its component. -/
theorem comparison_iff (hcomponents : componentsOf clusterModel = .ok components)
    (hrun : getInventory proxy clusterModel configDocs = .ok inventory) {group : String}
    (hread : existing.ReadsBack inventory group) (agrees : Int → Int → Prop) :
    (group ∈ existing.listGroups → group ∈ dictKeys components →
        ∃ next, countOf env components group = .ok next ∧
          agrees (existing.listHosts group).length next) ↔
      roleHosts proxy configDocs components group = [] ∨
        ∀ count, countOf env components group = .ok count →
          agrees (roleHosts proxy configDocs components group).length count := by
  rw [hread.listed, getInventory_groups hcomponents hrun, listHosts_length hcomponents hrun hread]
  constructor
  · intro h
    by_cases hempty : roleHosts proxy configDocs components group = []
    · exact Or.inl hempty
    · right
      intro count hcount
      obtain ⟨next, hnext, hagrees⟩ := h hempty (mem_dictKeys_of_countOf hcount)
      cases hcount.symm.trans hnext
      exact hagrees
  · rintro (hempty | hfits) hnonempty hkey
    · exact absurd hempty hnonempty
    · obtain ⟨count, hcount⟩ := exists_countOf env hcomponents hrun hkey
      exact ⟨count, hcount, hfits count hcount⟩

/-- An apply of the input whose own inventory is the existing one passes the
scaling assertions exactly when the counts of the two components fit all the
hosts that the feature mapping gives their groups. -/
theorem scalingAssertions_again_iff (hcomponents : componentsOf clusterModel = .ok components)
    (hrun : getInventory proxy clusterModel configDocs = .ok inventory)
    (hexisting : existingInventory env clusterModel = .ok (some existing))
    (hmaster : existing.ReadsBack inventory "kubernetes_master")
    (hpostgres : existing.ReadsBack inventory "postgresql") :
    (assertNoMasterDownscale env clusterModel = .ok () ∧
        assertNoPostgresNodesNumberChange env clusterModel = .ok ()) ↔
      MasterFits env proxy configDocs components ∧
        PostgresFits env proxy configDocs components := by
  obtain ⟨single, hsingle⟩ := exists_isSingleMachine env hcomponents hrun
  apply and_congr
  · rw [assertNoMasterDownscale_eq_ok hcomponents hsingle hexisting,
      comparison_iff hcomponents hrun hmaster (· ≤ ·), MasterFits, hsingle]
    cases single <;> simp
  · rw [assertNoPostgresNodesNumberChange_eq_ok hcomponents hexisting,
      comparison_iff hcomponents hrun hpostgres (· = ·), PostgresFits]

end

end

/-! A single machine cluster as the documentation shows it, and a cluster with
three masters. -/

namespace ScalingSample

/-- The roles of four components in the default feature mapping. -/
def rolesMapping : Val :=
  .dict [
    ("postgresql", .list [.str "postgresql", .str "postgres-exporter", .str "node-exporter",
      .str "filebeat", .str "firewall"]),
    ("single_machine", .list [.str "repository", .str "image-registry", .str "kubernetes-master",
      .str "helm", .str "applications", .str "rabbitmq", .str "postgresql", .str "firewall",
      .str "vault"]),
    ("kubernetes_master", .list [.str "kubernetes-master", .str "helm", .str "applications",
      .str "node-exporter", .str "filebeat", .str "firewall", .str "vault"]),
    ("repository", .list [.str "repository", .str "image-registry", .str "firewall",
      .str "filebeat", .str "node-exporter"])]

def featureMapping : Val :=
  .dict [("kind", .str "configuration/feature-mapping"), ("name", .str "default"),
    ("specification", .dict [("roles_mapping", rolesMapping)])]

/-- The components of a cluster with the given counts. -/
def components (masters postgres single : Int) : Entries :=
  [("kubernetes_master", .dict [("count", .int masters)]),
    ("postgresql", .dict [("count", .int postgres)]),
    ("single_machine", .dict [("count", .int single)])]

def cluster (masters postgres single : Int) : Val :=
  .dict [("kind", .str "lambdastack-cluster"), ("provider", .str "any"),
    ("specification", .dict [("name", .str "single"),
      ("components", .dict (components masters postgres single))])]

/-- The given numbers of hosts of the components. -/
def proxy (masters postgres single : Nat) : APIProxy := fun key =>
  let count :=
    if key = "kubernetes_master" then masters
    else if key = "postgresql" then postgres
    else if key = "single_machine" then single else 0
  .ok ((List.range count).map fun i => ⟨key ++ toString i, "10.20.2.1" ++ toString i⟩)

/-- The inventory an apply of the cluster writes. -/
def inventory (masters postgres single : Nat) : List AnsibleInventoryItem :=
  (getInventory (proxy masters postgres single) (cluster masters postgres single)
    [featureMapping]).toOption.getD []

/-- An existing inventory file. -/
def env (inventory : List AnsibleInventoryItem) : ScalingEnv where
  parseInt := String.toInt?
  inventories _ := some (.ofInventory inventory)

theorem answersCount_single : AnswersCount (proxy 0 0 1) (components 0 0 1) := by
  intro component hmem hactive
  simp only [components, List.mem_cons, List.not_mem_nil, or_false] at hmem
  rcases hmem with rfl | rfl | rfl
  · exact absurd hactive (by decide)
  · exact absurd hactive (by decide)
  · exact ⟨_, .int 1, rfl, by decide, rfl, by decide⟩

end ScalingSample

theorem scalingAssertions_again_iff_single :
    (assertNoMasterDownscale (ScalingSample.env (ScalingSample.inventory 0 0 1))
        (ScalingSample.cluster 0 0 1) = .ok () ∧
      assertNoPostgresNodesNumberChange (ScalingSample.env (ScalingSample.inventory 0 0 1))
        (ScalingSample.cluster 0 0 1) = .ok ()) ↔
      MasterFits (ScalingSample.env (ScalingSample.inventory 0 0 1)) (ScalingSample.proxy 0 0 1)
          [ScalingSample.featureMapping] (ScalingSample.components 0 0 1) ∧
        PostgresFits (ScalingSample.env (ScalingSample.inventory 0 0 1))
          (ScalingSample.proxy 0 0 1) [ScalingSample.featureMapping]
          (ScalingSample.components 0 0 1) :=
  scalingAssertions_again_iff rfl rfl rfl
    (InventoryManager.readsBack_ofInventory _ (by decide) (by decide))
    (InventoryManager.readsBack_ofInventory _ (by decide) (by decide))

/-- A single machine cluster with no separate PostgreSQL host is not applied a
second time: its inventory has a PostgreSQL host, that of the single machine. -/
theorem single_machine_rejected_again :
    AnswersCount (ScalingSample.proxy 0 0 1) (ScalingSample.components 0 0 1) ∧
      getInventory (ScalingSample.proxy 0 0 1) (ScalingSample.cluster 0 0 1)
          [ScalingSample.featureMapping] = .ok (ScalingSample.inventory 0 0 1) ∧
      (∀ group, group = "kubernetes_master" ∨ group = "postgresql" →
        (InventoryManager.ofInventory (ScalingSample.inventory 0 0 1)).ReadsBack
          (ScalingSample.inventory 0 0 1) group) ∧
      assertNoPostgresNodesNumberChange (ScalingSample.env (ScalingSample.inventory 0 0 1))
          (ScalingSample.cluster 0 0 1) =
        .error (.exception ("Postgresql scaling is not supported yet. Please revert your " ++
          "'postgresql' count to previous value.")) := by
  refine ⟨ScalingSample.answersCount_single, rfl, ?_, rfl⟩
  rintro group (rfl | rfl)
  · exact InventoryManager.readsBack_ofInventory _ (by decide) (by decide)
  · exact InventoryManager.readsBack_ofInventory _ (by decide) (by decide)

/-! ## Applying another input over an existing inventory -/

section

variable {env : ScalingEnv} {proxy : APIProxy} {clusterModel : Val} {configDocs : List Val}
  {components : Entries} {inventory : List AnsibleInventoryItem} {existing : InventoryManager}

/-- The size of a group of the new inventory is that of the input's group. -/
theorem groupSize_getInventory (hcomponents : componentsOf clusterModel = .ok components)
    (hrun : getInventory proxy clusterModel configDocs = .ok inventory) (group : String) :
    groupSize inventory group = (roleHosts proxy configDocs components group).length := by
  apply List.Perm.length_eq
  rw [List.perm_ext_iff_of_nodup (nodup_groupNames ..) (nodup_roleHosts ..)]
  intro name
  rw [mem_groupNames, getInventory_names hcomponents hrun]

/-- What a count says about the hosts of its component: there are as many, or the
component is inactive and the count is not positive. -/
theorem countOf_spec (hkeys : (dictKeys components).Nodup)
    (hcomponents : componentsOf clusterModel = .ok components)
    (hrun : getInventory proxy clusterModel configDocs = .ok inventory)
    (hexact : AnswersCount proxy components) {group key : String} {count : Int}
    (hcount : countOf env components key = .ok count)
    (hmaps : mapsTo configDocs group key = true) :
    (key ∈ contributors configDocs components group ∧ (hostNames proxy key).Nodup ∧
        count = (hostNames proxy key).length) ∨
      (key ∉ contributors configDocs components group ∧ count ≤ 0) := by
  simp only [countOf, bind_eq_ok, Val.getItem_eq_ok] at hcount
  obtain ⟨value, hvalue, c, hc, hint⟩ := hcount
  have hentry : (key, value) ∈ components := mem_of_lookup_eq_some hvalue
  by_cases hactive : isActive value = true
  · left
    obtain ⟨ips, a, hips, hnodup, ha, hnum⟩ := hexact _ hentry hactive
    obtain rfl : c = .scalar a := Option.some.inj (hc.symm.trans ha)
    have hnames : hostNames proxy key = ips.map AnsibleHostModel.name := by
      simp only [hostNames, hips]
    rw [hnames]
    refine ⟨?_, hnodup, ?_⟩
    · exact mem_contributors.mpr ⟨value, hentry, hactive, hmaps⟩
    · rw [List.length_map]
      exact Except.ok.inj (hint.symm.trans (Val.toInt_of_num? hnum env.parseInt))
  · right
    constructor
    · intro hmem
      obtain ⟨other, hother, hactive', -⟩ := mem_contributors.mp hmem
      have hsame : some other = some value :=
        (lookup_eq_some_of_mem hkeys hother).symm.trans hvalue
      cases hsame
      exact hactive hactive'
    · obtain ⟨c', inactive, hc', hinactive⟩ := ltOne_of_getInventory hcomponents hrun hentry
      obtain rfl : c' = c := Option.some.inj (hc'.symm.trans hc)
      have htrue : inactive = true := by
        simpa [isActive, Val.getAttr_eq_ok.mpr hc, hinactive] using hactive
      exact Val.toInt_nonpos_of_ltOne (htrue ▸ hinactive) hint

/-- A component mapped to a group brings it at least as many hosts as it counts. -/
theorem countOf_le_roleHosts (hkeys : (dictKeys components).Nodup)
    (hcomponents : componentsOf clusterModel = .ok components)
    (hrun : getInventory proxy clusterModel configDocs = .ok inventory)
    (hexact : AnswersCount proxy components) {group key : String} {count : Int}
    (hcount : countOf env components key = .ok count)
    (hmaps : mapsTo configDocs group key = true) :
    count ≤ (roleHosts proxy configDocs components group).length := by
  rcases countOf_spec hkeys hcomponents hrun hexact hcount hmaps with
    ⟨hmem, hnodup, rfl⟩ | ⟨-, hcount⟩
  · have hsub : hostNames proxy key ⊆ roleHosts proxy configDocs components group :=
      fun name hname => mem_roleHosts.mpr ⟨key, hmem, hname⟩
    exact Int.ofNat_le.mpr (hnodup.subperm hsub).length_le
  · omega

/-- Every host of the group is a host of the component `key`, which is active and
mapped to the group. -/
def OnlyHostsOf (proxy : APIProxy) (configDocs : List Val) (components : Entries)
    (group key : String) : Prop :=
  ∀ other ∈ contributors configDocs components group, ∀ name ∈ hostNames proxy other,
    key ∈ contributors configDocs components group ∧ name ∈ hostNames proxy key

/-- The size of the group is the count exactly when no other component adds a host. -/
theorem roleHosts_length_eq_iff (hkeys : (dictKeys components).Nodup)
    (hcomponents : componentsOf clusterModel = .ok components)
    (hrun : getInventory proxy clusterModel configDocs = .ok inventory)
    (hexact : AnswersCount proxy components) {group key : String} {count : Int}
    (hcount : countOf env components key = .ok count)
    (hmaps : mapsTo configDocs group key = true) (hnonneg : 0 ≤ count) :
    ((roleHosts proxy configDocs components group).length : Int) = count ↔
      OnlyHostsOf proxy configDocs components group key := by
  rcases countOf_spec hkeys hcomponents hrun hexact hcount hmaps with
    ⟨hmem, hnodup, rfl⟩ | ⟨hmem, hnonpos⟩
  · have hsub : hostNames proxy key ⊆ roleHosts proxy configDocs components group :=
      fun name hname => mem_roleHosts.mpr ⟨key, hmem, hname⟩
    constructor
    · intro hlength other hother name hname
      have hperm := (hnodup.subperm hsub).perm_of_length_le (Int.ofNat_inj.mp hlength).le
      exact ⟨hmem, hperm.mem_iff.mpr (mem_roleHosts.mpr ⟨other, hother, hname⟩)⟩
    · intro honly
      have hsup : roleHosts proxy configDocs components group ⊆ hostNames proxy key := by
        intro name hname
        obtain ⟨other, hother, hown⟩ := mem_roleHosts.mp hname
        exact (honly other hother name hown).2
      have hle := ((nodup_roleHosts proxy configDocs components group).subperm hsup).length_le
      have hge := (hnodup.subperm hsub).length_le
      omega
  · constructor
    · intro hlength other hother name hname
      have hempty : roleHosts proxy configDocs components group = [] :=
        List.length_eq_zero_iff.mp (by omega)
      have hin := mem_roleHosts.mpr ⟨other, hother, hname⟩
      rw [hempty] at hin
      cases hin
    · intro honly
      have hempty : roleHosts proxy configDocs components group = [] := by
        rw [List.eq_nil_iff_forall_not_mem]
        intro name hname
        obtain ⟨other, hother, hown⟩ := mem_roleHosts.mp hname
        exact hmem (honly other hother name hown).1
      rw [hempty, List.length_nil]
      omega

/-- An accepted apply shrinks neither group, where the master assertion is not
skipped and the two components have their roles; it keeps the number of
PostgreSQL hosts exactly when no other component adds one. -/
theorem accepted_keeps_groups (hwf : clusterModel.WellFormed)
    (hcomponents : componentsOf clusterModel = .ok components)
    (hrun : getInventory proxy clusterModel configDocs = .ok inventory)
    (hexact : AnswersCount proxy components)
    (hexisting : existingInventory env clusterModel = .ok (some existing))
    (hmaster : assertNoMasterDownscale env clusterModel = .ok ())
    (hpostgres : assertNoPostgresNodesNumberChange env clusterModel = .ok ()) :
    (isSingleMachine env components = .ok false →
        "kubernetes_master" ∈ existing.listGroups →
        "kubernetes_master" ∈ dictKeys components →
        mapsTo configDocs "kubernetes_master" "kubernetes_master" = true →
        (existing.listHosts "kubernetes_master").length ≤
          groupSize inventory "kubernetes_master") ∧
      ("postgresql" ∈ existing.listGroups → "postgresql" ∈ dictKeys components →
        mapsTo configDocs "postgresql" "postgresql" = true →
        (existing.listHosts "postgresql").length ≤ groupSize inventory "postgresql" ∧
          (groupSize inventory "postgresql" = (existing.listHosts "postgresql").length ↔
            OnlyHostsOf proxy configDocs components "postgresql" "postgresql")) := by
  have hkeys : (dictKeys components).Nodup := nodup_dictKeys_components hwf hcomponents
  constructor
  · intro hsingle hlisted hkey hmaps
    obtain ⟨count, hcount, hle⟩ :=
      (assertNoMasterDownscale_eq_ok hcomponents hsingle hexisting).mp hmaster rfl hlisted hkey
    have hnew := countOf_le_roleHosts hkeys hcomponents hrun hexact hcount hmaps
    rw [groupSize_getInventory hcomponents hrun]
    exact Int.ofNat_le.mp (Int.le_trans hle hnew)
  · intro hlisted hkey hmaps
    obtain ⟨count, hcount, rfl⟩ :=
      (assertNoPostgresNodesNumberChange_eq_ok hcomponents hexisting).mp hpostgres hlisted hkey
    rw [groupSize_getInventory hcomponents hrun]
    constructor
    · exact Int.ofNat_le.mp (countOf_le_roleHosts hkeys hcomponents hrun hexact hcount hmaps)
    · rw [← roleHosts_length_eq_iff hkeys hcomponents hrun hexact hcount hmaps
        (Int.natCast_nonneg _)]
      exact Int.ofNat_inj.symm

end

namespace ScalingSample

theorem answersCount_masters : AnswersCount (proxy 3 1 0) (components 3 1 0) := by
  intro component hmem hactive
  simp only [components, List.mem_cons, List.not_mem_nil, or_false] at hmem
  rcases hmem with rfl | rfl | rfl
  · exact ⟨_, .int 3, rfl, by decide, rfl, by decide⟩
  · exact ⟨_, .int 1, rfl, by decide, rfl, by decide⟩
  · exact absurd hactive (by decide)

theorem answersCount_both : AnswersCount (proxy 0 1 1) (components 0 1 1) := by
  intro component hmem hactive
  simp only [components, List.mem_cons, List.not_mem_nil, or_false] at hmem
  rcases hmem with rfl | rfl | rfl
  · exact absurd hactive (by decide)
  · exact ⟨_, .int 1, rfl, by decide, rfl, by decide⟩
  · exact ⟨_, .int 1, rfl, by decide, rfl, by decide⟩

theorem wellFormed_masters : (cluster 3 1 0).WellFormed := by
  simp [cluster, components, dictKeys]

end ScalingSample

theorem accepted_keeps_groups_masters :
    (isSingleMachine (ScalingSample.env (ScalingSample.inventory 3 1 0))
          (ScalingSample.components 3 1 0) = .ok false →
        "kubernetes_master" ∈
          (InventoryManager.ofInventory (ScalingSample.inventory 3 1 0)).listGroups →
        "kubernetes_master" ∈ dictKeys (ScalingSample.components 3 1 0) →
        mapsTo [ScalingSample.featureMapping] "kubernetes_master" "kubernetes_master" = true →
        ((InventoryManager.ofInventory (ScalingSample.inventory 3 1 0)).listHosts
          "kubernetes_master").length ≤
          groupSize (ScalingSample.inventory 3 1 0) "kubernetes_master") ∧
      ("postgresql" ∈ (InventoryManager.ofInventory (ScalingSample.inventory 3 1 0)).listGroups →
        "postgresql" ∈ dictKeys (ScalingSample.components 3 1 0) →
        mapsTo [ScalingSample.featureMapping] "postgresql" "postgresql" = true →
        ((InventoryManager.ofInventory (ScalingSample.inventory 3 1 0)).listHosts
            "postgresql").length ≤ groupSize (ScalingSample.inventory 3 1 0) "postgresql" ∧
          (groupSize (ScalingSample.inventory 3 1 0) "postgresql" =
            ((InventoryManager.ofInventory (ScalingSample.inventory 3 1 0)).listHosts
              "postgresql").length ↔
            OnlyHostsOf (ScalingSample.proxy 3 1 0) [ScalingSample.featureMapping]
              (ScalingSample.components 3 1 0) "postgresql" "postgresql")) :=
  accepted_keeps_groups ScalingSample.wellFormed_masters rfl rfl
    ScalingSample.answersCount_masters
    (show existingInventory (ScalingSample.env (ScalingSample.inventory 3 1 0))
      (ScalingSample.cluster 3 1 0) = .ok (some _) from rfl) rfl rfl

/-- Over the inventory of three masters and a PostgreSQL host, an apply that
replaces the masters by a single machine is accepted: it leaves one master and
adds a PostgreSQL host. -/
theorem single_machine_accepted_over_masters :
    AnswersCount (ScalingSample.proxy 0 1 1) (ScalingSample.components 0 1 1) ∧
      getInventory (ScalingSample.proxy 0 1 1) (ScalingSample.cluster 0 1 1)
          [ScalingSample.featureMapping] = .ok (ScalingSample.inventory 0 1 1) ∧
      assertNoMasterDownscale (ScalingSample.env (ScalingSample.inventory 3 1 0))
          (ScalingSample.cluster 0 1 1) = .ok () ∧
      assertNoPostgresNodesNumberChange (ScalingSample.env (ScalingSample.inventory 3 1 0))
          (ScalingSample.cluster 0 1 1) = .ok () ∧
      groupSize (ScalingSample.inventory 3 1 0) "kubernetes_master" = 3 ∧
      groupSize (ScalingSample.inventory 0 1 1) "kubernetes_master" = 1 ∧
      groupSize (ScalingSample.inventory 3 1 0) "postgresql" = 1 ∧
      groupSize (ScalingSample.inventory 0 1 1) "postgresql" = 2 :=
  ⟨ScalingSample.answersCount_both, rfl, rfl, rfl, rfl, rfl, rfl, rfl⟩

end ApplyEngine

end LambdaStack
