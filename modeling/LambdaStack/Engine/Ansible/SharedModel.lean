/-
# The generator and the objects of the cluster model

`AnsibleVarsGenerator` on objects with identity. The clean cluster model is a
shallow copy, so clearing it writes into the mappings the cluster model itself
consists of; nothing else the generator does reaches them.
-/

import LambdaStack.Data.Sharing
import LambdaStack.Engine.Ansible.RoleVars
import LambdaStack.Helpers.ObjectMerge

namespace LambdaStack

open Lib HeapM

namespace HeapM

/-- A new mapping. -/
def newDict (entries : List (String × Ref)) : HeapM Ref :=
  fun h => .ok (.obj h.next, h.alloc (.dict entries))

/-- `copy.copy` of a mapping. -/
def copy (x : Ref) : HeapM Ref := do
  let entries ← entriesOf x
  newDict entries

/-- A loaded document. -/
def loaded (x : Val) : HeapM Ref := fun h => .ok (h.load x)

/-- `if key in x: del x[key]`, for a mapping. -/
def discard (x : Ref) (key : String) : HeapM Unit := fun h =>
  match x with
  | .obj a =>
      match h.obj a with
      | .dict entries => .ok ((), h.write a (.dict (entries.filter fun entry => entry.1 ≠ key)))
      | .list _ => .error .typeError
  | .scalar _ => .error .typeError

/-- `select_first`. -/
def selectFirst (documents : List Ref) (query : Ref → HeapM Bool) : HeapM (Option Ref) :=
  match documents with
  | [] => pure none
  | x :: rest => do
      let answer ← query x
      if answer then pure (some x) else selectFirst rest query

theorem discard_eq_ok {h h' : Heap} {x : Ref} {key : String} {u : Unit} :
    discard x key h = .ok (u, h') ↔ ∃ a entries, x = .obj a ∧ h.obj a = .dict entries ∧
      h' = h.write a (.dict (entries.filter fun entry => entry.1 ≠ key)) := by
  unfold discard
  cases x with
  | scalar s => simp
  | obj a => cases hobj : h.obj a <;> simp [hobj, eq_comm]

/-- A selection that changes no object. -/
theorem selectFirst_eq_ok {h h' : Heap} {documents : List Ref} {query : Ref → HeapM Bool}
    {found : Option Ref} (hquery : ∀ {x h answer h'}, query x h = .ok (answer, h') → h' = h)
    (hrun : selectFirst documents query h = .ok (found, h')) :
    h' = h ∧ ∀ x, found = some x → x ∈ documents ∧ query x h = .ok (true, h) := by
  induction documents with
  | nil =>
      obtain ⟨rfl, rfl⟩ := HeapM.pure_eq_ok.mp hrun
      exact ⟨rfl, fun _ hx => by cases hx⟩
  | cons x rest ih =>
      rw [selectFirst, HeapM.bind_eq_ok] at hrun
      obtain ⟨answer, h₁, hanswer, hrun⟩ := hrun
      obtain rfl := hquery hanswer
      cases answer with
      | true =>
          obtain ⟨rfl, rfl⟩ := HeapM.pure_eq_ok.mp hrun
          refine ⟨rfl, fun y hy => ?_⟩
          cases hy
          exact ⟨List.mem_cons_self, hanswer⟩
      | false =>
          obtain ⟨hsame, hfound⟩ := ih hrun
          exact ⟨hsame, fun y hy => ⟨List.mem_cons_of_mem _ (hfound y hy).1, (hfound y hy).2⟩⟩

end HeapM

namespace AnsibleVarsGenerator.Objects

/-- `clear_object`. The keys of the mapping stay the same while it is walked. -/
def clearObject (keyToClean : String) : Nat → Ref → HeapM Unit
  | 0, _ => raise .recursionError
  | depth + 1, x => do
      let entries ← entriesOf x
      forEach (dictKeys entries) fun key =>
        if key = keyToClean then setItem x key (.scalar (.str ""))
        else do
          let val ← getItem x key
          let type ← reads fun h => .ok (h.pyType val)
          if type = .objDict then clearObject keyToClean depth val else pure ()

/-- The files by the directory of their role, and `roles_with_generated_vars`. -/
structure RoleFiles where
  files : List (String × Val)
  rolesWithGeneratedVars : List String

/-- What the generator writes: the files of the roles, and the addition to `all.yml`. -/
structure Written where
  vars : RoleFiles
  groupVars : Val

variable (env : Env) (depth : Nat)

/-- `get_clean_cluster_model`. -/
def getCleanClusterModel (clusterModel : Ref) : HeapM Ref := do
  let clean ← copy clusterModel
  clearObject "credentials" depth clean
  pure clean

/-- `x.kind == kind`. -/
def kindIs (kind : String) (x : Ref) : HeapM Bool := do
  let own ← getAttr x "kind"
  LambdaStack.Objects.pyEq depth own (.scalar (.str kind))

/-- `write_role_vars`. -/
def writeRoleVars (vars : RoleFiles) (role : String) (document : Ref) : HeapM RoleFiles := do
  discard document "name"
  let content ← reads fun h => h.read depth document
  pure ⟨dictSet (toRoleName role) content vars.files,
    vars.rolesWithGeneratedVars ++ [toRoleName role]⟩

/-- The body of the loop over the roles. -/
def generateRole (clusterModel : Ref) (configDocs : List Ref) (vars : RoleFiles) (role : Val) :
    HeapM RoleFiles := do
  let role ← reads fun _ => role.asStr
  let document ← HeapM.selectFirst configDocs (kindIs depth (kindOf role))
  match document with
  | none => pure vars
  | some document => do
      let provider ← getAttr clusterModel "provider"
      let specification ← getAttr document "specification"
      setItem specification "provider" provider
      writeRoleVars depth vars role document

/-- The loop over the roles. -/
def generateRoles (clusterModel : Ref) (configDocs : List Ref) (vars : RoleFiles) :
    List Val → HeapM RoleFiles
  | [] => pure vars
  | role :: rest => do
      let vars ← generateRole depth clusterModel configDocs vars role
      generateRoles clusterModel configDocs vars rest

/-- `set_vault_path`. -/
def setVaultPath (clusterModel sharedConfig : Ref) : HeapM Unit := do
  let specification ← getAttr sharedConfig "specification"
  let location ← getAttr specification "vault_location"
  let unset ← LambdaStack.Objects.pyEq depth location (.scalar (.str ""))
  if unset then do
    let file ← loaded env.vaultPasswordLocation
    let specification ← getAttr sharedConfig "specification"
    setItem specification "vault_tmp_file_location" file
    let path ← reads fun h => do
      let model ← h.read depth clusterModel
      let name ← getClusterName model
      env.getAnsibleVaultPath name
    let path ← loaded path
    let specification ← getAttr sharedConfig "specification"
    setItem specification "vault_location" path
  else pure ()

/-- The shared configuration: the user's, or a new one from the defaults. -/
def getSharedConfig (configDocs : List Ref) : HeapM Ref := do
  let found ← HeapM.selectFirst configDocs (kindIs depth "configuration/shared-config")
  match found with
  | some sharedConfig => pure sharedConfig
  | none => do
      let doc ← reads fun _ => env.schema.loadSchemaObj "common" "configuration/shared-config"
      loaded doc

/-- `populate_group_vars`: what is appended to `all.yml`. -/
def populateGroupVars (clusterModel : Ref) (configDocs : List Ref)
    (rolesWithGeneratedVars : List String) : HeapM Val := do
  let specification ← getAttr clusterModel "specification"
  let adminUser ← getAttr specification "admin_user"
  let validateCerts ← loaded env.validateCerts
  let offlineRequirements ← loaded env.offlineRequirements
  let waitForPods ← loaded env.waitForPods
  let roles ← loaded (.list ((rolesWithGeneratedVars.mergeSort fun x y => decide (x ≤ y)).map
    Val.str))
  let upgradeComponents ← loaded env.upgradeComponents
  let k8s ← reads fun h => do
    let model ← h.read depth clusterModel
    k8sAsCloudService model
  let k8s ← loaded k8s
  let mainVars ← newDict [("admin_user", adminUser), ("validate_certs", validateCerts),
    ("offline_requirements", offlineRequirements), ("wait_for_pods", waitForPods),
    ("is_upgrade_run", .scalar (.bool false)), ("roles_with_generated_vars", roles),
    ("upgrade_components", upgradeComponents), ("k8s_as_cloud_service", k8s)]
  let sharedConfig ← getSharedConfig env depth configDocs
  setVaultPath env depth clusterModel sharedConfig
  let specification ← getAttr sharedConfig "specification"
  let entries ← entriesOf specification
  forEach entries fun (key, value) => setItem mainVars key value
  reads fun h => h.read depth mainVars

/-- `AnsibleVarsGenerator(inventory_creator).generate()`. -/
def generate (clusterModel : Ref) (docs : List Ref) : HeapM Written := do
  let specification ← getAttr clusterModel "specification"
  let _ ← getAttr specification "name"
  let clean ← getCleanClusterModel depth clusterModel
  discard clean "name"
  let common ← reads fun h => h.read depth clean
  let enabledRoles ← reads fun h => do
    let docs ← docs.mapM (h.read depth)
    AnsibleInventoryCreator.getEnabledRoles docs
  let vars ← generateRoles depth clusterModel (clusterModel :: docs) ⟨[("common", common)], []⟩
    enabledRoles
  let groupVars ← populateGroupVars env depth clusterModel (clusterModel :: docs)
    vars.rolesWithGeneratedVars
  pure ⟨vars, groupVars⟩

end AnsibleVarsGenerator.Objects

/-! ## What clearing does to the objects -/

/-- The content with the value under the key blanked. -/
def Obj.cleared (key : String) : Obj → Obj
  | .list items => .list items
  | .dict entries =>
      .dict (entries.map fun (k, r) => (k, if k = key then .scalar (.str "") else r))

namespace Heap

variable {h : Heap} {key : String} {a b : Addr}

/-- The mapping `a` holds the mapping `b`, not under the key. -/
def Descends (h : Heap) (key : String) (a b : Addr) : Prop :=
  ∃ other, other ≠ key ∧ h.attr? (.obj a) other = some (.obj b) ∧ h.pyType (.obj b) = .objDict

/-- The mappings below `a`. -/
def below (h : Heap) (key : String) (a : Addr) : Set Addr :=
  {b | Relation.TransGen (h.Descends key) a b}

/-- The mappings below `a` have nothing left to blank. -/
def BlankBelow (h : Heap) (key : String) (a : Addr) : Prop :=
  ∀ b ∈ h.below key a, ∀ r, h.attr? (.obj b) key = some r → r = .scalar (.str "")

theorem reaches_of_mem_below (hb : b ∈ h.below key a) : h.Reaches a b :=
  (Relation.TransGen.to_reflTransGen hb).lift id fun _ _ ⟨_, _, hc, _⟩ => refers_of_attr? hc

open Classical in
/-- The objects with those of a set cleared. -/
noncomputable def clearAll (h : Heap) (key : String) (cleared : Set Addr) : Heap where
  next := h.next
  obj a := if a ∈ cleared then (h.obj a).cleared key else h.obj a

theorem lookup_cleared (key : String) (entries : List (String × Ref)) (other : String) :
    (entries.map fun (k, r) => (k, if k = key then Ref.scalar (.str "") else r)).lookup other =
      if other = key then (entries.lookup other).map fun _ => .scalar (.str "")
      else entries.lookup other := by
  induction entries with
  | nil => simp
  | cons entry rest ih =>
      obtain ⟨k, r⟩ := entry
      by_cases hk : other = k
      · subst hk
        by_cases hkey : other = key <;> simp [hkey]
      · have hne : (other == k) = false := by simpa using hk
        simp only [List.map_cons, List.lookup_cons, hne, ih]

theorem attr?_clearAll {other : String} (hne : other ≠ key) (x : Ref) (cleared : Set Addr) :
    (h.clearAll key cleared).attr? x other = h.attr? x other := by
  cases x with
  | scalar s => rfl
  | obj a =>
      unfold attr?
      simp only [clearAll]
      by_cases ha : a ∈ cleared
      · rw [if_pos ha]
        cases h.obj a with
        | list items => rfl
        | dict entries => simp only [Obj.cleared, lookup_cleared, if_neg hne]
      · rw [if_neg ha]

theorem pyType_clearAll {cleared : Set Addr} (x : Ref) :
    (h.clearAll key cleared).pyType x = h.pyType x := by
  cases x with
  | scalar s => rfl
  | obj a =>
      unfold pyType
      simp only [clearAll]
      by_cases ha : a ∈ cleared
      · rw [if_pos ha]
        cases h.obj a <;> rfl
      · rw [if_neg ha]

theorem cleared_cleared (o : Obj) : (o.cleared key).cleared key = o.cleared key := by
  cases o with
  | list items => rfl
  | dict entries =>
      simp only [Obj.cleared, List.map_map, Obj.dict.injEq]
      refine List.map_congr_left fun entry _ => ?_
      by_cases hk : entry.1 = key <;> simp [hk]

/-- Blanking the key of a mapping clears it. -/
theorem dictSet_eq_cleared {entries : List (String × Ref)} (hkeys : (dictKeys entries).Nodup)
    (hmem : key ∈ dictKeys entries) :
    Obj.dict (dictSet key (.scalar (.str "")) entries) = (Obj.dict entries).cleared key := by
  rw [Obj.cleared, Obj.dict.injEq]
  induction entries with
  | nil => cases hmem
  | cons entry rest ih =>
      obtain ⟨k, r⟩ := entry
      rw [dictKeys_cons, List.nodup_cons] at hkeys
      by_cases hk : k = key
      · subst hk
        have hrest : ∀ entry ∈ rest, entry.1 ≠ k := by
          rintro entry hentry rfl
          exact hkeys.1 (List.mem_map.mpr ⟨entry, hentry, rfl⟩)
        have hid : ∀ entry ∈ rest,
            (entry.1, if entry.1 = k then Ref.scalar (.str "") else entry.2) = entry := by
          intro entry hentry
          rw [if_neg (hrest entry hentry)]
        rw [dictSet, if_pos rfl, List.map_cons, List.map_congr_left hid, List.map_id']
        simp
      · have hmem : key ∈ dictKeys rest := by
          rcases List.mem_cons.mp hmem with heq | hmem
          · exact absurd heq.symm hk
          · exact hmem
        rw [dictSet, if_neg hk, List.map_cons, ih hkeys.2 hmem]
        simp [hk]

theorem cleared_eq_self_iff {entries : List (String × Ref)} (hkeys : (dictKeys entries).Nodup) :
    (Obj.dict entries).cleared key = .dict entries ↔
      ∀ r, entries.lookup key = some r → r = .scalar (.str "") := by
  rw [Obj.cleared, Obj.dict.injEq]
  constructor
  · intro heq r hr
    have hlookup := lookup_cleared key entries key
    rw [heq, if_pos rfl, hr] at hlookup
    simpa using hlookup
  · intro hblank
    have hid : ∀ entry ∈ entries,
        (entry.1, if entry.1 = key then Ref.scalar (.str "") else entry.2) = entry := by
      intro entry hentry
      by_cases hk : entry.1 = key
      · have hlookup : entries.lookup entry.1 = some entry.2 := lookup_eq_some_of_mem hkeys hentry
        rw [if_pos hk, ← hblank entry.2 (hk ▸ hlookup)]
      · rw [if_neg hk]
    rw [List.map_congr_left hid, List.map_id']

/-- A cleared mapping has the keys it had. -/
theorem dict_of_clearAll {cleared : Set Addr} {found : List (String × Ref)}
    (hfound : (h.clearAll key cleared).obj a = .dict found) :
    ∃ entries, h.obj a = .dict entries ∧ dictKeys found = dictKeys entries ∧
      (Obj.dict found).cleared key = (Obj.dict entries).cleared key := by
  simp only [clearAll] at hfound
  by_cases ha : a ∈ cleared
  · rw [if_pos ha] at hfound
    cases hobj : h.obj a with
    | list items =>
        rw [hobj] at hfound
        cases hfound
    | dict entries =>
        rw [hobj] at hfound
        refine ⟨entries, rfl, ?_, ?_⟩
        · cases hfound
          simp [dictKeys, Function.comp_def]
        · rw [← hfound, cleared_cleared]
  · rw [if_neg ha] at hfound
    exact ⟨found, hfound, rfl, rfl⟩

theorem clearAll_obj_of_mem {cleared : Set Addr} (hb : b ∈ cleared) :
    (h.clearAll key cleared).obj b = (h.obj b).cleared key := if_pos hb

theorem clearAll_obj_of_not_mem {cleared : Set Addr} (hb : b ∉ cleared) :
    (h.clearAll key cleared).obj b = h.obj b := if_neg hb

theorem write_clearAll (cleared : Set Addr) : (h.clearAll key cleared).write a
    ((h.obj a).cleared key) = h.clearAll key (cleared ∪ {a}) := by
  have hobj : ∀ b, ((h.clearAll key cleared).write a ((h.obj a).cleared key)).obj b =
      (h.clearAll key (cleared ∪ {a})).obj b := by
    intro b
    by_cases hb : b = a
    · subst hb
      rw [write_obj_self, clearAll_obj_of_mem (by simp)]
    · rw [write_obj_ne _ hb]
      by_cases hcleared : b ∈ cleared
      · rw [clearAll_obj_of_mem hcleared, clearAll_obj_of_mem (by simp [hcleared])]
      · rw [clearAll_obj_of_not_mem hcleared, clearAll_obj_of_not_mem (by simp [hcleared, hb])]
  exact congrArg (Heap.mk h.next) (funext hobj)

theorem clearAll_empty (h : Heap) (key : String) : h.clearAll key ∅ = h :=
  congrArg (Heap.mk h.next) (funext fun _ => if_neg (Set.notMem_empty _))

theorem clearAll_congr {first second : Set Addr}
    (hsame : ∀ b, (b ∈ first ↔ b ∈ second) ∨ (h.obj b).cleared key = h.obj b) :
    h.clearAll key first = h.clearAll key second := by
  unfold clearAll
  congr 1
  funext b
  rcases hsame b with hiff | hself
  · by_cases hb : b ∈ first
    · rw [if_pos hb, if_pos (hiff.mp hb)]
    · rw [if_neg hb, if_neg (hb ∘ hiff.mpr)]
  · rw [hself, ite_self, ite_self]

end Heap

namespace AnsibleVarsGenerator.Objects

open Heap

variable {h h' : Heap} {key : String} {depth : Nat} {a : Addr} {u : Unit}

/-- What the loop of `clear_object` writes at one key of the mapping `a`. -/
def clearedAt (h : Heap) (key : String) (a : Addr) (other : String) : Set Addr :=
  {b | (other = key ∧ b = a) ∨ (other ≠ key ∧ ∃ c, h.attr? (.obj a) other = some (.obj c) ∧
    h.pyType (.obj c) = .objDict ∧ Relation.ReflTransGen (h.Descends key) c b)}

/-- What is cleared at the keys of a mapping is all that is below it. -/
theorem clearAll_keys {entries : List (String × Ref)} (hkeys : h.UniqueKeys)
    (ha : h.obj a = .dict entries) (cleared : Set Addr) :
    h.clearAll key (cleared ∪ {b | ∃ other ∈ dictKeys entries, b ∈ clearedAt h key a other}) =
      h.clearAll key (cleared ∪ {b | Relation.ReflTransGen (h.Descends key) a b}) := by
  have hattr : ∀ other r, h.attr? (.obj a) other = some r → other ∈ dictKeys entries := by
    intro other r hr
    obtain ⟨_, _, heq, hdict, hlookup⟩ := attr?_eq_some.mp hr
    cases heq
    rw [ha] at hdict
    cases hdict
    exact mem_dictKeys_of_lookup_eq_some hlookup
  refine clearAll_congr fun b => ?_
  by_cases hself : b = a ∧ key ∉ dictKeys entries
  · -- a mapping without the key is as it was
    obtain ⟨rfl, hkey⟩ := hself
    refine Or.inr ?_
    rw [ha, cleared_eq_self_iff (hkeys _ _ ha)]
    exact fun r hr => absurd (mem_dictKeys_of_lookup_eq_some hr) hkey
  refine Or.inl (or_congr_right ?_)
  constructor
  · rintro ⟨other, -, ⟨-, rfl⟩ | ⟨hne, c, hc, htype, hpath⟩⟩
    · exact .refl
    · exact .head ⟨other, hne, hc, htype⟩ hpath
  · intro hpath
    rcases Relation.ReflTransGen.cases_head hpath with rfl | ⟨c, ⟨other, hne, hc, htype⟩, hpath⟩
    · exact ⟨key, by simpa using hself, Or.inl ⟨rfl, rfl⟩⟩
    · exact ⟨other, hattr other _ hc, Or.inr ⟨hne, c, hc, htype, hpath⟩⟩

/-- A loop over keys clears what its steps clear. -/
theorem forEach_clear {body : String → HeapM Unit} {keys : List String}
    (hbody : ∀ other ∈ keys, ∀ {cleared h'}, body other (h.clearAll key cleared) = .ok ((), h') →
      h' = h.clearAll key (cleared ∪ clearedAt h key a other)) {cleared : Set Addr}
    (hrun : forEach keys body (h.clearAll key cleared) = .ok (u, h')) :
    h' = h.clearAll key (cleared ∪ {b | ∃ other ∈ keys, b ∈ clearedAt h key a other}) := by
  induction keys generalizing cleared with
  | nil =>
      rw [forEach, HeapM.pure_eq_ok] at hrun
      simp [← hrun.2]
  | cons other rest ih =>
      obtain ⟨h₁, hfirst, hrest⟩ := forEach_cons_eq_ok.mp hrun
      have h₁_eq := hbody other List.mem_cons_self hfirst
      subst h₁_eq
      rw [ih (fun k hk => hbody k (List.mem_cons_of_mem _ hk)) hrest]
      congr 1
      ext b
      simp [or_assoc]

/-- `clear_object` clears the mapping and those below it. -/
theorem clearObject_eq_ok (hkeys : h.UniqueKeys) {cleared : Set Addr}
    (hrun : clearObject key depth (.obj a) (h.clearAll key cleared) = .ok (u, h')) :
    h' = h.clearAll key (cleared ∪ {b | Relation.ReflTransGen (h.Descends key) a b}) := by
  induction depth generalizing cleared a h' u with
  | zero =>
      rw [clearObject, raise_eq_ok] at hrun
      exact hrun.elim
  | succ depth ih =>
      rw [clearObject, HeapM.bind_eq_ok] at hrun
      obtain ⟨found, _, hfound, hrun⟩ := hrun
      obtain ⟨⟨_, heq, hdict⟩, rfl⟩ := entriesOf_eq_ok.mp hfound
      cases heq
      obtain ⟨entries, hentries, hsame, -⟩ := dict_of_clearAll hdict
      rw [hsame] at hrun
      rw [← clearAll_keys hkeys hentries]
      refine forEach_clear (fun other hother {cleared h'} hstep => ?_) hrun
      by_cases hkey : other = key
      · -- the value under the key is blanked
        subst hkey
        rw [if_pos rfl] at hstep
        obtain ⟨_, current, heq, hcurrent, rfl⟩ := setItem_eq_ok.mp hstep
        cases heq
        obtain ⟨_, hobj, hcurrentKeys, hcleared⟩ := dict_of_clearAll hcurrent
        rw [hentries] at hobj
        cases hobj
        rw [dictSet_eq_cleared (by rw [hcurrentKeys]; exact hkeys _ _ hentries)
          (by rwa [hcurrentKeys]), hcleared, ← hentries, write_clearAll]
        congr 2
        ext b
        simp [clearedAt]
      · simp only [if_neg hkey, HeapM.bind_eq_ok, getItem_eq_ok, HeapM.reads_eq_ok,
          attr?_clearAll hkey] at hstep
        obtain ⟨val, _, ⟨hval, rfl⟩, type, _, ⟨htype, rfl⟩, hstep⟩ := hstep
        cases htype
        rw [pyType_clearAll] at hstep
        by_cases hdict : h.pyType val = .objDict
        · obtain ⟨c, _, rfl, -⟩ := pyType_eq_objDict.mp hdict
          rw [if_pos hdict] at hstep
          rw [ih hstep]
          congr 2
          ext b
          simp [clearedAt, hkey, hval, hdict]
        · rw [if_neg hdict, HeapM.pure_eq_ok] at hstep
          rw [← hstep.2]
          have hnone : clearedAt h key a other = ∅ := by
            refine Set.eq_empty_of_forall_notMem ?_
            rintro b (⟨heq, -⟩ | ⟨-, c, hc, htype, -⟩)
            · exact hkey heq
            · rw [hval] at hc
              cases hc
              exact hdict htype
          rw [hnone, Set.union_empty]

theorem descends_alloc_iff (hwf : h.WellFormed) {o : Obj} {b c : Addr} (hb : b < h.next) :
    (h.alloc o).Descends key b c ↔ h.Descends key b c := by
  have hattr : ∀ other r, (h.alloc o).attr? (.obj b) other = some r ↔
      h.attr? (.obj b) other = some r := by
    intro other r
    simp only [attr?, alloc_obj_of_lt h hb]
  refine exists_congr fun other => and_congr_right fun _ => ?_
  rw [hattr]
  refine and_congr_right fun hc => ?_
  have hlt : c < h.next := hwf.lt_of_attr? hb hc
  simp only [pyType, alloc_obj_of_lt h hlt]

/-- What is below a copy is what is below the copied mapping. -/
theorem descends_copy_iff (key : String) (hwf : h.WellFormed) (ha : a < h.next) {b : Addr}
    (hb : b < h.next) :
    Relation.ReflTransGen ((h.alloc (h.obj a)).Descends key) h.next b ↔
      b ∈ h.below key a := by
  have hfirst : ∀ c, (h.alloc (h.obj a)).Descends key h.next c ↔ h.Descends key a c := by
    intro c
    rw [← descends_alloc_iff (o := h.obj a) hwf ha]
    simp only [Descends, attr?, alloc_obj_self, alloc_obj_of_lt h ha]
  have hlt : ∀ {c d}, c < h.next → h.Descends key c d → d < h.next := by
    rintro c d hc ⟨_, _, hd, _⟩
    exact hwf.lt_of_attr? hc hd
  constructor
  · intro hpath
    have hall : ∀ c, Relation.ReflTransGen ((h.alloc (h.obj a)).Descends key) h.next c →
        c = h.next ∨ (c < h.next ∧ Relation.TransGen (h.Descends key) a c) := by
      intro c hpath
      induction hpath with
      | refl => exact Or.inl rfl
      | tail _ hstep ih =>
          rcases ih with rfl | ⟨hc, hpath⟩
          · rw [hfirst] at hstep
            exact Or.inr ⟨hlt ha hstep, .single hstep⟩
          · rw [descends_alloc_iff hwf hc] at hstep
            exact Or.inr ⟨hlt hc hstep, hpath.tail hstep⟩
    rcases hall b hpath with rfl | ⟨-, hpath⟩
    · exact absurd hb (Nat.lt_irrefl _)
    · exact hpath
  · intro hpath
    have hall : ∀ c, Relation.TransGen (h.Descends key) a c →
        c < h.next ∧ Relation.ReflTransGen ((h.alloc (h.obj a)).Descends key) h.next c := by
      intro c hpath
      induction hpath with
      | single hstep => exact ⟨hlt ha hstep, .single ((hfirst _).mpr hstep)⟩
      | tail _ hstep ih =>
          exact ⟨hlt ih.1 hstep, ih.2.tail ((descends_alloc_iff hwf ih.1).mpr hstep)⟩
    exact (hall b hpath).2

/-- The clean model is a new mapping, and the mappings below the cluster model are
cleared. -/
theorem getCleanClusterModel_eq_ok (hwf : h.WellFormed) (ha : a < h.next) {clean : Ref}
    (hrun : getCleanClusterModel depth (.obj a) h = .ok (clean, h')) :
    clean = .obj h.next ∧ h'.next = h.next + 1 ∧ ∀ b < h.next,
      h'.obj b = (h.clearAll "credentials" (h.below "credentials" a)).obj b := by
  simp only [getCleanClusterModel, copy, newDict, HeapM.bind_eq_ok, entriesOf_eq_ok,
    HeapM.pure_eq_ok, Except.ok.injEq, Prod.mk.injEq] at hrun
  obtain ⟨copied, h₁, ⟨entries, _, ⟨⟨_, heq, hobj⟩, rfl⟩, rfl, rfl⟩, _, h₂, hclear, rfl, rfl⟩ :=
    hrun
  cases heq
  rw [← hobj] at hclear
  have hkeys : (h.alloc (h.obj a)).UniqueKeys := hwf.keys.alloc fun es hes => hwf.keys a es hes
  rw [← clearAll_empty (h.alloc (h.obj a)) "credentials"] at hclear
  have h₂_eq := clearObject_eq_ok hkeys hclear
  subst h₂_eq
  refine ⟨rfl, rfl, fun b hb => ?_⟩
  have hsame := descends_copy_iff "credentials" hwf ha hb
  by_cases hbelow : b ∈ h.below "credentials" a
  · rw [clearAll_obj_of_mem (Or.inr (hsame.mpr hbelow)), clearAll_obj_of_mem hbelow,
      alloc_obj_of_lt h hb]
  · rw [clearAll_obj_of_not_mem (by simpa using hbelow ∘ hsame.mp), clearAll_obj_of_not_mem hbelow,
      alloc_obj_of_lt h hb]

/-- The clean model is made without a change to the cluster model exactly when there is
nothing to blank below it. -/
theorem getCleanClusterModel_same_iff (hwf : h.WellFormed) (ha : a < h.next) {clean : Ref}
    (hrun : getCleanClusterModel depth (.obj a) h = .ok (clean, h')) :
    (∀ b, h.Reaches a b → h'.obj b = h.obj b) ↔ h.BlankBelow "credentials" a := by
  obtain ⟨-, -, hobj⟩ := getCleanClusterModel_eq_ok hwf ha hrun
  have hreach : ∀ b ∈ h.below "credentials" a, h.Reaches a b := fun _ => reaches_of_mem_below
  constructor
  · intro hsame b hpath r hr
    obtain ⟨_, entries, heq, hdict, hlookup⟩ := attr?_eq_some.mp hr
    cases heq
    have heq := hsame b (hreach b hpath)
    rw [hobj b (hwf.lt_of_reaches ha (hreach b hpath)), clearAll_obj_of_mem hpath, hdict] at heq
    exact (cleared_eq_self_iff (hwf.keys b entries hdict)).mp heq r hlookup
  · intro hblank b hpath
    rw [hobj b (hwf.lt_of_reaches ha hpath)]
    by_cases hbelow : b ∈ h.below "credentials" a
    · rw [clearAll_obj_of_mem hbelow]
      cases hdict : h.obj b with
      | list items => rfl
      | dict entries =>
          refine (cleared_eq_self_iff (hwf.keys b entries hdict)).mpr fun r hr => ?_
          exact hblank b hbelow r (attr?_eq_some.mpr ⟨b, entries, rfl, hdict, hr⟩)
    · rw [clearAll_obj_of_not_mem hbelow]

/-! ## The rest of the run -/

/-- The objects of the cluster model are as they were, and the documents and their
specifications are none of them. -/
structure Guarded (model : Set Addr) (objects : Addr → Obj) (docs : List Ref) (h : Heap) :
    Prop where
  same : ∀ b ∈ model, h.obj b = objects b
  allocated : ∀ b ∈ model, b < h.next
  doc : ∀ b, Ref.obj b ∈ docs → b < h.next ∧ b ∉ model
  spec : ∀ x ∈ docs, ∀ b, h.attr? x "specification" = some (.obj b) → b < h.next ∧ b ∉ model

variable {model : Set Addr} {objects : Addr → Obj} {docs : List Ref}

/-- A write to another object, which leaves a specification what it is. -/
theorem Guarded.write {entries entries' : List (String × Ref)}
    (hguard : Guarded model objects docs h) (hb : a ∉ model) (hobj : h.obj a = .dict entries)
    (hspec : Ref.obj a ∈ docs →
      entries'.lookup "specification" = entries.lookup "specification") :
    Guarded model objects docs (h.write a (.dict entries')) where
  same b hmem := by
    have hne : b ≠ a := by
      rintro rfl
      exact hb hmem
    rw [write_obj_ne h hne, hguard.same b hmem]
  allocated := hguard.allocated
  doc := hguard.doc
  spec x hx b hattr := by
    refine hguard.spec x hx b ?_
    cases x with
    | scalar s => exact hattr
    | obj c =>
        by_cases hc : c = a
        · subst hc
          simp only [attr?, write_obj_self] at hattr
          simp only [attr?, hobj]
          rwa [← hspec hx]
        · simpa only [attr?, write_obj_ne h hc] using hattr

/-- New objects, the old ones being as they were. -/
theorem Guarded.grow (hguard : Guarded model objects docs h) (hnext : h.next ≤ h'.next)
    (hold : ∀ b < h.next, h'.obj b = h.obj b) : Guarded model objects docs h' where
  same b hmem := (hold b (hguard.allocated b hmem)).trans (hguard.same b hmem)
  allocated b hmem := (hguard.allocated b hmem).trans_le hnext
  doc b hmem := ⟨(hguard.doc b hmem).1.trans_le hnext, (hguard.doc b hmem).2⟩
  spec x hx b hattr := by
    have hbefore : h.attr? x "specification" = some (.obj b) := by
      cases x with
      | scalar s => exact hattr
      | obj c => simpa only [attr?, hold c (hguard.doc c hx).1] using hattr
    have hb := hguard.spec x hx b hbefore
    exact ⟨hb.1.trans_le hnext, hb.2⟩

theorem Guarded.alloc (hguard : Guarded model objects docs h) (o : Obj) :
    Guarded model objects docs (h.alloc o) :=
  hguard.grow (Nat.le_succ _) fun _ hb => alloc_obj_of_lt h hb o

theorem Guarded.load (hguard : Guarded model objects docs h) (x : Val) :
    Guarded model objects docs (h.load x).2 :=
  hguard.grow (load_loads x h).next_le (load_loads x h).obj_eq

theorem Guarded.setItem (hguard : Guarded model objects docs h) {x value : Ref}
    (hx : ∀ b, x = .obj b → b ∉ model) (hkey : x ∈ docs → key ≠ "specification")
    (hrun : setItem x key value h = .ok (u, h')) : Guarded model objects docs h' := by
  obtain ⟨b, entries, rfl, hobj, rfl⟩ := setItem_eq_ok.mp hrun
  exact hguard.write (hx b rfl) hobj fun hmem => lookup_dictSet_ne (hkey hmem).symm _ _

theorem Guarded.discard (hguard : Guarded model objects docs h) {x : Ref}
    (hx : ∀ b, x = .obj b → b ∉ model) (hrun : discard x "name" h = .ok (u, h')) :
    Guarded model objects docs h' := by
  obtain ⟨b, entries, rfl, hobj, rfl⟩ := discard_eq_ok.mp hrun
  exact hguard.write (hx b rfl) hobj fun _ => lookup_filter_ne (by decide) entries

theorem Guarded.forEach {α : Type} {items : List α} {body : α → HeapM Unit}
    (hguard : Guarded model objects docs h)
    (hbody : ∀ item ∈ items, ∀ {h h'}, Guarded model objects docs h →
      body item h = .ok ((), h') → Guarded model objects docs h')
    (hrun : forEach items body h = .ok (u, h')) : Guarded model objects docs h' := by
  induction items generalizing h with
  | nil =>
      rw [HeapM.forEach, HeapM.pure_eq_ok] at hrun
      exact hrun.2 ▸ hguard
  | cons item rest ih =>
      obtain ⟨h₁, hfirst, hrest⟩ := forEach_cons_eq_ok.mp hrun
      exact ih (hbody item List.mem_cons_self hguard hfirst)
        (fun item hitem => hbody item (List.mem_cons_of_mem _ hitem)) hrest

variable {m : Addr} {others : List Ref} {type : StrType}

/-- Comparing changes no object. -/
theorem kindIs_eq_ok {kind : String} {x : Ref} {answer : Bool}
    (hrun : kindIs depth kind x h = .ok (answer, h')) :
    h' = h ∧ ∃ own, h.attr? x "kind" = some own ∧ ∃ tree, h.read depth own = .ok tree ∧
      tree.pyEq (.str kind) = answer := by
  simp only [kindIs, LambdaStack.Objects.pyEq, HeapM.bind_eq_ok, getAttr_eq_ok,
    HeapM.reads_eq_ok, Lib.bind_eq_ok, Except.ok.injEq] at hrun
  obtain ⟨own, _, ⟨hown, rfl⟩, ⟨tree, htree, right, hright, hanswer⟩, rfl⟩ := hrun
  refine ⟨rfl, own, hown, tree, htree, ?_⟩
  rw [Heap.read] at hright
  cases hright
  exact hanswer

/-- A document of another kind than the cluster model's is another document. -/
theorem selectFirst_kindIs {kind : String} {found : Option Ref}
    (hkind : h.attr? (.obj m) "kind" = some (.scalar (.str "lambdastack-cluster" type)))
    (hne : kind ≠ "lambdastack-cluster")
    (hrun : HeapM.selectFirst (.obj m :: docs) (kindIs depth kind) h = .ok (found, h')) :
    h' = h ∧ ∀ x, found = some x → x ∈ docs ∧ x ≠ .obj m := by
  obtain ⟨hsame, hfound⟩ := HeapM.selectFirst_eq_ok (fun hquery => (kindIs_eq_ok hquery).1) hrun
  refine ⟨hsame, fun x hx => ?_⟩
  obtain ⟨hmem, hquery⟩ := hfound x hx
  have hother : x ≠ .obj m := by
    rintro rfl
    obtain ⟨-, own, hown, tree, htree, heq⟩ := kindIs_eq_ok hquery
    rw [hkind] at hown
    cases hown
    rw [Heap.read] at htree
    cases htree
    rw [pyEq_str_eq_true] at heq
    simp [eq_comm, hne] at heq
  exact ⟨(List.mem_cons.mp hmem).resolve_left hother, hother⟩

/-- The object of the cluster model, which has the kind of one. -/
structure IsModel (model : Set Addr) (objects : Addr → Obj) (m : Addr) : Prop where
  mem : m ∈ model
  kind : ∃ type entries, objects m = .dict entries ∧
    entries.lookup "kind" = some (.scalar (.str "lambdastack-cluster" type))

theorem Guarded.kind (hguard : Guarded model objects docs h) (hm : IsModel model objects m) :
    ∃ type, h.attr? (.obj m) "kind" = some (.scalar (.str "lambdastack-cluster" type)) := by
  obtain ⟨type, entries, hobj, hlookup⟩ := hm.kind
  exact ⟨type, attr?_eq_some.mpr ⟨m, entries, rfl, (hguard.same m hm.mem).trans hobj, hlookup⟩⟩

theorem loaded_eq_ok {x : Val} {r : Ref} :
    loaded x h = .ok (r, h') ↔ (h.load x).1 = r ∧ (h.load x).2 = h' := by
  simp [loaded, Prod.ext_iff]

theorem guarded_setVaultPath {env : Env} {clusterModel sharedConfig : Ref}
    (hguard : Guarded model objects docs h) (hmem : sharedConfig ∈ docs)
    (hrun : setVaultPath env depth clusterModel sharedConfig h = .ok (u, h')) :
    Guarded model objects docs h' := by
  simp only [setVaultPath, LambdaStack.Objects.pyEq, HeapM.bind_eq_ok, getAttr_eq_ok,
    HeapM.reads_eq_ok] at hrun
  obtain ⟨specification, _, ⟨-, rfl⟩, location, _, ⟨-, rfl⟩, unset, _, ⟨-, rfl⟩, hrun⟩ := hrun
  cases unset with
  | false => exact (HeapM.pure_eq_ok.mp hrun).2 ▸ hguard
  | true =>
      simp only [if_true, HeapM.bind_eq_ok, getAttr_eq_ok, HeapM.reads_eq_ok, loaded_eq_ok] at hrun
      obtain ⟨file, _, ⟨-, rfl⟩, specification, _, ⟨hspec, rfl⟩, _, h₁, hset, path, _, ⟨-, rfl⟩,
        path', _, ⟨-, rfl⟩, specification', _, ⟨hspec', rfl⟩, hrun⟩ := hrun
      have hguard := hguard.load env.vaultPasswordLocation
      have hguard := hguard.setItem (fun b hb => (hguard.spec _ hmem b (hb ▸ hspec)).2)
        (fun _ => by decide) hset
      have hguard := hguard.load path
      exact hguard.setItem (fun b hb => (hguard.spec _ hmem b (hb ▸ hspec')).2)
        (fun _ => by decide) hrun

section

variable (hothers : ∀ x ∈ docs, x ≠ .obj m → x ∈ others)

include hothers

theorem guarded_generateRole {vars vars' : RoleFiles} {role : Val}
    (hguard : Guarded model objects others h) (hm : IsModel model objects m)
    (hrun : generateRole depth (.obj m) (.obj m :: docs) vars role h = .ok (vars', h')) :
    Guarded model objects others h' := by
  simp only [generateRole, HeapM.bind_eq_ok, HeapM.reads_eq_ok] at hrun
  obtain ⟨role, _, ⟨-, rfl⟩, found, h₁, hfound, hrun⟩ := hrun
  obtain ⟨type, hkind⟩ := hguard.kind hm
  obtain ⟨rfl, hdocs⟩ := selectFirst_kindIs hkind (kindOf_ne_cluster role) hfound
  cases found with
  | none => exact (HeapM.pure_eq_ok.mp hrun).2 ▸ hguard
  | some document =>
      simp only [writeRoleVars, HeapM.bind_eq_ok, getAttr_eq_ok, HeapM.reads_eq_ok,
        HeapM.pure_eq_ok] at hrun
      obtain ⟨provider, _, ⟨-, rfl⟩, specification, _, ⟨hspec, rfl⟩, _, h₁, hset, _, h₂, hdiscard,
        content, _, ⟨-, rfl⟩, -, rfl⟩ := hrun
      have hmem := hothers document (hdocs document rfl).1 (hdocs document rfl).2
      have hset := hguard.setItem (fun b hb => (hguard.spec _ hmem b (hb ▸ hspec)).2)
        (fun _ => by decide) hset
      exact hset.discard (fun b hb => (hset.doc b (hb ▸ hmem)).2) hdiscard

theorem guarded_generateRoles {vars vars' : RoleFiles} {roles : List Val}
    (hguard : Guarded model objects others h) (hm : IsModel model objects m)
    (hrun : generateRoles depth (.obj m) (.obj m :: docs) vars roles h = .ok (vars', h')) :
    Guarded model objects others h' := by
  induction roles generalizing vars h with
  | nil =>
      rw [generateRoles, HeapM.pure_eq_ok] at hrun
      exact hrun.2 ▸ hguard
  | cons role rest ih =>
      rw [generateRoles, HeapM.bind_eq_ok] at hrun
      obtain ⟨vars₁, h₁, hfirst, hrest⟩ := hrun
      exact ih (guarded_generateRole hothers hguard hm hfirst) hrest

/-- The shared configuration is a document of its own. -/
theorem guarded_getSharedConfig {env : Env} {sharedConfig : Ref}
    (hguard : Guarded model objects others h) (hm : IsModel model objects m)
    (hrun : getSharedConfig env depth (.obj m :: docs) h = .ok (sharedConfig, h')) :
    Guarded model objects (sharedConfig :: others) h' := by
  rw [getSharedConfig, HeapM.bind_eq_ok] at hrun
  obtain ⟨found, h₁, hfound, hrun⟩ := hrun
  obtain ⟨type, hkind⟩ := hguard.kind hm
  obtain ⟨rfl, hdocs⟩ := selectFirst_kindIs hkind (by decide) hfound
  cases found with
  | some document =>
      obtain ⟨rfl, rfl⟩ := HeapM.pure_eq_ok.mp hrun
      have hmem := hothers document (hdocs document rfl).1 (hdocs document rfl).2
      refine ⟨hguard.same, hguard.allocated, fun b hb => ?_, fun x hx => ?_⟩
      · rcases List.mem_cons.mp hb with heq | hb
        · exact hguard.doc b (heq ▸ hmem)
        · exact hguard.doc b hb
      · rcases List.mem_cons.mp hx with rfl | hx
        · exact hguard.spec x hmem
        · exact hguard.spec x hx
  | none =>
      simp only [HeapM.bind_eq_ok, HeapM.reads_eq_ok, loaded_eq_ok] at hrun
      obtain ⟨doc, _, ⟨-, rfl⟩, rfl, rfl⟩ := hrun
      have hloads := load_loads doc h₁
      have hgrown := hguard.load doc
      -- what is loaded comes after the objects of the model
      have hnew : ∀ b, h₁.next ≤ b → b ∉ model :=
        fun b hle hb => absurd (hguard.allocated b hb) (Nat.not_lt.mpr hle)
      refine ⟨hgrown.same, hgrown.allocated, fun b hb => ?_, fun x hx b hattr => ?_⟩
      · rcases List.mem_cons.mp hb with heq | hb
        · obtain ⟨hle, hlt⟩ := hloads.within _ (List.mem_singleton.mpr heq) b rfl
          exact ⟨hlt, hnew b hle⟩
        · exact hgrown.doc b hb
      · rcases List.mem_cons.mp hx with rfl | hx
        · obtain ⟨a, entries, heq, hobj, hlookup⟩ := attr?_eq_some.mp hattr
          obtain ⟨hle, hlt⟩ := hloads.within _ (List.mem_singleton_self _) a heq
          obtain ⟨hle, hlt⟩ := hloads.fresh a hle hlt (.obj b) (by
            rw [hobj]
            exact List.mem_map.mpr ⟨_, mem_of_lookup_eq_some hlookup, rfl⟩) b rfl
          exact ⟨hlt, hnew b hle⟩
        · exact hgrown.spec x hx b hattr

theorem guarded_populateGroupVars {env : Env} {rolesWithGeneratedVars : List String} {vars : Val}
    (hguard : Guarded model objects others h) (hm : IsModel model objects m)
    (hrun : populateGroupVars env depth (.obj m) (.obj m :: docs) rolesWithGeneratedVars h =
      .ok (vars, h')) : ∀ b ∈ model, h'.obj b = objects b := by
  simp only [populateGroupVars, HeapM.bind_eq_ok, getAttr_eq_ok, HeapM.reads_eq_ok, loaded_eq_ok,
    newDict, entriesOf_eq_ok, Except.ok.injEq, Prod.mk.injEq] at hrun
  obtain ⟨_, _, ⟨-, rfl⟩, adminUser, _, ⟨-, rfl⟩, validateCerts, _, ⟨-, rfl⟩,
    offlineRequirements, _, ⟨-, rfl⟩, waitForPods, _, ⟨-, rfl⟩, roles, _, ⟨-, rfl⟩,
    upgradeComponents, _, ⟨-, rfl⟩, k8s, _, ⟨-, rfl⟩, k8sRef, _, ⟨-, rfl⟩, mainVars, h₁,
    ⟨rfl, rfl⟩, sharedConfig, h₂, hshared, _, h₃, hvault, _, _, ⟨-, rfl⟩, entries, _, ⟨-, rfl⟩,
    _, h₄, hloop, -, rfl⟩ := hrun
  have hguard := hguard.load env.validateCerts
  have hguard := hguard.load env.offlineRequirements
  have hguard := hguard.load env.waitForPods
  have hguard := hguard.load (.list ((rolesWithGeneratedVars.mergeSort fun x y =>
    decide (x ≤ y)).map Val.str))
  have hguard := (hguard.load env.upgradeComponents).load k8s
  -- the mapping of the variables comes after the objects of the model
  have hmain := fun b (hb : b ∈ model) => Nat.ne_of_lt (hguard.allocated b hb)
  have hguard := guarded_getSharedConfig hothers (hguard.alloc _) hm hshared
  have hguard := guarded_setVaultPath hguard List.mem_cons_self hvault
  have hguard : Guarded model objects [] h₃ :=
    ⟨hguard.same, hguard.allocated, by simp, by simp⟩
  refine (hguard.forEach (fun entry _ {h h'} hguard hset => ?_) hloop).same
  refine hguard.setItem (fun b hb hmem => ?_) (fun hdoc => by cases hdoc) hset
  cases hb
  exact hmain _ hmem rfl

end

/-- After the clean model is made, `generate` leaves the cluster model alone, which may be one
of the documents itself. -/
theorem generate_same {env : Env} {written : Written} {h₁ : Heap} {clean : Ref}
    (hwf : h.WellFormed) (ha : a < h.next)
    (hkind : h.attr? (.obj a) "kind" = some (.scalar (.str "lambdastack-cluster" type)))
    (hdocs : ∀ b, Ref.obj b ∈ docs → b ≠ a → b < h.next ∧ ¬ h.Reaches a b)
    (hspecs : ∀ x ∈ docs, x ≠ .obj a →
      ∀ b, h.attr? x "specification" = some (.obj b) → ¬ h.Reaches a b)
    (hclean : getCleanClusterModel depth (.obj a) h = .ok (clean, h₁))
    (hrun : generate env depth (.obj a) docs h = .ok (written, h')) :
    ∀ b, h.Reaches a b → h'.obj b = h₁.obj b := by
  simp only [generate, HeapM.bind_eq_ok, getAttr_eq_ok, HeapM.reads_eq_ok,
    HeapM.pure_eq_ok] at hrun
  obtain ⟨_, _, ⟨-, rfl⟩, _, _, ⟨-, rfl⟩, clean', h₁', hclean', _, h₂, hdiscard, common, _,
    ⟨-, rfl⟩, enabled, _, ⟨-, rfl⟩, vars, h₃, hroles, groupVars, h₄, hgroup, -, rfl⟩ := hrun
  rw [hclean] at hclean'
  cases hclean'
  obtain ⟨rfl, hnext, hobj⟩ := getCleanClusterModel_eq_ok hwf ha hclean
  have hlt : ∀ b, h.Reaches a b → b < h.next := fun b hb => hwf.lt_of_reaches ha hb
  obtain ⟨others, hothers⟩ : ∃ others : List Ref, ∀ x, x ∈ others ↔ x ∈ docs ∧ x ≠ .obj a := by
    classical
    exact ⟨docs.filter fun x => decide (x ≠ .obj a), fun x => by
      rw [List.mem_filter, decide_eq_true_iff]⟩
  have hother : ∀ b, Ref.obj b ∈ others → b < h.next ∧ ¬ h.Reaches a b := fun b hb =>
    hdocs b ((hothers _).mp hb).1 fun heq => ((hothers _).mp hb).2 (congrArg Ref.obj heq)
  -- the objects of the model once the clean model is made
  have hguard : Guarded {b | h.Reaches a b} h₁.obj others h₁ := by
    refine ⟨fun _ _ => rfl, fun b hb => hnext ▸ (hlt b hb).trans (Nat.lt_succ_self _),
      fun b hb => ⟨hnext ▸ (hother b hb).1.trans (Nat.lt_succ_self _), (hother b hb).2⟩,
      fun x hx b hattr => ?_⟩
    obtain ⟨c, entries, rfl, hc, hlookup⟩ := attr?_eq_some.mp hattr
    obtain ⟨hclt, hcreach⟩ := hother c hx
    obtain ⟨hmem, hne⟩ := (hothers _).mp hx
    rw [hobj c hclt, clearAll_obj_of_not_mem (hcreach ∘ reaches_of_mem_below)] at hc
    have hold : h.attr? (.obj c) "specification" = some (.obj b) :=
      attr?_eq_some.mpr ⟨c, entries, rfl, hc, hlookup⟩
    exact ⟨hnext ▸ (hwf.lt_of_attr? hclt hold).trans (Nat.lt_succ_self _),
      hspecs _ hmem hne b hold⟩
  have hm : IsModel {b | h.Reaches a b} h₁.obj a := by
    have hlookup := attr?_clearAll (h := h) (by decide : "kind" ≠ "credentials") (.obj a)
    rw [← hlookup (h.below "credentials" a)] at hkind
    obtain ⟨_, entries, heq, hdict, hlookup⟩ := attr?_eq_some.mp hkind
    cases heq
    exact ⟨.refl, type, entries, (hobj a ha).trans hdict, hlookup⟩
  have hguard := hguard.discard (x := .obj h.next) (fun b hb hmem => by
    cases hb
    exact absurd (hlt _ hmem) (Nat.lt_irrefl _)) hdiscard
  have hmem : ∀ x ∈ docs, x ≠ .obj a → x ∈ others := fun x hx hne => (hothers x).mpr ⟨hx, hne⟩
  exact guarded_populateGroupVars hmem (guarded_generateRoles hmem hguard hm hroles) hm hgroup

/-- Making the clean model and the whole of `generate` leave the cluster model's objects
what they were, exactly when no mapping below it has credentials that are not blank. -/
theorem generate_keepsModel_iff {env : Env} {written : Written} {h₁ : Heap} {clean : Ref}
    (hwf : h.WellFormed) (ha : a < h.next)
    (hkind : h.attr? (.obj a) "kind" = some (.scalar (.str "lambdastack-cluster" type)))
    (hdocs : ∀ b, Ref.obj b ∈ docs → b ≠ a → b < h.next ∧ ¬ h.Reaches a b)
    (hspecs : ∀ x ∈ docs, x ≠ .obj a →
      ∀ b, h.attr? x "specification" = some (.obj b) → ¬ h.Reaches a b)
    (hclean : getCleanClusterModel depth (.obj a) h = .ok (clean, h₁))
    (hrun : generate env depth (.obj a) docs h = .ok (written, h')) :
    ((∀ b, h.Reaches a b → h₁.obj b = h.obj b) ∧ ∀ b, h.Reaches a b → h'.obj b = h.obj b) ↔
      h.BlankBelow "credentials" a := by
  have hsame := generate_same hwf ha hkind hdocs hspecs hclean hrun
  rw [← getCleanClusterModel_same_iff hwf ha hclean]
  constructor
  · exact fun h => h.1
  · exact fun hclean => ⟨hclean, fun b hb => (hsame b hb).trans (hclean b hb)⟩

namespace ModelSample

open RoleSample (trees config)

/-- A cluster model with a key of its provider. -/
def clusterModel (key : String) : Val :=
  .dict [("kind", .str "lambdastack-cluster"), ("provider", .str "any"), ("name", .str "default"),
    ("specification", .dict [("name", .str "demo"), ("admin_user", .dict []),
      ("cloud", .dict [("credentials", .dict [("key", .str key)])])])]

/-- The objects of the cluster model; its own mapping is the last of them. -/
def modelHeap (key : String) : Heap := (Heap.empty.load (clusterModel key)).2

/-- The documents of the user besides the cluster model, loaded after it. -/
def loadedDocs (key : String) : List Ref × Heap :=
  (modelHeap key).loadItems ((trees "default").drop 1)

/-- The configuration documents of an apply: the cluster model is one of them. -/
def configDocs (key : String) : List Ref := (loadedDocs key).1 ++ [.obj 4]

theorem wellFormed_model (key : String) : (modelHeap key).WellFormed :=
  wellFormed_empty.load (by simp [clusterModel, dictKeys])

theorem loads_docs (key : String) :
    (modelHeap key).Loads (loadedDocs key).1 (loadedDocs key).2 :=
  loadItems_loads _ fun x _ => load_loads x

theorem wellFormed_docs (key : String) : (loadedDocs key).2.WellFormed := by
  have htrees : ∀ x ∈ (trees "default").drop 1, x.WellFormed := by
    simp [trees, ApplyEngine.ApplySample.document, dictKeys]
  exact (wellFormed_model key).extend (loads_docs key).toExtends
    ((wellFormed_model key).keys.loadItems fun x hx {h} => UniqueKeys.load (htrees x hx))

/-- The runs on the objects, for a model with a key and for one without. -/
theorem runs (key : String) (hkey : key = "AKIA" ∨ key = "") :
    ∃ clean h₁ written h',
      getCleanClusterModel 9 (.obj 4) (loadedDocs key).2 = .ok (clean, h₁) ∧
      generate config 9 (.obj 4) (configDocs key) (loadedDocs key).2 = .ok (written, h') := by
  have hclean : (getCleanClusterModel 9 (.obj 4) (loadedDocs key).2).toOption.isSome = true := by
    rcases hkey with rfl | rfl <;> decide +kernel
  have hrun : (generate config 9 (.obj 4) (configDocs key)
      (loadedDocs key).2).toOption.isSome = true := by
    rcases hkey with rfl | rfl <;> decide +kernel
  obtain ⟨⟨clean, h₁⟩, hclean⟩ := exists_ok_of_isSome hclean
  obtain ⟨⟨written, h'⟩, hrun⟩ := exists_ok_of_isSome hrun
  exact ⟨clean, h₁, written, h', hclean, hrun⟩

/-- The other documents are apart from the cluster model. -/
theorem configDocs_apart (key : String) (hlt : 4 < (modelHeap key).next) :
    (∀ b, Ref.obj b ∈ configDocs key → b ≠ 4 →
      b < (loadedDocs key).2.next ∧ ¬ (loadedDocs key).2.Reaches 4 b) ∧
    ∀ x ∈ configDocs key, x ≠ .obj 4 → ∀ b,
      (loadedDocs key).2.attr? x "specification" = some (.obj b) →
        ¬ (loadedDocs key).2.Reaches 4 b := by
  obtain ⟨hdocs, hspecs⟩ := (loads_docs key).apart (wellFormed_model key) hlt
  refine ⟨fun b hb hne => hdocs b ?_, fun x hx hne b => hspecs x ?_ _ b⟩
  · refine (List.mem_append.mp hb).resolve_right fun hself => hne ?_
    cases List.mem_singleton.mp hself
    rfl
  · exact (List.mem_append.mp hx).resolve_right fun hself => hne (List.mem_singleton.mp hself)

/-- The mapping of the credentials is below the one of the cluster model. -/
theorem cloud_below : 2 ∈ (loadedDocs "AKIA").2.below "credentials" 4 :=
  .tail (b := 3)
    (.single ⟨"specification", by decide +kernel, by decide +kernel, by decide +kernel⟩)
    ⟨"cloud", by decide +kernel, by decide +kernel, by decide +kernel⟩

end ModelSample

open ModelSample in
/-- The key of the provider is gone from the cluster model. -/
theorem generate_blanks_credentials :
    ¬ ∀ env depth a docs h h₁ h' clean written, h.WellFormed → a < h.next → Ref.obj a ∈ docs →
      h.attr? (.obj a) "kind" = some (.scalar (.str "lambdastack-cluster")) →
      (∀ b, Ref.obj b ∈ docs → b ≠ a → b < h.next ∧ ¬ h.Reaches a b) →
      (∀ x ∈ docs, x ≠ .obj a →
        ∀ b, h.attr? x "specification" = some (.obj b) → ¬ h.Reaches a b) →
      getCleanClusterModel depth (.obj a) h = .ok (clean, h₁) →
      generate env depth (.obj a) docs h = .ok (written, h') →
      (∀ b, h.Reaches a b → h₁.obj b = h.obj b) ∧ ∀ b, h.Reaches a b → h'.obj b = h.obj b := by
  intro hall
  obtain ⟨clean, h₁, written, h', hclean, hrun⟩ := runs "AKIA" (Or.inl rfl)
  have hlt : 4 < (loadedDocs "AKIA").2.next := by decide +kernel
  obtain ⟨hdocs, hspecs⟩ := configDocs_apart "AKIA" (by decide +kernel)
  have hmem : Ref.obj 4 ∈ configDocs "AKIA" :=
    List.mem_append_right _ (List.mem_singleton_self _)
  obtain ⟨hsame, -⟩ := hall _ _ _ _ _ _ _ _ _ (wellFormed_docs "AKIA") hlt hmem
    (by decide +kernel) hdocs hspecs hclean hrun
  have hblank := (getCleanClusterModel_same_iff (wellFormed_docs "AKIA") hlt hclean).mp hsame 2
    cloud_below (.obj 1) (by decide +kernel)
  cases hblank

open ModelSample in
theorem generate_keepsModel_iff_sample : Ref.obj 4 ∈ configDocs "" ∧ ∃ clean h₁ written h',
    getCleanClusterModel 9 (.obj 4) (loadedDocs "").2 = .ok (clean, h₁) ∧
      generate RoleSample.config 9 (.obj 4) (configDocs "") (loadedDocs "").2 = .ok (written, h') ∧
      (((∀ b, (loadedDocs "").2.Reaches 4 b → h₁.obj b = (loadedDocs "").2.obj b) ∧
        ∀ b, (loadedDocs "").2.Reaches 4 b → h'.obj b = (loadedDocs "").2.obj b) ↔
        (loadedDocs "").2.BlankBelow "credentials" 4) := by
  obtain ⟨clean, h₁, written, h', hclean, hrun⟩ := runs "" (Or.inr rfl)
  obtain ⟨hdocs, hspecs⟩ := configDocs_apart "" (by decide +kernel)
  have hlt : 4 < (loadedDocs "").2.next := by decide +kernel
  have hkind : (loadedDocs "").2.attr? (.obj 4) "kind" =
      some (.scalar (.str "lambdastack-cluster")) := by decide +kernel
  exact ⟨List.mem_append_right _ (List.mem_singleton_self _), clean, h₁, written, h', hclean, hrun,
    generate_keepsModel_iff (wellFormed_docs "") hlt hkind hdocs hspecs hclean hrun⟩

end AnsibleVarsGenerator.Objects

end LambdaStack
