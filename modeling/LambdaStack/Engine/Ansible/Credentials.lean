/-
# Credentials and the cluster variables

The cluster model is dumped as the variables of the role `common` after
`clear_object` has blanked the values under `credentials`. The scrubber walks
through the mappings of a document and stops at its lists, so the variables are
free of credentials exactly for the models that have none inside a list.
-/

import LambdaStack.Engine.Ansible.RoleVars

namespace LambdaStack

open Lib BuildM

namespace Val

mutual

/-- The document with `value` under every occurrence of `key`, at any depth. -/
def assignAll (key : String) (value : Val) : Val → Val
  | .scalar s => .scalar s
  | .list items => .list (assignItems key value items)
  | .dict entries => .dict (assignEntries key value entries)
termination_by structural x => x

def assignItems (key : String) (value : Val) : List Val → List Val
  | [] => []
  | x :: rest => assignAll key value x :: assignItems key value rest
termination_by structural x => x

def assignEntries (key : String) (value : Val) : Entries → Entries
  | [] => []
  | entry :: rest => assignEntry key value entry :: assignEntries key value rest
termination_by structural x => x

def assignEntry (key : String) (value : Val) : String × Val → String × Val
  | (k, x) => (k, if k = key then value else assignAll key value x)
termination_by structural x => x

end

/-- The key occurs inside a list that is reached through mappings, none of them
under the key itself. -/
inductive MentionsInList (key : String) : Val → Prop
  | list {items : List Val} (h : Mentions key (.list items)) : MentionsInList key (.list items)
  | entry {entries : Entries} {entry : String × Val} (hmem : entry ∈ entries)
      (hne : entry.1 ≠ key) (h : MentionsInList key entry.2) : MentionsInList key (.dict entries)

variable {key : String} {value : Val}

@[simp]
theorem assignAll_list (items : List Val) :
    assignAll key value (.list items) = .list (items.map (assignAll key value)) := by
  have hitems : assignItems key value items = items.map (assignAll key value) := by
    induction items with
    | nil => rfl
    | cons x rest ih => rw [assignItems, ih, List.map_cons]
  rw [assignAll, hitems]

/-- What `assignAll` leaves of an entry. -/
theorem assignEntry_eq (entry : String × Val) : assignEntry key value entry =
    (entry.1, if entry.1 = key then value else assignAll key value entry.2) := by
  obtain ⟨k, x⟩ := entry
  rw [assignEntry]

@[simp]
theorem assignEntry_fst (entry : String × Val) : (assignEntry key value entry).1 = entry.1 := by
  rw [assignEntry_eq]

@[simp]
theorem assignAll_dict (entries : Entries) :
    assignAll key value (.dict entries) = .dict (entries.map (assignEntry key value)) := by
  have hentries : assignEntries key value entries = entries.map (assignEntry key value) := by
    induction entries with
    | nil => rfl
    | cons entry rest ih => rw [assignEntries, ih, List.map_cons]
  rw [assignAll, hentries]

@[simp]
theorem dictKeys_assignEntries (entries : Entries) :
    dictKeys (entries.map (assignEntry key value)) = dictKeys entries := by
  simp [dictKeys, Function.comp_def]

theorem mentions_assignAll (key : String) (value x : Val) :
    Mentions key (assignAll key value x) ↔ Mentions key x := by
  induction x using Val.induct with
  | scalar s => rfl
  | list items ih =>
      rw [assignAll_list]
      constructor
      · rintro (_ | _ | ⟨hmem, h⟩)
        obtain ⟨x, hx, rfl⟩ := List.mem_map.mp hmem
        exact .item hx ((ih x hx).mp h)
      · rintro (_ | _ | ⟨hmem, h⟩)
        exact .item (List.mem_map_of_mem hmem) ((ih _ hmem).mpr h)
  | dict entries ih =>
      rw [assignAll_dict]
      by_cases hkey : key ∈ dictKeys entries
      · exact ⟨fun _ => .here hkey, fun _ => .here (by rwa [dictKeys_assignEntries])⟩
      have hne : ∀ entry ∈ entries, entry.1 ≠ key := by
        rintro entry hmem rfl
        exact hkey (List.mem_map_of_mem hmem)
      constructor
      · rintro (hkey' | ⟨hmem, h⟩)
        · rw [dictKeys_assignEntries] at hkey'
          exact .here hkey'
        · obtain ⟨entry, hentry, rfl⟩ := List.mem_map.mp hmem
          rw [assignEntry_eq, if_neg (hne entry hentry)] at h
          exact .entry hentry ((ih entry hentry).mp h)
      · rintro (hkey' | ⟨hmem, h⟩)
        · exact absurd hkey' hkey
        · refine .entry (List.mem_map_of_mem hmem) ?_
          rw [assignEntry_eq, if_neg (hne _ hmem)]
          exact (ih _ hmem).mpr h

theorem mentionsInList_assignAll (key : String) (value x : Val) :
    MentionsInList key (assignAll key value x) ↔ MentionsInList key x := by
  induction x using Val.induct with
  | scalar s => rfl
  | list items ih =>
      have hlist : ∀ ys, MentionsInList key (.list ys) ↔ Mentions key (.list ys) :=
        fun ys => ⟨fun h => by cases h; assumption, .list⟩
      have hsame := mentions_assignAll key value (.list items)
      rw [assignAll_list] at hsame ⊢
      rw [hlist, hlist, hsame]
  | dict entries ih =>
      rw [assignAll_dict]
      constructor
      · rintro (_ | ⟨hmem, hne, h⟩)
        obtain ⟨entry, hentry, rfl⟩ := List.mem_map.mp hmem
        rw [assignEntry_fst] at hne
        rw [assignEntry_eq, if_neg hne] at h
        exact .entry hentry hne ((ih entry hentry).mp h)
      · rintro (_ | ⟨hmem, hne, h⟩)
        refine .entry (List.mem_map_of_mem hmem) (by rwa [assignEntry_fst]) ?_
        rw [assignEntry_eq, if_neg hne]
        exact (ih _ hmem).mpr h

/-- A later assignment hides an earlier one. -/
theorem assignAll_assignAll (value' : Val) (x : Val) :
    assignAll key value' (assignAll key value x) = assignAll key value' x := by
  induction x using Val.induct with
  | scalar s => rfl
  | list items ih =>
      simp only [assignAll_list, List.map_map, list.injEq]
      exact List.map_congr_left ih
  | dict entries ih =>
      simp only [assignAll_dict, List.map_map, dict.injEq]
      refine List.map_congr_left fun entry hentry => ?_
      show assignEntry key value' (assignEntry key value entry) = assignEntry key value' entry
      by_cases hkey : entry.1 = key
      · simp [assignEntry_eq, hkey]
      · simp [assignEntry_eq, hkey, ih entry hentry]

theorem assignAll_eq_self {x : Val} (h : ¬ Mentions key x) : assignAll key value x = x := by
  induction x using Val.induct with
  | scalar s => rfl
  | list items ih =>
      have hid : ∀ x ∈ items, assignAll key value x = x :=
        fun x hx => ih x hx fun hmentions => h (.item hx hmentions)
      rw [assignAll_list, List.map_congr_left hid, List.map_id']
  | dict entries ih =>
      rw [assignAll_dict, dict.injEq]
      have hid : ∀ entry ∈ entries, assignEntry key value entry = entry := by
        intro entry hentry
        have hne : entry.1 ≠ key := by
          rintro rfl
          exact h (.here (List.mem_map_of_mem hentry))
        rw [assignEntry_eq, if_neg hne, ih entry hentry fun hm => h (.entry hentry hm)]
      rw [List.map_congr_left hid, List.map_id']

/-- Where the key occurs, the document shows what was assigned. -/
theorem assignAll_injective {value' x : Val} (hmentions : Mentions key x)
    (h : assignAll key value x = assignAll key value' x) : value = value' := by
  induction hmentions with
  | here hkey =>
      obtain ⟨entry, hentry, hk⟩ := List.mem_map.mp hkey
      rw [assignAll_dict, assignAll_dict, dict.injEq] at h
      have heq := congrArg Prod.snd (List.map_inj_left.mp h entry hentry)
      rwa [assignEntry_eq, assignEntry_eq, if_pos hk, if_pos hk] at heq
  | @entry entries entry hmem hmentions ih =>
      rw [assignAll_dict, assignAll_dict, dict.injEq] at h
      have heq := congrArg Prod.snd (List.map_inj_left.mp h entry hmem)
      rw [assignEntry_eq, assignEntry_eq] at heq
      by_cases hk : entry.1 = key
      · rwa [if_pos hk, if_pos hk] at heq
      · rw [if_neg hk, if_neg hk] at heq
        exact ih heq
  | item hmem hmentions ih =>
      rw [assignAll_list, assignAll_list, list.injEq] at h
      exact ih (List.map_inj_left.mp h _ hmem)

theorem WellFormed.assignAll (hvalue : value.WellFormed) {x : Val} (hx : x.WellFormed) :
    (assignAll key value x).WellFormed := by
  induction x using Val.induct with
  | scalar s => exact hx
  | list items ih =>
      rw [wellFormed_list_iff] at hx
      rw [assignAll_list, wellFormed_list_iff]
      intro y hy
      obtain ⟨x, hmem, rfl⟩ := List.mem_map.mp hy
      exact ih x hmem (hx x hmem)
  | dict entries ih =>
      obtain ⟨hkeys, hvalues⟩ := wellFormed_dict_iff.mp hx
      rw [assignAll_dict, wellFormed_dict_iff, dictKeys_assignEntries]
      refine ⟨hkeys, fun entry' hentry' => ?_⟩
      obtain ⟨entry, hmem, rfl⟩ := List.mem_map.mp hentry'
      rw [assignEntry_eq]
      by_cases hk : entry.1 = key
      · rwa [if_pos hk]
      · rw [if_neg hk]
        exact ih entry hmem (hvalues entry hmem)

end Val

namespace AnsibleVarsGenerator

open Val

/-- What `generate` dumps for the role `common`. -/
def clusterVars (clusterModel : Val) : Val :=
  withoutName (clearObject "credentials" clusterModel)

theorem clearObject_dict (key : String) (entries : Entries) :
    clearObject key (.dict entries) = .dict (entries.map (clearEntry key)) := by
  have hentries : clearEntries key entries = entries.map (clearEntry key) := by
    induction entries with
    | nil => rfl
    | cons entry rest ih => rw [clearEntries, ih, List.map_cons]
  rw [clearObject, hentries]

theorem clearEntry_eq (key : String) (entry : String × Val) : clearEntry key entry =
    (entry.1, if entry.1 = key then .str "" else clearObject key entry.2) := by
  obtain ⟨k, x⟩ := entry
  rw [clearEntry]

@[simp]
theorem clearEntry_fst (key : String) (entry : String × Val) :
    (clearEntry key entry).1 = entry.1 := by
  rw [clearEntry_eq]

/-- Clearing is erasing where no list has the key. -/
theorem clearObject_eq_assignAll {key : String} {x : Val} (h : ¬ MentionsInList key x) :
    clearObject key x = assignAll key (.str "") x := by
  induction x using Val.induct with
  | scalar s => rfl
  | list items ih =>
      rw [assignAll_eq_self fun hmentions => h (.list hmentions)]
      rfl
  | dict entries ih =>
      rw [clearObject_dict, assignAll_dict, dict.injEq]
      refine List.map_congr_left fun entry hentry => ?_
      rw [clearEntry_eq, assignEntry_eq]
      by_cases hk : entry.1 = key
      · rw [if_pos hk, if_pos hk]
      · rw [if_neg hk, if_neg hk, ih entry hentry fun hm => h (.entry hentry hk hm)]

/-- A value inside a list is still there after the clearing. -/
theorem clearObject_injective {key : String} {value value' x : Val}
    (hmentions : MentionsInList key x)
    (h : clearObject key (assignAll key value x) = clearObject key (assignAll key value' x)) :
    value = value' := by
  induction hmentions with
  | list hmentions =>
      rw [assignAll_list, assignAll_list, clearObject, clearObject, ← assignAll_list,
        ← assignAll_list] at h
      · exact assignAll_injective hmentions h
      · simp
      · simp
  | @entry entries entry hmem hne hmentions ih =>
      simp only [assignAll_dict, clearObject_dict, List.map_map, dict.injEq] at h
      have heq := congrArg Prod.snd (List.map_inj_left.mp h entry hmem)
      simp only [Function.comp_apply, assignEntry_eq, clearEntry_eq, if_neg hne] at heq
      exact ih heq

theorem withoutName_clearObject (x : Val) : withoutName (clearObject "credentials" x) =
    clearObject "credentials" (withoutName x) := by
  cases x with
  | scalar | list => rfl
  | dict entries =>
      simp only [clearObject_dict, withoutName, List.filter_map, Function.comp_def, clearEntry_fst]

theorem withoutName_assignAll (value x : Val) : withoutName (assignAll "credentials" value x) =
    assignAll "credentials" value (withoutName x) := by
  cases x with
  | scalar => rfl
  | list items => simp only [assignAll_list, withoutName]
  | dict entries =>
      simp only [assignAll_dict, withoutName, List.filter_map, Function.comp_def, assignEntry_fst]

/-- The cluster variables are those of every model with the same content apart from
its credentials, exactly when no list of the model has credentials. -/
theorem clusterVars_sameForAll_iff (model : Val) (hmodel : model.WellFormed) :
    (∀ other : Val, other.WellFormed →
      assignAll "credentials" (.str "") other = assignAll "credentials" (.str "") model →
      clusterVars other = clusterVars model) ↔
    ¬ MentionsInList "credentials" (withoutName model) := by
  constructor
  · intro hsame hmentions
    -- two models that differ in their credentials only
    have hvars : ∀ secret, clusterVars (assignAll "credentials" (.str secret) model) =
        clusterVars model :=
      fun secret => hsame _ (.assignAll (wellFormed_scalar _) hmodel) (assignAll_assignAll _ _)
    have heq := (hvars "key").trans (hvars "secret").symm
    rw [clusterVars, clusterVars, withoutName_clearObject, withoutName_clearObject,
      withoutName_assignAll, withoutName_assignAll] at heq
    have := clearObject_injective hmentions heq
    simp at this
  · intro hlist other _ heq
    have heq : assignAll "credentials" (.str "") (withoutName other) =
        assignAll "credentials" (.str "") (withoutName model) := by
      rw [← withoutName_assignAll, ← withoutName_assignAll, heq]
    have hother : ¬ MentionsInList "credentials" (withoutName other) := by
      rwa [← mentionsInList_assignAll _ (.str ""), heq, mentionsInList_assignAll]
    rw [clusterVars, clusterVars, withoutName_clearObject, withoutName_clearObject,
      clearObject_eq_assignAll hother, clearObject_eq_assignAll hlist, heq]

namespace CredentialsSample

/-- A cluster model with the credentials of its provider, and with those of a
registry in a list. -/
def model (key password : String) : Val :=
  .dict [("kind", .str "lambdastack-cluster"), ("specification", .dict
    [("cloud", .dict [("credentials", .dict [("key", .str key), ("secret", .str "a9")])]),
      ("registries", .list [.dict [("name", .str "mirror"), ("credentials", .str password)]])])]

theorem wellFormed (key password : String) : (model key password).WellFormed := by
  simp [model, dictKeys]

theorem mentionsInList (key password : String) :
    MentionsInList "credentials" (withoutName (model key password)) := by
  have hregistry : Mentions "credentials" (.list
      [.dict [("name", .str "mirror"), ("credentials", .str password)]]) :=
    .item List.mem_cons_self (.here (by simp))
  exact .entry (.tail _ (.head _)) (by decide : "specification" ≠ "credentials")
    (.entry (.tail _ (.head _)) (by decide : "registries" ≠ "credentials") (.list hregistry))

end CredentialsSample

open CredentialsSample in
/-- The password of the registry reaches the variables, the key of the provider does not. -/
theorem clusterVars_sameForAll_iff_sample :
    clusterVars (model "AKIA" "hunter2") = clusterVars (model "AKIB" "hunter2") ∧
      ¬ ∀ other : Val, other.WellFormed →
        assignAll "credentials" (.str "") other =
          assignAll "credentials" (.str "") (model "AKIA" "hunter2") →
        clusterVars other = clusterVars (model "AKIA" "hunter2") :=
  ⟨by simp [model, clusterVars, clearObject, clearEntries, clearEntry, withoutName],
    fun h => (clusterVars_sameForAll_iff _ (wellFormed _ _)).mp h (mentionsInList _ _)⟩

open CredentialsSample in
/-- Two models that are equal once their credentials are erased have different variables. -/
theorem clusterVars_leak : ¬ ∀ model other : Val, model.WellFormed → other.WellFormed →
    assignAll "credentials" (.str "") other = assignAll "credentials" (.str "") model →
    clusterVars other = clusterVars model := by
  intro h
  have heq := h (model "AKIA" "hunter2") (model "AKIA" "swordfish") (wellFormed _ _)
    (wellFormed _ _) (by simp [model, assignEntry_eq])
  simp [model, clusterVars, clearObject, clearEntries, clearEntry, withoutName] at heq

/-! ## The file of the role `common` -/

variable {clusterModel : DocId} {configDocs : List DocId} {s s' : Store}

/-- The roles' files do not touch the file of another directory. -/
theorem lookup_generateRoles {vars vars' : RoleVars} {roles : List Val} {directory : String}
    (hroles : ∀ x ∈ roles, ∀ role, x.str? = some role → toRoleName role ≠ directory)
    (h : generateRoles clusterModel configDocs vars roles s = .ok (vars', s')) :
    vars'.files.lookup directory = vars.files.lookup directory := by
  induction roles generalizing vars s with
  | nil =>
      rw [generateRoles, BuildM.pure_eq_ok] at h
      obtain ⟨rfl, -⟩ := h
      rfl
  | cons role rest ih =>
      rw [generateRoles, BuildM.bind_eq_ok] at h
      obtain ⟨vars₁, s₁, hfirst, hrest⟩ := h
      have hrest := ih (fun role hrole => hroles role (List.mem_cons_of_mem _ hrole)) hrest
      obtain ⟨name, hname, ⟨-, rfl, -⟩ | ⟨_, _, _, -, -, -, -, hfiles⟩⟩ :=
        generateRole_eq_ok hfirst
      · exact hrest
      · rw [hrest, hfiles, lookup_dictSet_ne (hroles role List.mem_cons_self name hname).symm]

/-- `generate` dumps the cluster variables to `roles/common/vars/main.yml`; no role of
the feature mapping writes to the same place unless it is called `common`. -/
theorem generate_common {env : Env} {docs : List DocId} {generated : Generated}
    (h : generate env clusterModel docs s = .ok (generated, s'))
    (hcommon : ∀ roles, AnsibleInventoryCreator.getEnabledRoles
        (docs.map (s.write clusterModel (clearShared "credentials" (s.doc clusterModel))).doc) =
          .ok roles → ∀ x ∈ roles, ∀ role, x.str? = some role → toRoleName role ≠ "common") :
    generated.vars.files.lookup "common" = some ⟨none, clusterVars (s.doc clusterModel)⟩ := by
  simp only [generate, BuildM.bind_eq_ok, reads_eq_ok, readDoc, modifyDoc_eq_ok, BuildM.pure_eq_ok,
    Except.ok.injEq] at h
  obtain ⟨_, _, ⟨-, rfl⟩, model, _, ⟨rfl, rfl⟩, _, s₁, hs₁, enabled, _, ⟨henabled, rfl⟩, vars, s₂,
    hvars, groupVars, _, -, rfl, -⟩ := h
  subst hs₁
  exact lookup_generateRoles (hcommon enabled henabled) hvars

end AnsibleVarsGenerator

end LambdaStack
