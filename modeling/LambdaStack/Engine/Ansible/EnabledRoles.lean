/-
# The enabled roles

The roles that are run are read again after the variables were generated. The
generator writes to documents in memory, but to none of what decides which roles
are enabled, so they are those of the documents it was given, and they are names.
-/

import LambdaStack.Engine.Ansible.RoleVars

namespace LambdaStack

open Lib BuildM

/-- The kind stays, and so do the roles of a feature mapping. -/
structure KeepsRoles (x y : Val) : Prop where
  kind : y.attr? "kind" = x.attr? "kind"
  roles : x.IsKind "configuration/feature-mapping" →
    y.specAttr? "available_roles" = x.specAttr? "available_roles"

instance : Std.Refl KeepsRoles := ⟨fun _ => ⟨rfl, fun _ => rfl⟩⟩

instance : IsTrans Val KeepsRoles := ⟨fun x y _ h h' => by
  refine ⟨h'.kind.trans h.kind, fun hkind => (h'.roles ?_).trans (h.roles hkind)⟩
  rw [Val.IsKind, h.kind]
  exact hkind⟩

theorem keepsRoles_withSpecAttr {x y value : Val} {key : String}
    (h : x.withSpecAttr key value = .ok y) (hkey : key ≠ "available_roles") : KeepsRoles x y where
  kind := Val.attr?_withSpecAttr h (by decide)
  roles _ := by rw [Val.specAttr?_withSpecAttr h, if_neg hkey.symm]

theorem keepsRoles_withoutName (x : Val) : KeepsRoles x (AnsibleVarsGenerator.withoutName x) where
  kind := by rw [AnsibleVarsGenerator.attr?_withoutName, if_neg (by decide)]
  roles _ := by
    rw [Val.specAttr?, AnsibleVarsGenerator.attr?_withoutName, if_neg (by decide)]
    rfl

namespace AnsibleVarsGenerator

theorem preserves_roles_generateRole (clusterModel : DocId) (configDocs : List DocId)
    (vars : RoleVars) (role : Val) :
    Preserves (Store.Evolves KeepsRoles) (generateRole clusterModel configDocs vars role) := by
  apply (preserves_lift _).bind
  intro role
  apply (preserves_reads _).bind
  intro document
  split
  · exact preserves_pure _
  · next document =>
      apply (preserves_reads _).bind
      intro provider
      refine Preserves.bind ⟨fun {s u s'} h => ?_⟩ fun _ => ?_
      · obtain ⟨doc, hdoc, rfl⟩ := setSpecItem_eq_ok h
        exact Store.evolves_write (keepsRoles_withSpecAttr hdoc (by decide))
      · apply (preserves_modifyDoc _ keepsRoles_withoutName).bind
        intro _
        apply (preserves_reads _).bind
        intro _
        exact preserves_pure _

theorem preserves_roles_generateRoles (clusterModel : DocId) (configDocs : List DocId)
    (roles : List Val) (vars : RoleVars) :
    Preserves (Store.Evolves KeepsRoles) (generateRoles clusterModel configDocs vars roles) := by
  induction roles generalizing vars with
  | nil => exact preserves_pure _
  | cons role rest ih =>
      apply (preserves_roles_generateRole clusterModel configDocs vars role).bind
      intro vars
      exact ih vars

theorem preserves_roles_setVaultPath (env : Env) (clusterModel sharedConfig : DocId) :
    Preserves (Store.Evolves KeepsRoles) (setVaultPath env clusterModel sharedConfig) := by
  have hset : ∀ (value : Val) {key : String}, key ≠ "available_roles" →
      Preserves (Store.Evolves KeepsRoles) (setSpecAttr sharedConfig key value) :=
    fun value _ hkey => preserves_setSpecAttr _ fun _ _ h => keepsRoles_withSpecAttr h hkey
  apply (preserves_reads _).bind
  intro location
  apply Preserves.ite
  · apply (hset _ (by decide)).bind
    intro _
    apply (preserves_reads _).bind
    intro name
    apply (preserves_lift _).bind
    intro path
    exact hset _ (by decide)
  · exact preserves_pure _

/-- The end of `populate_group_vars`, once the shared configuration is known. -/
theorem preserves_roles_mainVars (env : Env) (clusterModel sharedConfig : DocId)
    (f : Entries → Val) :
    Preserves (Store.Evolves KeepsRoles) (do
      setVaultPath env clusterModel sharedConfig
      let specification ← spec sharedConfig
      let entries ← lift specification.asDict
      pure (f entries)) := by
  apply (preserves_roles_setVaultPath env clusterModel sharedConfig).bind
  intro _
  apply (preserves_reads _).bind
  intro specification
  apply (preserves_lift _).bind
  intro entries
  exact preserves_pure _

theorem preserves_roles_populateGroupVars (env : Env) (clusterModel : DocId)
    (configDocs : List DocId) (rolesWithGeneratedVars : List String) :
    Preserves (Store.Evolves KeepsRoles)
      (populateGroupVars env clusterModel configDocs rolesWithGeneratedVars) := by
  apply (preserves_reads _).bind
  intro adminUser
  apply (preserves_reads _).bind
  intro k8s
  apply (preserves_reads _).bind
  intro found
  cases found with
  | some sharedConfig => exact preserves_roles_mainVars env clusterModel sharedConfig _
  | none =>
      apply (preserves_lift _).bind
      intro loaded
      apply (preserves_newDoc loaded).bind
      intro sharedConfig
      exact preserves_roles_mainVars env clusterModel sharedConfig _

/-- The loop over the roles is over strings. -/
theorem names_of_generateRoles {clusterModel : DocId} {configDocs : List DocId}
    {vars vars' : RoleVars} {roles : List Val} {s s' : Store}
    (h : generateRoles clusterModel configDocs vars roles s = .ok (vars', s')) :
    ∃ names, Val.HasTexts roles names := by
  induction roles generalizing vars s with
  | nil => exact ⟨[], .nil⟩
  | cons role rest ih =>
      rw [generateRoles, BuildM.bind_eq_ok] at h
      obtain ⟨vars₁, s₁, hfirst, hrest⟩ := h
      obtain ⟨name, hname, -⟩ := generateRole_eq_ok hfirst
      obtain ⟨names, hnames⟩ := ih hrest
      exact ⟨name :: names, .cons hname hnames⟩

end AnsibleVarsGenerator

namespace AnsibleInventoryCreator

section

variable {α β : Type} {documents : List α} {query : α → Res Bool}

theorem selectAll_congr {query' : α → Res Bool} (h : ∀ x ∈ documents, query' x = query x) :
    selectAll documents query' = selectAll documents query := by
  induction documents with
  | nil => rfl
  | cons x rest ih =>
      rw [List.forall_mem_cons] at h
      rw [selectAll, selectAll, h.1, ih h.2]

/-- The selected document is one of those selected from. -/
theorem selectSingle_of_map {documents : List β} {f : β → α} {y : α}
    (h : selectSingle (documents.map f) query = .ok y) :
    ∃ x ∈ documents, selectSingle documents (query ∘ f) = .ok x ∧ f x = y ∧ query y = .ok true := by
  rw [selectSingle, selectAll_map] at h
  cases hall : selectAll documents (query ∘ f) with
  | error e =>
      rw [hall] at h
      cases h
  | ok results =>
      rw [hall] at h
      obtain ⟨x, rfl, rfl⟩ : ∃ x, results = [x] ∧ f x = y := by
        rcases results with - | ⟨x, - | ⟨other, rest⟩⟩
        · cases h
        · exact ⟨x, rfl, Except.ok.inj h⟩
        · cases h
      have hmem : x ∈ documents.filter (Holds? ∘ query ∘ f) :=
        selectAll_eq_ok hall ▸ List.mem_singleton_self x
      have hholds : Holds? (query (f x)) = true := (List.mem_filter.mp hmem).2
      refine ⟨x, List.mem_of_mem_filter hmem, ?_, rfl, holds?_eq_true.mp hholds⟩
      rw [selectSingle, hall]
      rfl

end

/-- Selecting by the kind only reads the kind. -/
theorem kindIs_congr {x y : Val} (h : y.attr? "kind" = x.attr? "kind") (kind : String) :
    kindIs kind y = kindIs kind x := by
  rw [kindIs, kindIs, attrIs, attrIs, Val.getAttr, Val.getAttr, h]

theorem attrPath_spec_eq_ok {x value : Val} {key : String} :
    attrPath x ["specification", key] = .ok value ↔ x.specAttr? key = some value := by
  simp only [attrPath, List.foldlM_cons, List.foldlM_nil, Lib.bind_eq_ok, Lib.pure_eq_ok,
    Val.getAttr_eq_ok, Val.specAttr?, Option.bind_eq_some_iff]
  simp

/-- Documents whose kinds and roles stay have the same roles enabled. -/
theorem getEnabledRoles_evolves {s s' : Store} {docs : List DocId} {roles : List Val}
    (h : ∀ id ∈ docs, KeepsRoles (s.doc id) (s'.doc id))
    (hroles : getEnabledRoles (docs.map s.doc) = .ok roles) :
    getEnabledRoles (docs.map s'.doc) = .ok roles := by
  have hkind : ∀ id ∈ docs, (kindIs "configuration/feature-mapping" ∘ s'.doc) id =
      (kindIs "configuration/feature-mapping" ∘ s.doc) id :=
    fun id hid => kindIs_congr (h id hid).kind _
  simp only [getEnabledRoles, getAvailableRoles, Lib.bind_eq_ok] at hroles ⊢
  obtain ⟨available, ⟨map, hmap, havailable⟩, hnames⟩ := hroles
  obtain ⟨id, hid, hselected, rfl, hmapping⟩ := selectSingle_of_map hmap
  refine ⟨available, ⟨s'.doc id, selectSingle_map ?_, ?_⟩, hnames⟩
  · rw [selectSingle, selectAll_congr hkind]
    exact hselected
  · rw [attrPath_spec_eq_ok] at havailable ⊢
    rw [(h id hid).roles (kindIs_eq_ok_true.mp hmapping), havailable]

end AnsibleInventoryCreator

namespace AnsibleVarsGenerator

/-- The texts of the enabled roles. -/
def enabledRoleNames (configDocs : List Val) : Res (List String) := do
  let enabled ← AnsibleInventoryCreator.getEnabledRoles configDocs
  enabled.mapM Val.asStr

theorem enabledRoleNames_eq_ok {configDocs : List Val} {names : List String} :
    enabledRoleNames configDocs = .ok names ↔ ∃ enabled,
      AnsibleInventoryCreator.getEnabledRoles configDocs = .ok enabled ∧
        Val.HasTexts enabled names := by
  simp only [enabledRoleNames, Lib.bind_eq_ok, Val.mapM_asStr_eq_ok]

/-- After a successful `generate` the enabled roles are the ones it was given, which
are strings. -/
theorem getEnabledRoles_of_generate {env : Env} {clusterModel : DocId} {docs : List DocId}
    {generated : Generated} {s s' : Store} (hids : ∀ id ∈ docs, id < s.next)
    (hkind : (s.doc clusterModel).IsKind "lambdastack-cluster")
    (h : generate env clusterModel docs s = .ok (generated, s')) :
    ∃ names, enabledRoleNames (docs.map s.doc) = .ok names ∧
      enabledRoleNames (docs.map s'.doc) = .ok names := by
  simp only [generate, BuildM.bind_eq_ok, reads_eq_ok, readDoc, modifyDoc_eq_ok, BuildM.pure_eq_ok,
    Except.ok.injEq] at h
  obtain ⟨_, _, ⟨-, rfl⟩, model, _, ⟨rfl, rfl⟩, _, s₁, hs₁, enabled, _, ⟨henabled, rfl⟩, vars, s₂,
    hvars, groupVars, s₃, hgroupVars, -, rfl⟩ := h
  obtain ⟨names, hnames⟩ := names_of_generateRoles hvars
  have hcleared : KeepsRoles (s.doc clusterModel)
      (clearShared "credentials" (s.doc clusterModel)) := by
    refine ⟨?_, fun hmapping => ?_⟩
    · obtain ⟨own, hown, htext⟩ := Val.isKind_iff.mp hkind
      rw [attr?_clearShared_str hown htext, hown]
    · exact absurd (hmapping.unique hkind) (by decide)
  have hfirst : Store.Evolves KeepsRoles s s₁ := hs₁ ▸ Store.evolves_write hcleared
  have hrest : Store.Evolves KeepsRoles s₁ s₃ := IsTrans.trans _ _ _
    ((preserves_roles_generateRoles _ _ _ _).rel hvars)
    ((preserves_roles_populateGroupVars _ _ _ _).rel hgroupVars)
  refine ⟨names, enabledRoleNames_eq_ok.mpr ⟨enabled, ?_, hnames⟩,
    enabledRoleNames_eq_ok.mpr ⟨enabled, AnsibleInventoryCreator.getEnabledRoles_evolves
      (fun id hid => hrest.doc id ((hids id hid).trans_le hfirst.next_le)) henabled, hnames⟩⟩
  have hback : ∀ id ∈ docs, KeepsRoles (s₁.doc id) (s.doc id) := by
    intro id hid
    have hdoc := hfirst.doc id (hids id hid)
    refine ⟨hdoc.kind.symm, fun hmapping => (hdoc.roles ?_).symm⟩
    rw [Val.IsKind, ← hdoc.kind]
    exact hmapping
  exact AnsibleInventoryCreator.getEnabledRoles_evolves hback henabled

end AnsibleVarsGenerator

end LambdaStack
