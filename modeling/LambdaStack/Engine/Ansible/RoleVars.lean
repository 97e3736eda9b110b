/-
# Which configuration reaches a role

The steps between `ConfigurationAppender` and the generator keep the kinds of the
documents, so the generator dumps the document that answers the first request of
the role's kind. It is the one a component selects exactly when the selector of
the first request is the component's.
-/

import Mathlib.Data.List.Find
import LambdaStack.Engine.Ansible.AnsibleVarsGenerator
import LambdaStack.Engine.RejectedApply

namespace LambdaStack

open Lib BuildM

/-! ## Steps that keep the kinds -/

/-- The kind stays, unless it is a word for yes or no. -/
def KeepsKind (x y : Val) : Prop :=
  ∀ kind : String, 3 < kind.length → (y.IsKind kind ↔ x.IsKind kind)

instance : Std.Refl KeepsKind := ⟨fun _ _ _ => Iff.rfl⟩

instance : IsTrans Val KeepsKind :=
  ⟨fun _ _ _ h h' kind hkind => (h' kind hkind).trans (h kind hkind)⟩

namespace KeepsKind

theorem of_attr?_eq {x y : Val} (h : y.attr? "kind" = x.attr? "kind") : KeepsKind x y := by
  intro kind _
  rw [Val.IsKind, Val.IsKind, h]

theorem replaceYesno (x : Val) : KeepsKind x (replaceYesno x) := by
  intro kind hkind
  have hyes : kind ∉ yesValues := by
    intro hmem
    simp only [yesValues, List.mem_cons, List.not_mem_nil, or_false] at hmem
    rcases hmem with rfl | rfl | rfl | rfl | rfl <;> exact absurd hkind (by decide)
  have hno : kind ∉ noValues := by
    intro hmem
    simp only [noValues, List.mem_cons, List.not_mem_nil, or_false] at hmem
    rcases hmem with rfl | rfl | rfl | rfl | rfl <;> exact absurd hkind (by decide)
  exact Val.isKind_replaceYesno (by simp [hyes, hno])

end KeepsKind

/-- Nothing but the specification differs. -/
def SameButSpec (x y : Val) : Prop := ∀ key, key ≠ "specification" → y.attr? key = x.attr? key

instance : Std.Refl SameButSpec := ⟨fun _ _ _ => rfl⟩

instance : IsTrans Val SameButSpec := ⟨fun _ _ _ h h' key hkey => (h' key hkey).trans (h key hkey)⟩

theorem sameButSpec_setStorage (x y value : Val)
    (h : setAttrPath x ["specification", "storage"] "data" value = .ok y) : SameButSpec x y := by
  simp only [setAttrPath, Lib.bind_eq_ok] at h
  obtain ⟨spec, -, spec', -, hset⟩ := h
  intro key hkey
  rw [Val.attr?_setAttr hset, if_neg hkey]

/-! ## What the generator writes -/

namespace AnsibleVarsGenerator

/-- The document may have lost its name and got another provider, nothing else
changed. -/
structure Stripped (x y : Val) : Prop where
  other : ∀ key, key ≠ "name" → key ≠ "specification" → y.attr? key = x.attr? key
  spec : ∀ key, key ≠ "provider" → y.specAttr? key = x.specAttr? key

instance : Std.Refl Stripped := ⟨fun _ => ⟨fun _ _ _ => rfl, fun _ _ => rfl⟩⟩

instance : IsTrans Val Stripped := ⟨fun _ _ _ h h' =>
  ⟨fun key hname hspec => (h'.other key hname hspec).trans (h.other key hname hspec),
    fun key hkey => (h'.spec key hkey).trans (h.spec key hkey)⟩⟩

theorem Stripped.isKind {x y : Val} (h : Stripped x y) (kind : String) :
    y.IsKind kind ↔ x.IsKind kind := by
  rw [Val.IsKind, Val.IsKind, h.other "kind" (by decide) (by decide)]

/-- The vars of a role: the document without its name and with the provider. -/
structure VarsOf (provider x y : Val) : Prop where
  stripped : Stripped x y
  name : y.attr? "name" = none
  provider : y.specAttr? "provider" = some provider

theorem attr?_withoutName (x : Val) (key : String) :
    (withoutName x).attr? key = if key = "name" then none else x.attr? key := by
  cases x with
  | scalar | list => simp [withoutName, Val.attr?]
  | dict entries =>
      rw [withoutName, Val.attr?, Val.attr?]
      by_cases hkey : key = "name"
      · rw [if_pos hkey, hkey, lookup_filter_self]
      · rw [if_neg hkey, lookup_filter_ne hkey]

theorem withSpecItem_eq_ok {x y value : Val} {key : String}
    (h : withSpecItem x key value = .ok y) : x.withSpecAttr key value = .ok y := by
  simp only [withSpecItem, Lib.bind_eq_ok] at h
  obtain ⟨spec, hspec, spec', hset, h⟩ := h
  obtain ⟨entries, rfl, rfl⟩ := Val.setItem_eq_ok.mp hset
  rw [Val.withSpecAttr, hspec]
  exact h

theorem setSpecItem_eq_ok {document : DocId} {key : String} {value : Val} {s s' : Store} {u : Unit}
    (h : setSpecItem document key value s = .ok (u, s')) :
    ∃ doc, (s.doc document).withSpecAttr key value = .ok doc ∧ s' = s.write document doc := by
  unfold setSpecItem at h
  cases hdoc : withSpecItem (s.doc document) key value with
  | error e => simp [hdoc, Except.map] at h
  | ok doc =>
      simp only [hdoc, Except.map, Except.ok.injEq, Prod.mk.injEq] at h
      exact ⟨doc, withSpecItem_eq_ok hdoc, h.2.symm⟩

/-- Adding the provider and deleting the name makes vars of a document. -/
theorem varsOf_withoutName {x y provider : Val}
    (h : x.withSpecAttr "provider" provider = .ok y) : VarsOf provider x (withoutName y) := by
  have hspec : ∀ key, (withoutName y).specAttr? key = y.specAttr? key := by
    intro key
    rw [Val.specAttr?, attr?_withoutName, if_neg (by decide)]
    rfl
  constructor
  · constructor
    · intro key hname hkey
      rw [attr?_withoutName, if_neg hname, Val.attr?_withSpecAttr h hkey]
    · intro key hkey
      rw [hspec, Val.specAttr?_withSpecAttr h, if_neg hkey]
  · rw [attr?_withoutName, if_pos rfl]
  · rw [hspec, Val.specAttr?_withSpecAttr h, if_pos rfl]

/-- The first document of a role's kind. -/
def firstOf (s : Store) (configDocs : List DocId) (role : String) : Option DocId :=
  configDocs.find? fun id => ConfigurationAppender.isOfKind (kindOf role) (s.doc id)

theorem isOfKind_congr {x y : Val} (h : Stripped x y) (kind : String) :
    ConfigurationAppender.isOfKind kind y = ConfigurationAppender.isOfKind kind x := by
  rw [Bool.eq_iff_iff, ConfigurationAppender.isOfKind, ConfigurationAppender.isOfKind,
    holds?_kindIs, holds?_kindIs]
  exact h.isKind kind

theorem firstOf_congr {s s' : Store} {configDocs : List DocId}
    (h : Store.Evolves Stripped s s') (hids : ∀ id ∈ configDocs, id < s.next) (role : String) :
    firstOf s' configDocs role = firstOf s configDocs role := by
  unfold firstOf
  apply List.find?_congr
  intro id hid
  exact isOfKind_congr (h.doc id (hids id hid)) _

/-- Roles with one directory have one kind. -/
theorem kindOf_eq_of_toRoleName_eq {role other : String} (h : toRoleName role = toRoleName other) :
    kindOf role = kindOf other := by
  have hfeature : ∀ name, toFeatureName (toRoleName name) = toFeatureName name := by
    intro name
    simp only [toFeatureName, toRoleName, replaceChar, String.toList_ofList, List.map_map]
    congr 1
    apply List.map_congr_left
    intro c _
    by_cases hdash : c = '-' <;> simp [hdash]
  rw [kindOf, kindOf, ← hfeature role, h, hfeature other]

variable {clusterModel : DocId} {configDocs : List DocId} {vars vars' : RoleVars} {s s' : Store}

/-- What an iteration of the loop over the roles does. -/
theorem generateRole_eq_ok {role : Val}
    (h : generateRole clusterModel configDocs vars role s = .ok (vars', s')) :
    ∃ name, role.str? = some name ∧
      ((firstOf s configDocs name = none ∧ vars' = vars ∧ s' = s) ∨
        ∃ document provider content, firstOf s configDocs name = some document ∧
          (s.doc clusterModel).attr? "provider" = some provider ∧
          VarsOf provider (s.doc document) content ∧ s' = s.write document content ∧
          vars'.files = dictSet (toRoleName name) ⟨some document, content⟩ vars.files) := by
  simp only [generateRole, BuildM.bind_eq_ok, lift_eq_ok, reads_eq_ok, Val.asStr_eq_ok] at h
  obtain ⟨name, _, ⟨hname, rfl⟩, found, _, ⟨hfound, rfl⟩, h⟩ := h
  have hfirst : firstOf s configDocs name = found := (selectFirst_eq_ok hfound).symm
  refine ⟨name, hname, ?_⟩
  cases found with
  | none =>
      rw [BuildM.pure_eq_ok] at h
      exact Or.inl ⟨hfirst, h.1.symm, h.2.symm⟩
  | some document =>
      simp only [BuildM.bind_eq_ok, reads_eq_ok, Val.getAttr_eq_ok] at h
      obtain ⟨provider, _, ⟨hprovider, rfl⟩, _, s₁, hset, h⟩ := h
      obtain ⟨doc, hdoc, rfl⟩ := setSpecItem_eq_ok hset
      simp only [writeRoleVars, BuildM.bind_eq_ok, modifyDoc_eq_ok, readDoc, reads_eq_ok,
        BuildM.pure_eq_ok, Except.ok.injEq] at h
      obtain ⟨_, _, rfl, content, _, ⟨rfl, rfl⟩, rfl, rfl⟩ := h
      refine Or.inr ⟨document, provider, withoutName doc, hfirst, hprovider,
        varsOf_withoutName hdoc, ?_, ?_⟩
      · rw [Store.write_doc_self]
        simp [Store.write]
      · rw [Store.write_doc_self, Store.write_doc_self]

/-- The vars of the roles so far, written from documents as `s` has them. -/
structure WrittenFrom (provider : Val) (s : Store) (configDocs : List DocId) (done : List String)
    (files : List (String × VarsFile)) : Prop where
  /-- What was written for a role. -/
  written : ∀ role ∈ done, ∀ document, firstOf s configDocs role = some document →
    ∃ content, files.lookup (toRoleName role) = some ⟨some document, content⟩ ∧
      VarsOf provider (s.doc document) content
  /-- Nothing else was written from a document. -/
  only : ∀ directory file document, files.lookup directory = some file →
    file.document = some document →
    ∃ role ∈ done, toRoleName role = directory ∧ firstOf s configDocs role = some document

/-- Before the loop only the cluster model is written, from a copy. -/
theorem WrittenFrom.nil (provider content : Val) :
    WrittenFrom provider s configDocs [] [("common", ⟨none, content⟩)] where
  written role hrole := by cases hrole
  only directory file document hlookup hfound := by
    rw [List.lookup_cons] at hlookup
    cases hdirectory : directory == "common" with
    | true =>
        rw [hdirectory] at hlookup
        cases hlookup
        cases hfound
    | false =>
        rw [hdirectory] at hlookup
        cases hlookup

theorem WrittenFrom.set {provider content : Val} {done : List String}
    {files : List (String × VarsFile)} {role : String} {document : DocId}
    (h : WrittenFrom provider s configDocs done files)
    (hfirst : firstOf s configDocs role = some document)
    (hcontent : VarsOf provider (s.doc document) content) :
    WrittenFrom provider s configDocs (done ++ [role])
      (dictSet (toRoleName role) ⟨some document, content⟩ files) where
  written other hother found hfound := by
    rw [lookup_dictSet]
    by_cases hdir : toRoleName other = toRoleName role
    · -- roles with one directory have one document
      rw [firstOf, kindOf_eq_of_toRoleName_eq hdir, ← firstOf, hfirst] at hfound
      cases hfound
      exact ⟨content, if_pos hdir, hcontent⟩
    · rw [if_neg hdir]
      rcases List.mem_append.mp hother with hother | hother
      · exact h.written other hother found hfound
      · exact absurd (congrArg toRoleName (List.mem_singleton.mp hother)) hdir
  only directory file found hfile hfound := by
    rw [lookup_dictSet] at hfile
    by_cases hdir : directory = toRoleName role
    · rw [if_pos hdir] at hfile
      cases hfile
      cases hfound
      exact ⟨role, by simp, hdir.symm, hfirst⟩
    · rw [if_neg hdir] at hfile
      obtain ⟨other, hother, hrest⟩ := h.only directory file found hfile hfound
      exact ⟨other, List.mem_append_left _ hother, hrest⟩

theorem WrittenFrom.skip {provider : Val} {done : List String} {files : List (String × VarsFile)}
    {role : String} (h : WrittenFrom provider s configDocs done files)
    (hfirst : firstOf s configDocs role = none) :
    WrittenFrom provider s configDocs (done ++ [role]) files where
  written other hother found hfound := by
    rcases List.mem_append.mp hother with hother | hother
    · exact h.written other hother found hfound
    · rw [List.mem_singleton.mp hother, hfirst] at hfound
      cases hfound
  only directory file found hfile hfound := by
    obtain ⟨other, hother, hrest⟩ := h.only directory file found hfile hfound
    exact ⟨other, List.mem_append_left _ hother, hrest⟩

/-- The loop over the roles writes the vars of every role with a document. -/
theorem generateRoles_eq_ok {s₀ : Store} {provider : Val} {done : List String} {roles : List Val}
    (hids : ∀ id ∈ configDocs, id < s₀.next) (hmodel : clusterModel < s₀.next)
    (hprovider : ∀ p, (s₀.doc clusterModel).attr? "provider" = some p → p = provider)
    (hstate : Store.Evolves Stripped s₀ s)
    (hwritten : WrittenFrom provider s₀ configDocs done vars.files)
    (h : generateRoles clusterModel configDocs vars roles s = .ok (vars', s')) :
    ∃ names, Val.HasTexts roles names ∧
      WrittenFrom provider s₀ configDocs (done ++ names) vars'.files := by
  induction roles generalizing vars s done with
  | nil =>
      rw [generateRoles, BuildM.pure_eq_ok] at h
      obtain ⟨rfl, rfl⟩ := h
      exact ⟨[], .nil, by rwa [List.append_nil]⟩
  | cons role rest ih =>
      rw [generateRoles, BuildM.bind_eq_ok] at h
      obtain ⟨vars₁, s₁, hfirst, hrest⟩ := h
      obtain ⟨name, hname, hstep⟩ := generateRole_eq_ok hfirst
      rw [firstOf_congr hstate hids] at hstep
      obtain ⟨hstate₁, hwritten₁⟩ : Store.Evolves Stripped s₀ s₁ ∧
          WrittenFrom provider s₀ configDocs (done ++ [name]) vars₁.files := by
        rcases hstep with ⟨hnone, rfl, rfl⟩ |
          ⟨document, p, content, hsome, hp, hcontent, rfl, hfiles⟩
        · exact ⟨hstate, hwritten.skip hnone⟩
        · have hlt := hids document (List.mem_of_find?_eq_some hsome)
          have hbefore := hstate.doc document hlt
          rw [(hstate.doc clusterModel hmodel).other "provider" (by decide) (by decide)] at hp
          rw [hprovider p hp] at hcontent
          refine ⟨IsTrans.trans _ _ _ hstate (Store.evolves_write hcontent.stripped), ?_⟩
          rw [hfiles]
          exact hwritten.set hsome
            ⟨IsTrans.trans _ _ _ hbefore hcontent.stripped, hcontent.name, hcontent.provider⟩
      obtain ⟨names, hnames, hlast⟩ := ih hstate₁ hwritten₁ hrest
      exact ⟨name :: names, .cons hname hnames, by simpa using hlast⟩

/-- Selecting a single document does not see a change of another one. -/
theorem selectAll_write {docs : List DocId} {id : DocId} {v : Val} {query : Val → Res Bool}
    (hold : query (s.doc id) = .ok false) (hnew : query v = .ok false) :
    selectAll (docs.map (s.write id v).doc) query = selectAll (docs.map s.doc) query := by
  induction docs with
  | nil => rfl
  | cons doc rest ih =>
      rw [List.map_cons, List.map_cons, selectAll, selectAll, ih]
      by_cases hdoc : doc = id
      · subst hdoc
        rw [s.write_doc_self, hold, hnew]
        rfl
      · rw [s.write_doc_ne hdoc]

theorem attr?_clearShared_str {x value : Val} {keyToClean key text : String}
    (h : x.attr? key = some value) (htext : value.str? = some text) :
    (clearShared keyToClean x).attr? key = some value := by
  obtain ⟨type, rfl⟩ := Val.str?_eq_some.mp htext
  cases x with
  | scalar | list => exact h
  | dict entries =>
      rw [clearShared, Val.attr?]
      rw [Val.attr?] at h
      induction entries with
      | nil => cases h
      | cons entry rest ih =>
          obtain ⟨own, value'⟩ := entry
          rw [List.map_cons, List.lookup_cons]
          rw [List.lookup_cons] at h
          cases hkey : key == own with
          | true =>
              rw [hkey] at h
              cases h
              simp [clearObject]
          | false =>
              rw [hkey] at h
              exact ih h

theorem isKind_clearShared {x : Val} {keyToClean kind : String} (h : x.IsKind kind) :
    (clearShared keyToClean x).IsKind kind := by
  obtain ⟨own, hown, htext⟩ := Val.isKind_iff.mp h
  exact Val.isKind_iff.mpr ⟨own, attr?_clearShared_str hown htext, htext⟩

/-- The cluster model is no document of a role. -/
theorem kindOf_ne_cluster (role : String) : kindOf role ≠ "lambdastack-cluster" := by
  intro heq
  have hbegin := congrArg (fun name => name.toList.take 1) heq
  simp [kindOf] at hbegin

/-- What a successful `generate` has written for the roles. -/
theorem generate_eq_ok {env : Env} {docs : List DocId} {generated : Generated} {provider : Val}
    {text : String} (hids : ∀ id ∈ docs, id < s.next) (hmodel : clusterModel < s.next)
    (hkind : (s.doc clusterModel).IsKind "lambdastack-cluster")
    (hprovider : (s.doc clusterModel).attr? "provider" = some provider)
    (htext : provider.str? = some text)
    (h : generate env clusterModel docs s = .ok (generated, s')) :
    ∃ roles names, AnsibleInventoryCreator.getEnabledRoles (docs.map s.doc) = .ok roles ∧
      Val.HasTexts roles names ∧ WrittenFrom provider s docs names generated.vars.files := by
  simp only [generate, BuildM.bind_eq_ok, reads_eq_ok, readDoc, modifyDoc_eq_ok, BuildM.pure_eq_ok,
    Except.ok.injEq] at h
  obtain ⟨_, _, ⟨-, rfl⟩, model, _, ⟨rfl, rfl⟩, _, s₁, hs₁, enabled, _, ⟨henabled, rfl⟩, vars, s₂,
    hvars, groupVars, _, -, rfl, -⟩ := h
  subst hs₁
  have hcleared : (clearShared "credentials" (s.doc clusterModel)).IsKind "lambdastack-cluster" :=
    isKind_clearShared hkind
  have hsame : ∀ id, id ≠ clusterModel →
      (s.write clusterModel (clearShared "credentials" (s.doc clusterModel))).doc id = s.doc id :=
    fun id hid => s.write_doc_ne hid _
  have hother : ∀ {x : Val} {kind : String}, x.IsKind "lambdastack-cluster" →
      kind ≠ "lambdastack-cluster" → kindIs kind x = .ok false := by
    intro x kind hx hne
    obtain ⟨own, hown, htext⟩ := Val.isKind_iff.mp hx
    refine attrIs_eq_ok.mpr ⟨own, hown, ?_⟩
    rw [Bool.eq_false_iff, ne_eq, pyEq_str_eq_true, htext]
    simpa using hne.symm
  have hroles : AnsibleInventoryCreator.getEnabledRoles (docs.map s.doc) = .ok enabled := by
    rw [← henabled, AnsibleInventoryCreator.getEnabledRoles,
      AnsibleInventoryCreator.getAvailableRoles, selectSingle,
      ← selectAll_write (hother hkind (by decide)) (hother hcleared (by decide))]
    rfl
  have hfirst : ∀ role,
      firstOf (s.write clusterModel (clearShared "credentials" (s.doc clusterModel)))
        (clusterModel :: docs) role = firstOf s docs role := by
    intro role
    have hmodelkind : ∀ {x : Val}, x.IsKind "lambdastack-cluster" →
        ConfigurationAppender.isOfKind (kindOf role) x = false := by
      intro x hx
      rw [ConfigurationAppender.isOfKind, hother hx (kindOf_ne_cluster role)]
      rfl
    rw [firstOf, List.find?_cons, Store.write_doc_self, hmodelkind hcleared]
    apply List.find?_congr
    intro id _
    by_cases hid : id = clusterModel
    · subst hid
      rw [Store.write_doc_self, hmodelkind hcleared, hmodelkind hkind]
    · rw [hsame id hid]
  have hne : ∀ {role document}, firstOf s docs role = some document → document ≠ clusterModel := by
    rintro role document hfound rfl
    have hholds := List.find?_some hfound
    have hfoundkind : (s.doc document).IsKind (kindOf role) := holds?_kindIs.mp hholds
    exact kindOf_ne_cluster role (hfoundkind.unique hkind)
  have hall : ∀ id ∈ clusterModel :: docs,
      id < (s.write clusterModel (clearShared "credentials" (s.doc clusterModel))).next :=
    List.forall_mem_cons.mpr ⟨hmodel, hids⟩
  have hstays : ∀ p, ((s.write clusterModel (clearShared "credentials" (s.doc clusterModel))).doc
      clusterModel).attr? "provider" = some p → p = provider := by
    intro p hp
    rw [Store.write_doc_self, attr?_clearShared_str hprovider htext] at hp
    exact (Option.some.inj hp).symm
  obtain ⟨names, hnames, hwritten⟩ := generateRoles_eq_ok hall hmodel
    hstays (Std.Refl.refl _) (WrittenFrom.nil provider _) hvars
  refine ⟨enabled, names, hroles, hnames, ?_, ?_⟩
  · intro role hrole document hfound
    rw [← hfirst] at hfound
    obtain ⟨content, hlookup, hcontent⟩ := hwritten.written role (by simpa using hrole) document
      hfound
    rw [hfirst] at hfound
    exact ⟨content, hlookup, hsame document (hne hfound) ▸ hcontent⟩
  · intro directory file document hlookup hfound
    obtain ⟨role, hrole, hdirectory, hfirstrole⟩ := hwritten.only directory file document hlookup
      hfound
    exact ⟨role, by simpa using hrole, hdirectory, hfirst role ▸ hfirstrole⟩

/-! ## Which document that is -/

open ConfigurationAppender (Request requestsOf requiredDocs requiredTree named)

/-- The request is for the configuration of an enabled role. -/
def RoleOf (enabled : List Val) (q : Request) (role : String) : Prop :=
  (∃ x ∈ enabled, x.str? = some role) ∧ q.kind = "configuration/" ++ role

/-- The vars of an enabled role of an active component are those of the
configuration the component selects, which `s₁` has when it is appended and `s₃`
when the vars are generated. -/
def VarsSelected (s₁ s₃ : Store) (configurationDocs : List DocId) (requests : List Request)
    (enabled : List Val) (provider : Val) (files : List (String × VarsFile)) : Prop :=
  ∀ q ∈ requests, ∀ role, RoleOf enabled q role →
    ∃ document content, files.lookup (toRoleName role) = some ⟨some document, content⟩ ∧
      document ∈ configurationDocs ∧ named q (s₁.doc document) = true ∧
      VarsOf provider (s₃.doc document) content

/-- All active components with an enabled role select one configuration, which is
the required one for a required kind, and the name of the role has no underscore. -/
structure SelectsAlike (schema : SchemaDir) (trees : List Val) (requests : List Request)
    (enabled : List Val) : Prop where
  role : ∀ q ∈ requests, ∀ role, RoleOf enabled q role → toFeatureName role = role
  alike : ∀ q ∈ requests, ∀ q' ∈ requests, ∀ role, RoleOf enabled q role →
    RoleOf enabled q' role → q.kind ∉ requiredDocs → q.selector.pyEq q'.selector = true
  required : ∀ q ∈ requests, ∀ role, RoleOf enabled q role → q.kind ∈ requiredDocs →
    ∃ doc, requiredTree schema trees q.kind = .ok doc ∧ named q doc = true

theorem three_lt_length_kindOf (role : String) : 3 < (kindOf role).length := by
  rw [kindOf, String.length_append]
  have hbegin : "configuration/".length = 14 := rfl
  omega

/-- The first document of a kind among the configuration documents, by its name. -/
theorem firstOf_described {s₁ s₃ : Store} {configurationDocs infrastructureDocs : List DocId}
    {log : List ConfigurationAppender.DocName} {role : String}
    (hlog : ConfigurationAppender.Described s₁ configurationDocs log)
    (hkeep : Store.Evolves KeepsKind s₁ s₃) {d : ConfigurationAppender.DocName}
    (hd : log.find? (·.hasKind (kindOf role)) = some d) :
    ∃ document ∈ configurationDocs,
      firstOf s₃ (configurationDocs ++ infrastructureDocs) role = some document ∧
        d.Describes (s₁.doc document) := by
  have hsame : ∀ id ∈ configurationDocs, ∀ d ∈ log, id < s₁.next ∧ d.Describes (s₁.doc id) →
      ConfigurationAppender.isOfKind (kindOf role) (s₃.doc id) = d.hasKind (kindOf role) := by
    rintro id - d - ⟨hlt, hdescribes⟩
    rw [ConfigurationAppender.DocName.hasKind, ← hdescribes.isOfKind_eq, Bool.eq_iff_iff,
      ConfigurationAppender.isOfKind, ConfigurationAppender.isOfKind, holds?_kindIs, holds?_kindIs]
    exact hkeep.doc id hlt (kindOf role) (three_lt_length_kindOf role)
  rcases find?_forall₂ hlog hsame with ⟨-, hnone⟩ | ⟨document, d', hdocument, hd', -, hdescribes⟩
  · rw [hnone] at hd
    cases hd
  · rw [hd'] at hd
    cases hd
    refine ⟨document, List.mem_of_find?_eq_some hdocument, ?_, hdescribes⟩
    rw [firstOf, List.find?_append, hdocument, Option.some_or]

section

variable {schema : SchemaDir} {inputDocs configurationDocs infrastructureDocs : List DocId}
  {s₀ s₁ s₃ : Store} {requests : List ConfigurationAppender.WfRequest}
  {names log₀ log : List ConfigurationAppender.DocName} {provider : Val} {enabled : List Val}
  {roles : List String} {files : List (String × VarsFile)}

/-- What reaches a role is the first document of its kind. -/
theorem selected_iff_first_fits
    (hlog : ConfigurationAppender.Described s₁ configurationDocs log)
    (hkeep : Store.Evolves KeepsKind s₁ s₃)
    (hwritten : WrittenFrom provider s₃ (configurationDocs ++ infrastructureDocs) roles files)
    (hroles : Val.HasTexts enabled roles) {q : Request} {role : String}
    (hrole : RoleOf enabled q role) :
    (∃ document content, files.lookup (toRoleName role) = some ⟨some document, content⟩ ∧
      document ∈ configurationDocs ∧ named q (s₁.doc document) = true ∧
      VarsOf provider (s₃.doc document) content) ↔
    toFeatureName role = role ∧
      ∃ d, log.find? (·.hasKind q.kind) = some d ∧ d.fits q = true := by
  constructor
  · rintro ⟨document, content, hlookup, hmem, hnamed, -⟩
    obtain ⟨other, -, hdirectory, hfirst⟩ := hwritten.only _ _ document hlookup rfl
    obtain ⟨d', -, hlt, -⟩ := exists_of_mem_forall₂ hlog hmem
    have hholds := List.find?_some hfirst
    have hkind : (s₁.doc document).IsKind (kindOf role) := by
      rw [← hkeep.doc document hlt _ (three_lt_length_kindOf role),
        ← kindOf_eq_of_toRoleName_eq hdirectory]
      exact holds?_kindIs.mp hholds
    -- the kind is the one the request asks for, so the role is its own feature
    have hqkind := (kindAndNameAre_eq_ok_true.mp (holds?_eq_true.mp hnamed)).1
    have hfeature : kindOf role = "configuration/" ++ role := by
      rw [← hrole.2]
      exact hkind.unique hqkind
    have hself : toFeatureName role = role := by
      rw [kindOf] at hfeature
      simpa using hfeature
    refine ⟨hself, ?_⟩
    have hhas : ∃ d ∈ log, d.hasKind q.kind = true := by
      obtain ⟨d, hd, -, hdescribes⟩ := exists_of_mem_forall₂ hlog hmem
      refine ⟨d, hd, ConfigurationAppender.DocName.hasKind_eq_true.mpr ?_⟩
      rw [← hdescribes.1]
      exact hqkind
    obtain ⟨d, hd⟩ := Option.isSome_iff_exists.mp (List.find?_isSome.mpr hhas)
    refine ⟨d, hd, ?_⟩
    rw [hrole.2, ← hfeature] at hd
    obtain ⟨found, -, hfound, hdescribes⟩ := firstOf_described hlog hkeep hd
    rw [firstOf, kindOf_eq_of_toRoleName_eq hdirectory, ← firstOf, hfound] at hfirst
    cases hfirst
    rwa [← hdescribes.named_eq]
  · rintro ⟨hself, d, hd, hfits⟩
    rw [hrole.2, ← hself, ← kindOf] at hd
    obtain ⟨document, hmem, hfirst, hdescribes⟩ := firstOf_described hlog hkeep hd
    obtain ⟨content, hlookup, hcontent⟩ :=
      hwritten.written role (hroles.mem_iff.mpr hrole.1) document hfirst
    exact ⟨document, content, hlookup, hmem, by rwa [hdescribes.named_eq], hcontent⟩

theorem varsSelected_iff
    (hanswered : ConfigurationAppender.Answered schema inputDocs s₀ configurationDocs s₁ requests
      names log₀ log)
    (hkeep : Store.Evolves KeepsKind s₁ s₃)
    (hwritten : WrittenFrom provider s₃ (configurationDocs ++ infrastructureDocs) roles files)
    (hroles : Val.HasTexts enabled roles) :
    VarsSelected s₁ s₃ configurationDocs (requests.map (·.1)) enabled provider files ↔
      SelectsAlike schema (inputDocs.map s₀.doc) (requests.map (·.1)) enabled := by
  have hiff := fun (q : Request) role (hrole : RoleOf enabled q role) =>
    selected_iff_first_fits hanswered.logged hkeep hwritten hroles hrole
  constructor
  · intro h
    have hfirst := fun q hq role hrole => (hiff q role hrole).mp (h q hq role hrole)
    constructor
    · intro q hq role hrole
      exact (hfirst q hq role hrole).1
    · intro q hq q' hq' role hrole hrole' _
      obtain ⟨-, d, hd, hfits⟩ := hfirst q hq role hrole
      obtain ⟨-, d', hd', hfits'⟩ := hfirst q' hq' role hrole'
      rw [hrole'.2, ← hrole.2, hd] at hd'
      cases hd'
      obtain ⟨wf, -, rfl⟩ := List.mem_map.mp hq
      obtain ⟨wf', -, rfl⟩ := List.mem_map.mp hq'
      exact (ConfigurationAppender.selector_pyEq_of_fits hfits hfits').2
    · intro q hq role hrole hkind
      obtain ⟨-, d, hd, hfits⟩ := hfirst q hq role hrole
      obtain ⟨d', hd', tree, htree, -, hdescribes⟩ := hanswered.first_required hkind
      rw [hd] at hd'
      cases hd'
      exact ⟨tree, htree, by rwa [hdescribes.named_eq]⟩
  · intro h q hq role hrole
    rw [hiff q role hrole]
    refine ⟨h.role q hq role hrole, ?_⟩
    by_cases hkind : q.kind ∈ requiredDocs
    · obtain ⟨doc, hdoc, hnamed⟩ := h.required q hq role hrole hkind
      obtain ⟨d, hd, tree, htree, -, hdescribes⟩ := hanswered.first_required hkind
      cases hdoc.symm.trans htree
      exact ⟨d, hd, by rwa [← hdescribes.named_eq]⟩
    · obtain ⟨wf, hwf, rfl⟩ := List.mem_map.mp hq
      obtain ⟨d, hd, first, hmem, hfirstkind, hfits⟩ := hanswered.first_requested hwf hkind
      have hfirst : first.1 ∈ requests.map (·.1) := List.mem_map_of_mem hmem
      have hfirstrole : RoleOf enabled first.1 role :=
        ⟨hrole.1, hfirstkind.trans hrole.2⟩
      have hsame := h.alike first.1 hfirst wf.1 hq role hfirstrole hrole (by rwa [hfirstkind])
      refine ⟨d, hd, ?_⟩
      obtain ⟨hdkind, name, hname, heq⟩ := ConfigurationAppender.DocName.fits_eq_true.mp hfits
      apply ConfigurationAppender.DocName.fits_eq_true.mpr
      exact ⟨by rw [hdkind, hfirstkind], name, hname, Val.pyEq_trans heq hsame⟩

end

/-- An apply has got as far as the vars: `s` is the state in which the configuration
documents are appended, `s₁` the one in which they are validated, `s₂` the one in
which the infrastructure is asked for their storage, and `s₃` the one in which the
vars are generated. -/
structure Reached (env : ApplyEngine.Env) (config : Env) (input : ApplyEngine.InputDocs)
    (infrastructureDocs configurationDocs : List DocId) (s s₁ s₂ s₃ s₄ : Store)
    (generated : Generated) : Prop where
  allocated : ∀ id ∈ input.docs, id < s.next
  wellFormed : ∀ id ∈ input.docs, (s.doc id).WellFormed
  clusterModel : selectSingle input.docs (kindIs "lambdastack-cluster" ∘ s.doc) =
    .ok input.clusterModel
  infrastructure : ∀ id ∈ infrastructureDocs, id < s.next
  appended : ConfigurationAppender.run env.builder.schema env.builder.version input.docs s =
    .ok (configurationDocs, s₁)
  validated : ∃ provider,
    SchemaValidator.run env.validator provider configurationDocs s₁ = .ok ((), s₂)
  collected : ApplyEngine.collectInfrastructureConfig env input.clusterModel
    (configurationDocs ++ infrastructureDocs) s₂ = .ok ((), s₃)
  generated : generate config input.clusterModel (configurationDocs ++ infrastructureDocs) s₃ =
    .ok (generated, s₄)

/-- The configuration a component selects reaches its roles exactly when the
components with a role select one configuration. -/
theorem varsSelected_iff_selectsAlike {env : ApplyEngine.Env} {config : Env}
    {input : ApplyEngine.InputDocs} {infrastructureDocs configurationDocs : List DocId}
    {s s₁ s₂ s₃ s₄ : Store} {generated : Generated}
    (h : Reached env config input infrastructureDocs configurationDocs s s₁ s₂ s₃ s₄ generated) :
    ∃ requests enabled provider,
      requestsOf env.builder.schema (input.docs.map s.doc) = .ok requests ∧
      AnsibleInventoryCreator.getEnabledRoles
        ((configurationDocs ++ infrastructureDocs).map s₃.doc) = .ok enabled ∧
      (s₃.doc input.clusterModel).attr? "provider" = some provider ∧
      (VarsSelected s₁ s₃ configurationDocs requests enabled provider generated.vars.files ↔
        SelectsAlike env.builder.schema (input.docs.map s.doc) requests enabled) := by
  obtain ⟨hids, hwf, hmodel, hinfra, hrun, ⟨validated, hvalidate⟩, hcollect, hgenerate⟩ := h
  obtain ⟨requests, names, log₀, log, hanswered⟩ :=
    ConfigurationAppender.run_answers hids hwf hrun
  have hmem : input.clusterModel ∈ input.docs := by
    have hfilter := selectSingle_eq_ok hmodel
    exact List.mem_of_mem_filter (hfilter ▸ List.mem_singleton_self input.clusterModel)
  have hvalidated : Store.Evolves KeepsKind s₁ s₂ :=
    (SchemaValidator.preserves_run env.validator KeepsKind.replaceYesno _ _).rel hvalidate
  have hcollected : Store.Evolves SameButSpec s₂ s₃ :=
    (ApplyEngine.preserves_collectInfrastructureConfig env sameButSpec_setStorage _ _).rel
      hcollect
  have hkeep : Store.Evolves KeepsKind s₁ s₃ :=
    ⟨hvalidated.next_le.trans hcollected.next_le, fun id hid => IsTrans.trans _ _ _
      (hvalidated.doc id hid) (.of_attr?_eq (hcollected.doc id (hid.trans_le hvalidated.next_le)
        "kind" (by decide)))⟩
  have hlt : ∀ id < s.next, id < s₃.next := fun id hid =>
    (hid.trans_le hanswered.stamps.next_le).trans_le hkeep.next_le
  have hdocs : ∀ id ∈ configurationDocs ++ infrastructureDocs, id < s₃.next := by
    intro id hid
    rcases List.mem_append.mp hid with hid | hid
    · obtain ⟨d, -, hid, -⟩ := exists_of_mem_forall₂ hanswered.logged hid
      exact hid.trans_le hkeep.next_le
    · exact hlt id (hinfra id hid)
  have hkind : (s₃.doc input.clusterModel).IsKind "lambdastack-cluster" := by
    have hholds : (Holds? ∘ kindIs "lambdastack-cluster" ∘ s.doc) input.clusterModel = true := by
      have hfilter := selectSingle_eq_ok hmodel
      exact (List.mem_filter.mp (hfilter ▸ List.mem_singleton_self input.clusterModel)).2
    have hid := hids _ hmem
    rw [hkeep.doc _ (hid.trans_le hanswered.stamps.next_le) _ (by decide), Val.IsKind,
      hanswered.stamps.same _ hid "kind" (by decide)]
    exact holds?_kindIs.mp hholds
  obtain ⟨provider, text, hprovider, htext⟩ : ∃ provider text,
      (s₃.doc input.clusterModel).attr? "provider" = some provider ∧
        provider.str? = some text := by
    simp only [ApplyEngine.collectInfrastructureConfig, BuildM.bind_eq_ok, reads_eq_ok, lift_eq_ok,
      Val.getAttr_eq_ok, Val.asStr_eq_ok] at hcollect
    obtain ⟨value, _, ⟨hvalue, rfl⟩, name, _, ⟨hname, rfl⟩, -⟩ := hcollect
    refine ⟨value, name, ?_, hname⟩
    have hid := ((hids _ hmem).trans_le hanswered.stamps.next_le).trans_le hvalidated.next_le
    rw [hcollected.doc _ hid "provider" (by decide), hvalue]
  obtain ⟨enabled, roles, henabled, hroles, hwritten⟩ := generate_eq_ok hdocs
    (hlt _ (hids _ hmem)) hkind hprovider htext hgenerate
  exact ⟨_, enabled, provider, hanswered.requestsOf, henabled, hprovider,
    varsSelected_iff hanswered hkeep hwritten hroles⟩

/-! ## Two components with one role -/

namespace RoleSample

open ApplyEngine.ApplySample (document)

/-- A component with one machine and the configuration of the name. -/
def component (configuration : String) : Val :=
  .dict [("count", .int 1), ("configuration", .str configuration)]

/-- The documents of the user: two configurations of `firewall`. The master selects
the first and the node the one of the name. -/
def trees (node : String) : List Val :=
  [.dict [("kind", .str "lambdastack-cluster"), ("title", .str "Cluster"),
      ("provider", .str "any"), ("name", .str "default"), ("specification", .dict
        [("name", .str "demo"), ("admin_user", .dict []),
          ("components", .dict [("kubernetes_master", component "default"),
            ("kubernetes_node", component node)])])],
    document "configuration/feature-mapping" "default"
      [("available_roles", .list [.dict [("name", .str "firewall"), ("enabled", .bool true)]]),
        ("roles_mapping", .dict [("kubernetes_master", .list [.str "firewall"]),
          ("kubernetes_node", .list [.str "firewall"])])],
    document "configuration/shared-config" "default" [("vault_location", .str "/vault")],
    document "configuration/firewall" "default" [("managing", .bool true)],
    document "configuration/firewall" "open" [("managing", .bool false)]]

def store (node : String) : Store where
  next := 5
  doc id := ((trees node)[id]?).getD .null

def input : ApplyEngine.InputDocs := ⟨[0, 1, 2, 3, 4], 0⟩

def env : ApplyEngine.Env :=
  { ApplyEngine.ApplySample.env with
    builder := { ApplyEngine.ApplySample.env.builder with
      schema := ConfigurationAppender.ConfigSample.schema } }

def config : Env where
  schema := ConfigurationAppender.ConfigSample.schema
  validateCerts := .bool true
  offlineRequirements := .str ""
  waitForPods := .bool false
  upgradeComponents := .list []
  vaultPasswordLocation := .str ""
  getAnsibleVaultPath _ := .ok (.str "/vault")

/-- The requests of the two components. -/
def requests (node : String) : List Request :=
  [⟨"configuration/firewall", .str "default"⟩, ⟨"configuration/firewall", .str node⟩]

theorem allocated (node : String) : ∀ id ∈ input.docs, id < (store node).next := by
  simp [input, store]

theorem wellFormed (node : String) : ∀ id ∈ input.docs, ((store node).doc id).WellFormed := by
  simp [input, store, trees, document, component, dictKeys]

/-- The apply gets to the vars, and the file of `firewall` is written from the master's
configuration. -/
theorem reached (node : String) (configurationDocs : List DocId) (s₁ s₂ s₃ s₄ : Store)
    (generated : Generated)
    (hrun : ConfigurationAppender.run env.builder.schema env.builder.version input.docs
      (store node) = .ok (configurationDocs, s₁))
    (hvalidate : SchemaValidator.run env.validator (.str "any") configurationDocs s₁ = .ok ((), s₂))
    (hcollect : ApplyEngine.collectInfrastructureConfig env 0 (configurationDocs ++ []) s₂ =
      .ok ((), s₃))
    (hgenerate : generate config 0 (configurationDocs ++ []) s₃ = .ok (generated, s₄)) :
    Reached env config input [] configurationDocs (store node) s₁ s₂ s₃ s₄ generated where
  allocated := allocated node
  wellFormed := wellFormed node
  clusterModel := rfl
  infrastructure := by simp
  appended := hrun
  validated := ⟨_, hvalidate⟩
  collected := hcollect
  generated := hgenerate

/-- The only enabled role of a request is `firewall`. -/
theorem role_eq {q : Request} {role : String} (h : RoleOf [.str "firewall"] q role) :
    role = "firewall" := by
  simpa [eq_comm] using h.1

/-- What the generator finds where both components select the default configuration. -/
theorem reached_default :
    ∃ s₁ s₂ s₃ s₄ generated,
      Reached env config input [] [1, 2, 0, 3, 3] (store "default") s₁ s₂ s₃ s₄ generated ∧
      AnsibleInventoryCreator.getEnabledRoles (([1, 2, 0, 3, 3] ++ []).map s₃.doc) =
        .ok [.str "firewall"] ∧
      (s₃.doc input.clusterModel).attr? "provider" = some (.str "any") :=
  ⟨_, _, _, _, _, reached _ _ _ _ _ _ _ rfl rfl rfl rfl, rfl, rfl⟩

/-- Both components select the default configuration. -/
theorem selectsAlike : SelectsAlike env.builder.schema (input.docs.map (store "default").doc)
    (requests "default") [.str "firewall"] where
  role q _ role hrole := by
    rw [role_eq hrole]
    decide
  alike q hq q' hq' _ _ _ _ := by
    have hselector : ∀ q ∈ requests "default", q.selector = .str "default" := by simp [requests]
    rw [hselector q hq, hselector q' hq']
    decide
  required q hq _ _ hkind := by
    have hkinds : ∀ q ∈ requests "default", q.kind ∉ requiredDocs := by
      simp [requests, requiredDocs]
    exact absurd hkind (hkinds q hq)

end RoleSample

open RoleSample in
/-- The vars of `firewall` are those of the master's configuration, not of the node's. -/
theorem other_selector_lost :
    ¬ ∀ env config input infrastructureDocs configurationDocs s s₁ s₂ s₃ s₄ generated requests
        enabled provider,
      Reached env config input infrastructureDocs configurationDocs s s₁ s₂ s₃ s₄ generated →
      requestsOf env.builder.schema (input.docs.map s.doc) = .ok requests →
      AnsibleInventoryCreator.getEnabledRoles
        ((configurationDocs ++ infrastructureDocs).map s₃.doc) = .ok enabled →
      (s₃.doc input.clusterModel).attr? "provider" = some provider →
      VarsSelected s₁ s₃ configurationDocs requests enabled provider generated.vars.files := by
  intro h
  have hselected := h env config input [] [1, 2, 0, 3, 4] (store "open") _ _ _ _ _
    (requests "open") [.str "firewall"] (.str "any") (reached _ _ _ _ _ _ _ rfl rfl rfl rfl)
    rfl rfl rfl
  obtain ⟨document, content, hlookup, -, hnamed, -⟩ := hselected
    ⟨"configuration/firewall", .str "open"⟩ (by simp [requests]) "firewall" ⟨by simp, rfl⟩
  have hdocument : some (some 3) = some (some document) :=
    congrArg (Option.map VarsFile.document) hlookup
  cases hdocument
  exact absurd hnamed (by decide)

open RoleSample in
theorem varsSelected_iff_selectsAlike_sample :
    ∃ configurationDocs s₁ s₂ s₃ s₄ generated,
      Reached env config input [] configurationDocs (store "default") s₁ s₂ s₃ s₄ generated ∧
      VarsSelected s₁ s₃ configurationDocs (requests "default") [.str "firewall"] (.str "any")
        generated.vars.files := by
  obtain ⟨s₁, s₂, s₃, s₄, generated, hreached, hroles, hany⟩ := reached_default
  obtain ⟨found, enabled, provider, hfound, henabled, hprovider, hiff⟩ :=
    varsSelected_iff_selectsAlike hreached
  have hrequests : requestsOf env.builder.schema (input.docs.map (store "default").doc) =
    .ok (requests "default") := rfl
  cases hfound.symm.trans hrequests
  cases henabled.symm.trans hroles
  cases hprovider.symm.trans hany
  exact ⟨_, s₁, s₂, s₃, s₄, generated, hreached, hiff.mpr selectsAlike⟩

end AnsibleVarsGenerator

end LambdaStack
