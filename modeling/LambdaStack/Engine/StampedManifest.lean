/-
# The versions in the manifest

A document of the user is merged over the stamped default of its kind, and only the
appender and the builder of the provider `any` stamp it again. The manifest an apply ends
with is therefore stamped where the documents of the user that a builder takes have no
version but the one that runs.
-/

import LambdaStack.Engine.Providers.Aws.Versions
import LambdaStack.Engine.Providers.Azure.Versions
import LambdaStack.Engine.RejectedApply
import LambdaStack.Engine.Schema.StampedDocs

namespace LambdaStack

open Lib BuildM

theorem Val.KeysUnique.replaceYesno {x : Val} (hx : x.KeysUnique) :
    (replaceYesno x).KeysUnique := by
  have hkeys : ∀ entries, dictKeys (replaceYesnoEntries entries) = dictKeys entries := by
    intro entries
    rw [replaceYesnoEntries_eq, dictKeys, dictKeys, List.map_map]
    rfl
  constructor
  · intro entries h
    cases x with
    | scalar | list => cases h
    | dict own =>
        rw [LambdaStack.replaceYesno] at h
        cases h
        rw [hkeys]
        exact hx.top own rfl
  · intro entries h
    rw [attr?_replaceYesno, Option.map_eq_some_iff] at h
    obtain ⟨spec, hspec, h⟩ := h
    cases spec with
    | scalar s =>
        cases s with
        | str s =>
            simp only [entryYesno, replaceYesnoEntry] at h
            split at h
            · cases h
            · split at h <;> cases h
        | null | bool | int | float => cases h
    | list items => cases h
    | dict own =>
        cases h
        rw [hkeys]
        exact hx.spec own hspec

namespace ApplyEngine

section

variable {env : Env} {input : Input} {w w' : World} {s s' : Store}

/-! ## The input documents -/

/-- New documents come after those there were, each with its tree. -/
theorem newDocs_eq_ok {trees : List Val} {ids : List DocId}
    (hrun : newDocs trees s = .ok (ids, s')) :
    s.next ≤ s'.next ∧ (∀ id < s.next, s'.doc id = s.doc id) ∧
      List.Forall₂ (fun tree id => id < s'.next ∧ s'.doc id = tree) trees ids := by
  induction trees generalizing s ids with
  | nil =>
      obtain ⟨rfl, rfl⟩ := BuildM.pure_eq_ok.mp hrun
      exact ⟨le_rfl, fun _ _ => rfl, .nil⟩
  | cons tree rest ih =>
      simp only [newDocs, BuildM.bind_eq_ok, newDoc_eq_ok] at hrun
      obtain ⟨id, s₁, ⟨rfl, rfl⟩, others, s₂, hrest, hret⟩ := hrun
      obtain ⟨rfl, rfl⟩ := BuildM.pure_eq_ok.mp hret
      obtain ⟨hnext, hsame, hothers⟩ := ih hrest
      have hlt : s.next < (s.alloc tree).next := Nat.lt_succ_self _
      refine ⟨(Nat.le_succ _).trans hnext, fun id hid => ?_, .cons ⟨hlt.trans_le hnext, ?_⟩ hothers⟩
      · rw [hsame id (hid.trans hlt), s.alloc_doc_of_lt hid]
      · rw [hsame s.next hlt, s.alloc_doc_self]

/-- A document that was made from one of the input: searches for infrastructure documents find
either or neither, and both have another version or neither. -/
structure FromInput (version : String) (s : Store) (own : Val) (id : DocId) : Prop where
  lt : id < s.next
  holds : ∀ q : DocQuery, IsInfrastructure q.kind →
    Holds? (q.holds (s.doc id)) = Holds? (q.holds own)
  version : (s.doc id).NoOtherVersion version ↔ own.NoOtherVersion version

theorem holds?_other {q : DocQuery} {x : Val} {kind : String} (hkind : x.IsKind kind)
    (hne : q.kind ≠ kind) : Holds? (q.holds x) = false := by
  rw [← Bool.not_eq_true]
  exact fun hholds => hne ((DocQuery.isKind_of_holds hholds).unique hkind)

/-- Merging changes no answer. -/
theorem holds_mergedHead {version : String} {own merged : Val}
    (h : Val.MergedHead version own merged) (q : DocQuery) : q.holds merged = q.holds own := by
  have hattr : ∀ key ∈ ["kind", "name"], merged.attr? key = own.attr? key := by
    intro key hkey
    obtain ⟨s, type, hown, hmerged⟩ := h.named key hkey
    rw [hown, hmerged]
  rcases q with ⟨kind, name⟩
  cases name <;> simp only [DocQuery.holds, kindAndNameAre, kindIs, attrIs, Val.getAttr,
    hattr "kind" (by simp), hattr "name" (by simp)]

theorem exists_file {docs : InputDocs} (hrun : processInputDocs env input s = .ok (docs, s')) :
    ∃ file, input.file = some file := by
  simp only [processInputDocs, BuildM.bind_eq_ok, lift_eq_ok] at hrun
  obtain ⟨file, _, ⟨hload, -⟩, -⟩ := hrun
  cases hfile : input.file with
  | none => simp [loadInput, hfile] at hload
  | some file => exact ⟨file, rfl⟩

/-- The question which document is the cluster model. -/
abbrev isCluster : Val → Res Bool := kindIs "lambdastack-cluster"

/-- The documents of the input file with the defaults of their kinds filled in, and yes and no
replaced in the cluster model. -/
def filledIn (env : Env) (file : List Val) : Res (List Val) := do
  let merged ← DefaultMerger.run ⟨env.builder.schema, env.builder.version, env.depth⟩ file
  .ok (merged.map fun x => if Holds? (isCluster x) then replaceYesno x else x)

/-- The documents in memory are those of the input file, filled in. -/
structure Processed (env : Env) (file : List Val) (docs : InputDocs) (s : Store) : Prop where
  trees : filledIn env file = .ok (docs.docs.map s.doc)
  documents : List.Forall₂ (FromInput env.builder.version s) file docs.docs
  unique : ∀ id ∈ docs.docs, (s.doc id).KeysUnique
  clusterModel : ∀ x, selectSingle (docs.docs.map s.doc) isCluster = .ok x →
    x = s.doc docs.clusterModel

theorem Processed.allocated {file : List Val} {docs : InputDocs} (h : Processed env file docs s) :
    ∀ id ∈ docs.docs, id < s.next := fun id hid => by
  obtain ⟨own, -, hfrom⟩ := exists_of_mem_forall₂ h.documents.flip hid
  exact hfrom.lt

theorem processInputDocs_processed {docs : InputDocs} {file : List Val}
    (hfile : input.file = some file) (hinput : ∀ v ∈ file, v.WellFormed)
    (hword : Objects.yesno? env.builder.version = none)
    (hrun : processInputDocs env input s = .ok (docs, s')) : Processed env file docs s' := by
  simp only [processInputDocs, loadInput, hfile, BuildM.bind_eq_ok, lift_eq_ok] at hrun
  obtain ⟨_, _, ⟨hload, rfl⟩, merged, _, ⟨hmerged, rfl⟩, ids, s₁, hnew, clusterModel, _, hmodel,
    provider, _, hprovider, _, s₂, hvalidate, hret⟩ := hrun
  cases hload
  obtain ⟨hsingle, rfl⟩ := reads_eq_ok.mp hmodel
  obtain ⟨-, rfl⟩ := reads_eq_ok.mp hprovider
  obtain ⟨rfl, rfl⟩ := BuildM.pure_eq_ok.mp hret
  obtain rfl := SchemaValidator.run_single hvalidate
  obtain ⟨hheads, hwellFormed⟩ := DefaultMerger.run_heads hinput hmerged
  obtain ⟨-, -, htrees⟩ := newDocs_eq_ok hnew
  have hcluster : ∀ id ∈ ids, Holds? (isCluster (s₁.doc id)) = true ↔ id = clusterModel := by
    intro id hid
    rw [← List.mem_singleton (b := clusterModel), ← selectSingle_eq_ok hsingle, List.mem_filter]
    exact ⟨fun h => ⟨hid, h⟩, fun h => h.2⟩
  have hdoc : ∀ id ∈ ids, (s₁.write clusterModel (replaceYesno (s₁.doc clusterModel))).doc id =
      if Holds? (isCluster (s₁.doc id)) then replaceYesno (s₁.doc id) else s₁.doc id := by
    intro id hid
    by_cases heq : id = clusterModel
    · rw [if_pos ((hcluster id hid).mpr heq), heq, Store.write_doc_self]
    · rw [if_neg (fun h => heq ((hcluster id hid).mp h)), Store.write_doc_ne _ heq]
  have hpairs : List.Forall₂ (fun own id => id < s₁.next ∧
      Val.MergedHead env.builder.version own (s₁.doc id)) file ids :=
    forall₂_of_common hheads.flip htrees fun tree own id hhead ⟨hlt, htree⟩ =>
      ⟨hlt, htree.symm ▸ hhead⟩
  refine ⟨?_, ?_, fun id hid => ?_, fun x hx => ?_⟩
  · have hids : ids.map s₁.doc = merged := by
      rw [← List.forall₂_eq_eq_eq, List.forall₂_map_left_iff]
      exact htrees.flip.imp fun _ _ h => h.2
    rw [filledIn, hmerged, Lib.ok_bind, ← hids, List.map_map]
    exact congrArg Except.ok (List.map_congr_left fun id hid => (hdoc id hid).symm)
  · refine (((List.forall₂_and_left ids file).mpr ⟨fun id hid => hid, hpairs.flip⟩).imp ?_).flip
    rintro id own ⟨hid, hlt, hhead⟩
    refine ⟨hlt, fun q hq => ?_, ?_⟩
    · rw [hdoc id hid, ← holds_mergedHead hhead]
      split
      · next hmodel =>
          have hkind : (s₁.doc id).IsKind "lambdastack-cluster" := holds?_kindIs.mp hmodel
          rw [holds?_other hkind hq.ne_cluster,
            holds?_other ((Val.isKind_replaceYesno (by decide)).mpr hkind) hq.ne_cluster]
      · rfl
    · rw [hdoc id hid, ← hhead.noOtherVersion_iff]
      split
      · exact ⟨(sameVersion_replaceYesno hword _).reflects,
          (sameVersion_replaceYesno hword _).noOther⟩
      · rfl
  · obtain ⟨tree, hmem, -, htree⟩ := exists_of_mem_forall₂ htrees.flip hid
    have hunique : (s₁.doc id).KeysUnique := htree ▸ (hwellFormed tree hmem).keysUnique
    rw [hdoc id hid]
    split
    · exact hunique.replaceYesno
    · exact hunique
  · have hmem : x ∈ (ids.map (s₁.write clusterModel
        (replaceYesno (s₁.doc clusterModel))).doc).filter (Holds? ∘ isCluster) := by
      rw [selectSingle_eq_ok hx]
      exact List.mem_singleton_self x
    obtain ⟨hin, hholds⟩ := List.mem_filter.mp hmem
    obtain ⟨id, hid, rfl⟩ := List.mem_map.mp hin
    by_cases heq : id = clusterModel
    · rw [heq]
    · rw [Function.comp_apply, Store.write_doc_ne _ heq] at hholds
      exact absurd ((hcluster id hid).mp hholds) heq

/-! ## What the builders take -/

def azureQueries (clusterModel : Val) : List DocQuery :=
  Azure.queries
    (Azure.switch clusterModel ["specification", "cloud", "network", "use_network_security_groups"])
    (Azure.switch clusterModel ["specification", "cloud", "use_public_ips"]) clusterModel

/-- The searches of the provider's builder for documents of the user that it emits. -/
def builderQueries (env : BuilderEnv) (provider : String) (clusterModel : Val)
    (trees : List Val) : List DocQuery :=
  match env.lower provider with
  | "aws" | "gcp" => Aws.queries env clusterModel trees
  | "azure" => azureQueries clusterModel
  | _ => []

/-- The searches of the builder of the provider that the cluster model names. -/
def takenQueries (env : Env) (trees : List Val) : List DocQuery :=
  match selectSingle trees isCluster with
  | .ok clusterModel =>
      match clusterModel.attrStr? "provider" with
      | some provider => builderQueries env.builder.toBuilderEnv provider clusterModel trees
      | none => []
  | .error _ => []

/-- The documents of the input file that the builder takes: the first of its kind, or of its
kind and name, for each search. What is searched for depends on the counts, the machines and
the switches of the cluster model with its defaults. -/
def takenDocs (env : Env) (file : List Val) : List Val :=
  match filledIn env file with
  | .ok trees => (takenQueries env trees).filterMap fun q => file.find? (Holds? ∘ q.holds)
  | .error _ => []

/-- They have no version but the one that runs. -/
def TakenCurrent (env : Env) (input : Input) : Prop :=
  ∀ file, input.file = some file →
    ∀ own ∈ takenDocs env file, own.NoOtherVersion env.builder.version

theorem infrastructure_machineQuery {componentValue : Val} :
    ∀ q ∈ machineQuery componentValue, IsInfrastructure q.kind := by
  intro q hq
  unfold machineQuery at hq
  split at hq
  · rw [List.mem_singleton.mp hq]
    exact show IsInfrastructure vmKind by decide
  · cases hq

theorem infrastructure_kindQueries {kinds : List String}
    (h : ∀ kind ∈ kinds, IsInfrastructure kind) :
    ∀ q ∈ kindQueries kinds, IsInfrastructure q.kind := by
  intro q hq
  obtain ⟨kind, hkind, rfl⟩ := List.mem_map.mp hq
  exact h kind hkind

theorem Aws.infrastructure_queries {env : BuilderEnv} {clusterModel : Val} {trees : List Val} :
    ∀ q ∈ Aws.queries env clusterModel trees, IsInfrastructure q.kind := by
  rw [Aws.queries, List.forall_mem_append, List.forall_mem_append]
  refine ⟨⟨infrastructure_kindQueries (by decide), fun q hq => ?_⟩, fun q hq => ?_⟩
  · obtain ⟨component, -, hq⟩ := List.mem_flatMap.mp hq
    rw [Aws.componentQueries] at hq
    split at hq
    · rcases List.mem_append.mp hq with hq | hq
      · rcases List.mem_append.mp hq with hq | hq
        · exact infrastructure_kindQueries (by decide) q hq
        · exact infrastructure_machineQuery q hq
      · split at hq
        · cases hq
        · exact infrastructure_kindQueries (by decide) q hq
    · cases hq
  · rw [Aws.efsQueries] at hq
    split at hq
    · rw [List.mem_singleton.mp hq]
      decide
    · cases hq

theorem Azure.infrastructure_queries {useNetworkSecurityGroups usePublicIps : Bool}
    {clusterModel : Val} : ∀ q ∈ Azure.queries useNetworkSecurityGroups usePublicIps clusterModel,
      IsInfrastructure q.kind := by
  rw [Azure.queries, List.forall_mem_append]
  refine ⟨infrastructure_kindQueries (by decide), fun q hq => ?_⟩
  obtain ⟨component, -, hq⟩ := List.mem_flatMap.mp hq
  rw [Azure.componentQueries] at hq
  split at hq
  · cases hq
  · rcases List.mem_append.mp hq with hq | hq
    · refine infrastructure_kindQueries ?_ q hq
      cases useNetworkSecurityGroups <;> cases usePublicIps <;> decide
    · rcases List.mem_append.mp hq with hq | hq
      · exact infrastructure_machineQuery q hq
      · unfold Azure.setQueries at hq
        split at hq
        · cases hq
        · rw [List.mem_singleton.mp hq]
          exact show IsInfrastructure "infrastructure/availability-set" by decide

theorem infrastructure_builderQueries {provider : String} {clusterModel : Val}
    {trees : List Val} : ∀ q ∈ builderQueries env.builder.toBuilderEnv provider clusterModel trees,
      IsInfrastructure q.kind := by
  unfold builderQueries
  split
  · exact Aws.infrastructure_queries
  · exact Aws.infrastructure_queries
  · exact Azure.infrastructure_queries
  · exact fun _ h => absurd h List.not_mem_nil

/-- What a search finds in the file was made the document that it finds in memory. -/
theorem Processed.found {file : List Val} {docs : InputDocs} (h : Processed env file docs s)
    {q : DocQuery} (hq : IsInfrastructure q.kind) :
    (file.find? (Holds? ∘ q.holds) = none ∧ q.find docs.docs s = none) ∨
      ∃ own id, file.find? (Holds? ∘ q.holds) = some own ∧ q.find docs.docs s = some id ∧
        FromInput env.builder.version s own id :=
  find?_forall₂ h.documents fun _ _ _ _ hfrom => (hfrom.holds q hq).symm

theorem Processed.takenDocs_eq {file : List Val} {docs : InputDocs}
    (h : Processed env file docs s) :
    takenDocs env file = (takenQueries env (docs.docs.map s.doc)).filterMap fun q =>
      file.find? (Holds? ∘ q.holds) := by
  simp only [takenDocs, h.trees]

/-- The searches of a run that has a cluster model. -/
theorem Processed.takenQueries_eq {file : List Val} {docs : InputDocs}
    (h : Processed env file docs s) {provider : String}
    (hprovider : (s.doc docs.clusterModel).attrStr? "provider" = some provider) {clusterModel : Val}
    (hmodel : selectSingle (docs.docs.map s.doc) isCluster = .ok clusterModel) :
    takenQueries env (docs.docs.map s.doc) =
      builderQueries env.builder.toBuilderEnv provider clusterModel (docs.docs.map s.doc) := by
  simp only [takenQueries, hmodel, h.clusterModel _ hmodel, hprovider]

/-- What the builder's searches find was made from documents without other versions. -/
theorem Processed.ready {file : List Val} {docs : InputDocs} (h : Processed env file docs s)
    {queries : List DocQuery} (hqueries : ∀ q ∈ queries, IsInfrastructure q.kind)
    (htaken : ∀ own ∈ queries.filterMap fun q => file.find? (Holds? ∘ q.holds),
      own.NoOtherVersion env.builder.version) :
    Ready env.builder.version docs.docs queries s := by
  refine ⟨h.allocated, fun q hq id hfind => ?_⟩
  rcases h.found (hqueries q hq) with ⟨-, hnone⟩ | ⟨own, other, hown, hother, hfrom⟩
  · cases hnone.symm.trans hfind
  · obtain rfl : other = id := Option.some.inj (hother.symm.trans hfind)
    exact hfrom.version.mpr (htaken own (List.mem_filterMap.mpr ⟨q, hq, hown⟩))

theorem setVersions_stamped {version : String} {ids : List DocId} {u : Unit}
    (hids : ∀ id ∈ ids, id < s.next) (hrun : Any.setVersions version ids s = .ok (u, s')) :
    AllStamped version s' ids ∧ VersionsKept version s s' := by
  induction ids generalizing s with
  | nil =>
      obtain ⟨-, rfl⟩ := BuildM.pure_eq_ok.mp hrun
      exact ⟨fun _ h => absurd h List.not_mem_nil, Std.Refl.refl _⟩
  | cons id rest ih =>
      obtain ⟨_, s₁, hset, hrest⟩ := BuildM.bind_eq_ok.mp hrun
      rw [List.forall_mem_cons] at hids
      obtain ⟨hstamped, hkept₁⟩ := setVersion_stamped hids.1 hset
      obtain ⟨hothers, hkept₂⟩ :=
        ih (fun other hother => (hids.2 other hother).trans_le hkept₁.next_le) hrest
      exact ⟨List.forall_mem_cons.mpr ⟨hstamped.mono hkept₂, hothers⟩, Trans.trans hkept₁ hkept₂⟩

/-! ## The builders -/

/-- The emitted documents have no version but the one that runs. -/
theorem aws_current {docs ids : List DocId} {manifestDocs : List Val}
    (hdefaults : DefaultsCurrent env.builder.schema env.builder.version)
    (h : ∀ clusterModel,
      selectSingle (docs.map s.doc) (kindIs "lambdastack-cluster") = .ok clusterModel →
        Ready env.builder.version docs
          (Aws.queries env.builder.toBuilderEnv clusterModel (docs.map s.doc)) s)
    (hunique : ∀ id ∈ docs, (s.doc id).KeysUnique)
    (hrun : (do
      let b ← Aws.init env.builder docs manifestDocs
      b.run env.builder env.keys) s = .ok (ids, s')) :
    AllCurrent env.builder.version s' ids := by
  obtain ⟨b, s₁, hinit, hbuild⟩ := BuildM.bind_eq_ok.mp hrun
  obtain ⟨rfl, rfl, hmodel⟩ := Aws.init_eq_ok hinit
  exact (Aws.run_current hdefaults (h _ hmodel) hunique hbuild).1

theorem azure_current {docs ids : List DocId} {manifestDocs : List Val}
    (hdefaults : DefaultsCurrent env.builder.schema env.builder.version)
    (h : ∀ clusterModel,
      selectSingle (docs.map s.doc) (kindIs "lambdastack-cluster") = .ok clusterModel →
        Ready env.builder.version docs (azureQueries clusterModel) s)
    (hrun : (do
      let b ← Azure.init env.builder.toBuilderEnv docs manifestDocs
      let emitted ← b.run env.builder.toBuilderEnv
      pure (emitted.map Azure.Emitted.doc)) s = .ok (ids, s')) :
    AllCurrent env.builder.version s' ids := by
  obtain ⟨b, s₁, hinit, hrun⟩ := BuildM.bind_eq_ok.mp hrun
  obtain ⟨emitted, s₂, hbuild, hret⟩ := BuildM.bind_eq_ok.mp hrun
  obtain ⟨rfl, rfl⟩ := BuildM.pure_eq_ok.mp hret
  obtain ⟨rfl, rfl, hmodel, hgroups, hips⟩ := Azure.init_eq_ok hinit
  have hready := h _ hmodel
  rw [azureQueries, hgroups, hips] at hready
  exact (Azure.run_current hdefaults hready hbuild).1

/-- The builder of `any` stamps what it takes. -/
theorem any_current {version : String} {docs ids : List DocId} (hdocs : ∀ id ∈ docs, id < s.next)
    (hrun : Any.build version docs s = .ok (ids, s')) :
    AllCurrent version s' ids ∧ VersionsKept version s s' := by
  simp only [Any.build, BuildM.bind_eq_ok] at hrun
  obtain ⟨_, _, hread, taken, _, hread', _, s₁, hset, hret⟩ := hrun
  obtain ⟨-, rfl⟩ := reads_eq_ok.mp hread
  obtain ⟨htaken, rfl⟩ := reads_eq_ok.mp hread'
  obtain ⟨rfl, rfl⟩ := BuildM.pure_eq_ok.mp hret
  have hmem : ∀ id ∈ taken, id < s.next := by
    intro id hid
    rw [selectAll_eq_ok htaken] at hid
    exact hdocs id (List.mem_filter.mp hid).1
  obtain ⟨hstamped, hkept⟩ := setVersions_stamped hmem hset
  exact ⟨fun id hid => ⟨(hstamped id hid).1, (hstamped id hid).2.noOtherVersion⟩, hkept⟩

theorem buildInfrastructure_current {provider : String} {docs ids : List DocId}
    {manifestDocs : List Val} (hdocs : ∀ id ∈ docs, id < s.next)
    (hdefaults : DefaultsCurrent env.builder.schema env.builder.version)
    (h : ∀ clusterModel,
      selectSingle (docs.map s.doc) (kindIs "lambdastack-cluster") = .ok clusterModel →
        Ready env.builder.version docs (builderQueries env.builder.toBuilderEnv provider
          clusterModel (docs.map s.doc)) s)
    (hunique : ∀ id ∈ docs, (s.doc id).KeysUnique)
    (hrun : buildInfrastructure env provider docs manifestDocs s = .ok (ids, s')) :
    AllCurrent env.builder.version s' ids := by
  unfold buildInfrastructure at hrun
  unfold builderQueries at h
  generalize env.builder.lower provider = name at hrun h
  revert h hrun
  split
  · exact fun hrun h => aws_current hdefaults h hunique hrun
  · exact fun hrun h => aws_current hdefaults h hunique hrun
  · exact fun hrun h => azure_current hdefaults h hrun
  · exact fun hrun _ => (any_current hdocs hrun).1
  · intro hrun
    obtain ⟨habsurd, -⟩ := lift_eq_ok.mp hrun
    cases habsurd

theorem aws_emits {docs ids : List DocId} {manifestDocs : List Val}
    (hdocs : ∀ id ∈ docs, id < s.next) (hunique : ∀ id ∈ docs, (s.doc id).KeysUnique)
    (hrun : (do
      let b ← Aws.init env.builder docs manifestDocs
      b.run env.builder env.keys) s = .ok (ids, s')) :
    HeadsKept s s' ∧ ∀ clusterModel, selectSingle (docs.map s.doc) isCluster = .ok clusterModel →
      EmitsFound docs (Aws.queries env.builder.toBuilderEnv clusterModel (docs.map s.doc)) s'
        ids := by
  obtain ⟨b, s₁, hinit, hbuild⟩ := BuildM.bind_eq_ok.mp hrun
  obtain ⟨rfl, rfl, hmodel⟩ := Aws.init_eq_ok hinit
  obtain ⟨hheads, hemits⟩ := Aws.run_emits hdocs hunique hbuild
  refine ⟨hheads, fun clusterModel hother => ?_⟩
  cases hother.symm.trans hmodel
  exact hemits

theorem azure_emits {docs ids : List DocId} {manifestDocs : List Val}
    (hdocs : ∀ id ∈ docs, id < s.next) (hunique : ∀ id ∈ docs, (s.doc id).KeysUnique)
    (hrun : (do
      let b ← Azure.init env.builder.toBuilderEnv docs manifestDocs
      let emitted ← b.run env.builder.toBuilderEnv
      pure (emitted.map Azure.Emitted.doc)) s = .ok (ids, s')) :
    HeadsKept s s' ∧ ∀ clusterModel, selectSingle (docs.map s.doc) isCluster = .ok clusterModel →
      EmitsFound docs (azureQueries clusterModel) s' ids := by
  obtain ⟨b, s₁, hinit, hrun⟩ := BuildM.bind_eq_ok.mp hrun
  obtain ⟨emitted, s₂, hbuild, hret⟩ := BuildM.bind_eq_ok.mp hrun
  obtain ⟨rfl, rfl⟩ := BuildM.pure_eq_ok.mp hret
  obtain ⟨rfl, rfl, hmodel, hgroups, hips⟩ := Azure.init_eq_ok hinit
  obtain ⟨hheads, hemits⟩ := Azure.run_emits hdocs hunique hbuild
  refine ⟨hheads, fun clusterModel hother => ?_⟩
  cases hother.symm.trans hmodel
  rwa [azureQueries, hgroups, hips]

/-- Every builder keeps the versions there are. -/
theorem buildInfrastructure_kept {provider : String} {docs ids : List DocId}
    {manifestDocs : List Val} (hdocs : ∀ id ∈ docs, id < s.next)
    (hunique : ∀ id ∈ docs, (s.doc id).KeysUnique)
    (hrun : buildInfrastructure env provider docs manifestDocs s = .ok (ids, s')) :
    VersionsKept env.builder.version s s' := by
  unfold buildInfrastructure at hrun
  generalize env.builder.lower provider = name at hrun
  revert hrun
  split
  · exact fun hrun => (aws_emits hdocs hunique hrun).1.versionsSame.kept
  · exact fun hrun => (aws_emits hdocs hunique hrun).1.versionsSame.kept
  · exact fun hrun => (azure_emits hdocs hunique hrun).1.versionsSame.kept
  · exact fun hrun => (any_current hdocs hrun).2
  · intro hrun
    obtain ⟨habsurd, -⟩ := lift_eq_ok.mp hrun
    cases habsurd

/-- What the builder's searches find it emits. -/
theorem buildInfrastructure_emits {provider : String} {docs ids : List DocId}
    {manifestDocs : List Val} (hdocs : ∀ id ∈ docs, id < s.next)
    (hunique : ∀ id ∈ docs, (s.doc id).KeysUnique)
    (hrun : buildInfrastructure env provider docs manifestDocs s = .ok (ids, s'))
    {clusterModel : Val} (hmodel : selectSingle (docs.map s.doc) isCluster = .ok clusterModel)
    {q : DocQuery} {id : DocId} (hfind : q.find docs s = some id)
    (hq : q ∈ builderQueries env.builder.toBuilderEnv provider clusterModel (docs.map s.doc)) :
    HeadsKept s s' ∧ EmitsHead s' ids id := by
  have hemits : ∀ {queries : List DocQuery}, HeadsKept s s' ∧ EmitsFound docs queries s' ids →
      q ∈ queries → HeadsKept s s' ∧ EmitsHead s' ids id := by
    rintro queries ⟨hheads, hemits⟩ hq
    exact ⟨hheads, hemits q hq id ((q.find_heads hdocs hheads).trans hfind)⟩
  unfold buildInfrastructure at hrun
  unfold builderQueries at hq
  generalize env.builder.lower provider = name at hrun hq
  revert hrun hq
  split
  · intro hrun
    obtain ⟨hheads, hfound⟩ := aws_emits hdocs hunique hrun
    exact hemits ⟨hheads, hfound clusterModel hmodel⟩
  · intro hrun
    obtain ⟨hheads, hfound⟩ := aws_emits hdocs hunique hrun
    exact hemits ⟨hheads, hfound clusterModel hmodel⟩
  · intro hrun
    obtain ⟨hheads, hfound⟩ := azure_emits hdocs hunique hrun
    exact hemits ⟨hheads, hfound clusterModel hmodel⟩
  · exact fun _ hq => absurd hq List.not_mem_nil
  · intro hrun
    obtain ⟨habsurd, -⟩ := lift_eq_ok.mp hrun
    cases habsurd

/-! ## The infrastructure documents -/

/-- An infrastructure document has another version where the document of the user has one. -/
def Carries (version : String) (s : Store) (ids : List DocId) (own : Val) : Prop :=
  ∃ id ∈ ids, id < s.next ∧ ∃ kind, IsInfrastructure kind ∧ (s.doc id).IsKind kind ∧
    ((s.doc id).NoOtherVersion version → own.NoOtherVersion version)

theorem Carries.mono {version : String} {ids : List DocId} {own : Val}
    (h : Carries version s ids own) (hkept : Store.Evolves (KeepsInfrastructure version) s s') :
    Carries version s' ids own := by
  obtain ⟨id, hid, hlt, kind, hkind, hisKind, hback⟩ := h
  obtain ⟨hisKind', hback'⟩ := hkept.doc id hlt kind hkind hisKind
  exact ⟨id, hid, hlt.trans_le hkept.next_le, kind, hkind, hisKind', hback ∘ hback'⟩

theorem preserves_infrastructure_validator (hword : Objects.yesno? env.builder.version = none)
    (provider : Val) (docs : List DocId) :
    Preserves (Store.Evolves (KeepsInfrastructure env.builder.version))
      (SchemaValidator.run env.validator provider docs) :=
  SchemaValidator.preserves_run env.validator (KeepsInfrastructure.replaceYesno hword) provider docs

/-- What was taken is among the infrastructure documents with the version it has. -/
theorem processInfrastructureDocs_carries {docs : InputDocs} {ids : List DocId}
    {manifestDocs file : List Val} (hword : Objects.yesno? env.builder.version = none)
    (h : Processed env file docs s)
    (hrun : processInfrastructureDocs env docs manifestDocs s = .ok (ids, s')) :
    ∀ own ∈ takenDocs env file, Carries env.builder.version s' ids own := by
  simp only [processInfrastructureDocs, BuildM.bind_eq_ok, lift_eq_ok] at hrun
  obtain ⟨provider, _, hread, name, _, ⟨hname, rfl⟩, infrastructure, s₁, hbuild, _, s₂, hvalidate,
    hret⟩ := hrun
  obtain ⟨hprovider, rfl⟩ := reads_eq_ok.mp hread
  obtain ⟨rfl, rfl⟩ := BuildM.pure_eq_ok.mp hret
  rw [Val.getAttr_eq_ok] at hprovider
  have hprovider : (s.doc docs.clusterModel).attrStr? "provider" = some name :=
    Val.attrStr?_eq_some.mpr ⟨provider, hprovider, Val.asStr_eq_ok.mp hname⟩
  intro own hown
  rw [h.takenDocs_eq, List.mem_filterMap] at hown
  obtain ⟨q, hq, hfile⟩ := hown
  cases hmodel : selectSingle (docs.docs.map s.doc) isCluster with
  | error e => simp [takenQueries, hmodel] at hq
  | ok clusterModel =>
      rw [h.takenQueries_eq hprovider hmodel] at hq
      have hkind := infrastructure_builderQueries q hq
      rcases h.found hkind with ⟨hnone, -⟩ | ⟨other, id, hother, hfind, hfrom⟩
      · cases hnone.symm.trans hfile
      · obtain rfl : other = own := Option.some.inj (hother.symm.trans hfile)
        obtain ⟨hheads, e, he, hlt, hhead⟩ :=
          buildInfrastructure_emits h.allocated h.unique hbuild hmodel hfind hq
        -- the user's document, the same after the build, and the emitted one
        have hisKind : (s.doc id).IsKind q.kind :=
          DocQuery.isKind_of_holds (q.holds_of_find hfind)
        have hkept : KeepsInfrastructure env.builder.version (s.doc id) (s₁.doc e) :=
          .of_head (Trans.trans (hheads.doc id hfrom.lt) hhead)
        obtain ⟨hemitted, hback⟩ := hkept q.kind hkind hisKind
        have hcarries : Carries env.builder.version s₁ infrastructure other :=
          ⟨e, he, hlt, q.kind, hkind, hemitted, hfrom.version.mp ∘ hback⟩
        exact hcarries.mono
          ((preserves_infrastructure_validator hword provider infrastructure).rel hvalidate)

theorem processInfrastructureDocs_stamped {docs : InputDocs} {ids : List DocId}
    {manifestDocs file : List Val} (hword : Objects.yesno? env.builder.version = none)
    (hdefaults : DefaultsCurrent env.builder.schema env.builder.version)
    (h : Processed env file docs s)
    (hrun : processInfrastructureDocs env docs manifestDocs s = .ok (ids, s')) :
    VersionsKept env.builder.version s s' ∧
      ((∀ own ∈ takenDocs env file, own.NoOtherVersion env.builder.version) →
        AllStamped env.builder.version s' ids) := by
  simp only [processInfrastructureDocs, BuildM.bind_eq_ok, lift_eq_ok] at hrun
  obtain ⟨provider, _, hread, name, _, ⟨hname, rfl⟩, infrastructure, s₁, hbuild, _, s₂, hvalidate,
    hret⟩ := hrun
  obtain ⟨hprovider, rfl⟩ := reads_eq_ok.mp hread
  obtain ⟨rfl, rfl⟩ := BuildM.pure_eq_ok.mp hret
  rw [Val.getAttr_eq_ok] at hprovider
  have hprovider : (s.doc docs.clusterModel).attrStr? "provider" = some name :=
    Val.attrStr?_eq_some.mpr ⟨provider, hprovider, Val.asStr_eq_ok.mp hname⟩
  have hkept₂ : VersionsSame env.builder.version s₁ s₂ :=
    (SchemaValidator.preserves_versions_run hword provider infrastructure).rel hvalidate
  have hkept₁ := buildInfrastructure_kept h.allocated h.unique hbuild
  refine ⟨Trans.trans hkept₁ hkept₂.kept, fun htaken => ?_⟩
  refine SchemaValidator.run_stamped hword ?_ hvalidate
  refine buildInfrastructure_current h.allocated hdefaults (fun clusterModel hmodel => ?_) h.unique
    hbuild
  refine h.ready infrastructure_builderQueries ?_
  rwa [h.takenDocs_eq, h.takenQueries_eq hprovider hmodel] at htaken

/-! ## The run -/

theorem processConfigurationDocs_stamped {docs : InputDocs} {ids : List DocId}
    (hword : Objects.yesno? env.builder.version = none) (hdocs : ∀ id ∈ docs.docs, id < s.next)
    (hrun : processConfigurationDocs env docs s = .ok (ids, s')) :
    AllStamped env.builder.version s' ids ∧ VersionsKept env.builder.version s s' ∧
      Store.Evolves (KeepsInfrastructure env.builder.version) s s' := by
  simp only [processConfigurationDocs, BuildM.bind_eq_ok] at hrun
  obtain ⟨configurationDocs, s₁, happend, provider, _, hread, _, s₂, hvalidate, hret⟩ := hrun
  obtain ⟨-, rfl⟩ := reads_eq_ok.mp hread
  obtain ⟨rfl, rfl⟩ := BuildM.pure_eq_ok.mp hret
  obtain ⟨hstamped, hkept₁⟩ := ConfigurationAppender.run_stamped hdocs happend
  have hkept₂ : VersionsSame env.builder.version s₁ s₂ :=
    (SchemaValidator.preserves_versions_run hword provider configurationDocs).rel hvalidate
  have hstays : Store.Evolves (KeepsInfrastructure env.builder.version) s s₁ :=
    (ConfigurationAppender.preserves_stampsOnly_run.rel happend).imp
      fun _ _ => KeepsInfrastructure.of_stampsOnly
  exact ⟨hstamped.mono hkept₂.kept, Trans.trans hkept₁ hkept₂.kept, Trans.trans hstays
    ((preserves_infrastructure_validator hword provider configurationDocs).rel hvalidate)⟩

theorem configure_stamped {docs : InputDocs} {infrastructureDocs ids : List DocId}
    (hword : Objects.yesno? env.builder.version = none)
    (hdocs : ∀ id ∈ docs.docs, id < w.store.next)
    (hrun : (configure env input docs infrastructureDocs).exec w = (.ok ids, w')) :
    AllStamped env.builder.version w'.store ids ∧
      VersionsKept env.builder.version w.store w'.store ∧
      Store.Evolves (KeepsInfrastructure env.builder.version) w.store w'.store := by
  simp only [configure, Action.bind_eq_ok, atStage_eq_ok, Action.pure_eq_ok] at hrun
  obtain ⟨_, _, ⟨s₁, hfamily, rfl⟩, _, _, ⟨s₂, hterraform, rfl⟩, configurationDocs, _,
    ⟨s₃, hconfiguration, rfl⟩, _, _, ⟨s₄, hcollect, rfl⟩, rfl, rfl⟩ := hrun
  obtain ⟨-, rfl⟩ := reads_eq_ok.mp hfamily
  obtain ⟨-, rfl⟩ := reads_eq_ok.mp hterraform
  obtain ⟨hstamped, hkept₁, hstays₁⟩ := processConfigurationDocs_stamped hword hdocs hconfiguration
  have hkept₂ : VersionsSame env.builder.version s₃ s₄ :=
    (preserves_collectInfrastructureConfig (R := SameVersion env.builder.version) env
      (fun _ _ _ h => sameVersion_of_attr (Val.attr?_setAttrPath h (by decide))) _ _).rel hcollect
  have hstays₂ : Store.Evolves (KeepsInfrastructure env.builder.version) s₃ s₄ :=
    (preserves_collectInfrastructureConfig (R := KeepsInfrastructure env.builder.version) env
      (fun _ _ _ h => KeepsInfrastructure.of_attr (Val.attr?_setAttrPath h (by decide))
        (Val.attr?_setAttrPath h (by decide))) _ _).rel hcollect
  exact ⟨hstamped.mono hkept₂.kept, Trans.trans hkept₁ hkept₂.kept, Trans.trans hstays₁ hstays₂⟩

/-- Every document of the manifest an apply ends with is stamped by the version that runs
exactly where the documents of the user that the builder takes have no other version. -/
theorem apply_stamped {applied : Applied}
    (hinput : ∀ file, input.file = some file → ∀ v ∈ file, v.WellFormed)
    (hword : Objects.yesno? env.builder.version = none)
    (hdefaults : DefaultsCurrent env.builder.schema env.builder.version)
    (hrun : (apply env input).exec w = (.ok applied, w')) :
    w'.manifest =
        some ((applied.configurationDocs ++ applied.infrastructureDocs).map w'.store.doc) ∧
      ((∀ id ∈ applied.configurationDocs ++ applied.infrastructureDocs,
        (w'.store.doc id).Stamped env.builder.version) ↔ TakenCurrent env input) := by
  simp only [apply, prepare, Action.bind_eq_ok, atStage_eq_ok, Action.pure_eq_ok] at hrun
  obtain ⟨⟨docs, infrastructureDocs⟩, w₁, ⟨docs', _, ⟨s₁, hprocess, rfl⟩, _, _,
    ⟨s₂, hdownscale, rfl⟩, _, _, ⟨s₃, hpostgres, rfl⟩, manifestDocs, _, hload, infrastructure, _,
    ⟨s₄, hbuild, rfl⟩, heq, rfl⟩, _, w₂, hsave, configurationDocs, w₃, hconfigure, _, w₄, hsave', _,
    _, ⟨s₅, hansible, rfl⟩, rfl, rfl⟩ := hrun
  cases heq
  obtain ⟨-, rfl⟩ := reads_eq_ok.mp hdownscale
  obtain ⟨-, rfl⟩ := reads_eq_ok.mp hpostgres
  obtain ⟨-, rfl⟩ := reads_eq_ok.mp hansible
  rw [loadManifest_exec] at hload
  rw [saveManifest_exec] at hsave hsave'
  cases hload
  cases hsave
  cases hsave'
  refine ⟨rfl, ?_⟩
  obtain ⟨file, hfile⟩ := exists_file hprocess
  have hprocessed := processInputDocs_processed hfile (hinput file hfile) hword hprocess
  have hcarries := processInfrastructureDocs_carries hword hprocessed hbuild
  obtain ⟨hkept, hinfrastructure⟩ :=
    processInfrastructureDocs_stamped hword hdefaults hprocessed hbuild
  obtain ⟨hconfiguration, hkept', hstays⟩ := configure_stamped hword
    (fun id hid => (hprocessed.allocated id hid).trans_le hkept.next_le) hconfigure
  constructor
  · intro hstamped other hother own hown
    cases hfile.symm.trans hother
    obtain ⟨id, hid, -, -, -, -, hback⟩ := (hcarries own hown).mono hstays
    exact hback (hstamped id (List.mem_append_right _ hid)).noOtherVersion
  · intro htaken id hid
    rcases List.mem_append.mp hid with hid | hid
    · exact (hconfiguration id hid).2
    · exact ((hinfrastructure (htaken file hfile) id hid).mono hkept').2

end

/-! ## A VPC of the user -/

namespace ApplySample

/-- A document of the user with a version. -/
def versioned (kind name version : String) : Val :=
  .dict [("kind", .str kind), ("title", .str kind), ("provider", .str "aws"),
    ("name", .str name), ("version", .str version), ("specification", .dict [])]

/-- A cluster with a VPC of the user, and a machine definition no component selects. -/
def vpcInput (version : String) : Input where
  path := "/demo.yml"
  file := some
    [document "lambdastack-cluster" "default" [("name", .str "demo")],
      versioned "infrastructure/vpc" "default" version,
      versioned "infrastructure/virtual-machine" "spare" "0.9.0"]
  skipInfrastructure := false
  skipConfig := false

/-- Some document of the manifest a completed apply leaves. -/
def leaves (input : Input) (query : Val → Bool) : Bool :=
  match (apply env input).exec (world none) with
  | (.ok _, w) => (w.manifest.getD []).any query
  | (.error _, _) => false

theorem exists_of_leaves {input : Input} {query : Val → Bool} (h : leaves input query = true) :
    ∃ applied w, (apply env input).exec (world none) = (.ok applied, w) ∧
      ∃ docs, w.manifest = some docs ∧ ∃ doc ∈ docs, query doc = true := by
  unfold leaves at h
  rcases hrun : (apply env input).exec (world none) with ⟨e | applied, w⟩
  · rw [hrun] at h
    cases h
  · rw [hrun] at h
    cases hmanifest : w.manifest with
    | none => simp [hmanifest] at h
    | some docs =>
        simp only [hmanifest, Option.getD_some, List.any_eq_true] at h
        exact ⟨applied, w, rfl, docs, hmanifest, h⟩

theorem defaultsCurrent : DefaultsCurrent env.builder.schema env.builder.version := by
  intro provider kind docs h doc hdoc v hv
  obtain ⟨specification, -, rfl⟩ := Option.map_eq_some_iff.mp h
  rw [List.mem_singleton.mp hdoc] at hv
  cases hv

theorem wellFormed_vpcInput (version : String) :
    ∀ file, (vpcInput version).file = some file → ∀ v ∈ file, v.WellFormed := by
  intro file hfile
  cases hfile
  simp [document, versioned, dictKeys]

end ApplySample

open ApplySample in
/-- A VPC of the user from an older version reaches the manifest with that version. -/
theorem apply_keeps_old_version :
    ∃ applied w, (apply env (vpcInput "0.9.0")).exec (world none) = (.ok applied, w) ∧
      ∃ docs, w.manifest = some docs ∧
        ∃ doc ∈ docs, doc.IsKind "infrastructure/vpc" ∧ ¬ doc.Stamped env.builder.version := by
  have hleaves : leaves (vpcInput "0.9.0") (fun doc =>
      Holds? (kindIs "infrastructure/vpc" doc) && Holds? (attrIs "version" (.str "0.9.0") doc)) =
        true := by
    decide +kernel
  obtain ⟨applied, w, hrun, docs, hdocs, doc, hdoc, hquery⟩ := exists_of_leaves hleaves
  rw [Bool.and_eq_true, holds?_kindIs, holds?_eq_true] at hquery
  refine ⟨applied, w, hrun, docs, hdocs, doc, hdoc, hquery.1, fun hstamped => ?_⟩
  obtain ⟨own, hown, hsame⟩ := attrIs_eq_ok.mp hquery.2
  obtain ⟨other, hother, htext⟩ := Val.attrStr?_eq_some.mp hstamped
  cases hown.symm.trans hother
  rw [pyEq_str_eq_true.mp hsame] at htext
  exact absurd (Option.some.inj htext) (by decide)

open ApplySample in
/-- The theorem for the same cluster with a VPC from this version. The machine definition is
from an older one, but no component selects it. -/
theorem apply_stamped_vpc :
    ∃ applied w, (apply env (vpcInput "1.0.0")).exec (world none) = (.ok applied, w) ∧
      w.manifest =
        some ((applied.configurationDocs ++ applied.infrastructureDocs).map w.store.doc) ∧
      ∀ id ∈ applied.configurationDocs ++ applied.infrastructureDocs,
        (w.store.doc id).Stamped env.builder.version := by
  have hleaves : leaves (vpcInput "1.0.0") (fun _ => true) = true := by
    decide +kernel
  obtain ⟨applied, w, hrun, -⟩ := exists_of_leaves hleaves
  obtain ⟨hmanifest, hiff⟩ :=
    apply_stamped (wellFormed_vpcInput "1.0.0") (by decide) defaultsCurrent hrun
  refine ⟨applied, w, hrun, hmanifest, hiff.mpr ?_⟩
  intro file hfile own hown
  cases hfile
  have htaken : (takenDocs env ((vpcInput "1.0.0").file.getD [])).all (fun own =>
      Holds? (attrIs "version" (.str env.builder.version) own)) = true := by
    decide +kernel
  obtain ⟨v, hv, hsame⟩ :=
    attrIs_eq_ok.mp (holds?_eq_true.mp (List.all_eq_true.mp htaken own hown))
  have hstamped : own.Stamped env.builder.version :=
    Val.attrStr?_eq_some.mpr ⟨v, hv, pyEq_str_eq_true.mp hsame⟩
  exact hstamped.noOtherVersion

end ApplyEngine

end LambdaStack
