/-
# Documents that stay stamped

After the builders have run, an apply replaces yes and no in the documents, stamps the
configuration documents and writes the storage into them. None of it takes a version
away, and a document the validator accepts has one. A version that another release set
stays where the appender does not stamp the document.
-/

import LambdaStack.Engine.Providers.Versions
import LambdaStack.Engine.Schema.ConfigurationAppender
import LambdaStack.Engine.Schema.ValidatedAlone

namespace LambdaStack

open Lib BuildM

/-- What is stamped stays so, and no other version comes. -/
structure KeepsVersion (version : String) (x y : Val) : Prop where
  stamped : x.Stamped version → y.Stamped version
  noOther : x.NoOtherVersion version → y.NoOtherVersion version

instance (version : String) : Std.Refl (KeepsVersion version) := ⟨fun _ => ⟨id, id⟩⟩

instance (version : String) : IsTrans Val (KeepsVersion version) :=
  ⟨fun _ _ _ h h' => ⟨h'.stamped ∘ h.stamped, h'.noOther ∘ h.noOther⟩⟩

/-- Every document keeps its version. -/
abbrev VersionsKept (version : String) : Store → Store → Prop :=
  Store.Evolves (KeepsVersion version)

/-- Nothing is stamped either. -/
structure SameVersion (version : String) (x y : Val) : Prop extends KeepsVersion version x y where
  reflects : y.NoOtherVersion version → x.NoOtherVersion version

instance (version : String) : Std.Refl (SameVersion version) :=
  ⟨fun x => ⟨Std.Refl.refl x, id⟩⟩

instance (version : String) : IsTrans Val (SameVersion version) :=
  ⟨fun _ _ _ h h' => ⟨Trans.trans h.toKeepsVersion h'.toKeepsVersion, h.reflects ∘ h'.reflects⟩⟩

/-- No document is stamped. -/
abbrev VersionsSame (version : String) : Store → Store → Prop :=
  Store.Evolves (SameVersion version)

theorem VersionsSame.kept {version : String} {s s' : Store} (h : VersionsSame version s s') :
    VersionsKept version s s' where
  next_le := h.next_le
  doc id hid := (h.doc id hid).toKeepsVersion

section

variable {version : String} {x y value : Val} {s s' : Store} {id : DocId}

theorem sameVersion_of_attr (h : y.attr? "version" = x.attr? "version") :
    SameVersion version x y := by
  refine ⟨⟨fun hx => ?_, fun hx v hv => hx v (h ▸ hv)⟩, fun hy v hv => hy v (h.trans hv)⟩
  rwa [Val.Stamped, Val.attrStr?, h]

theorem keepsVersion_setItem (h : x.setItem "version" (.str version) = .ok y) :
    KeepsVersion version x y :=
  ⟨fun _ => Val.stamped_setItem h, fun _ => (Val.stamped_setItem h).noOtherVersion⟩

theorem Val.attr?_setAttrPath {first key other : String} {rest : List String}
    (h : setAttrPath x (first :: rest) key value = .ok y) (hne : other ≠ first) :
    y.attr? other = x.attr? other := by
  simp only [setAttrPath, Lib.bind_eq_ok] at h
  obtain ⟨child, -, child', -, h⟩ := h
  rw [Val.attr?_setAttr h, if_neg hne]

/-- The version is neither yes nor no. -/
theorem str?_entryYesno_iff (hword : Objects.yesno? version = none) :
    (Val.entryYesno value).str? = some version ↔ value.str? = some version := by
  refine ⟨Val.str?_of_entryYesno, fun hvalue => ?_⟩
  obtain ⟨type, rfl⟩ := Val.str?_eq_some.mp hvalue
  simp only [Objects.yesno?] at hword
  rw [Val.entryYesno_str]
  split at hword
  · cases hword
  · next hyes =>
      rw [if_neg hyes]
      split at hword
      · cases hword
      · next hno => rw [if_neg hno, Val.str?_str]

theorem sameVersion_replaceYesno (hword : Objects.yesno? version = none) (x : Val) :
    SameVersion version x (replaceYesno x) := by
  refine ⟨⟨fun hx => ?_, fun hx v hv => ?_⟩, fun hy v hv => ?_⟩
  · obtain ⟨v, hv, htext⟩ := Val.attrStr?_eq_some.mp hx
    refine Val.attrStr?_eq_some.mpr ⟨v.entryYesno, ?_, (str?_entryYesno_iff hword).mpr htext⟩
    rw [Val.attr?_replaceYesno, hv, Option.map_some]
  · rw [Val.attr?_replaceYesno, Option.map_eq_some_iff] at hv
    obtain ⟨own, hown, rfl⟩ := hv
    exact (str?_entryYesno_iff hword).mpr (hx own hown)
  · refine (str?_entryYesno_iff hword).mp (hy v.entryYesno ?_)
    rw [Val.attr?_replaceYesno, hv, Option.map_some]

theorem HeadsKept.versionsSame (h : HeadsKept s s') : VersionsSame version s s' where
  next_le := h.next_le
  doc id hid := sameVersion_of_attr (h.doc id hid "version" (by decide))

theorem IsCurrent.versions (hid : IsCurrent version s id) (h : VersionsKept version s s') :
    IsCurrent version s' id :=
  ⟨hid.1.trans_le h.next_le, (h.doc id hid.1).noOther hid.2⟩

/-- The document is there and stamped. -/
def IsStamped (version : String) (s : Store) (id : DocId) : Prop :=
  id < s.next ∧ (s.doc id).Stamped version

theorem IsStamped.mono (hid : IsStamped version s id) (h : VersionsKept version s s') :
    IsStamped version s' id :=
  ⟨hid.1.trans_le h.next_le, (h.doc id hid.1).stamped hid.2⟩

/-- All of the documents are. -/
def AllStamped (version : String) (s : Store) (ids : List DocId) : Prop :=
  ∀ id ∈ ids, IsStamped version s id

theorem AllStamped.mono {ids : List DocId} (hids : AllStamped version s ids)
    (h : VersionsKept version s s') : AllStamped version s' ids :=
  fun id hid => (hids id hid).mono h

/-- Stamping a document, alone and at the end of a list. -/
theorem setVersion_stamped {u : Unit} (hlt : id < s.next)
    (hrun : setDocItem id "version" (.str version) s = .ok (u, s')) :
    IsStamped version s' id ∧ VersionsKept version s s' := by
  obtain ⟨doc, hset, rfl⟩ := setDocItem_eq_ok.mp hrun
  refine ⟨⟨hlt, ?_⟩, Store.evolves_write (keepsVersion_setItem hset)⟩
  rw [s.write_doc_self]
  exact Val.stamped_setItem hset

end

/-! ## Validated documents -/

namespace SchemaValidator

variable {env : ValidatorEnv} {version : String} {v : SchemaValidator} {s s' : Store}
  {docs : List DocId} {base schema document : Val} {kind : String}

/-- The schema requires a version. -/
def RequiresVersion (schema : Val) : Prop := .str "version" ∈ requiredOf schema

theorem RequiresVersion.congr (hbase : RequiresVersion base)
    (h : schema.attr? "required" = base.attr? "required") : RequiresVersion schema := by
  unfold RequiresVersion requiredOf at *
  rwa [h]

/-- What an iteration writes into a base schema is not about the required keys. -/
theorem RequiresVersion.prepare {specification : Val} (hbase : RequiresVersion base)
    (h : prepare base kind specification = .ok schema) : RequiresVersion schema := by
  obtain ⟨entries, properties, kindEntries, rfl, -, -, rfl⟩ := prepare_eq_ok.mp h
  apply hbase.congr
  exact lookup_dictSet_ne (by decide) _ _

theorem requiresVersion_withoutProvider (h : withoutProvider base = .ok schema)
    (hbase : requiredOf base = baseRequired.map Val.str) : RequiresVersion schema := by
  simp only [withoutProvider, Lib.bind_eq_ok, Val.getAttr_eq_ok, deleteFirst,
    Val.asList_eq_ok] at h
  obtain ⟨required, hrequired, rest, ⟨items, rfl, hrest⟩, schema₁, hset, properties, -,
    properties', -, hset'⟩ := h
  have hitems : items = baseRequired.map Val.str := by
    simpa only [requiredOf, hrequired] using hbase
  subst hitems
  cases hrest
  rw [RequiresVersion, requiredOf, Val.attr?_setAttr hset', if_neg (by decide),
    Val.attr?_setAttr hset, if_pos rfl]
  simp [Val.str]

/-- Both base schemas require a version. -/
def VersionRequired (v : SchemaValidator) : Prop := ∀ kind, RequiresVersion (v.schemaOf kind)

theorem init_versionRequired {provider : String} (h : init env provider = .ok v) :
    VersionRequired v := by
  simp only [init, Lib.bind_eq_ok] at h
  obtain ⟨base, hbase, definitions, -, baseSchema, hset, noProvider, hwithout, hv⟩ := h
  cases hv
  have hrequired : requiredOf baseSchema = baseRequired.map Val.str := by
    rw [← env.base_required hbase]
    unfold requiredOf
    rw [Val.attr?_setItem hset, if_neg (by decide)]
  intro kind
  rw [schemaOf]
  split
  · rw [RequiresVersion, hrequired]
    simp [baseRequired]
  · exact requiresVersion_withoutProvider hwithout hrequired

theorem VersionRequired.withSchema (h : VersionRequired v) (hschema : RequiresVersion schema)
    (kind : String) : VersionRequired (v.withSchema kind schema) := by
  intro kind'
  by_cases heq : hasProvider kind' = hasProvider kind
  · rw [schemaOf_withSchema_of_eq heq]
    exact hschema
  · rw [schemaOf_withSchema_of_ne heq]
    exact h kind'

/-- A document that passes has a version. -/
theorem VersionRequired.verdict (h : VersionRequired v)
    (hverdict : verdict env v document = .ok (kind, schema)) :
    RequiresVersion schema ∧ ∃ value, (replaceYesno document).attr? "version" = some value := by
  obtain ⟨hkind, ⟨specification, -, hprepare⟩, -, haccepts⟩ := verdict_eq_ok.mp hverdict
  have hschema := (h kind).prepare hprepare
  refine ⟨hschema, ?_⟩
  cases document with
  | scalar | list => cases hkind
  | dict entries =>
      rw [replaceYesno] at haccepts ⊢
      have hmem := env.accepts_required haccepts hschema
      rw [Val.attr?, ← Option.ne_none_iff_exists', ne_eq, lookup_eq_none_iff_not_mem_dictKeys,
        not_not]
      exact hmem

/-- The loop stamps nothing, but it ends only if each document has a version. -/
theorem validateAll_stamped {u : Unit} (hword : Objects.yesno? version = none)
    (hrequired : VersionRequired v) (hdocs : AllCurrent version s docs)
    (hrun : validateAll env v docs s = .ok (u, s')) : AllStamped version s' docs := by
  induction docs generalizing v s with
  | nil => exact fun id hid => absurd hid List.not_mem_nil
  | cons id rest ih =>
      obtain ⟨v₁, s₁, hfirst, hrest⟩ := BuildM.bind_eq_ok.mp hrun
      obtain ⟨kind, schema, hverdict, rfl, rfl⟩ := validate_eq_ok.mp hfirst
      obtain ⟨hschema, value, hvalue⟩ := hrequired.verdict hverdict
      have hreplaced := (sameVersion_replaceYesno hword (s.doc id)).toKeepsVersion
      have hkept : VersionsKept version s (s.write id (replaceYesno (s.doc id))) :=
        Store.evolves_write hreplaced
      obtain ⟨hid, hothers⟩ := List.forall_mem_cons.mp hdocs
      have hstamped : IsStamped version (s.write id (replaceYesno (s.doc id))) id := by
        refine ⟨hid.1, ?_⟩
        rw [s.write_doc_self, Val.Stamped, Val.attrStr?, hvalue]
        exact hreplaced.noOther hid.2 value hvalue
      have hrequired₁ := hrequired.withSchema hschema kind
      have hkeptRest : VersionsSame version (s.write id (replaceYesno (s.doc id))) s' :=
        (preserves_validateAll env (sameVersion_replaceYesno hword) _ rest).rel hrest
      refine List.forall_mem_cons.mpr ⟨hstamped.mono hkeptRest.kept, ?_⟩
      exact ih hrequired₁ (fun other hother => (hothers other hother).versions hkept) hrest

theorem run_stamped {provider : Val} {u : Unit} (hword : Objects.yesno? version = none)
    (hdocs : AllCurrent version s docs) (hrun : run env provider docs s = .ok (u, s')) :
    AllStamped version s' docs := by
  simp only [run, BuildM.bind_eq_ok, lift_eq_ok] at hrun
  obtain ⟨_, _, ⟨-, rfl⟩, v, _, ⟨hinit, rfl⟩, hrun⟩ := hrun
  exact validateAll_stamped hword (init_versionRequired hinit) hdocs hrun

/-- A validated document has its words for yes and no replaced. -/
theorem run_single {provider : Val} {id : DocId} {u : Unit}
    (hrun : run env provider [id] s = .ok (u, s')) : s' = s.write id (replaceYesno (s.doc id)) := by
  simp only [run, BuildM.bind_eq_ok, lift_eq_ok] at hrun
  obtain ⟨_, _, ⟨-, rfl⟩, v, _, ⟨-, rfl⟩, hrun⟩ := hrun
  obtain ⟨v₁, s₁, hfirst, hret⟩ := BuildM.bind_eq_ok.mp hrun
  obtain ⟨-, rfl⟩ := BuildM.pure_eq_ok.mp hret
  obtain ⟨kind, schema, -, -, rfl⟩ := validate_eq_ok.mp hfirst
  rfl

theorem preserves_versions_run (hword : Objects.yesno? version = none) (provider : Val)
    (docs : List DocId) : Preserves (VersionsSame version) (run env provider docs) :=
  preserves_run env (sameVersion_replaceYesno hword) provider docs

end SchemaValidator

/-! ## Configuration documents -/

namespace ConfigurationAppender

variable {schema : SchemaDir} {version : String} {s s' : Store}
  {inputDocs configurationDocs : List DocId}

/-- A part of the appender: from stamped documents it makes stamped documents. -/
def LeavesStamped (version : String) (inputDocs configurationDocs : List DocId)
    (x : BuildM (List DocId)) : Prop :=
  ∀ s s' docs, (∀ id ∈ inputDocs, id < s.next) → AllStamped version s configurationDocs →
    x s = .ok (docs, s') → AllStamped version s' docs ∧ VersionsKept version s s'

theorem leavesStamped_pure : LeavesStamped version inputDocs configurationDocs
    (pure configurationDocs) := by
  intro s s' docs _ hdocs hrun
  obtain ⟨rfl, rfl⟩ := BuildM.pure_eq_ok.mp hrun
  exact ⟨hdocs, Std.Refl.refl _⟩

theorem LeavesStamped.bind {x : BuildM (List DocId)} {f : List DocId → BuildM (List DocId)}
    (hx : LeavesStamped version inputDocs configurationDocs x)
    (hf : ∀ docs, LeavesStamped version inputDocs docs (f docs)) :
    LeavesStamped version inputDocs configurationDocs (x >>= f) := by
  intro s s' docs hinput hdocs hrun
  obtain ⟨docs₁, s₁, hfirst, hrest⟩ := BuildM.bind_eq_ok.mp hrun
  obtain ⟨hdocs₁, hkept₁⟩ := hx s s₁ docs₁ hinput hdocs hfirst
  obtain ⟨hdocs₂, hkept₂⟩ := hf docs₁ s₁ s' docs
    (fun id hid => (hinput id hid).trans_le hkept₁.next_le) hdocs₁ hrest
  exact ⟨hdocs₂, Trans.trans hkept₁ hkept₂⟩

/-- A part that only reads comes first. -/
theorem LeavesStamped.after {α : Type} {x : BuildM α} {f : α → BuildM (List DocId)}
    (hx : Preserves (· = ·) x)
    (hf : ∀ a, LeavesStamped version inputDocs configurationDocs (f a)) :
    LeavesStamped version inputDocs configurationDocs (x >>= f) := by
  intro s s' docs hinput hdocs hrun
  obtain ⟨a, s₁, hfirst, hrest⟩ := BuildM.bind_eq_ok.mp hrun
  obtain rfl : s = s₁ := hx.rel hfirst
  exact hf a s s' docs hinput hdocs hrest

theorem appendConfig_stamped {doc : DocId} {docs : List DocId}
    (hdocs : AllStamped version s configurationDocs) (hlt : doc < s.next)
    (hrun : appendConfig version configurationDocs doc s = .ok (docs, s')) :
    AllStamped version s' docs ∧ VersionsKept version s s' := by
  obtain ⟨_, s₁, hset, hret⟩ := BuildM.bind_eq_ok.mp hrun
  obtain ⟨rfl, rfl⟩ := BuildM.pure_eq_ok.mp hret
  obtain ⟨hstamped, hkept⟩ := setVersion_stamped hlt hset
  refine ⟨fun id hid => ?_, hkept⟩
  rcases List.mem_append.mp hid with hid | hid
  · exact (hdocs id hid).mono hkept
  · rw [List.mem_singleton.mp hid]
    exact hstamped

/-- A document of the user is appended. -/
theorem leavesStamped_own {doc : DocId} (hdoc : doc ∈ inputDocs) :
    LeavesStamped version inputDocs configurationDocs
      (appendConfig version configurationDocs doc) :=
  fun _ _ _ hinput hdocs hrun => appendConfig_stamped hdocs (hinput doc hdoc) hrun

/-- A new document is appended. -/
theorem leavesStamped_new (v : Val) : LeavesStamped version inputDocs configurationDocs
    (newDoc v >>= appendConfig version configurationDocs) := by
  intro s s' docs _ hdocs hrun
  obtain ⟨id, s₁, hnew, hrest⟩ := BuildM.bind_eq_ok.mp hrun
  obtain ⟨rfl, rfl⟩ := newDoc_eq_ok.mp hnew
  have halloc : VersionsKept version s (s.alloc v) := Store.evolves_alloc s v
  obtain ⟨hdocs', hkept⟩ := appendConfig_stamped (hdocs.mono halloc) (Nat.lt_succ_self _) hrest
  exact ⟨hdocs', Trans.trans halloc hkept⟩

/-- What follows a search in the input documents. -/
theorem LeavesStamped.search {query : Val → Res Bool}
    {f : Option DocId → BuildM (List DocId)}
    (hown : ∀ doc ∈ inputDocs, LeavesStamped version inputDocs configurationDocs (f (some doc)))
    (hnone : LeavesStamped version inputDocs configurationDocs (f none)) :
    LeavesStamped version inputDocs configurationDocs
      ((reads fun doc => selectFirst inputDocs (query ∘ doc)) >>= f) := by
  intro s s' docs hinput hdocs hrun
  obtain ⟨found, s₁, hread, hrest⟩ := BuildM.bind_eq_ok.mp hrun
  obtain ⟨hfound, rfl⟩ := reads_eq_ok.mp hread
  cases found with
  | none => exact hnone s s' docs hinput hdocs hrest
  | some doc =>
      have hmem := List.mem_of_find?_eq_some (selectFirst_eq_ok hfound).symm
      exact hown doc hmem s s' docs hinput hdocs hrest

theorem leavesStamped_appendRequired (kind : String) :
    LeavesStamped version inputDocs configurationDocs
      (appendRequired schema version inputDocs configurationDocs kind) := by
  apply LeavesStamped.search
  · intro doc hdoc
    exact leavesStamped_own hdoc
  · apply LeavesStamped.after (preserves_lift _)
    intro loaded
    apply LeavesStamped.after (preserves_lift _)
    intro _
    exact leavesStamped_new loaded

theorem leavesStamped_appendAllRequired (kinds : List String) :
    LeavesStamped version inputDocs configurationDocs
      (appendAllRequired schema version inputDocs configurationDocs kinds) := by
  induction kinds generalizing configurationDocs with
  | nil => exact leavesStamped_pure
  | cons kind rest ih =>
      apply (leavesStamped_appendRequired kind).bind
      intro docs
      exact ih

theorem leavesStamped_appendFeature (configSelector featureKey : Val) :
    LeavesStamped version inputDocs configurationDocs
      (appendFeature schema version inputDocs configSelector configurationDocs featureKey) := by
  apply LeavesStamped.after (preserves_lift _)
  intro featureKey
  apply LeavesStamped.search
  · intro doc hdoc
    exact leavesStamped_own hdoc
  · apply LeavesStamped.after (preserves_reads _)
    intro known
    cases known with
    | some _ => exact leavesStamped_pure
    | none =>
        apply LeavesStamped.after (preserves_reads _)
        intro merged
        apply LeavesStamped.after (preserves_lift _)
        intro _
        exact leavesStamped_new merged

theorem leavesStamped_appendFeatures (configSelector : Val) (features : List Val) :
    LeavesStamped version inputDocs configurationDocs
      (appendFeatures schema version inputDocs configSelector configurationDocs features) := by
  induction features generalizing configurationDocs with
  | nil => exact leavesStamped_pure
  | cons featureKey rest ih =>
      apply (leavesStamped_appendFeature configSelector featureKey).bind
      intro docs
      exact ih

theorem leavesStamped_appendComponent (component : String × Val) :
    LeavesStamped version inputDocs configurationDocs
      (appendComponent schema version inputDocs configurationDocs component) := by
  apply LeavesStamped.after (preserves_lift _)
  intro count
  apply LeavesStamped.after (preserves_lift _)
  intro inactive
  cases inactive with
  | true => exact leavesStamped_pure
  | false =>
      apply LeavesStamped.after (preserves_lift _)
      intro configSelector
      apply LeavesStamped.after (preserves_reads _)
      intro features
      exact leavesStamped_appendFeatures configSelector features

theorem leavesStamped_appendComponents (components : Entries) :
    LeavesStamped version inputDocs configurationDocs
      (appendComponents schema version inputDocs configurationDocs components) := by
  induction components generalizing configurationDocs with
  | nil => exact leavesStamped_pure
  | cons component rest ih =>
      apply (leavesStamped_appendComponent component).bind
      intro docs
      exact ih

/-- All configuration documents are stamped. -/
theorem run_stamped {docs : List DocId} (hinput : ∀ id ∈ inputDocs, id < s.next)
    (hrun : run schema version inputDocs s = .ok (docs, s')) :
    AllStamped version s' docs ∧ VersionsKept version s s' := by
  have hleaves : LeavesStamped version inputDocs [] (run schema version inputDocs) := by
    apply LeavesStamped.after (preserves_reads _)
    intro clusterModel
    apply (leavesStamped_appendAllRequired requiredDocs).bind
    intro docs
    apply LeavesStamped.after (preserves_reads _)
    intro components
    apply LeavesStamped.after (preserves_lift _)
    intro components
    exact leavesStamped_appendComponents components
  exact hleaves s s' docs hinput (fun id hid => absurd hid List.not_mem_nil) hrun

/-! ## What is not stamped -/

/-- The kinds of the documents the appender stamps. -/
def Configures (kind : String) : Prop :=
  kind ∈ requiredDocs ∨ ∃ featureKey, kind = "configuration/" ++ featureKey

/-- The document stays as it is, or it has a kind the appender stamps. -/
structure StampsOnly (x y : Val) : Prop where
  kind : y.attr? "kind" = x.attr? "kind"
  same : y = x ∨ ∃ kind, x.IsKind kind ∧ Configures kind

instance : Std.Refl StampsOnly := ⟨fun _ => ⟨rfl, .inl rfl⟩⟩

instance : IsTrans Val StampsOnly := by
  refine ⟨fun x y z h h' => ⟨h'.kind.trans h.kind, ?_⟩⟩
  rcases h.same with rfl | hstamped
  · exact h'.same
  · exact .inr hstamped

theorem StampsOnly.eq {x y : Val} {kind : String} (h : StampsOnly x y) (hkind : x.IsKind kind)
    (hnot : ¬ Configures kind) : y = x := by
  rcases h.same with heq | ⟨other, hother, hconfigures⟩
  · exact heq
  · rw [hkind.unique hother] at hnot
    exact absurd hconfigures hnot

theorem appendConfig_stampsOnly {doc : DocId} {docs : List DocId} {kind : String}
    (hkind : (s.doc doc).IsKind kind) (hconfigures : Configures kind)
    (hrun : appendConfig version configurationDocs doc s = .ok (docs, s')) :
    Store.Evolves StampsOnly s s' := by
  obtain ⟨_, s₁, hset, hret⟩ := BuildM.bind_eq_ok.mp hrun
  obtain ⟨-, rfl⟩ := BuildM.pure_eq_ok.mp hret
  obtain ⟨stamped, hstamped, rfl⟩ := setDocItem_eq_ok.mp hset
  refine Store.evolves_write ⟨?_, .inr ⟨kind, hkind, hconfigures⟩⟩
  rw [Val.attr?_setItem hstamped, if_neg (by decide)]

/-- A new document is stamped. -/
theorem appendConfig_new {v : Val} {docs : List DocId}
    (hrun : (newDoc v >>= appendConfig version configurationDocs) s = .ok (docs, s')) :
    Store.Evolves StampsOnly s s' := by
  obtain ⟨id, s₁, hnew, hrest⟩ := BuildM.bind_eq_ok.mp hrun
  obtain ⟨rfl, rfl⟩ := newDoc_eq_ok.mp hnew
  obtain ⟨_, s₂, hset, hret⟩ := BuildM.bind_eq_ok.mp hrest
  obtain ⟨-, rfl⟩ := BuildM.pure_eq_ok.mp hret
  obtain ⟨stamped, -, rfl⟩ := setDocItem_eq_ok.mp hset
  refine ⟨Nat.le_succ _, fun other hother => ?_⟩
  rw [Store.write_doc_ne _ (Nat.ne_of_lt hother), s.alloc_doc_of_lt hother]
  exact Std.Refl.refl _

theorem preserves_stampsOnly_appendRequired {kind : String} (hkind : kind ∈ requiredDocs) :
    Preserves (Store.Evolves StampsOnly)
      (appendRequired schema version inputDocs configurationDocs kind) := by
  refine ⟨fun {s docs s'} hrun => ?_⟩
  rw [appendRequired, BuildM.bind_eq_ok] at hrun
  obtain ⟨found, _, hread, hrun⟩ := hrun
  obtain ⟨hfound, rfl⟩ := reads_eq_ok.mp hread
  cases found with
  | some doc =>
      have hholds := List.find?_some (selectFirst_eq_ok hfound).symm
      exact appendConfig_stampsOnly (holds?_kindIs.mp hholds) (.inl hkind) hrun
  | none =>
      simp only [BuildM.bind_eq_ok, lift_eq_ok] at hrun
      obtain ⟨loaded, _, ⟨-, rfl⟩, _, _, ⟨-, rfl⟩, hrun⟩ := hrun
      exact appendConfig_new (BuildM.bind_eq_ok.mpr hrun)

theorem preserves_stampsOnly_appendFeature (configSelector featureKey : Val) :
    Preserves (Store.Evolves StampsOnly)
      (appendFeature schema version inputDocs configSelector configurationDocs featureKey) := by
  refine ⟨fun {s docs s'} hrun => ?_⟩
  simp only [appendFeature, BuildM.bind_eq_ok, lift_eq_ok, reads_eq_ok] at hrun
  obtain ⟨key, _, ⟨-, rfl⟩, own, _, ⟨hown, rfl⟩, hrun⟩ := hrun
  cases own with
  | some doc =>
      have hholds := List.find?_some (selectFirst_eq_ok hown).symm
      have hkind := (kindAndNameAre_eq_ok_true.mp (holds?_eq_true.mp hholds)).1
      exact appendConfig_stampsOnly hkind (.inr ⟨key, rfl⟩) hrun
  | none =>
      simp only [BuildM.bind_eq_ok, reads_eq_ok] at hrun
      obtain ⟨known, _, ⟨-, rfl⟩, hrun⟩ := hrun
      cases known with
      | some _ =>
          obtain ⟨-, rfl⟩ := BuildM.pure_eq_ok.mp hrun
          exact Std.Refl.refl _
      | none =>
          simp only [BuildM.bind_eq_ok, reads_eq_ok, lift_eq_ok] at hrun
          obtain ⟨merged, _, ⟨-, rfl⟩, _, _, ⟨-, rfl⟩, hrun⟩ := hrun
          exact appendConfig_new (BuildM.bind_eq_ok.mpr hrun)

theorem preserves_stampsOnly_appendAllRequired {kinds : List String}
    (hkinds : kinds ⊆ requiredDocs) : Preserves (Store.Evolves StampsOnly)
      (appendAllRequired schema version inputDocs configurationDocs kinds) := by
  induction kinds generalizing configurationDocs with
  | nil => exact preserves_pure _
  | cons kind rest ih =>
      rw [List.cons_subset] at hkinds
      apply (preserves_stampsOnly_appendRequired hkinds.1).bind
      intro docs
      exact ih hkinds.2

theorem preserves_stampsOnly_appendFeatures (configSelector : Val) (features : List Val) :
    Preserves (Store.Evolves StampsOnly)
      (appendFeatures schema version inputDocs configSelector configurationDocs features) := by
  induction features generalizing configurationDocs with
  | nil => exact preserves_pure _
  | cons featureKey rest ih =>
      apply (preserves_stampsOnly_appendFeature configSelector featureKey).bind
      intro docs
      exact ih

theorem preserves_stampsOnly_appendComponents (components : Entries) :
    Preserves (Store.Evolves StampsOnly)
      (appendComponents schema version inputDocs configurationDocs components) := by
  induction components generalizing configurationDocs with
  | nil => exact preserves_pure _
  | cons component rest ih =>
      have hfirst : Preserves (Store.Evolves StampsOnly)
          (appendComponent schema version inputDocs configurationDocs component) := by
        apply (preserves_lift _).bind
        intro count
        apply (preserves_lift _).bind
        intro inactive
        apply Preserves.ite
        · exact preserves_pure _
        · apply (preserves_lift _).bind
          intro configSelector
          apply (preserves_reads _).bind
          intro features
          exact preserves_stampsOnly_appendFeatures configSelector features
      apply hfirst.bind
      intro docs
      exact ih

/-- Of the documents there are, a run changes those it stamps. -/
theorem preserves_stampsOnly_run :
    Preserves (Store.Evolves StampsOnly) (run schema version inputDocs) := by
  apply (preserves_reads _).bind
  intro clusterModel
  apply (preserves_stampsOnly_appendAllRequired (List.Subset.refl _)).bind
  intro docs
  apply (preserves_reads _).bind
  intro components
  apply (preserves_lift _).bind
  intro components
  exact preserves_stampsOnly_appendComponents components

end ConfigurationAppender

/-! ## Infrastructure documents -/

/-- The kind of an infrastructure document. -/
def IsInfrastructure (kind : String) : Prop := "infrastructure/".toList <+: kind.toList

instance (kind : String) : Decidable (IsInfrastructure kind) :=
  inferInstanceAs (Decidable (_ <+: _))

namespace IsInfrastructure

variable {kind : String}

theorem not_configures (h : IsInfrastructure kind) : ¬ ConfigurationAppender.Configures kind := by
  rintro (hrequired | ⟨featureKey, rfl⟩)
  · have hnone : ∀ kind ∈ ConfigurationAppender.requiredDocs, ¬ IsInfrastructure kind := by decide
    exact hnone kind hrequired h
  · rw [IsInfrastructure, String.toList_append] at h
    simp at h

theorem ne_cluster (h : IsInfrastructure kind) : kind ≠ "lambdastack-cluster" := by
  rintro rfl
  exact absurd h (by decide)

theorem notMem_yesno (h : IsInfrastructure kind) : kind ∉ yesValues ++ noValues := by
  have hnone : ∀ word ∈ yesValues ++ noValues, ¬ IsInfrastructure word := by decide
  exact fun hmem => hnone kind hmem h

end IsInfrastructure

/-- An infrastructure document stays one, and it is not stamped. -/
def KeepsInfrastructure (version : String) (x y : Val) : Prop :=
  ∀ kind, IsInfrastructure kind → x.IsKind kind →
    y.IsKind kind ∧ (y.NoOtherVersion version → x.NoOtherVersion version)

instance (version : String) : Std.Refl (KeepsInfrastructure version) :=
  ⟨fun _ _ _ h => ⟨h, id⟩⟩

instance (version : String) : IsTrans Val (KeepsInfrastructure version) := by
  refine ⟨fun x y z h h' kind hkind hx => ?_⟩
  obtain ⟨hy, hback⟩ := h kind hkind hx
  obtain ⟨hz, hback'⟩ := h' kind hkind hy
  exact ⟨hz, hback ∘ hback'⟩

namespace KeepsInfrastructure

variable {version : String} {x y : Val}

theorem of_attr (hkind : y.attr? "kind" = x.attr? "kind")
    (hversion : y.attr? "version" = x.attr? "version") : KeepsInfrastructure version x y := by
  intro kind _ hx
  refine ⟨?_, (sameVersion_of_attr hversion).reflects⟩
  rwa [Val.IsKind, hkind]

theorem of_head (h : KeepsHead x y) : KeepsInfrastructure version x y :=
  of_attr (h "kind" (by decide)) (h "version" (by decide))

theorem replaceYesno (hword : Objects.yesno? version = none) (x : Val) :
    KeepsInfrastructure version x (LambdaStack.replaceYesno x) := fun _ hkind hx =>
  ⟨(Val.isKind_replaceYesno hkind.notMem_yesno).mpr hx, (sameVersion_replaceYesno hword x).reflects⟩

/-- The appender stamps no infrastructure document. -/
theorem of_stampsOnly (h : ConfigurationAppender.StampsOnly x y) :
    KeepsInfrastructure version x y := by
  intro kind hkind hx
  rw [h.eq hx hkind.not_configures]
  exact ⟨hx, id⟩

end KeepsInfrastructure

end LambdaStack
