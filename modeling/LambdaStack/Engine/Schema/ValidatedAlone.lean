/-
# Validating one document does not depend on the others

The loop of the validator writes to two base schemas it uses again for the next
document. Each iteration overwrites all that the ones before it have written, so
that it compares its document with the schema a new validator would.
-/

import LambdaStack.Engine.Schema.SchemaValidator
import LambdaStack.Helpers.YesnoBooleans

namespace LambdaStack

open Lib BuildM

namespace SchemaValidator

/-- The schema an iteration compares a document of the kind with. -/
def prepare (base : Val) (kind : String) (specification : Val) : Res Val := do
  let schema ← setKind base kind
  setAttrPath schema ["properties"] "specification" specification

/-- The entry for the kind, with the two values of an iteration. -/
def kindEntry (kind : String) (entries : Entries) : Entries :=
  dictSet "pattern" (.str ("^(" ++ kind ++ ")$")) (dictSet "default" (.str kind) entries)

/-- The properties of a schema as an iteration writes them. -/
def propertiesFor (kind : String) (specification : Val) (kindEntries properties : Entries) :
    Entries :=
  dictSet "specification" specification
    (dictSet "kind" (.dict (kindEntry kind kindEntries)) properties)

theorem setAttrPath_one {x y value : Val} {first key : String} :
    setAttrPath x [first] key value = .ok y ↔
      ∃ entries inner, x = .dict entries ∧ entries.lookup first = some (.dict inner) ∧
        y = .dict (dictSet first (.dict (dictSet key value inner)) entries) := by
  simp only [setAttrPath, Lib.bind_eq_ok, Val.getAttr_eq_ok, Val.setAttr_eq_ok]
  constructor
  · rintro ⟨_, hfirst, _, ⟨inner, rfl, rfl⟩, entries, rfl, rfl⟩
    exact ⟨entries, inner, rfl, hfirst, rfl⟩
  · rintro ⟨entries, inner, rfl, hfirst, rfl⟩
    exact ⟨_, hfirst, _, ⟨inner, rfl, rfl⟩, entries, rfl, rfl⟩

theorem setAttrPath_two {x y value : Val} {first second key : String} :
    setAttrPath x [first, second] key value = .ok y ↔
      ∃ entries inner innermost, x = .dict entries ∧ entries.lookup first = some (.dict inner) ∧
        inner.lookup second = some (.dict innermost) ∧
        y = .dict (dictSet first
          (.dict (dictSet second (.dict (dictSet key value innermost)) inner)) entries) := by
  rw [setAttrPath]
  simp only [Lib.bind_eq_ok, setAttrPath_one, Val.getAttr_eq_ok, Val.setAttr_eq_ok]
  constructor
  · rintro ⟨_, hfirst, _, ⟨inner, innermost, rfl, hsecond, rfl⟩, entries, rfl, rfl⟩
    exact ⟨entries, inner, innermost, rfl, hfirst, hsecond, rfl⟩
  · rintro ⟨entries, inner, innermost, rfl, hfirst, hsecond, rfl⟩
    exact ⟨_, hfirst, _, ⟨inner, innermost, rfl, hsecond, rfl⟩, entries, rfl, rfl⟩

/-- What an iteration writes to a base schema. -/
theorem prepare_eq_ok {base schema specification : Val} {kind : String} :
    prepare base kind specification = .ok schema ↔
      ∃ entries properties kindEntries, base = .dict entries ∧
        entries.lookup "properties" = some (.dict properties) ∧
        properties.lookup "kind" = some (.dict kindEntries) ∧
        schema = .dict (dictSet "properties"
          (.dict (propertiesFor kind specification kindEntries properties)) entries) := by
  simp only [prepare, setKind, Lib.bind_eq_ok, setAttrPath_one, setAttrPath_two]
  constructor
  · rintro ⟨_, ⟨_, ⟨entries, properties, kindEntries, rfl, hproperties, hkind, rfl⟩,
      entries₁, properties₁, kindEntries₁, heq₁, hproperties₁, hkind₁, rfl⟩,
      entries₂, properties₂, heq₂, hproperties₂, rfl⟩
    cases heq₁
    rw [lookup_dictSet_self] at hproperties₁
    cases hproperties₁
    rw [lookup_dictSet_self] at hkind₁
    cases hkind₁
    cases heq₂
    rw [lookup_dictSet_self] at hproperties₂
    cases hproperties₂
    refine ⟨entries, properties, kindEntries, rfl, hproperties, hkind, ?_⟩
    simp only [propertiesFor, kindEntry, dictSet_dictSet]
  · rintro ⟨entries, properties, kindEntries, rfl, hproperties, hkind, rfl⟩
    refine ⟨_, ⟨_, ⟨entries, properties, kindEntries, rfl, hproperties, hkind, rfl⟩, _, _, _, rfl,
      lookup_dictSet_self .., lookup_dictSet_self .., rfl⟩, _, _, rfl, lookup_dictSet_self .., ?_⟩
    simp only [propertiesFor, kindEntry, dictSet_dictSet]

theorem kindEntry_kindEntry (kind kind' : String) (entries : Entries) :
    kindEntry kind (kindEntry kind' entries) = kindEntry kind entries :=
  dictSet_pair_twice (by decide) ..

/-- The properties of an iteration do not depend on those of the one before. -/
theorem propertiesFor_propertiesFor (kind kind' : String) (specification specification' : Val)
    (kindEntries properties : Entries) :
    propertiesFor kind specification (kindEntry kind' kindEntries)
        (propertiesFor kind' specification' kindEntries properties) =
      propertiesFor kind specification kindEntries properties := by
  rw [propertiesFor, kindEntry_kindEntry, propertiesFor, propertiesFor,
    dictSet_pair_twice (by decide)]

theorem lookup_kind_propertiesFor (kind : String) (specification : Val)
    (kindEntries properties : Entries) :
    (propertiesFor kind specification kindEntries properties).lookup "kind" =
      some (.dict (kindEntry kind kindEntries)) := by
  rw [propertiesFor, lookup_dictSet_ne (by decide), lookup_dictSet_self]

/-- A base schema an iteration has written to gives the next one the same schema. -/
theorem prepare_prepare {base schema specification : Val} {kind : String}
    (h : prepare base kind specification = .ok schema) (kind' : String) (specification' : Val) :
    prepare schema kind' specification' = prepare base kind' specification' := by
  obtain ⟨entries, properties, kindEntries, rfl, hproperties, hkind, rfl⟩ := prepare_eq_ok.mp h
  have hbase : prepare (.dict entries) kind' specification' = _ :=
    prepare_eq_ok.mpr ⟨entries, properties, kindEntries, rfl, hproperties, hkind, rfl⟩
  rw [hbase, prepare_eq_ok]
  refine ⟨_, _, _, rfl, lookup_dictSet_self .., lookup_kind_propertiesFor .., ?_⟩
  rw [propertiesFor_propertiesFor, dictSet_dictSet]

/-- The base schema of a kind is decided by whether the kind has a provider. -/
theorem schemaOf_eq_of_eq {v : SchemaValidator} {kind kind' : String}
    (h : hasProvider kind' = hasProvider kind) : v.schemaOf kind' = v.schemaOf kind := by
  rw [schemaOf, schemaOf, h]

theorem schemaOf_withSchema_of_eq {v : SchemaValidator} {kind kind' : String} {schema : Val}
    (h : hasProvider kind' = hasProvider kind) :
    (v.withSchema kind schema).schemaOf kind' = schema := by
  rw [schemaOf, withSchema, h]
  cases hasProvider kind <;> rfl

theorem schemaOf_withSchema_of_ne {v : SchemaValidator} {kind kind' : String} {schema : Val}
    (h : hasProvider kind' ≠ hasProvider kind) :
    (v.withSchema kind schema).schemaOf kind' = v.schemaOf kind' := by
  rw [schemaOf, schemaOf, withSchema, Bool.eq_not_of_ne h]
  cases hasProvider kind <;> rfl

/-- Two validators compare a document of any kind with the same schema. -/
structure Alike (v v' : SchemaValidator) : Prop where
  provider : v'.provider = v.provider
  prepare : ∀ kind specification,
    prepare (v'.schemaOf kind) kind specification = prepare (v.schemaOf kind) kind specification

theorem Alike.refl (v : SchemaValidator) : Alike v v := ⟨rfl, fun _ _ => rfl⟩

/-- An iteration changes nothing for the next ones. -/
theorem Alike.withSchema {v v' : SchemaValidator} (h : Alike v v') {kind : String}
    {specification schema : Val}
    (hprepare : SchemaValidator.prepare (v'.schemaOf kind) kind specification = .ok schema) :
    Alike v (v'.withSchema kind schema) := by
  refine ⟨?_, fun kind' specification' => ?_⟩
  · rw [← h.provider, SchemaValidator.withSchema]
    split <;> rfl
  · rw [← h.prepare kind' specification']
    by_cases hsame : hasProvider kind' = hasProvider kind
    · -- the kinds have one base schema, and this iteration has written to it
      rw [schemaOf_withSchema_of_eq hsame, prepare_prepare hprepare, schemaOf_eq_of_eq hsame]
    · rw [schemaOf_withSchema_of_ne hsame]

/-! ## The verdict on one document -/

variable (env : ValidatorEnv)

/-- The schema an iteration accepts a document with, and its kind. -/
def verdict (v : SchemaValidator) (document : Val) : Res (String × Val) := do
  let kind ← document.getAttr "kind"
  let kind ← kind.asStr
  let schema ← setKind (v.schemaOf kind) kind
  let specification ← env.loadSchema v.provider kind
  let schema ← setAttrPath schema ["properties"] "specification" specification
  let _ ← document.getItem "specification"
  if env.accepts schema (replaceYesno document) then .ok (kind, schema)
  else .error (.exception "Schema validation error, see the error above.")

/-- No validation schema is for a kind that is a yes or a no. -/
def NoYesnoKinds (provider : String) : Prop :=
  ∀ kind ∈ yesValues ++ noValues, ∀ schema, env.loadSchema provider kind ≠ .ok schema

section

variable {env} {v v' : SchemaValidator} {document : Val} {kind : String} {schema : Val}

theorem verdict_eq_ok :
    verdict env v document = .ok (kind, schema) ↔ document.IsKind kind ∧
      (∃ specification, env.loadSchema v.provider kind = .ok specification ∧
        prepare (v.schemaOf kind) kind specification = .ok schema) ∧
      (∃ value, document.attr? "specification" = some value) ∧
      env.accepts schema (replaceYesno document) = true := by
  have hlast : ∀ own : String × Val, (if env.accepts own.2 (replaceYesno document) then .ok own
      else .error (.exception "Schema validation error, see the error above.") : Res _) =
        .ok (kind, schema) ↔ own = (kind, schema) ∧
          env.accepts own.2 (replaceYesno document) = true := by
    intro own
    split <;> simp [*]
  simp only [verdict, prepare, Lib.bind_eq_ok, Val.getAttr_eq_ok, Val.asStr_eq_ok,
    Val.getItem_eq_ok, hlast (_, _), Prod.mk.injEq, Val.isKind_iff]
  constructor
  · rintro ⟨own, hown, kind', hkind, schema₁, hset, specification, hload, schema₂, hprepare, value,
      hvalue, ⟨rfl, rfl⟩, haccepts⟩
    exact ⟨⟨own, hown, hkind⟩, ⟨specification, hload, schema₁, hset, hprepare⟩, ⟨value, hvalue⟩,
      haccepts⟩
  · rintro ⟨⟨own, hown, hkind⟩, ⟨specification, hload, schema₁, hset, hprepare⟩, ⟨value, hvalue⟩,
      haccepts⟩
    exact ⟨own, hown, kind, hkind, schema₁, hset, specification, hload, schema, hprepare, value,
      hvalue, ⟨rfl, rfl⟩, haccepts⟩

theorem validateDocument_eq_ok {id : DocId} {s s' : Store} {u : Unit} :
    validateDocument env id schema s = .ok (u, s') ↔
      env.accepts schema (replaceYesno (s.doc id)) = true ∧
        s' = s.write id (replaceYesno (s.doc id)) := by
  simp only [validateDocument, BuildM.bind_eq_ok, modifyDoc_eq_ok, reads_eq_ok, Except.ok.injEq]
  constructor
  · rintro ⟨_, s₁, rfl, accepted, _, ⟨rfl, rfl⟩, hrun⟩
    rw [Store.write_doc_self] at hrun
    split at hrun
    · next h => exact ⟨h, (BuildM.pure_eq_ok.mp hrun).2.symm⟩
    · exact absurd (lift_eq_ok.mp hrun).1 (by simp)
  · rintro ⟨haccepts, rfl⟩
    refine ⟨(), _, rfl, _, _, ⟨rfl, rfl⟩, ?_⟩
    rw [Store.write_doc_self, if_pos haccepts]
    rfl

/-- The loop body is the verdict; the document is left with its yes and no replaced. -/
theorem validate_eq_ok {v₁ : SchemaValidator} {id : DocId} {s s' : Store} :
    validate env v id s = .ok (v₁, s') ↔ ∃ kind schema,
      verdict env v (s.doc id) = .ok (kind, schema) ∧ v₁ = v.withSchema kind schema ∧
        s' = s.write id (replaceYesno (s.doc id)) := by
  simp only [validate, verdict_eq_ok, prepare, BuildM.bind_eq_ok, Lib.bind_eq_ok, reads_eq_ok,
    lift_eq_ok, BuildM.pure_eq_ok, validateDocument_eq_ok, Val.getAttr_eq_ok, Val.asStr_eq_ok,
    Val.getItem_eq_ok, Val.isKind_iff]
  constructor
  · rintro ⟨own, _, ⟨hown, rfl⟩, kind, _, ⟨hkind, rfl⟩, schema₁, _, ⟨hset, rfl⟩, specification, _,
      ⟨hload, rfl⟩, schema, _, ⟨hprepare, rfl⟩, value, _, ⟨hvalue, rfl⟩, _, _,
      ⟨haccepts, rfl⟩, rfl, rfl⟩
    exact ⟨kind, schema, ⟨⟨own, hown, hkind⟩, ⟨specification, hload, schema₁, hset, hprepare⟩,
      ⟨value, hvalue⟩, haccepts⟩, rfl, rfl⟩
  · rintro ⟨kind, schema, ⟨⟨own, hown, hkind⟩, ⟨specification, hload, schema₁, hset, hprepare⟩,
      ⟨value, hvalue⟩, haccepts⟩, rfl, rfl⟩
    exact ⟨own, _, ⟨hown, rfl⟩, kind, _, ⟨hkind, rfl⟩, schema₁, _, ⟨hset, rfl⟩, specification, _,
      ⟨hload, rfl⟩, schema, _, ⟨hprepare, rfl⟩, value, _, ⟨hvalue, rfl⟩, (), _, ⟨haccepts, rfl⟩,
      rfl, rfl⟩

/-- Validators that are alike accept the same documents, with the same schemas. -/
theorem Alike.verdict_eq_ok (h : Alike v v') :
    verdict env v' document = .ok (kind, schema) ↔ verdict env v document = .ok (kind, schema) := by
  rw [SchemaValidator.verdict_eq_ok, SchemaValidator.verdict_eq_ok, h.provider]
  simp only [h.prepare]

/-- A document is accepted after its yes and no were replaced if it is before. -/
theorem verdict_replaceYesno (hyesno : NoYesnoKinds env v.provider) :
    verdict env v (replaceYesno document) = .ok (kind, schema) ↔
      verdict env v document = .ok (kind, schema) := by
  rw [verdict_eq_ok, verdict_eq_ok, Val.replaceYesno_replaceYesno, Val.attr?_replaceYesno]
  constructor
  · rintro ⟨hkind, hprepare, ⟨value, hvalue⟩, haccepts⟩
    obtain ⟨spec, hspec, -⟩ := Option.map_eq_some_iff.mp hvalue
    exact ⟨Val.isKind_of_replaceYesno hkind, hprepare, ⟨spec, hspec⟩, haccepts⟩
  · rintro ⟨hkind, ⟨specification, hload, hprepare⟩, ⟨value, hvalue⟩, haccepts⟩
    have hno : kind ∉ yesValues ++ noValues := fun hmem => hyesno kind hmem _ hload
    exact ⟨(Val.isKind_replaceYesno hno).mpr hkind, ⟨specification, hload, hprepare⟩,
      ⟨_, by rw [hvalue, Option.map_some]⟩, haccepts⟩

/-! ## The run -/

/-- The document is accepted. -/
def Accepts (env : ValidatorEnv) (v : SchemaValidator) (document : Val) : Prop :=
  ∃ kind schema, verdict env v document = .ok (kind, schema)

/-- Each document is as it was, or with its yes and no replaced. -/
def Replaced (s s' : Store) : Prop :=
  ∀ id, s'.doc id = s.doc id ∨ s'.doc id = replaceYesno (s.doc id)

theorem Replaced.refl (s : Store) : Replaced s s := fun _ => Or.inl rfl

theorem Replaced.write {s s' : Store} (h : Replaced s s') (id : DocId) :
    Replaced s (s'.write id (replaceYesno (s'.doc id))) := by
  intro other
  by_cases heq : other = id
  · subst heq
    rw [Store.write_doc_self]
    rcases h other with hsame | hreplaced
    · exact Or.inr (by rw [hsame])
    · exact Or.inr (by rw [hreplaced, Val.replaceYesno_replaceYesno])
  · rw [Store.write_doc_ne _ heq]
    exact h other

theorem Replaced.verdict_eq_ok {s s' : Store} (h : Replaced s s')
    (hyesno : NoYesnoKinds env v.provider) (id : DocId) :
    verdict env v (s'.doc id) = .ok (kind, schema) ↔
      verdict env v (s.doc id) = .ok (kind, schema) := by
  rcases h id with hsame | hreplaced
  · rw [hsame]
  · rw [hreplaced, verdict_replaceYesno hyesno]

/-- From a validator that is like a new one and documents that were only validated so
far, the loop ends without an exception when the new one accepts each of them. -/
theorem validateAll_ok_iff (hyesno : NoYesnoKinds env v.provider) (halike : Alike v v')
    {docs : List DocId} {s s' : Store} (hreplaced : Replaced s s') :
    (∃ s'', validateAll env v' docs s' = .ok ((), s'')) ↔
      ∀ id ∈ docs, Accepts env v (s.doc id) := by
  induction docs generalizing v' s' with
  | nil => exact ⟨fun _ _ hid => absurd hid List.not_mem_nil, fun _ => ⟨s', rfl⟩⟩
  | cons id rest ih =>
      rw [List.forall_mem_cons]
      constructor
      · rintro ⟨s'', hrun⟩
        obtain ⟨v₁, s₁, hfirst, hrest⟩ := BuildM.bind_eq_ok.mp hrun
        obtain ⟨kind, schema, hverdict, rfl, rfl⟩ := validate_eq_ok.mp hfirst
        obtain ⟨-, ⟨_, -, hprepare⟩, -⟩ := SchemaValidator.verdict_eq_ok.mp hverdict
        rw [halike.verdict_eq_ok, hreplaced.verdict_eq_ok hyesno] at hverdict
        exact ⟨⟨kind, schema, hverdict⟩,
          (ih (halike.withSchema hprepare) (hreplaced.write id)).mp ⟨s'', hrest⟩⟩
      · rintro ⟨⟨kind, schema, hverdict⟩, hrest⟩
        rw [← hreplaced.verdict_eq_ok hyesno, ← halike.verdict_eq_ok] at hverdict
        obtain ⟨-, ⟨_, -, hprepare⟩, -⟩ := SchemaValidator.verdict_eq_ok.mp hverdict
        obtain ⟨s'', hrun⟩ := (ih (halike.withSchema hprepare) (hreplaced.write id)).mpr hrest
        exact ⟨s'', BuildM.bind_eq_ok.mpr
          ⟨_, _, validate_eq_ok.mpr ⟨kind, schema, hverdict, rfl, rfl⟩, hrun⟩⟩

/-- What does not end without an exception raises. -/
theorem raises_iff {x : BuildM Unit} {s : Store} :
    (∃ e, x s = .error e) ↔ ¬ ∃ s', x s = .ok ((), s') := by
  cases x s with
  | error e => simp
  | ok result => exact ⟨fun ⟨_, h⟩ => (by cases h), fun h => absurd ⟨result.2, rfl⟩ h⟩

/-- A constructed validator does not raise. -/
theorem run_eq_validateAll {provider : String} (hinit : init env provider = .ok v)
    (docs : List DocId) (s : Store) :
    run env (.str provider) docs s = validateAll env v docs s := by
  change ((init env provider).map (·, s) >>= fun p => validateAll env p.1 docs p.2) = _
  rw [hinit]
  rfl

theorem provider_of_init {provider : String} (hinit : init env provider = .ok v) :
    v.provider = provider := by
  simp only [init, Lib.bind_eq_ok] at hinit
  obtain ⟨base, -, definitions, -, baseSchema, -, noProvider, -, hv⟩ := hinit
  cases hv
  rfl

end

/-- The validator raises on documents if and only if a new one raises on one of them. -/
theorem run_raises_iff_alone (env : ValidatorEnv) {provider : String} {v : SchemaValidator}
    (hinit : init env provider = .ok v) (hyesno : NoYesnoKinds env provider)
    (docs : List DocId) (s : Store) :
    (∃ e, validateAll env v docs s = .error e) ↔
      ∃ id ∈ docs, ∃ e, run env (.str provider) [id] s = .error e := by
  obtain rfl := provider_of_init hinit
  simp only [run_eq_validateAll hinit, raises_iff,
    validateAll_ok_iff hyesno (Alike.refl v) (Replaced.refl s)]
  simp

namespace AloneSample

/-- The base schema, as far as a validator writes to it. -/
def base : Val :=
  .dict [("required", .list (baseRequired.map Val.str)),
    ("properties", .dict [("kind", .dict [("type", .str "string")]), ("provider", .dict [])])]

/-- The schemas of resource groups; what is checked of a document are the required keys. -/
def validator : ValidatorEnv where
  loadSchema _ kind :=
    if kind = "core/base" then .ok base
    else if kind = "core/definitions" ∨ kind = "infrastructure/resource-group" then .ok (.dict [])
    else .error (.fileNotFoundError kind)
  accepts schema document :=
    (requiredOf schema).all fun key => (dictKeys document.asDict.toOption.toList.flatten).any
      fun own => key.pyEq (.str own)
  base_required := by
    intro provider base h
    cases h
    rfl
  accepts_required := by
    intro schema entries key h hkey
    have hany := List.all_eq_true.mp h _ hkey
    simpa [Val.asDict, Except.toOption, Val.pyEq] using hany

theorem noYesnoKinds : NoYesnoKinds validator "aws" := by
  intro kind hmem schema h
  simp only [yesValues, noValues, List.cons_append, List.nil_append, List.mem_cons,
    List.not_mem_nil, or_false] at hmem
  rcases hmem with rfl | rfl | rfl | rfl | rfl | rfl | rfl | rfl | rfl | rfl <;> cases h

/-- A resource group, and one without a version. -/
def store : Store where
  next := 2
  doc id := .dict ([("provider", .str "aws"), ("kind", .str "infrastructure/resource-group"),
    ("name", .str "default"), ("title", .str "Resource group"),
    ("specification", .dict [("name", .str "demo-rg")])] ++
      if id = 0 then [("version", .str "1.0.0")] else [])

end AloneSample

/-- The second of two documents is rejected with and without the first. -/
theorem run_raises_iff_alone_sample :
    ∃ v, init AloneSample.validator "aws" = .ok v ∧
      ((∃ e, validateAll AloneSample.validator v [0, 1] AloneSample.store = .error e) ↔
        ∃ id ∈ [0, 1], ∃ e,
          run AloneSample.validator (.str "aws") [id] AloneSample.store = .error e) :=
  ⟨_, rfl, run_raises_iff_alone AloneSample.validator rfl AloneSample.noYesnoKinds [0, 1]
    AloneSample.store⟩

end SchemaValidator

end LambdaStack
