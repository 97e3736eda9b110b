/-
# Validating documents

`SchemaValidator`: each document is compared with a base schema, into which its
kind and the schema of its specification are written in place. What jsonschema
answers for a schema and a document is a parameter; a document it accepts has
the keys the schema requires. Log lines are left out.
-/

import LambdaStack.Engine.Providers.DocStore
import LambdaStack.Helpers.ObjdictHelpers
import LambdaStack.Helpers.OsImages

namespace LambdaStack

open Lib BuildM

/-- The keys `core/base` requires, the provider in the first place. -/
def baseRequired : List String := ["provider", "kind", "name", "title", "version", "specification"]

/-- The keys a schema requires. -/
def requiredOf (schema : Val) : List Val :=
  match schema.attr? "required" with
  | some (.list keys) => keys
  | _ => []

/-- The validation schemas of a provider, and the validator of jsonschema. -/
structure ValidatorEnv where
  /-- `load_schema_obj(types.VALIDATION, provider, kind)`. -/
  loadSchema : String → String → Res Val
  /-- The schema is one and the document is an instance of it. -/
  accepts : Val → Val → Bool
  /-- The keys the base schema lists as required. -/
  base_required : ∀ {provider base}, loadSchema provider "core/base" = .ok base →
    requiredOf base = baseRequired.map Val.str
  /-- A mapping that is an instance of a schema has the keys it requires. -/
  accepts_required : ∀ {schema entries key}, accepts schema (.dict entries) = true →
    Val.str key ∈ requiredOf schema → key ∈ dictKeys entries

/-- The attributes `__init__` sets besides the documents. -/
structure SchemaValidator where
  provider : String
  baseSchema : Val
  baseSchemaNoProvider : Val

namespace SchemaValidator

variable (env : ValidatorEnv)

/-- `del x[index]` with index 0. -/
def deleteFirst (x : Val) : Res Val := do
  let items ← x.asList
  match items with
  | [] => .error .indexError
  | _ :: rest => .ok (.list rest)

/-- `del x[key]`. -/
def deleteKey (x : Val) (key : String) : Res Val := do
  let _ ← x.getItem key
  let entries ← x.asDict
  .ok (.dict (entries.filter (·.1 ≠ key)))

/-- The base schema for kinds that have no provider. -/
def withoutProvider (schema : Val) : Res Val := do
  let required ← schema.getAttr "required"
  let required ← deleteFirst required
  let schema ← schema.setAttr "required" required
  let properties ← schema.getAttr "properties"
  let properties ← deleteKey properties "provider"
  schema.setAttr "properties" properties

/-- `__init__`. -/
def init (provider : String) : Res SchemaValidator := do
  let base ← env.loadSchema provider "core/base"
  let definitions ← env.loadSchema provider "core/definitions"
  let baseSchema ← base.setItem "definitions" definitions
  let noProvider ← withoutProvider baseSchema
  .ok ⟨provider, baseSchema, noProvider⟩

/-- `'infrastructure' in kind or kind == 'lambdastack-cluster'`. -/
def hasProvider (kind : String) : Bool :=
  isSubstring "infrastructure" kind || kind == "lambdastack-cluster"

/-- The base schema the kind is compared with. -/
def schemaOf (v : SchemaValidator) (kind : String) : Val :=
  if hasProvider kind then v.baseSchema else v.baseSchemaNoProvider

/-- The validator after the base schema of a kind was written to. -/
def withSchema (v : SchemaValidator) (kind : String) (schema : Val) : SchemaValidator :=
  if hasProvider kind then { v with baseSchema := schema }
  else { v with baseSchemaNoProvider := schema }

/-- The assignments of `get_base_schema`. -/
def setKind (schema : Val) (kind : String) : Res Val := do
  let schema ← setAttrPath schema ["properties", "kind"] "default" (.str kind)
  setAttrPath schema ["properties", "kind"] "pattern" (.str ("^(" ++ kind ++ ")$"))

/-- `validate_document`. -/
def validateDocument (id : DocId) (schema : Val) : BuildM Unit := do
  modifyDoc id replaceYesno
  let accepted ← reads fun doc => .ok (env.accepts schema (doc id))
  if accepted then pure ()
  else lift (.error (.exception "Schema validation error, see the error above."))

/-- The body of the loop of `run`. -/
def validate (v : SchemaValidator) (id : DocId) : BuildM SchemaValidator := do
  let kind ← reads fun doc => (doc id).getAttr "kind"
  let kind ← lift kind.asStr
  let schema ← lift (setKind (v.schemaOf kind) kind)
  let specification ← lift (env.loadSchema v.provider kind)
  let schema ← lift (setAttrPath schema ["properties"] "specification" specification)
  let _ ← reads fun doc => (doc id).getItem "specification"
  validateDocument env id schema
  pure (v.withSchema kind schema)

/-- The loop of `run`. -/
def validateAll (v : SchemaValidator) : List DocId → BuildM Unit
  | [] => pure ()
  | id :: rest => do
      let v ← validate env v id
      validateAll v rest

/-- `SchemaValidator(provider, docs).run()`. -/
def run (provider : Val) (docs : List DocId) : BuildM Unit := do
  let provider ← lift provider.asStr
  let v ← lift (init env provider)
  validateAll env v docs

section

variable {R : Val → Val → Prop} [Std.Refl R] [IsTrans Val R] (hR : ∀ x, R x (replaceYesno x))

include hR

/-- Validating does what the replacement of yes and no does. -/
theorem preserves_validateAll (v : SchemaValidator) (docs : List DocId) :
    Preserves (Store.Evolves R) (validateAll env v docs) := by
  induction docs generalizing v with
  | nil => exact preserves_pure ()
  | cons id rest ih =>
      refine Preserves.bind ?_ ih
      apply (preserves_reads _).bind
      intro kind
      apply (preserves_lift _).bind
      intro kind
      apply (preserves_lift _).bind
      intro schema
      apply (preserves_lift _).bind
      intro specification
      apply (preserves_lift _).bind
      intro schema
      apply (preserves_reads _).bind
      intro _
      apply Preserves.bind
      · apply (preserves_modifyDoc id hR).bind
        intro _
        apply (preserves_reads _).bind
        intro accepted
        exact (preserves_pure _).ite (preserves_lift _)
      · intro _
        exact preserves_pure _

theorem preserves_run (provider : Val) (docs : List DocId) :
    Preserves (Store.Evolves R) (run env provider docs) := by
  apply (preserves_lift _).bind
  intro provider
  apply (preserves_lift _).bind
  intro v
  exact preserves_validateAll env hR v docs

end

end SchemaValidator

end LambdaStack
