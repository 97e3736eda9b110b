/-
# Schema files

The default documents shipped with the program, as `data_loader` reads them:
the file of the provider, or the common one when the provider has none. Every
document of a file is of the file's kind.
-/

import LambdaStack.Data.Exception

namespace LambdaStack

/-- The directory of default documents. `file provider kind` holds the documents
of the file of that name, if there is one. -/
structure SchemaDir where
  file : String → String → Option (List Val)
  /-- A file is named after the kind of its documents, the minimal cluster
  configurations of the providers apart, which only `init` reads. -/
  kind_eq : ∀ {provider kind docs}, file provider kind = some docs →
    provider = "common" ∨ kind ≠ "configuration/minimal-cluster-config" →
      ∀ doc ∈ docs, doc.IsKind kind
  /-- The mappings of a loaded document are Python mappings. -/
  wellFormed : ∀ {provider kind docs}, file provider kind = some docs →
    ∀ doc ∈ docs, doc.WellFormed

namespace SchemaDir

variable (schema : SchemaDir)

/-- The documents of the file a kind is loaded from. -/
def docsOf (provider kind : String) : Res (List Val) :=
  match schema.file provider kind with
  | some docs => .ok docs
  | none =>
      match schema.file "common" kind with
      | some docs => .ok docs
      | none => .error (.fileNotFoundError kind)

/-- `load_all_schema_objs`. -/
def loadAllSchemaObjs (provider kind : String) : Res (List Val) := schema.docsOf provider kind

/-- `load_schema_obj`: the file holds a single document. -/
def loadSchemaObj (provider kind : String) : Res Val := do
  let docs ← schema.docsOf provider kind
  match docs with
  | [] => .ok .null
  | [doc] => .ok doc
  | _ => .error .composerError

variable {schema}

theorem docsOf_eq_ok {provider kind : String} {docs : List Val}
    (h : schema.docsOf provider kind = .ok docs) :
    ∃ directory, schema.file directory kind = some docs ∧
      (directory = provider ∨ directory = "common") := by
  unfold docsOf at h
  split at h
  · next hfile => cases h; exact ⟨_, hfile, Or.inl rfl⟩
  · split at h
    · next hfile => cases h; exact ⟨_, hfile, Or.inr rfl⟩
    · cases h

theorem kinds_of_docsOf {provider kind : String} {docs : List Val}
    (hkind : provider = "common" ∨ kind ≠ "configuration/minimal-cluster-config")
    (h : schema.docsOf provider kind = .ok docs) : ∀ doc ∈ docs, doc.IsKind kind := by
  obtain ⟨directory, hfile, rfl | rfl⟩ := docsOf_eq_ok h
  · exact schema.kind_eq hfile hkind
  · exact schema.kind_eq hfile (Or.inl rfl)

/-- A loaded document that can be assigned to is of the kind asked for. -/
theorem kind_of_loadSchemaObj {provider kind : String} {doc : Val}
    (hkind : provider = "common" ∨ kind ≠ "configuration/minimal-cluster-config")
    (h : schema.loadSchemaObj provider kind = .ok doc) : doc = .null ∨ doc.IsKind kind := by
  rw [loadSchemaObj, Lib.bind_eq_ok] at h
  obtain ⟨docs, hdocs, h⟩ := h
  have hkinds := kinds_of_docsOf hkind hdocs
  match docs, h with
  | [], h => cases h; exact Or.inl rfl
  | [doc], h => cases h; exact Or.inr (hkinds _ (by simp))

end SchemaDir

end LambdaStack
