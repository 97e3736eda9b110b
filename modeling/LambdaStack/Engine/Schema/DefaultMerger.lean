/-
# Merging the input documents with the defaults

`DefaultMerger`: for each document of the input a fresh copy of the defaults is
loaded, the user's `default` document of the kind is merged into it, and then the
document itself. The documents are objects with identity, and none is copied.
-/

import LambdaStack.Helpers.DataLoader
import LambdaStack.Helpers.DocListHelpers
import LambdaStack.Helpers.ObjectMerge

namespace LambdaStack

open Lib HeapM

namespace DefaultMerger

/-- What the merger reads besides the documents. -/
structure Env where
  schema : SchemaDir
  /-- `VERSION`. -/
  version : String
  /-- The recursion limit of the interpreter. -/
  depth : Nat

variable (env : Env)

/-- `x.key == value` for a value the document holds by reference. -/
def attrIsRef (key : String) (value x : Ref) : HeapM Bool := do
  let own ← getAttr x key
  Objects.pyEq env.depth own value

/-- The first of the documents that has the given name. -/
def selectNamed (name : Ref) : List Ref → HeapM (Option Ref)
  | [] => pure none
  | x :: rest => do
      let answer ← attrIsRef env "name" name x
      if answer then pure (some x) else selectNamed name rest

/-- The user's own default document of the kind of `doc`. -/
def selectDefaultConfig (doc : Ref) : List Ref → HeapM (Option Ref)
  | [] => pure none
  | x :: rest => do
      let named ← attrIsRef env "name" (.scalar (.str "default")) x
      if named then do
        let kind ← getAttr doc "kind"
        let answer ← attrIsRef env "kind" kind x
        if answer then pure (some x) else selectDefaultConfig doc rest
      else selectDefaultConfig doc rest

/-- `merge_objdict` on documents, where `None` has no items. -/
def mergeInto (toMerge : Option Ref) (extendBy : Option Ref) : HeapM Unit :=
  Objects.mergeObjdict env.depth (toMerge.getD (.scalar .null)) (extendBy.getD (.scalar .null))

/-- Merge the user's default document, if there is one. -/
def mergeDefaultConfig (defaultDoc : Option Ref) : Option Ref → HeapM Unit
  | none => pure ()
  | some config => mergeInto env defaultDoc (some config)

/-- The case of `merge_parent` for a document that is not based on another. -/
def mergeDefault (docs files : List Ref) (doc : Ref) : HeapM Ref := do
  let defaultConfig ← selectDefaultConfig env doc docs
  let defaultDoc ← selectNamed env (.scalar (.str "default")) files
  mergeDefaultConfig env defaultDoc defaultConfig
  setItem (defaultDoc.getD (.scalar .null)) "version" (.scalar (.str env.version))
  mergeInto env defaultDoc (some doc)
  pure (defaultDoc.getD (.scalar .null))

/-- A string the merger needs, such as a kind or a provider. -/
def stringOf (x : Ref) : HeapM String :=
  match x with
  | .scalar (.str s _) => pure s
  | _ => raise .typeError

/-- `merge_parent`. The chain of parents is bounded by the recursion limit. -/
def mergeParent (docs files : List Ref) : Nat → Ref → HeapM Ref
  | 0, _ => raise .recursionError
  | depth + 1, doc => do
      let basedOn ← reads fun h => .ok (h.attr? doc "based_on")
      match basedOn with
      | some basedOn => do
          let name ← getAttr doc "name"
          let _ ← stringOf name
          let _ ← stringOf basedOn
          let parent ← selectNamed env basedOn files
          let mergedParent ← mergeParent docs files depth (parent.getD (.scalar .null))
          setItem mergedParent "version" (.scalar (.str env.version))
          mergeInto env (some mergedParent) (some doc)
          pure mergedParent
      | none => mergeDefault env docs files doc

/-- The body of the loop of `run`. -/
def mergeDocument (docs : List Ref) (doc : Ref) : HeapM Ref := do
  Objects.replaceYesno env.depth doc
  let provider ← getAttr doc "provider"
  let provider ← stringOf provider
  let kind ← getAttr doc "kind"
  let kind ← stringOf kind
  let files ← reads fun _ => env.schema.loadAllSchemaObjs provider kind
  let files ← loadAll files
  let name ← getAttr doc "name"
  let _ ← stringOf name
  mergeParent env docs files env.depth doc

/-- The loop of `run`. -/
def mergeDocuments (docs : List Ref) : List Ref → HeapM (List Ref)
  | [] => pure []
  | doc :: rest => do
      let merged ← mergeDocument env docs doc
      let mergedDocs ← mergeDocuments docs rest
      pure (merged :: mergedDocs)

/-- The input file is loaded and `run` is called; the merged documents are read
when it has returned. -/
def runObjects (docs : List Val) : HeapM (List Ref) := do
  let refs ← loadAll docs
  mergeDocuments env refs refs

/-- `DefaultMerger(docs).run()`. -/
def run (docs : List Val) : Res (List Val) := do
  let (merged, h) ← runObjects env docs Heap.empty
  merged.mapM (h.read env.depth)

end DefaultMerger

end LambdaStack
