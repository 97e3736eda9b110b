/-
# Merging a named default with the user's default

`config_merger`. The user's document is copied before it is merged, so the
merge writes only to freshly loaded documents.
-/

import LambdaStack.Helpers.DataLoader
import LambdaStack.Helpers.DocListHelpers
import LambdaStack.Helpers.ObjdictHelpers

namespace LambdaStack

open Lib

/-- `merge_objdict` on two documents. A document that was not found has no
items to merge. -/
def mergeDocs (toMerge : Option Val) (extendBy : Option Val) : Res Val := do
  let extendBy ← (extendBy.getD .null).asDict
  let toMerge ← (toMerge.getD .null).asDict
  let merged ← mergeObjdict toMerge extendBy
  .ok (.dict merged)

/-- The default document with the user's default document merged into it, if the
user has one. -/
def mergeDefaultConfig (defaultDoc : Option Val) : Option Val → Res Val
  | none => .ok (defaultDoc.getD .null)
  | some config => mergeDocs defaultDoc (some config)

/-- `merge_with_defaults`. -/
def mergeWithDefaults (schema : SchemaDir) (version provider featureKind : String)
    (configSelector : Val) (docs : List Val) : Res Val := do
  let files ← schema.loadAllSchemaObjs provider featureKind
  let configSpec ← selectFirst files (attrIs "name" configSelector)
  if configSelector.pyEq (.str "default") then .ok (configSpec.getD .null)
  else do
    let defaultConfig ← selectFirst docs (nameAndKindAre featureKind (.str "default"))
    let defaultDoc ← selectFirst files (attrIs "name" (.str "default"))
    let defaultDoc ← mergeDefaultConfig defaultDoc defaultConfig
    let merged ← mergeDocs (some defaultDoc) configSpec
    merged.setItem "version" (.str version)

end LambdaStack
