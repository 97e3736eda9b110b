/-
# Merging objects in place

The merger of `objdict_helpers` on objects with identity, as Python runs it: the
merged mapping is changed in place, and what it lacks it is given by reference.
Each call of a recursive function takes one from `depth`, which stands for the
recursion limit of the interpreter.
-/

import LambdaStack.Data.Heap
import LambdaStack.Helpers.ObjdictHelpers

namespace LambdaStack

open Lib HeapM

namespace Objects

/-- `is_named_list`. -/
def isNamedList (h : Heap) (items : List Ref) : Bool :=
  items.all fun x => h.hasAttr x "name" || h.hasAttr x "_merge"

/-- `x == y`, for what two references denote. -/
def pyEq (depth : Nat) (x y : Ref) : HeapM Bool :=
  reads fun h => do
    let x ← h.read depth x
    let y ← h.read depth y
    .ok (x.pyEq y)

/-- `[x["name"] for x in list if hasattr(x, 'name')]`. -/
def allNames (depth : Nat) (items : List Ref) : HeapM (List Val) :=
  reads fun h => (items.filterMap (h.attr? · "name")).mapM (h.read depth)

/-- `assert_unique_names_in_named_list`. -/
def assertUniqueNamesInNamedList (depth : Nat) (items : List Ref) (key type : String) :
    HeapM Unit := do
  let names ← allNames depth items
  match names.find? fun name => 1 < names.countP (·.pyEq name) with
  | some name => raise (.duplicatesInNamedList name key type)
  | none => pure ()

/-- The merge strategy the extending list asks for. -/
def mergeStrategy (extendBy : List Ref) (key : String) : HeapM Bool :=
  reads fun h =>
    match extendBy.find? (h.hasAttr · "_merge") with
    | none => .ok false
    | some marker =>
        match h.attr? marker "_merge" with
        | some (.scalar (.bool merge .bool)) => .ok merge
        | _ => .error (.attributeError
            ("_merge value for list \"" ++ key ++ "\" is not a boolean."))

/-- `[x for x in extend_by if hasattr(x, 'name') and x['name'] == item['name']]`. -/
def matchesOf (depth : Nat) (item : Ref) : List Ref → HeapM (List Ref)
  | [] => pure []
  | x :: rest => do
      let named ← reads fun h => .ok (h.hasAttr x "name")
      if named then do
        let name ← getItem x "name"
        let own ← getItem item "name"
        let same ← pyEq depth name own
        let found ← matchesOf depth item rest
        pure (if same then x :: found else found)
      else matchesOf depth item rest

/-- `[x for x in items if x['name'] == name]` has an item. -/
def nameKnown (depth : Nat) (name : Ref) : List Ref → HeapM Bool
  | [] => pure false
  | x :: rest => do
      let own ← getItem x "name"
      let same ← pyEq depth own name
      let known ← nameKnown depth name rest
      pure (same || known)

/-- The loop that adds the non-matched items to the list under `key`. An item of
the list itself always has a match, so a list is not extended while it is walked. -/
def appendUnmatched (depth : Nat) (toMerge : Ref) (key : String) (extendBy : List Ref) :
    HeapM Unit :=
  forEach extendBy fun item => do
    let marker ← reads fun h => .ok (h.hasAttr item "_merge")
    if marker then pure ()
    else do
      let list ← getItem toMerge key
      let items ← itemsOf list
      let name ← getItem item "name"
      let known ← nameKnown depth name items
      if known then pure () else append list item

/-- `merge_list`, given `merge_objdict`. -/
def mergeListBody (depth : Nat) (mergeObjdict : Ref → Ref → HeapM Unit)
    (toMerge extendBy : Ref) (key : String) : HeapM Unit := do
  let current ← getItem toMerge key
  let currentItems ← itemsOf current
  let items ← itemsOf extendBy
  let named ← reads fun h => .ok (isNamedList h currentItems && isNamedList h items)
  if named then do
    let merge ← mergeStrategy items key
    assertUniqueNamesInNamedList depth currentItems key "default"
    assertUniqueNamesInNamedList depth items key "input"
    if merge then do
      forEach currentItems fun item => do
        let found ← matchesOf depth item items
        match found with
        | [x] => mergeObjdict item x
        | _ => pure ()
      appendUnmatched depth toMerge key items
    else do
      let kept ← reads fun h => .ok (items.filter (h.hasAttr · "name"))
      let list ← newList kept
      setItem toMerge key list
  else setItem toMerge key extendBy

/-- The body of the loop of `merge_objdict`, given the functions it calls. -/
def mergeEntry (mergeObjdict : Ref → Ref → HeapM Unit)
    (mergeList : Ref → Ref → String → HeapM Unit) (toMerge extendBy : Ref) (key : String) :
    HeapM Unit := do
  let val ← getItem extendBy key
  let current ← reads fun h => .ok (h.attr? toMerge key)
  match current with
  | none => setItem toMerge key val
  | some current => do
      let left ← reads fun h => .ok (h.pyType current)
      let right ← reads fun h => .ok (h.pyType val)
      if left = .objDict ∧ right = .objDict then mergeObjdict current val
      else if left = .list ∧ right = .list then mergeList toMerge val key
      else if left = right then setItem toMerge key val
      else raise (.typeMismatch key left right)

/-- `merge_objdict` and, one call deeper, `merge_list`. -/
def mergeObjdict : Nat → Ref → Ref → HeapM Unit
  | 0, _, _ => raise .recursionError
  | depth + 1, toMerge, extendBy => do
      let entries ← entriesOf extendBy
      forEach (dictKeys entries) (mergeEntry (mergeObjdict depth)
        (match depth with
          | 0 => fun _ _ _ => raise .recursionError
          | below + 1 => mergeListBody (below + 1) (mergeObjdict below)) toMerge extendBy)

/-- `val in YES_VALUES` and `val in NO_VALUES`, for a string. -/
def yesno? (s : String) : Option Bool :=
  if s ∈ yesValues then some true else if s ∈ noValues then some false else none

/-- `replace_yesno_with_booleans`. -/
def replaceYesno : Nat → Ref → HeapM Unit
  | _, .scalar _ => pure ()
  | 0, .obj _ => raise .recursionError
  | depth + 1, .obj a => fun h =>
      match h.obj a with
      | .list items => forEach items (replaceYesno depth) h
      | .dict entries =>
          forEach (dictKeys entries) (fun key => do
            let val ← getItem (.obj a) key
            match val with
            | .scalar (.str s _) =>
                match yesno? s with
                | some b => setItem (.obj a) key (.scalar (.bool b))
                | none => pure ()
            | val => replaceYesno depth val) h

end Objects

end LambdaStack
