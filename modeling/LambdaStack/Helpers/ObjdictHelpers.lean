/-
# Merging documents

The merger of `objdict_helpers` on document trees. `merge_objdict` walks the
entries of the extending mapping; a key both sides know is merged by the types
of its two values, and two lists are replaced, overwritten or merged by item
name depending on what both contain. The updates Python makes in place are
returned here; `DefaultMerger` models the same functions on shared objects.
-/

import LambdaStack.Data.Exception

namespace LambdaStack

open Lib

/-- `YES_VALUES`. -/
def yesValues : List String := ["y", "Y", "yes", "Yes", "YES"]

/-- `NO_VALUES`. -/
def noValues : List String := ["n", "N", "no", "No", "NO"]

/-- Every item has a `name` or is a `_merge` marker; the empty list is named. -/
def isNamedList (l : List Val) : Bool :=
  l.all fun x => x.hasAttr "name" || x.hasAttr "_merge"

/-- The names of the items that have one. -/
def allNames (l : List Val) : List Val := l.filterMap (·.attr? "name")

/-- The first name that `==` finds more than once in the list raises. -/
def assertUniqueNamesInNamedList (l : List Val) (key type : String) : Res Unit :=
  match (allNames l).find? fun name => 1 < (allNames l).countP (·.pyEq name) with
  | some name => .error (.duplicatesInNamedList name key type)
  | none => .ok ()

/-- The merge strategy the extending list asks for: the `_merge` value of its
first marker, and overwriting when it has none. -/
def mergeStrategy (extendBy : List Val) (key : String) : Res Bool :=
  match extendBy.find? (·.hasAttr "_merge") with
  | none => .ok false
  | some marker =>
      match marker.attr? "_merge" with
      | some (.scalar (.bool merge .bool)) => .ok merge
      | _ => .error (.attributeError
          ("_merge value for list \"" ++ key ++ "\" is not a boolean."))

/-- `x` has a name and it is the name of `item`. -/
def isMatch (item x : Val) : Bool :=
  match x.attr? "name", item.attr? "name" with
  | some name, some own => name.pyEq own
  | _, _ => false

/-- The items of the extending list that have the name of `item`. The name of
`item` is read for each named candidate, so an item without one raises. -/
def matchesOf (item : Val) : List Val → Res (List Val)
  | [] => .ok []
  | x :: rest =>
      match x.attr? "name" with
      | none => matchesOf item rest
      | some name => do
          let own ← item.getItem "name"
          let found ← matchesOf item rest
          .ok (if name.pyEq own then x :: found else found)

/-- Whether an item of the merged list has the name `name`; every item read
has to have one. -/
def nameKnown (name : Val) : List Val → Res Bool
  | [] => .ok false
  | x :: rest => do
      let own ← x.getItem "name"
      let known ← nameKnown name rest
      .ok (own.pyEq name || known)

/-- The loop that adds the non-matched items of the extending list. -/
def appendUnmatched (toMerge : List Val) : List Val → Res (List Val)
  | [] => .ok toMerge
  | item :: rest =>
      if item.hasAttr "_merge" then appendUnmatched toMerge rest
      else do
        let name ← item.getItem "name"
        let known ← nameKnown name toMerge
        appendUnmatched (if known then toMerge else toMerge ++ [item]) rest

/-- `merge_list` on the list under `key`. The loop over its items is given by
what it does to one item, since that recurses into `merge_objdict`. -/
def mergeList (toMerge extendBy : List Val) (key : String) (mergeItem : Val → Res Val) :
    Res (List Val) :=
  if isNamedList toMerge && isNamedList extendBy then do
    let merge ← mergeStrategy extendBy key
    assertUniqueNamesInNamedList toMerge key "default"
    assertUniqueNamesInNamedList extendBy key "input"
    if merge then do
      let merged ← toMerge.mapM mergeItem
      appendUnmatched merged extendBy
    else .ok (extendBy.filter (·.hasAttr "name"))
  else .ok extendBy

mutual
/-- `merge_objdict`: the loop over the items of the extending mapping. -/
def mergeObjdict (toMerge : Entries) : Entries → Res Entries
  | [] => .ok toMerge
  | entry :: rest => do
      let toMerge ← mergeEntry toMerge entry
      mergeObjdict toMerge rest
termination_by structural x => x

/-- One step of the loop: a key that is not known is just added. -/
def mergeEntry (toMerge : Entries) : String × Val → Res Entries
  | (key, val) =>
      match toMerge.lookup key with
      | none => .ok (dictSet key val toMerge)
      | some current => do
          let merged ← mergeValue key current val
          .ok (dictSet key merged toMerge)
termination_by structural x => x

/-- The value a known key gets: two mappings recurse, two lists go to
`merge_list`, two values of one type are replaced, and anything else raises. -/
def mergeValue (key : String) (current : Val) : Val → Res Val
  | .dict extendBy =>
      match current with
      | .dict toMerge => do
          let merged ← mergeObjdict toMerge extendBy
          .ok (.dict merged)
      | _ => .error (.typeMismatch key current.pyType .objDict)
  | .list extendBy =>
      match current with
      | .list toMerge => do
          let merged ← mergeList toMerge extendBy key fun item => do
            let found ← matchesOf item extendBy
            if found.length = 1 then mergeFirst item extendBy else .ok item
          .ok (.list merged)
      | _ => .error (.typeMismatch key current.pyType .list)
  | .scalar s =>
      if current.pyType = (Val.scalar s).pyType then .ok (.scalar s)
      else .error (.typeMismatch key current.pyType (Val.scalar s).pyType)
termination_by structural x => x

/-- Merge the first matching item of the extending list into `item`. -/
def mergeFirst (item : Val) : List Val → Res Val
  | [] => .ok item
  | x :: rest => if isMatch item x then mergeInto item x else mergeFirst item rest
termination_by structural x => x

/-- `merge_objdict` on two items. -/
def mergeInto (item : Val) : Val → Res Val
  | .dict extendBy => do
      let toMerge ← item.asDict
      let merged ← mergeObjdict toMerge extendBy
      .ok (.dict merged)
  | _ => .error (.attributeError "items")
termination_by structural x => x
end

mutual
/-- `replace_yesno_with_booleans`: strings are replaced as values of mappings
only, and looked for through lists and mappings. -/
def replaceYesno : Val → Val
  | .scalar s => .scalar s
  | .list items => .list (replaceYesnoItems items)
  | .dict entries => .dict (replaceYesnoEntries entries)
termination_by structural x => x

/-- The items of a list. -/
def replaceYesnoItems : List Val → List Val
  | [] => []
  | x :: rest => replaceYesno x :: replaceYesnoItems rest
termination_by structural x => x

/-- The entries of a mapping. -/
def replaceYesnoEntries : Entries → Entries
  | [] => []
  | entry :: rest => replaceYesnoEntry entry :: replaceYesnoEntries rest
termination_by structural x => x

/-- One entry: a yes or a no becomes a boolean. -/
def replaceYesnoEntry : String × Val → String × Val
  | (key, .scalar (.str s type)) =>
      if s ∈ yesValues then (key, .bool true)
      else if s ∈ noValues then (key, .bool false)
      else (key, .scalar (.str s type))
  | (key, .scalar s) => (key, .scalar s)
  | (key, .list items) => (key, replaceYesno (.list items))
  | (key, .dict entries) => (key, replaceYesno (.dict entries))
termination_by structural x => x
end

end LambdaStack
