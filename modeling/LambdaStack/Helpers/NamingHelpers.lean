/-
# Names of roles, features and resources

`naming_helpers`. `lower` stands for `str.lower`, of which nothing is assumed:
every fact about names here holds for any function in its place. A resource
name determines the name of its component up to `lower` and the replacement of
underscores.
-/

import Mathlib.Data.List.Basic

namespace LambdaStack

/-- `s.replace(old, new)` for two characters. -/
def replaceChar (old new : Char) (s : String) : String :=
  String.ofList (s.toList.map fun c => if c = old then new else c)

/-- `os.path.join`. -/
def pathJoin (first second : String) : String :=
  if ['/'].isPrefixOf second.toList then second
  else if first = "" ∨ ['/'].isSuffixOf first.toList then first ++ second
  else first ++ "/" ++ second

/-- `to_role_name`. -/
def toRoleName (featureName : String) : String := replaceChar '-' '_' featureName

/-- `to_feature_name`. -/
def toFeatureName (roleName : String) : String := replaceChar '_' '-' roleName

/-- `(not prefix) or (prefix == 'default')`. -/
def noPrefix (pre : String) : Bool := pre == "" || pre == "default"

section

variable (lower : String → String)

/-- `resource_name`. -/
def resourceName (pre clusterName resourceType : String) (component : Option String) : String :=
  let name :=
    if noPrefix pre then
      match component with
      | none => lower clusterName ++ "-" ++ lower resourceType
      | some component =>
          lower clusterName ++ "-" ++ lower component ++ "-" ++ lower resourceType
    else
      match component with
      | none => lower pre ++ "-" ++ lower clusterName ++ "-" ++ lower resourceType
      | some component =>
          lower pre ++ "-" ++ lower clusterName ++ "-" ++ lower component ++ "-" ++
            lower resourceType
  toFeatureName name

/-- `cluster_tag`. -/
def clusterTag (pre clusterName : String) : String :=
  if noPrefix pre then lower clusterName else lower pre ++ "-" ++ lower clusterName

/-- The first `n` characters of a string. -/
def takeChars (n : Nat) (s : String) : String := String.ofList (s.toList.take n)

/-- `storage_account_name`. -/
def storageAccountName (pre clusterName storageUse : String) : String :=
  let pre := if noPrefix pre then "" else lower (takeChars 8 pre)
  let sto := lower (takeChars 5 storageUse)
  let cn := String.ofList (clusterName.toList.filter (· ≠ '-'))
  let clu := lower (takeChars (24 - (pre.length + sto.length)) cn)
  pre ++ clu ++ sto

/-- The part of a component's name that its resource names depend on. -/
def resourceKey (component : String) : String := toFeatureName (lower component)

end

theorem replaceChar_append (old new : Char) (s t : String) :
    replaceChar old new (s ++ t) = replaceChar old new s ++ replaceChar old new t := by
  simp [replaceChar]

theorem toFeatureName_append (s t : String) :
    toFeatureName (s ++ t) = toFeatureName s ++ toFeatureName t :=
  replaceChar_append '_' '-' s t

/-- Two components have equal resource names exactly when their keys agree. -/
theorem resourceName_eq_iff {lower : String → String}
    {pre clusterName resourceType component other : String} :
    resourceName lower pre clusterName resourceType (some component) =
        resourceName lower pre clusterName resourceType (some other) ↔
      resourceKey lower component = resourceKey lower other := by
  unfold resourceName resourceKey
  by_cases hpre : noPrefix pre <;> simp [hpre, toFeatureName_append]

end LambdaStack
