/-
# Names that tell resources apart

The resources of a component are told apart by an index behind a hyphen. The name of
a resource determines the index and the component up to `lower` and the replacement
of underscores: an index has no hyphen.
-/

import LambdaStack.Helpers.ClusterIdentity

namespace LambdaStack

open Lib

/-- What is relied on of `str.lower`: it leaves lower case letters, digits and hyphens
alone, and a hyphen ends a word. -/
structure LowersWords (lower : String → String) : Prop where
  plain : ∀ s, Plain s → lower s = s
  hyphen : ∀ s t, lower (s ++ "-" ++ t) = lower s ++ "-" ++ lower t

instance (s : String) : Decidable (Plain s) :=
  decidable_of_iff ((s.toList.all fun c => isNameChar c || c == '\n') = true) (by simp [Plain])

/-! ## Indices -/

theorem isDigit_of_mem_toString {i : Nat} {c : Char} (h : c ∈ (toString i).toList) :
    c.isDigit = true := by
  rw [Nat.toString_eq_repr, Nat.toList_repr] at h
  exact Nat.isDigit_of_mem_toDigits (by decide) (by decide) h

theorem plain_toString (i : Nat) : Plain (toString i) := by
  intro c hc
  left
  rw [isNameChar, isPrefixChar, isDigit_of_mem_toString hc]
  simp

theorem hyphen_notMem_toString (i : Nat) : '-' ∉ (toString i).toList := by
  intro h
  exact absurd (isDigit_of_mem_toString h) (by decide)

theorem toString_injective {i j : Nat} (h : toString i = toString j) : i = j := by
  have hdigits : Nat.toDigits 10 i = Nat.toDigits 10 j := by
    simpa only [Nat.toString_eq_repr, Nat.toList_repr] using congrArg String.toList h
  simpa using congrArg (fun digits => Nat.ofDigitChars 10 digits 0) hdigits

/-- What stands before the last hyphen and the index behind it are determined. -/
theorem append_index_eq_iff {s t : String} {i j : Nat} :
    s ++ "-" ++ toString i = t ++ "-" ++ toString j ↔ s = t ∧ i = j := by
  constructor
  · intro h
    have hlists : (toString i).toList.reverse ++ '-' :: s.toList.reverse =
        (toString j).toList.reverse ++ '-' :: t.toList.reverse := by
      simpa using congrArg (fun name => name.toList.reverse) h
    rw [append_cons_eq_iff (by simpa using hyphen_notMem_toString i)
      (by simpa using hyphen_notMem_toString j), List.reverse_inj, List.reverse_inj,
      String.toList_inj, String.toList_inj] at hlists
    exact ⟨hlists.2, toString_injective hlists.1⟩
  · rintro ⟨rfl, rfl⟩
    rfl

/-! ## Resource names -/

section

variable {lower : String → String} {pre clusterName resourceType : String}

/-- A resource name is the name of the cluster, the key of the component and the type. -/
theorem resourceName_some (component : String) :
    resourceName lower pre clusterName resourceType (some component) =
      toFeatureName (clusterTag lower pre clusterName ++ "-") ++
        (resourceKey lower component ++ toFeatureName ("-" ++ lower resourceType)) := by
  unfold resourceName clusterTag resourceKey
  split <;> simp [toFeatureName_append, String.append_assoc]

theorem resourceName_none :
    resourceName lower pre clusterName resourceType none =
      toFeatureName (clusterTag lower pre clusterName ++ "-") ++
        toFeatureName (lower resourceType) := by
  unfold resourceName clusterTag
  split <;> simp [toFeatureName_append, String.append_assoc]

variable {component other : String} {i j : Nat}

/-- The resources of a type are told apart by their components and their indices. -/
theorem resourceName_indexed_eq_iff (hlower : LowersWords lower) (htype : Plain resourceType) :
    resourceName lower pre clusterName (resourceType ++ "-" ++ toString i) (some component) =
        resourceName lower pre clusterName (resourceType ++ "-" ++ toString j) (some other) ↔
      resourceKey lower component = resourceKey lower other ∧ i = j := by
  have hname : ∀ (i : Nat) (component : String), resourceKey lower component ++
      toFeatureName ("-" ++ lower (resourceType ++ "-" ++ toString i)) =
        resourceKey lower component ++ "-" ++ resourceType ++ "-" ++ toString i := by
    intro i component
    have hhyphen : toFeatureName "-" = "-" := by decide
    rw [hlower.hyphen, hlower.plain _ htype, hlower.plain _ (plain_toString i)]
    simp only [toFeatureName_append, htype.toFeatureName, (plain_toString i).toFeatureName,
      hhyphen, String.append_assoc]
  rw [resourceName_some, resourceName_some, String.append_right_inj, hname, hname,
    append_index_eq_iff, String.append_left_inj, String.append_left_inj]

/-- The same where the index stands behind the component. -/
theorem resourceName_componentIndex_eq_iff (hlower : LowersWords lower) :
    resourceName lower pre clusterName resourceType (some (component ++ "-" ++ toString i)) =
        resourceName lower pre clusterName resourceType (some (other ++ "-" ++ toString j)) ↔
      resourceKey lower component = resourceKey lower other ∧ i = j := by
  have hkey : ∀ (i : Nat) (component : String), resourceKey lower (component ++ "-" ++ toString i) =
      resourceKey lower component ++ "-" ++ toString i := by
    intro i component
    have hhyphen : toFeatureName "-" = "-" := by decide
    rw [resourceKey, hlower.hyphen, hlower.plain _ (plain_toString i), toFeatureName_append,
      toFeatureName_append, (plain_toString i).toFeatureName, hhyphen, resourceKey]
  rw [resourceName_eq_iff, hkey, hkey, append_index_eq_iff]

/-- The resources of a cluster that are named by a word before a hyphen. -/
theorem resourceName_word_eq_iff (hlower : LowersWords lower) {word word' suffix : String} :
    resourceName lower pre clusterName (word ++ "-" ++ suffix) none =
        resourceName lower pre clusterName (word' ++ "-" ++ suffix) none ↔
      resourceKey lower word = resourceKey lower word' := by
  rw [resourceName_none, resourceName_none, String.append_right_inj, hlower.hyphen, hlower.hyphen,
    String.append_assoc, String.append_assoc, toFeatureName_append (lower word),
    toFeatureName_append (lower word'), String.append_left_inj]
  rfl

end

/-- `str.lower` character by character. -/
theorem lowersWords_map : LowersWords fun s => String.ofList (s.toList.map Char.toLower) where
  plain s hs := by
    rw [← String.toList_inj, String.toList_ofList, List.map_congr_left (g := id) fun c hc => ?_,
      List.map_id]
    rcases hs c hc with h | rfl
    · exact ClusterId.toLower_of_isNameChar h
    · decide
  hyphen s t := by
    rw [← String.toList_inj]
    have hhyphen : Char.toLower '-' = '-' := by decide
    simp [hhyphen]

end LambdaStack
