/-
# What names a cluster

The tag and the resource names of a cluster join its prefix and its name with a
hyphen, which may also occur in the name, and leave the prefix `default` out. Two
accepted clusters therefore share their names exactly when they are one cluster
or one of them has no prefix and the joined name of the other. `lower` stands for
`str.lower`, which leaves lower case letters, digits and hyphens alone.
-/

import LambdaStack.Helpers.NamingHelpers
import LambdaStack.Lib.Lists

namespace LambdaStack

open Lib

/-- `re.search('^[…]{least,most}$', s)` for a class of characters without the
newline: `$` also matches before a newline that ends the string. -/
def matchesClass (allowed : Char → Bool) (least most : Nat) (s : String) : Bool :=
  let chars := s.toList
  let body := if chars.getLast? = some '\n' then chars.dropLast else chars
  body.all allowed && least ≤ body.length && body.length ≤ most

/-- `[a-z0-9]`. -/
def isPrefixChar (c : Char) : Bool := c.isLower || c.isDigit

/-- `[a-z0-9\-]`. -/
def isNameChar (c : Char) : Bool := isPrefixChar c || c == '-'

/-- The pattern `^[a-z0-9]{2,8}$` of the prefix in the schema of the cluster. -/
def acceptsPrefix (pre : String) : Bool := matchesClass isPrefixChar 2 8 pre

/-- The pattern `^[a-z0-9\-]{3,20}$` of the name in the schema of the cluster. -/
def acceptsName (clusterName : String) : Bool := matchesClass isNameChar 3 20 clusterName

/-- What makes one cluster: its prefix and its name. -/
structure ClusterId where
  pre : String
  clusterName : String
  deriving DecidableEq

namespace ClusterId

/-- The cluster schema accepts the prefix and the name. -/
def accepted (id : ClusterId) : Bool := acceptsPrefix id.pre && acceptsName id.clusterName

/-- The first cluster has no prefix, and its name is that of the second with the
prefix of the second in front. -/
def Shadows (id other : ClusterId) : Prop :=
  id.pre = "default" ∧ other.pre ≠ "default" ∧
    id.clusterName = other.pre ++ "-" ++ other.clusterName

end ClusterId

theorem mem_of_matchesClass {allowed : Char → Bool} {least most : Nat} {s : String}
    (h : matchesClass allowed least most s = true) :
    ∀ c ∈ s.toList, allowed c = true ∨ c = '\n' := by
  simp only [matchesClass, Bool.and_eq_true, List.all_eq_true] at h
  obtain ⟨⟨hbody, -⟩, -⟩ := h
  intro c hc
  split at hbody
  · next hlast =>
      obtain ⟨ys, hys⟩ := List.getLast?_eq_some_iff.mp hlast
      rw [hys] at hc hbody
      rw [List.dropLast_concat] at hbody
      rcases List.mem_append.mp hc with hc | hc
      · exact Or.inl (hbody c hc)
      · exact Or.inr (List.mem_singleton.mp hc)
  · exact Or.inl (hbody c hc)

/-- A name that is left alone by `lower` and by `to_feature_name`. -/
def Plain (s : String) : Prop := ∀ c ∈ s.toList, isNameChar c = true ∨ c = '\n'

theorem Plain.toFeatureName {s : String} (hs : Plain s) : toFeatureName s = s := by
  have hmap : s.toList.map (fun c => if c = '_' then '-' else c) = s.toList := by
    rw [List.map_congr_left (g := id) fun c hc => ?_, List.map_id]
    rw [if_neg]
    · rfl
    · rintro rfl
      rcases hs '_' hc with h | h <;> revert h <;> decide
  rw [LambdaStack.toFeatureName, replaceChar, hmap, String.ofList_toList]

namespace ClusterId

variable {id other : ClusterId}

theorem plain_pre (h : id.accepted = true) : Plain id.pre := by
  rw [accepted, Bool.and_eq_true] at h
  intro c hc
  refine (mem_of_matchesClass h.1 c hc).imp_left fun hallowed => ?_
  rw [isNameChar, hallowed, Bool.true_or]

theorem plain_clusterName (h : id.accepted = true) : Plain id.clusterName := by
  rw [accepted, Bool.and_eq_true] at h
  exact mem_of_matchesClass h.2

theorem hyphen_notMem_pre (h : id.accepted = true) : '-' ∉ id.pre.toList := by
  rw [accepted, Bool.and_eq_true] at h
  intro hmem
  rcases mem_of_matchesClass h.1 '-' hmem with h | h <;> revert h <;> decide

theorem noPrefix_iff (h : id.accepted = true) : noPrefix id.pre = true ↔ id.pre = "default" := by
  rw [noPrefix, Bool.or_eq_true, beq_iff_eq, beq_iff_eq, or_iff_right]
  intro hempty
  rw [accepted, Bool.and_eq_true, hempty] at h
  exact absurd h.1 (by decide)

/-- The name of a cluster with its prefix in front, if it has one. -/
def joined (id : ClusterId) : String :=
  if id.pre = "default" then id.clusterName else id.pre ++ "-" ++ id.clusterName

theorem plain_joined (h : id.accepted = true) : Plain id.joined := by
  unfold joined
  split
  · exact plain_clusterName h
  · intro c hc
    simp only [String.toList_append, List.mem_append] at hc
    rcases hc with (hc | hc) | hc
    · exact plain_pre h c hc
    · rw [List.mem_singleton.mp hc]
      exact Or.inl rfl
    · exact plain_clusterName h c hc

/-- Only a cluster without a prefix can have the joined name of another one. -/
theorem joined_eq_iff (h : id.accepted = true) (hother : other.accepted = true) :
    id.joined = other.joined ↔ id = other ∨ id.Shadows other ∨ other.Shadows id := by
  obtain ⟨pre, clusterName⟩ := id
  obtain ⟨pre', clusterName'⟩ := other
  simp only [joined, Shadows, ClusterId.mk.injEq]
  by_cases hpre : pre = "default" <;> by_cases hpre' : pre' = "default"
  · simp [hpre, hpre']
  · simp [hpre, hpre', Ne.symm hpre']
  · simp [hpre, hpre', eq_comm]
  · -- neither prefix has the hyphen that follows it
    have hsplit := append_cons_eq_iff (hyphen_notMem_pre h) (hyphen_notMem_pre hother)
      (a := clusterName.toList) (b := clusterName'.toList)
    simp only [hpre, hpre', if_false, false_and, or_false]
    simpa [← String.toList_inj] using hsplit

section

variable {lower : String → String}

theorem clusterTag_eq (hlower : ∀ s, Plain s → lower s = s) (h : id.accepted = true) :
    clusterTag lower id.pre id.clusterName = id.joined := by
  unfold clusterTag joined
  rw [hlower _ (plain_pre h), hlower _ (plain_clusterName h)]
  simp only [noPrefix_iff h]

theorem resourceName_eq (hlower : ∀ s, Plain s → lower s = s) (h : id.accepted = true)
    (resourceType : String) :
    resourceName lower id.pre id.clusterName resourceType none =
      id.joined ++ toFeatureName ("-" ++ lower resourceType) := by
  rw [← (plain_joined h).toFeatureName, ← toFeatureName_append]
  unfold resourceName joined
  rw [hlower _ (plain_pre h), hlower _ (plain_clusterName h)]
  simp only [noPrefix_iff h]
  split <;> simp [String.append_assoc]

/-- Two accepted clusters have one tag, or one name for a resource of any type,
exactly when they are one cluster or one of them has no prefix and the joined name
of the other. -/
theorem identity_iff (hlower : ∀ s, Plain s → lower s = s) (h : id.accepted = true)
    (hother : other.accepted = true) :
    (clusterTag lower id.pre id.clusterName = clusterTag lower other.pre other.clusterName ↔
      id = other ∨ id.Shadows other ∨ other.Shadows id) ∧
    ∀ resourceType,
      (resourceName lower id.pre id.clusterName resourceType none =
          resourceName lower other.pre other.clusterName resourceType none ↔
        id = other ∨ id.Shadows other ∨ other.Shadows id) := by
  refine ⟨?_, fun resourceType => ?_⟩
  · rw [clusterTag_eq hlower h, clusterTag_eq hlower hother]
    exact joined_eq_iff h hother
  · rw [resourceName_eq hlower h, resourceName_eq hlower hother, String.append_left_inj]
    exact joined_eq_iff h hother

end

theorem toLower_of_isNameChar {c : Char} (h : isNameChar c = true) : c.toLower = c := by
  apply dif_neg
  simp only [isNameChar, isPrefixChar, Bool.or_eq_true, beq_iff_eq] at h
  rcases h with (h | h) | rfl
  · change (decide (c.val ≥ 'a'.val) && decide (c.val ≤ 'z'.val)) = true at h
    simp only [Bool.and_eq_true, decide_eq_true_eq, UInt32.le_iff_toNat_le, ge_iff_le] at h ⊢
    have hlast : 'Z'.val.toNat = 90 := rfl
    have hfirst : 'a'.val.toNat = 97 := rfl
    omega
  · simp only [Char.isDigit, Bool.and_eq_true, decide_eq_true_eq, UInt32.le_iff_toNat_le,
      ge_iff_le] at h ⊢
    have hfirst : 'A'.val.toNat = 65 := rfl
    have hlast : '9'.val.toNat = 57 := rfl
    omega
  · decide

/-- `str.lower` on names of the accepted characters. -/
theorem toLower_of_plain (s : String) (hs : Plain s) : s.toLower = s := by
  rw [← String.toList_inj]
  change (s.map Char.toLower).toList = s.toList
  rw [String.toList_map,
    List.map_congr_left (g := id) fun c hc => ?_, List.map_id]
  rcases hs c hc with h | rfl
  · exact toLower_of_isNameChar h
  · decide

/-- The cluster `ab-cde` without a prefix and the cluster `cde` with the prefix
`ab` have one tag and one name for each resource. -/
theorem identity_ambiguous :
    ¬ ∀ id other : ClusterId, id.accepted = true → other.accepted = true →
      (clusterTag String.toLower id.pre id.clusterName =
          clusterTag String.toLower other.pre other.clusterName ∨
        ∃ resourceType,
          resourceName String.toLower id.pre id.clusterName resourceType none =
            resourceName String.toLower other.pre other.clusterName resourceType none) →
      id = other := by
  intro h
  have haccepted : (⟨"default", "ab-cde"⟩ : ClusterId).accepted = true := by decide
  have hother : (⟨"ab", "cde"⟩ : ClusterId).accepted = true := by decide
  have htag := (clusterTag_eq toLower_of_plain haccepted).trans
    (clusterTag_eq toLower_of_plain hother).symm
  have heq := h ⟨"default", "ab-cde"⟩ ⟨"ab", "cde"⟩ (by decide) (by decide) (Or.inl htag)
  exact absurd heq (by decide)

theorem identity_iff_sample :
    clusterTag String.toLower "default" "ab-cde" = clusterTag String.toLower "ab" "cde" ∧
      ⟨"default", "ab-cde"⟩ ≠ (⟨"ab", "cde"⟩ : ClusterId) := by
  refine ⟨?_, by decide⟩
  have haccepted : (⟨"default", "ab-cde"⟩ : ClusterId).accepted = true := by decide
  have hother : (⟨"ab", "cde"⟩ : ClusterId).accepted = true := by decide
  apply (identity_iff toLower_of_plain haccepted hother).1.mpr
  exact Or.inr (Or.inl ⟨rfl, by decide, rfl⟩)

end ClusterId

end LambdaStack
