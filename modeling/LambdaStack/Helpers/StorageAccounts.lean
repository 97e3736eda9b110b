/-
# Names of storage accounts

Azure takes 3 to 24 lower case letters and digits. The prefix has at most 8 characters
and the use is cut to 5, so there is room for the cluster's name, which loses its
hyphens first and is cut only where the whole would be too long.
-/

import LambdaStack.Helpers.ClusterIdentity

namespace LambdaStack

/-- A string of `least` to `most` characters of a class. -/
def consistsOf (allowed : Char → Bool) (least most : Nat) (s : String) : Bool :=
  s.toList.all allowed && least ≤ s.length && s.length ≤ most

/-- The prefix that goes into a name. -/
def effectivePrefix (pre : String) : String := if noPrefix pre then "" else pre

/-- `cluster_name.replace('-', '')`. -/
def withoutHyphens (clusterName : String) : String :=
  String.ofList (clusterName.toList.filter (· ≠ '-'))

/-- A name Azure takes for a storage account. -/
def acceptsStorageAccount (name : String) : Bool := consistsOf isPrefixChar 3 24 name

theorem consistsOf_eq_true {allowed : Char → Bool} {least most : Nat} {s : String} :
    consistsOf allowed least most s = true ↔
      (∀ c ∈ s.toList, allowed c = true) ∧ least ≤ s.length ∧ s.length ≤ most := by
  simp [consistsOf, and_assoc]

/-- Letters and digits are left alone by `lower`. -/
theorem plain_of_prefixChars {s : String} (h : ∀ c ∈ s.toList, isPrefixChar c = true) :
    Plain s := by
  intro c hc
  rw [isNameChar, h c hc, Bool.true_or]
  exact Or.inl rfl

theorem takeChars_eq_self {n : Nat} {s : String} (h : s.length ≤ n) : takeChars n s = s := by
  rw [takeChars, List.take_of_length_le (by rwa [String.length_toList]), String.ofList_toList]

theorem mem_takeChars {n : Nat} {s : String} {c : Char} (h : c ∈ (takeChars n s).toList) :
    c ∈ s.toList := by
  rw [takeChars, String.toList_ofList] at h
  exact List.mem_of_mem_take h

theorem length_takeChars (n : Nat) (s : String) :
    (takeChars n s).length = min n s.length := by
  rw [takeChars, String.length_ofList, List.length_take, String.length_toList]

theorem isPrefixChar_of_withoutHyphens {clusterName : String} {c : Char}
    (hname : ∀ c ∈ clusterName.toList, isNameChar c = true)
    (h : c ∈ (withoutHyphens clusterName).toList) : isPrefixChar c = true := by
  rw [withoutHyphens, String.toList_ofList, List.mem_filter] at h
  have hchar := hname c h.1
  rw [isNameChar, Bool.or_eq_true] at hchar
  rcases hchar with hchar | hhyphen
  · exact hchar
  · exact absurd hhyphen (by simpa using h.2)

section

variable {lower : String → String} {pre clusterName storageUse : String}

/-- The prefix that goes into a name has at most 8 characters. -/
theorem effectivePrefix_spec
    (hpre : pre = "" ∨ pre = "default" ∨ consistsOf isPrefixChar 2 8 pre = true) :
    (∀ c ∈ (effectivePrefix pre).toList, isPrefixChar c = true) ∧
      (effectivePrefix pre).length ≤ 8 := by
  unfold effectivePrefix
  by_cases hnone : noPrefix pre
  · rw [if_pos hnone]
    exact ⟨by simp, by decide⟩
  · rw [if_neg hnone]
    rcases hpre with rfl | rfl | hpre
    · exact absurd rfl hnone
    · exact absurd rfl hnone
    · obtain ⟨hchars, -, hlength⟩ := consistsOf_eq_true.mp hpre
      exact ⟨hchars, hlength⟩

/-- The three parts of a name: the prefix, what is left of the cluster's name, and the
first characters of the use. -/
theorem storageAccountName_eq (hlower : ∀ s, Plain s → lower s = s)
    (hpre : pre = "" ∨ pre = "default" ∨ consistsOf isPrefixChar 2 8 pre = true)
    (hname : consistsOf isNameChar 3 20 clusterName = true)
    (huse : ∀ c ∈ storageUse.toList, isPrefixChar c = true) :
    storageAccountName lower pre clusterName storageUse =
      effectivePrefix pre ++
        takeChars (24 - ((effectivePrefix pre).length + (takeChars 5 storageUse).length))
          (withoutHyphens clusterName) ++ takeChars 5 storageUse := by
  obtain ⟨hprechars, hprelength⟩ := effectivePrefix_spec hpre
  obtain ⟨hnamechars, -, -⟩ := consistsOf_eq_true.mp hname
  have hsto : lower (takeChars 5 storageUse) = takeChars 5 storageUse :=
    hlower _ (plain_of_prefixChars fun c hc => huse c (mem_takeChars hc))
  have heffective : (if noPrefix pre then "" else lower (takeChars 8 pre)) =
      effectivePrefix pre := by
    unfold effectivePrefix at hprechars hprelength ⊢
    by_cases hnone : noPrefix pre
    · rw [if_pos hnone, if_pos hnone]
    · rw [if_neg hnone] at hprechars hprelength
      rw [if_neg hnone, if_neg hnone, takeChars_eq_self hprelength,
        hlower _ (plain_of_prefixChars hprechars)]
  have hclu : ∀ n, lower (takeChars n (withoutHyphens clusterName)) =
      takeChars n (withoutHyphens clusterName) := by
    intro n
    apply hlower
    apply plain_of_prefixChars
    intro c hc
    exact isPrefixChar_of_withoutHyphens hnamechars (mem_takeChars hc)
  unfold storageAccountName
  simp only [hsto, heffective]
  rw [show String.ofList (clusterName.toList.filter (· ≠ '-')) = withoutHyphens clusterName from
    rfl, hclu]

/-- A storage account's name is accepted, begins with the prefix, ends with the use and
holds the whole name of the cluster where there is room for it. -/
theorem storageAccountName_accepted (hlower : ∀ s, Plain s → lower s = s)
    (hpre : pre = "" ∨ pre = "default" ∨ consistsOf isPrefixChar 2 8 pre = true)
    (hname : consistsOf isNameChar 3 20 clusterName = true)
    (huse : ∀ c ∈ storageUse.toList, isPrefixChar c = true) (hlength : 3 ≤ storageUse.length) :
    acceptsStorageAccount (storageAccountName lower pre clusterName storageUse) = true ∧
      (effectivePrefix pre).toList <+:
        (storageAccountName lower pre clusterName storageUse).toList ∧
      (takeChars 5 storageUse).toList <:+
        (storageAccountName lower pre clusterName storageUse).toList ∧
      ((effectivePrefix pre ++ withoutHyphens clusterName ++ takeChars 5 storageUse).length ≤ 24 →
        storageAccountName lower pre clusterName storageUse =
          effectivePrefix pre ++ withoutHyphens clusterName ++ takeChars 5 storageUse) := by
  obtain ⟨hprechars, hprelength⟩ := effectivePrefix_spec hpre
  obtain ⟨hnamechars, -, -⟩ := consistsOf_eq_true.mp hname
  have huselength := length_takeChars 5 storageUse
  rw [storageAccountName_eq hlower hpre hname huse]
  refine ⟨?_, ?_, ?_, ?_⟩
  · apply consistsOf_eq_true.mpr
    refine ⟨?_, ?_, ?_⟩
    · intro c hc
      simp only [String.toList_append, List.mem_append] at hc
      rcases hc with (hc | hc) | hc
      · exact hprechars c hc
      · exact isPrefixChar_of_withoutHyphens hnamechars (mem_takeChars hc)
      · exact huse c (mem_takeChars hc)
    · simp only [String.length_append]
      omega
    · simp only [String.length_append, length_takeChars]
      omega
  · rw [String.toList_append, String.toList_append, List.append_assoc]
    exact List.prefix_append _ _
  · rw [String.toList_append]
    exact List.suffix_append _ _
  · intro hroom
    rw [takeChars_eq_self]
    simp only [String.length_append] at hroom
    omega

/-- A name of 22 characters, which has room for all of its parts. -/
theorem storageAccountName_accepted_sample :
    acceptsStorageAccount (storageAccountName String.toLower "lambda12" "prod-east-1" "k8ss12") =
        true ∧
      (effectivePrefix "lambda12").toList <+:
        (storageAccountName String.toLower "lambda12" "prod-east-1" "k8ss12").toList ∧
      (takeChars 5 "k8ss12").toList <:+
        (storageAccountName String.toLower "lambda12" "prod-east-1" "k8ss12").toList ∧
      ((effectivePrefix "lambda12" ++ withoutHyphens "prod-east-1" ++
          takeChars 5 "k8ss12").length ≤ 24 →
        storageAccountName String.toLower "lambda12" "prod-east-1" "k8ss12" =
          effectivePrefix "lambda12" ++ withoutHyphens "prod-east-1" ++ takeChars 5 "k8ss12") :=
  storageAccountName_accepted ClusterId.toLower_of_plain (by decide) (by decide)
    (List.all_eq_true.mp (by decide)) (by decide)

end

end LambdaStack
