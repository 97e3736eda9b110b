/-
# Insertion-ordered dictionaries

A dictionary that keeps the order in which its keys were first assigned, as an
association list read with `List.lookup`. Assignment replaces the value of a
known key in place and appends an unknown one, which is the order a Python
`dict` iterates in. The module names no program: keys and values are arbitrary.
-/

import Mathlib.Data.List.Basic
import Mathlib.Data.List.Nodup
import Mathlib.Data.List.Perm.Subperm

namespace Lib

universe u v

variable {κ : Type u} {α : Type v} [DecidableEq κ]

/-- Assign `value` to `key`: in place when the key is known, at the end when it
is new. -/
def dictSet (key : κ) (value : α) : List (κ × α) → List (κ × α)
  | [] => [(key, value)]
  | (k, v) :: rest =>
      if k = key then (key, value) :: rest else (k, v) :: dictSet key value rest

/-- The keys of a dictionary in iteration order. -/
def dictKeys (entries : List (κ × α)) : List κ := entries.map Prod.fst

omit [DecidableEq κ] in
@[simp]
theorem dictKeys_nil : dictKeys ([] : List (κ × α)) = [] := rfl

omit [DecidableEq κ] in
@[simp]
theorem dictKeys_cons (entry : κ × α) (rest : List (κ × α)) :
    dictKeys (entry :: rest) = entry.1 :: dictKeys rest := rfl

omit [DecidableEq κ] in
@[simp]
theorem dictKeys_append (first second : List (κ × α)) :
    dictKeys (first ++ second) = dictKeys first ++ dictKeys second := by
  simp [dictKeys]

@[simp]
theorem lookup_dictSet_self (key : κ) (value : α) (entries : List (κ × α)) :
    (dictSet key value entries).lookup key = some value := by
  induction entries with
  | nil => simp [dictSet]
  | cons entry rest ih =>
      obtain ⟨k, v⟩ := entry
      by_cases hk : k = key
      · simp [dictSet, hk]
      · have hne : (key == k) = false := by simpa using fun h => hk h.symm
        simp [dictSet, hk, List.lookup_cons, hne, ih]

theorem lookup_dictSet_ne {key other : κ} (hne : other ≠ key) (value : α)
    (entries : List (κ × α)) :
    (dictSet key value entries).lookup other = entries.lookup other := by
  induction entries with
  | nil => simp [dictSet, hne]
  | cons entry rest ih =>
      obtain ⟨k, v⟩ := entry
      by_cases hk : k = key
      · subst hk
        have : (other == k) = false := by simpa using hne
        simp [dictSet, List.lookup_cons, this]
      · simp [dictSet, hk, List.lookup_cons, ih]

/-- Lookup after an assignment, by cases on the key. -/
theorem lookup_dictSet (key other : κ) (value : α) (entries : List (κ × α)) :
    (dictSet key value entries).lookup other =
      if other = key then some value else entries.lookup other := by
  by_cases h : other = key
  · subst h; simp
  · simp [h, lookup_dictSet_ne h]

theorem lookup_eq_none_iff_not_mem_dictKeys {key : κ} {entries : List (κ × α)} :
    entries.lookup key = none ↔ key ∉ dictKeys entries := by
  simp only [List.lookup_eq_none_iff, dictKeys, List.mem_map, bne_iff_ne, ne_eq]
  constructor
  · rintro h ⟨entry, hmem, rfl⟩
    exact h entry hmem rfl
  · intro h entry hmem
    exact fun heq => h ⟨entry, hmem, heq.symm⟩

theorem mem_of_lookup_eq_some {key : κ} {value : α} {entries : List (κ × α)}
    (h : entries.lookup key = some value) : (key, value) ∈ entries := by
  obtain ⟨l₁, l₂, rfl, _⟩ := List.lookup_eq_some_iff.mp h
  simp

theorem mem_dictKeys_of_lookup_eq_some {key : κ} {value : α} {entries : List (κ × α)}
    (h : entries.lookup key = some value) : key ∈ dictKeys entries :=
  List.mem_map.mpr ⟨(key, value), mem_of_lookup_eq_some h, rfl⟩

/-- With unique keys every entry is what lookup finds. -/
theorem lookup_eq_some_of_mem {entries : List (κ × α)} (hnodup : (dictKeys entries).Nodup)
    {key : κ} {value : α} (hmem : (key, value) ∈ entries) :
    entries.lookup key = some value := by
  induction entries with
  | nil => cases hmem
  | cons entry rest ih =>
      obtain ⟨k, v⟩ := entry
      rw [dictKeys_cons, List.nodup_cons] at hnodup
      rcases List.mem_cons.mp hmem with heq | hrest
      · cases heq; simp
      · have hne : key ≠ k := by
          rintro rfl
          exact hnodup.1 (List.mem_map.mpr ⟨(key, value), hrest, rfl⟩)
        have : (key == k) = false := by simpa using hne
        simp [List.lookup_cons, this, ih hnodup.2 hrest]

/-- An assignment to a known key keeps the key list. -/
theorem dictKeys_dictSet_of_mem {key : κ} {entries : List (κ × α)}
    (hmem : key ∈ dictKeys entries) (value : α) :
    dictKeys (dictSet key value entries) = dictKeys entries := by
  induction entries with
  | nil => cases hmem
  | cons entry rest ih =>
      obtain ⟨k, v⟩ := entry
      by_cases hk : k = key
      · simp [dictSet, hk]
      · have hrest : key ∈ dictKeys rest := by
          rcases List.mem_cons.mp hmem with heq | h
          · exact absurd heq.symm hk
          · exact h
        simp [dictSet, hk, ih hrest]

/-- An assignment to an unknown key appends its entry. -/
theorem dictSet_of_not_mem {key : κ} {entries : List (κ × α)}
    (hmem : key ∉ dictKeys entries) (value : α) :
    dictSet key value entries = entries ++ [(key, value)] := by
  induction entries with
  | nil => rfl
  | cons entry rest ih =>
      obtain ⟨k, v⟩ := entry
      have hk : k ≠ key := fun h => hmem (by simp [h])
      have hrest : key ∉ dictKeys rest := fun h => hmem (by simp [h])
      simp [dictSet, hk, ih hrest]

/-- Assignments keep the keys unique. -/
theorem nodup_dictKeys_dictSet {key : κ} {entries : List (κ × α)}
    (hnodup : (dictKeys entries).Nodup) (value : α) :
    (dictKeys (dictSet key value entries)).Nodup := by
  by_cases hmem : key ∈ dictKeys entries
  · rwa [dictKeys_dictSet_of_mem hmem]
  · rw [dictSet_of_not_mem hmem, dictKeys_append, dictKeys_cons, dictKeys_nil]
    exact List.nodup_append.mpr ⟨hnodup, List.nodup_singleton _,
      fun a ha b hb => by
        rw [List.mem_singleton.mp hb]
        rintro rfl
        exact hmem ha⟩

theorem mem_dictKeys_dictSet_self (key : κ) (value : α) (entries : List (κ × α)) :
    key ∈ dictKeys (dictSet key value entries) :=
  mem_dictKeys_of_lookup_eq_some (lookup_dictSet_self key value entries)

/-- The later of two assignments to a key counts. -/
@[simp]
theorem dictSet_dictSet (key : κ) (value value' : α) (entries : List (κ × α)) :
    dictSet key value (dictSet key value' entries) = dictSet key value entries := by
  induction entries with
  | nil => simp [dictSet]
  | cons entry rest ih =>
      obtain ⟨k, v⟩ := entry
      by_cases hk : k = key
      · simp [dictSet, hk]
      · simp [dictSet, hk, ih]

/-- An assignment to a known key may be made before another one. -/
theorem dictSet_comm {key other : κ} {entries : List (κ × α)} (hne : key ≠ other)
    (hmem : key ∈ dictKeys entries) (value value' : α) :
    dictSet key value (dictSet other value' entries) =
      dictSet other value' (dictSet key value entries) := by
  induction entries with
  | nil => cases hmem
  | cons entry rest ih =>
      obtain ⟨k, v⟩ := entry
      by_cases hk : k = key
      · subst hk
        simp [dictSet, hne]
      · have hrest : key ∈ dictKeys rest :=
          (List.mem_cons.mp hmem).resolve_left fun h => hk h.symm
        by_cases hother : k = other
        · simp [dictSet, hother, hne.symm]
        · simp [dictSet, hk, hother, ih hrest]

/-- Two keys assigned again in the same order have the later values only. -/
theorem dictSet_pair_twice {key other : κ} (hne : key ≠ other) (value value' : α)
    (second second' : α) (entries : List (κ × α)) :
    dictSet other second (dictSet key value (dictSet other second' (dictSet key value' entries))) =
      dictSet other second (dictSet key value entries) := by
  rw [dictSet_comm hne (mem_dictKeys_dictSet_self key value' entries), dictSet_dictSet,
    dictSet_dictSet]

/-- Dropping a key leaves the others. -/
theorem lookup_filter_ne {key other : κ} (hne : other ≠ key) (entries : List (κ × α)) :
    (entries.filter fun entry => entry.1 ≠ key).lookup other = entries.lookup other := by
  induction entries with
  | nil => rfl
  | cons entry rest ih =>
      by_cases hkey : entry.1 = key
      · have hother : (other == entry.1) = false := by simpa [hkey] using hne
        rw [List.filter_cons_of_neg (by simpa using hkey), ih, List.lookup_cons, hother]
      · rw [List.filter_cons_of_pos (by simpa using hkey), List.lookup_cons, List.lookup_cons, ih]

/-- A dropped key is not there. -/
theorem lookup_filter_self (key : κ) (entries : List (κ × α)) :
    (entries.filter fun entry => entry.1 ≠ key).lookup key = none := by
  rw [lookup_eq_none_iff_not_mem_dictKeys]
  intro hmem
  obtain ⟨entry, hentry, hkey⟩ := List.mem_map.mp hmem
  simpa [hkey] using (List.mem_filter.mp hentry).2

theorem mem_dictSet {key : κ} {value : α} {entries : List (κ × α)} {entry : κ × α}
    (hmem : entry ∈ dictSet key value entries) : entry = (key, value) ∨ entry ∈ entries := by
  induction entries with
  | nil => exact Or.inl (List.mem_singleton.mp hmem)
  | cons head rest ih =>
      obtain ⟨k, v⟩ := head
      by_cases hk : k = key
      · simp only [dictSet, hk, if_true, List.mem_cons] at hmem
        exact hmem.imp_right fun h => by simp [h]
      · simp only [dictSet, hk, if_false, List.mem_cons] at hmem
        rcases hmem with h | h
        · exact Or.inr (by simp [h])
        · exact (ih h).imp_right fun h => by simp [h]

/-! ## Building a dictionary -/

/-- The dictionary of a list of pairs: the last value of a key stands where its first did. -/
def dictOf (pairs : List (κ × α)) : List (κ × α) :=
  pairs.foldl (fun entries pair => dictSet pair.1 pair.2 entries) []

/-- Distinct keys make their list the dictionary. -/
theorem dictOf_eq_self {pairs : List (κ × α)} (hnodup : (dictKeys pairs).Nodup) :
    dictOf pairs = pairs := by
  suffices h : ∀ entries : List (κ × α), (dictKeys (entries ++ pairs)).Nodup →
      pairs.foldl (fun entries pair => dictSet pair.1 pair.2 entries) entries =
        entries ++ pairs from
    h [] hnodup
  clear hnodup
  induction pairs with
  | nil => simp
  | cons pair rest ih =>
      intro entries hnodup
      have hnew : pair.1 ∉ dictKeys entries := by
        intro hmem
        rw [dictKeys_append, dictKeys_cons] at hnodup
        exact (List.nodup_append.mp hnodup).2.2 _ hmem _ List.mem_cons_self rfl
      rw [List.foldl_cons, dictSet_of_not_mem hnew, ih]
      · simp
      · simpa using hnodup

/-- A dictionary as long as its list of pairs is that list. -/
theorem dictOf_eq_self_of_length {pairs : List (κ × α)}
    (hlength : (dictOf pairs).length = pairs.length) : dictOf pairs = pairs := by
  suffices h : ∀ entries : List (κ × α),
      (pairs.foldl (fun entries pair => dictSet pair.1 pair.2 entries) entries).length ≤
        entries.length + pairs.length ∧
      ((pairs.foldl (fun entries pair => dictSet pair.1 pair.2 entries) entries).length =
        entries.length + pairs.length →
          pairs.foldl (fun entries pair => dictSet pair.1 pair.2 entries) entries =
            entries ++ pairs) by
    exact (h []).2 (by simpa [dictOf] using hlength)
  clear hlength
  induction pairs with
  | nil => simp
  | cons pair rest ih =>
      intro entries
      rw [List.foldl_cons, List.length_cons]
      obtain ⟨hle, heq⟩ := ih (dictSet pair.1 pair.2 entries)
      by_cases hmem : pair.1 ∈ dictKeys entries
      · have hlength : (dictSet pair.1 pair.2 entries).length = entries.length := by
          have hkeys := congrArg List.length (dictKeys_dictSet_of_mem hmem pair.2)
          simpa [dictKeys] using hkeys
        rw [hlength] at hle
        exact ⟨by omega, fun h => by omega⟩
      · rw [dictSet_of_not_mem hmem] at hle heq ⊢
        rw [List.length_append, List.length_singleton] at hle heq
        refine ⟨by omega, fun h => ?_⟩
        rw [heq (by omega)]
        simp

end Lib
