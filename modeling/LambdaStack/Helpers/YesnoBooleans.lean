/-
# Replacing yes and no

What `replace_yesno_with_booleans` does to one attribute of a document. A value
that has no boolean afterwards is the value before.
-/

import LambdaStack.Helpers.ObjdictHelpers

namespace LambdaStack

open Lib

namespace Val

/-- No boolean is in the value. -/
inductive NoBool : Val → Prop
  | scalar {s : Scalar} (h : ∀ b, s ≠ .bool b) : NoBool (.scalar s)
  | list {items : List Val} (h : ∀ x ∈ items, NoBool x) : NoBool (.list items)
  | dict {entries : Entries} (h : ∀ entry ∈ entries, NoBool entry.2) : NoBool (.dict entries)

theorem noBool_str (s : String) (type : StrType) : NoBool (.scalar (.str s type)) :=
  .scalar fun _ h => by cases h

/-- What `replace_yesno_with_booleans` leaves under a key. -/
def entryYesno (x : Val) : Val := (replaceYesnoEntry ("", x)).2

theorem replaceYesnoEntry_eq (entry : String × Val) :
    replaceYesnoEntry entry = (entry.1, entryYesno entry.2) := by
  obtain ⟨key, x⟩ := entry
  cases x with
  | scalar s =>
      cases s with
      | str s type =>
          simp only [entryYesno, replaceYesnoEntry]
          by_cases hyes : s ∈ yesValues
          · simp [hyes]
          · by_cases hno : s ∈ noValues <;> simp [hyes, hno]
      | null | bool | int | float => rfl
  | list | dict => rfl

theorem replaceYesnoEntries_eq (entries : Entries) :
    replaceYesnoEntries entries = entries.map fun entry => (entry.1, entryYesno entry.2) := by
  induction entries with
  | nil => rfl
  | cons entry rest ih => rw [replaceYesnoEntries, replaceYesnoEntry_eq, ih, List.map_cons]

theorem replaceYesnoItems_eq (items : List Val) :
    replaceYesnoItems items = items.map replaceYesno := by
  induction items with
  | nil => rfl
  | cons x rest ih => rw [replaceYesnoItems, ih, List.map_cons]

theorem lookup_map_snd (f : Val → Val) (entries : Entries) (key : String) :
    (entries.map fun entry => (entry.1, f entry.2)).lookup key = (entries.lookup key).map f := by
  induction entries with
  | nil => rfl
  | cons entry rest ih =>
      rw [List.map_cons, List.lookup_cons, List.lookup_cons, ih]
      cases key == entry.1 <;> rfl

theorem attr?_replaceYesno (x : Val) (key : String) :
    (replaceYesno x).attr? key = (x.attr? key).map entryYesno := by
  cases x with
  | scalar | list => rfl
  | dict entries =>
      rw [replaceYesno, replaceYesnoEntries_eq, attr?, attr?, lookup_map_snd]

theorem attr?_entryYesno (x : Val) (key : String) :
    (entryYesno x).attr? key = (x.attr? key).map entryYesno := by
  cases x with
  | scalar s =>
      cases s with
      | str s type =>
          simp only [entryYesno, replaceYesnoEntry]
          by_cases hyes : s ∈ yesValues
          · simp [hyes, attr?]
          · by_cases hno : s ∈ noValues <;> simp [hyes, hno, attr?]
      | null | bool | int | float => rfl
  | list items => rfl
  | dict entries => exact attr?_replaceYesno (.dict entries) key

/-- A value without booleans under a key is the one before the replacement, when
the same holds of the values inside it. -/
theorem entryYesno_eq_self_of {x : Val} (hinner : (replaceYesno x).NoBool → replaceYesno x = x)
    (h : (entryYesno x).NoBool) : entryYesno x = x := by
  cases x with
  | scalar s =>
      cases s with
      | str s type =>
          simp only [entryYesno, replaceYesnoEntry] at h ⊢
          by_cases hyes : s ∈ yesValues
          · simp only [hyes, if_true] at h
            cases h with
            | scalar h => exact absurd rfl (h true)
          · by_cases hno : s ∈ noValues
            · simp only [hyes, hno, if_true, if_false] at h
              cases h with
              | scalar h => exact absurd rfl (h false)
            · simp [hyes, hno]
      | null | bool | int | float => rfl
  | list | dict => exact hinner h

theorem replaceYesno_eq_self {x : Val} (h : (replaceYesno x).NoBool) : replaceYesno x = x := by
  induction x using Val.induct with
  | scalar s => rfl
  | list items ih =>
      rw [replaceYesno, replaceYesnoItems_eq] at h ⊢
      cases h with
      | list h =>
          rw [List.map_congr_left (g := id) fun x hx => ih x hx (h _ (List.mem_map_of_mem hx)),
            List.map_id]
  | dict entries ih =>
      rw [replaceYesno, replaceYesnoEntries_eq] at h ⊢
      cases h with
      | dict h =>
          rw [List.map_congr_left (g := id) fun entry hentry => by
            rw [entryYesno_eq_self_of (ih entry hentry)
              (h (entry.1, entryYesno entry.2) (List.mem_map.mpr ⟨entry, hentry, rfl⟩))]
            rfl, List.map_id]

/-- A value without booleans under a key is the one before the replacement. -/
theorem entryYesno_eq_self {x : Val} (h : (entryYesno x).NoBool) : entryYesno x = x :=
  entryYesno_eq_self_of replaceYesno_eq_self h

theorem entryYesno_bool (b : Bool) : entryYesno (.bool b) = .bool b := rfl

theorem entryYesno_str (s : String) (type : StrType) :
    entryYesno (.scalar (.str s type)) =
      if s ∈ yesValues then .bool true else if s ∈ noValues then .bool false
      else .scalar (.str s type) := by
  rw [entryYesno, replaceYesnoEntry]
  split
  · rfl
  · split <;> rfl

theorem str?_of_entryYesno {x : Val} {s : String} (h : (entryYesno x).str? = some s) :
    x.str? = some s := by
  obtain ⟨type, heq⟩ := str?_eq_some.mp h
  have hself : entryYesno x = x := entryYesno_eq_self (by rw [heq]; exact noBool_str s type)
  rwa [← hself]

theorem isKind_of_replaceYesno {x : Val} {kind : String} (h : (replaceYesno x).IsKind kind) :
    x.IsKind kind := by
  rw [isKind_iff, attr?_replaceYesno] at h
  obtain ⟨own, hown, hkind⟩ := h
  obtain ⟨before, hbefore, rfl⟩ := Option.map_eq_some_iff.mp hown
  exact isKind_iff.mpr ⟨before, hbefore, str?_of_entryYesno hkind⟩

/-- A kind that is neither a yes nor a no is kept. -/
theorem isKind_replaceYesno {x : Val} {kind : String} (hno : kind ∉ yesValues ++ noValues) :
    (replaceYesno x).IsKind kind ↔ x.IsKind kind := by
  refine ⟨isKind_of_replaceYesno, fun h => ?_⟩
  obtain ⟨own, hown, hkind⟩ := isKind_iff.mp h
  obtain ⟨type, rfl⟩ := str?_eq_some.mp hkind
  rw [List.mem_append, not_or] at hno
  refine isKind_iff.mpr ⟨_, by rw [attr?_replaceYesno, hown, Option.map_some], ?_⟩
  rw [entryYesno_str, if_neg hno.1, if_neg hno.2, str?_str]

/-- Nothing is left to replace under a key. -/
theorem entryYesno_entryYesno_of {x : Val}
    (hinner : replaceYesno (replaceYesno x) = replaceYesno x) :
    entryYesno (entryYesno x) = entryYesno x := by
  cases x with
  | scalar s =>
      cases s with
      | str s type =>
          by_cases hyes : s ∈ yesValues
          · rw [entryYesno_str, if_pos hyes, entryYesno_bool]
          · by_cases hno : s ∈ noValues
            · rw [entryYesno_str, if_neg hyes, if_pos hno, entryYesno_bool]
            · have hself : entryYesno (.scalar (.str s type)) = .scalar (.str s type) := by
                rw [entryYesno_str, if_neg hyes, if_neg hno]
              rw [hself, hself]
      | null | bool | int | float => rfl
  | list | dict => exact hinner

/-- Replacing yes and no again changes nothing. -/
theorem replaceYesno_replaceYesno (x : Val) : replaceYesno (replaceYesno x) = replaceYesno x := by
  induction x using Val.induct with
  | scalar s => rfl
  | list items ih =>
      simp only [replaceYesno, replaceYesnoItems_eq, List.map_map]
      exact congrArg _ (List.map_congr_left ih)
  | dict entries ih =>
      simp only [replaceYesno, replaceYesnoEntries_eq, List.map_map]
      refine congrArg _ (List.map_congr_left fun entry hentry => ?_)
      exact congrArg (Prod.mk entry.1) (entryYesno_entryYesno_of (ih entry hentry))

end Val

end LambdaStack
