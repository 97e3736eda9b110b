/-
# Removing a value

`remove_value` of `objdict_helpers`, with which `init` takes the fields out of the
documents that are set by automation. It deletes the entries of mappings that have
the value. What is neither a string nor a list is taken for a mapping, so a number,
a boolean or a null in a list is iterated over, which raises.
-/

import LambdaStack.Data.Exception

namespace LambdaStack

open Lib

mutual
/-- `remove_value`. The deletions Python makes in place are returned. -/
def removeValue (value : String) : Val → Res Val
  | .scalar (.str s type) => .ok (.scalar (.str s type))
  | .scalar _ => .error .typeError
  | .list items => do
      let items ← removeFromItems value items
      .ok (.list items)
  | .dict entries => do
      let entries ← removeFromEntries value entries
      .ok (.dict entries)
termination_by structural x => x

/-- The loop over the items of a list. -/
def removeFromItems (value : String) : List Val → Res (List Val)
  | [] => .ok []
  | x :: rest => do
      let x ← removeValue value x
      let rest ← removeFromItems value rest
      .ok (x :: rest)
termination_by structural x => x

/-- The loop over the keys of a mapping. -/
def removeFromEntries (value : String) : Entries → Res Entries
  | [] => .ok []
  | entry :: rest => do
      let kept ← removeFromEntry value entry
      let rest ← removeFromEntries value rest
      .ok (kept.toList ++ rest)
termination_by structural x => x

/-- One key: an entry with the value is deleted. -/
def removeFromEntry (value : String) : String × Val → Res (Option (String × Val))
  | (key, .list items) => do
      let x ← removeValue value (.list items)
      .ok (some (key, x))
  | (key, .dict entries) => do
      let x ← removeValue value (.dict entries)
      .ok (some (key, x))
  | (key, .scalar s) => .ok (if (Scalar.str value).pyEq s then none else some (key, .scalar s))
termination_by structural x => x
end

/-! ## What is left -/

namespace Val

/-- The value is the string. -/
def isStr (value : String) : Val → Bool
  | .scalar (.str s _) => s = value
  | _ => false

/-- A scalar other than a string. -/
def isBareScalar : Val → Bool
  | .scalar (.str _ _) => false
  | .scalar _ => true
  | _ => false

mutual
/-- The document without the entries that have the value. -/
def withoutValue (value : String) : Val → Val
  | .scalar s => .scalar s
  | .list items => .list (itemsWithoutValue value items)
  | .dict entries => .dict (entriesWithoutValue value entries)
termination_by structural x => x

/-- The same items, each without the entries. -/
def itemsWithoutValue (value : String) : List Val → List Val
  | [] => []
  | x :: rest => withoutValue value x :: itemsWithoutValue value rest
termination_by structural x => x

/-- The other entries in their order, each without the entries. -/
def entriesWithoutValue (value : String) : Entries → Entries
  | [] => []
  | entry :: rest => entryWithoutValue value entry ++ entriesWithoutValue value rest
termination_by structural x => x

/-- No entry for one that has the value. -/
def entryWithoutValue (value : String) : String × Val → Entries
  | (key, x) => if x.isStr value then [] else [(key, withoutValue value x)]
termination_by structural x => x
end

/-- Some mapping in the document has an entry with the value. -/
inductive HoldsValue (value : String) : Val → Prop
  | here {entries : Entries} {entry : String × Val} (hmem : entry ∈ entries)
      (hvalue : entry.2.str? = some value) : HoldsValue value (.dict entries)
  | entry {entries : Entries} {entry : String × Val} (hmem : entry ∈ entries)
      (h : HoldsValue value entry.2) : HoldsValue value (.dict entries)
  | item {items : List Val} {x : Val} (hmem : x ∈ items) (h : HoldsValue value x) :
      HoldsValue value (.list items)

/-- Every scalar in a list of the document is a string. -/
inductive StringItems : Val → Prop
  | scalar (s : Scalar) : StringItems (.scalar s)
  | list {items : List Val} (hbare : ∀ x ∈ items, x.isBareScalar = false)
      (hitems : ∀ x ∈ items, StringItems x) : StringItems (.list items)
  | dict {entries : Entries} (hentries : ∀ entry ∈ entries, StringItems entry.2) :
      StringItems (.dict entries)

theorem itemsWithoutValue_eq (value : String) (items : List Val) :
    itemsWithoutValue value items = items.map (withoutValue value) := by
  induction items with
  | nil => rfl
  | cons x rest ih => rw [itemsWithoutValue, ih, List.map_cons]

/-- The entries that are left are the others, in their order. -/
theorem entriesWithoutValue_eq (value : String) (entries : Entries) :
    entriesWithoutValue value entries =
      (entries.filter fun entry => !entry.2.isStr value).map
        fun entry => (entry.1, withoutValue value entry.2) := by
  induction entries with
  | nil => rfl
  | cons entry rest ih =>
      obtain ⟨key, x⟩ := entry
      rw [entriesWithoutValue, ih, entryWithoutValue, List.filter_cons]
      cases h : x.isStr value <;> simp

theorem isStr_eq_true_iff {value : String} {x : Val} :
    x.isStr value = true ↔ x.str? = some value := by
  cases x with
  | scalar s => cases s <;> simp [isStr, str?, Scalar.str?]
  | list items => simp [isStr, str?]
  | dict entries => simp [isStr, str?]

/-- A value that is not the string has another left of it. -/
theorem isStr_withoutValue (value other : String) (x : Val) :
    (withoutValue value x).isStr other = x.isStr other := by
  cases x <;> rfl

/-- No entry with the value is left. -/
theorem not_holdsValue_withoutValue (value : String) (x : Val) :
    ¬ HoldsValue value (withoutValue value x) := by
  induction x using Val.induct with
  | scalar s => exact fun h => by cases h
  | list items ih =>
      rw [withoutValue, itemsWithoutValue_eq]
      rintro (_ | _ | ⟨hmem, h⟩)
      obtain ⟨x, hx, rfl⟩ := List.mem_map.mp hmem
      exact ih x hx h
  | dict entries ih =>
      rw [withoutValue, entriesWithoutValue_eq]
      rintro (⟨hmem, hvalue⟩ | ⟨hmem, h⟩ | _)
      · obtain ⟨entry, hentry, rfl⟩ := List.mem_map.mp hmem
        have hstr : (withoutValue value entry.2).isStr value = true :=
          isStr_eq_true_iff.mpr hvalue
        rw [isStr_withoutValue] at hstr
        simpa [hstr] using (List.mem_filter.mp hentry).2
      · obtain ⟨entry, hentry, rfl⟩ := List.mem_map.mp hmem
        exact ih entry (List.mem_filter.mp hentry).1 h

end Val

/-! ## When the value is removed -/

section

variable {value : String}

/-- What `remove_value` is to do with a part of a document. -/
def RemovesFrom (value : String) (x : Val) : Prop :=
  ∀ y, removeValue value x = .ok y ↔
    x.isBareScalar = false ∧ x.StringItems ∧ y = x.withoutValue value

theorem removeFromItems_eq_ok {items items' : List Val}
    (hitems : ∀ x ∈ items, RemovesFrom value x) :
    removeFromItems value items = .ok items' ↔
      ((∀ x ∈ items, x.isBareScalar = false) ∧ ∀ x ∈ items, x.StringItems) ∧
        items' = Val.itemsWithoutValue value items := by
  induction items generalizing items' with
  | nil =>
      rw [removeFromItems, Val.itemsWithoutValue, Except.ok.injEq]
      exact ⟨fun h => ⟨by simp, h.symm⟩, fun h => h.2.symm⟩
  | cons x rest ih =>
      rw [List.forall_mem_cons] at hitems
      have hx := hitems.1
      simp only [removeFromItems, bind_eq_ok, Except.ok.injEq, ih hitems.2, hx _,
        List.forall_mem_cons, Val.itemsWithoutValue]
      constructor
      · rintro ⟨y, ⟨hbare, hstrings, rfl⟩, ys, ⟨⟨hbares, hall⟩, rfl⟩, rfl⟩
        exact ⟨⟨⟨hbare, hbares⟩, hstrings, hall⟩, rfl⟩
      · rintro ⟨⟨⟨hbare, hbares⟩, hstrings, hall⟩, rfl⟩
        exact ⟨_, ⟨hbare, hstrings, rfl⟩, _, ⟨⟨hbares, hall⟩, rfl⟩, rfl⟩

/-- A list or a mapping under a key. -/
theorem removeFromEntry_of_nested {key : String} {x : Val} (hx : RemovesFrom value x)
    (hbare : x.isBareScalar = false) (hstr : x.isStr value = false)
    (heq : removeFromEntry value (key, x) = (removeValue value x).bind fun y => .ok (some (key, y)))
    {kept : Option (String × Val)} :
    removeFromEntry value (key, x) = .ok kept ↔
      x.StringItems ∧ kept.toList = Val.entryWithoutValue value (key, x) := by
  rw [heq, Val.entryWithoutValue, if_neg (by simp [hstr]), Option.toList_eq_singleton_iff]
  change (removeValue value x >>= _) = _ ↔ _
  simp only [bind_eq_ok, hx _, hbare, Except.ok.injEq]
  constructor
  · rintro ⟨y, ⟨-, hstrings, rfl⟩, rfl⟩
    exact ⟨hstrings, rfl⟩
  · rintro ⟨hstrings, rfl⟩
    exact ⟨_, ⟨trivial, hstrings, rfl⟩, rfl⟩

/-- The value of an entry may be any scalar. -/
theorem removeFromEntry_eq_ok {entry : String × Val} {kept : Option (String × Val)}
    (hentry : RemovesFrom value entry.2) :
    removeFromEntry value entry = .ok kept ↔
      entry.2.StringItems ∧ kept.toList = Val.entryWithoutValue value entry := by
  obtain ⟨key, x⟩ := entry
  cases x with
  | scalar s =>
      have hstr : (Scalar.str value).pyEq s = (Val.scalar s).isStr value := by
        cases s with
        | str s => simp [Val.isStr, eq_comm]
        | null | bool | int | float => simp [Val.isStr, Scalar.pyEq, Scalar.num?, Scalar.str?]
      rw [removeFromEntry, hstr, Val.entryWithoutValue]
      cases (Val.scalar s).isStr value <;>
        cases kept <;> simp [Val.StringItems.scalar, Val.withoutValue, eq_comm]
  | list items => exact removeFromEntry_of_nested hentry rfl rfl rfl
  | dict entries => exact removeFromEntry_of_nested hentry rfl rfl rfl

theorem removeFromEntries_eq_ok {entries entries' : Entries}
    (hentries : ∀ entry ∈ entries, RemovesFrom value entry.2) :
    removeFromEntries value entries = .ok entries' ↔
      (∀ entry ∈ entries, entry.2.StringItems) ∧
        entries' = Val.entriesWithoutValue value entries := by
  induction entries generalizing entries' with
  | nil =>
      rw [removeFromEntries, Val.entriesWithoutValue, Except.ok.injEq]
      exact ⟨fun h => ⟨by simp, h.symm⟩, fun h => h.2.symm⟩
  | cons entry rest ih =>
      rw [List.forall_mem_cons] at hentries
      simp only [removeFromEntries, bind_eq_ok, Except.ok.injEq, ih hentries.2,
        removeFromEntry_eq_ok hentries.1, List.forall_mem_cons, Val.entriesWithoutValue]
      constructor
      · rintro ⟨kept, ⟨hstrings, hkept⟩, es, ⟨hall, rfl⟩, rfl⟩
        exact ⟨⟨hstrings, hall⟩, by rw [hkept]⟩
      · rintro ⟨⟨hstrings, hall⟩, rfl⟩
        have hkept : ∃ kept : Option (String × Val),
            kept.toList = Val.entryWithoutValue value entry := by
          rw [Val.entryWithoutValue]
          split
          · exact ⟨none, rfl⟩
          · exact ⟨some _, rfl⟩
        obtain ⟨kept, hkept⟩ := hkept
        exact ⟨kept, ⟨hstrings, hkept⟩, _, ⟨hall, rfl⟩, by rw [hkept]⟩

/-- The value is removed where every list has strings for scalars, and then exactly. -/
theorem removesFrom (value : String) (x : Val) : RemovesFrom value x := by
  induction x using Val.induct with
  | scalar s =>
      intro y
      cases s with
      | str s => simp [removeValue, Val.isBareScalar, Val.StringItems.scalar, Val.withoutValue,
          eq_comm]
      | null | bool | int | float => simp [removeValue, Val.isBareScalar]
  | list items ih =>
      intro y
      simp only [removeValue, bind_eq_ok, removeFromItems_eq_ok ih, Except.ok.injEq]
      constructor
      · rintro ⟨_, ⟨⟨hbare, hall⟩, rfl⟩, rfl⟩
        exact ⟨rfl, .list hbare hall, rfl⟩
      · rintro ⟨-, hstrings, rfl⟩
        cases hstrings with
        | list hbare hall => exact ⟨_, ⟨⟨hbare, hall⟩, rfl⟩, rfl⟩
  | dict entries ih =>
      intro y
      simp only [removeValue, bind_eq_ok, removeFromEntries_eq_ok ih, Except.ok.injEq]
      constructor
      · rintro ⟨_, ⟨hall, rfl⟩, rfl⟩
        exact ⟨rfl, .dict hall, rfl⟩
      · rintro ⟨-, hstrings, rfl⟩
        cases hstrings with
        | dict hall => exact ⟨_, ⟨hall, rfl⟩, rfl⟩

end

/-- The run does not raise; afterwards no mapping has an entry with the value, and the
documents are what they were without these entries. -/
def RemovesExactly (value : String) (docs : List Val) : Prop :=
  ∃ docs', removeValue value (.list docs) = .ok (.list docs') ∧
    (∀ doc ∈ docs', ¬ doc.HoldsValue value) ∧ docs' = docs.map (Val.withoutValue value)

/-- The value is removed from the documents if and only if no list in them, nor that of
the documents themselves, has a scalar for an item that is not a string. -/
theorem removeValue_removesExactly_iff (value : String) (docs : List Val) :
    RemovesExactly value docs ↔ (Val.list docs).StringItems := by
  constructor
  · rintro ⟨docs', hrun, -, -⟩
    exact ((removesFrom value (.list docs) _).mp hrun).2.1
  · intro hstrings
    refine ⟨_, (removesFrom value (.list docs) _).mpr ⟨rfl, hstrings, ?_⟩, fun doc hdoc => ?_, rfl⟩
    · rw [Val.withoutValue, Val.itemsWithoutValue_eq]
    · obtain ⟨x, -, rfl⟩ := List.mem_map.mp hdoc
      exact Val.not_holdsValue_withoutValue value x

/-- A list of port numbers is taken for a mapping. -/
theorem removeValue_ports_raises :
    ¬ RemovesExactly "SET_BY_AUTOMATION"
      [.dict [("specification", .dict [("ports", .list [.int 80, .int 443])])]] := by
  rintro ⟨docs', hrun, -⟩
  cases hrun

end LambdaStack
