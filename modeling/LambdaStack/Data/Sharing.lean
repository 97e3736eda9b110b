/-
# What shares objects with what

Reachability between objects, what loading a document leaves alone, and the
inversion lemmas of the operations on objects.
-/

import Mathlib.Logic.Relation
import LambdaStack.Data.Heap

namespace LambdaStack

open Lib

/-- The references an object holds. -/
def Obj.refs : Obj → List Ref
  | .list items => items
  | .dict entries => entries.map Prod.snd

/-- A reference to an object between two addresses, or to none. -/
def Ref.Within (low high : Addr) (r : Ref) : Prop := ∀ a, r = .obj a → low ≤ a ∧ a < high

theorem Ref.Within.mono {low low' high high' : Addr} {r : Ref} (h : r.Within low high)
    (hlow : low' ≤ low) (hhigh : high ≤ high') : r.Within low' high' :=
  fun a ha => ⟨hlow.trans (h a ha).1, (h a ha).2.trans_le hhigh⟩

namespace Heap

/-- Each mapping holds a key once. -/
def UniqueKeys (h : Heap) : Prop := ∀ a entries, h.obj a = .dict entries → (dictKeys entries).Nodup

/-- References lead to allocated objects, and mappings are Python mappings. -/
structure WellFormed (h : Heap) : Prop where
  allocated : ∀ a < h.next, ∀ b, Ref.obj b ∈ (h.obj a).refs → b < h.next
  keys : h.UniqueKeys

/-- One object holds a reference to the other. -/
def Refers (h : Heap) (a b : Addr) : Prop := Ref.obj b ∈ (h.obj a).refs

/-- The objects a document consists of. -/
def Reaches (h : Heap) : Addr → Addr → Prop := Relation.ReflTransGen h.Refers

theorem WellFormed.lt_of_reaches {h : Heap} (hwf : h.WellFormed) {a b : Addr} (ha : a < h.next)
    (hreach : h.Reaches a b) : b < h.next := by
  induction hreach with
  | refl => exact ha
  | tail _ hstep ih => exact hwf.allocated _ ih _ hstep

/-- New objects that refer to new ones only, the old ones being as they were. -/
structure Extends (h h' : Heap) : Prop where
  next_le : h.next ≤ h'.next
  obj_eq : ∀ a < h.next, h'.obj a = h.obj a
  fresh : ∀ a, h.next ≤ a → a < h'.next → ∀ r ∈ (h'.obj a).refs, r.Within h.next h'.next

theorem Extends.refl (h : Heap) : h.Extends h :=
  ⟨le_rfl, fun _ _ => rfl, fun _ hle hlt => absurd hlt (Nat.not_lt.mpr hle)⟩

theorem Extends.trans {h h₁ h₂ : Heap} (hfirst : h.Extends h₁) (hsecond : h₁.Extends h₂) :
    h.Extends h₂ where
  next_le := hfirst.next_le.trans hsecond.next_le
  obj_eq a ha :=
    (hsecond.obj_eq a (ha.trans_le hfirst.next_le)).trans (hfirst.obj_eq a ha)
  fresh a hle hlt r hr := by
    by_cases hold : a < h₁.next
    · rw [hsecond.obj_eq a hold] at hr
      exact (hfirst.fresh a hle hold r hr).mono le_rfl hsecond.next_le
    · exact (hsecond.fresh a (Nat.not_lt.mp hold) hlt r hr).mono hfirst.next_le le_rfl

theorem Extends.alloc {h h₁ : Heap} (hext : h.Extends h₁) {o : Obj}
    (ho : ∀ r ∈ o.refs, r.Within h.next h₁.next) : h.Extends (h₁.alloc o) where
  next_le := hext.next_le.trans (Nat.le_succ _)
  obj_eq a ha := by
    rw [alloc_obj_of_lt _ (ha.trans_le hext.next_le), hext.obj_eq a ha]
  fresh a hle hlt r hr := by
    rcases Nat.lt_succ_iff_lt_or_eq.mp hlt with hold | rfl
    · rw [alloc_obj_of_lt _ hold] at hr
      exact (hext.fresh a hle hold r hr).mono le_rfl (Nat.le_succ _)
    · rw [alloc_obj_self] at hr
      exact (ho r hr).mono le_rfl (Nat.le_succ _)

/-- What a loaded document consists of is new. -/
structure Loads (h : Heap) (refs : List Ref) (h' : Heap) : Prop extends Extends h h' where
  within : ∀ r ∈ refs, r.Within h.next h'.next

theorem loadItems_loads {items : List Val} (h : Heap)
    (hitems : ∀ x ∈ items, ∀ h : Heap, h.Loads [(h.load x).1] (h.load x).2) :
    h.Loads (h.loadItems items).1 (h.loadItems items).2 := by
  induction items generalizing h with
  | nil => exact ⟨.refl h, fun _ hr => absurd hr List.not_mem_nil⟩
  | cons x rest ih =>
      have hfirst := hitems x List.mem_cons_self h
      have hrest := ih (h.load x).2 fun y hy => hitems y (List.mem_cons_of_mem _ hy)
      refine ⟨hfirst.toExtends.trans hrest.toExtends, fun r hr => ?_⟩
      rcases List.mem_cons.mp hr with rfl | hr
      · exact (hfirst.within _ List.mem_cons_self).mono le_rfl hrest.next_le
      · exact (hrest.within r hr).mono hfirst.next_le le_rfl

theorem loadEntries_loads {entries : Entries} (h : Heap)
    (hentries : ∀ entry ∈ entries, ∀ h : Heap, h.Loads [(h.load entry.2).1] (h.load entry.2).2) :
    h.Loads ((h.loadEntries entries).1.map Prod.snd) (h.loadEntries entries).2 := by
  induction entries generalizing h with
  | nil => exact ⟨.refl h, fun _ hr => absurd hr List.not_mem_nil⟩
  | cons entry rest ih =>
      obtain ⟨key, x⟩ := entry
      have hfirst := hentries (key, x) List.mem_cons_self h
      have hrest := ih (h.load x).2 fun y hy => hentries y (List.mem_cons_of_mem _ hy)
      refine ⟨hfirst.toExtends.trans hrest.toExtends, fun r hr => ?_⟩
      rcases List.mem_cons.mp hr with rfl | hr
      · exact (hfirst.within _ List.mem_cons_self).mono le_rfl hrest.next_le
      · exact (hrest.within r hr).mono hfirst.next_le le_rfl

theorem Loads.alloc {h h₁ : Heap} {o : Obj} (hloads : h.Loads o.refs h₁) :
    h.Loads [.obj h₁.next] (h₁.alloc o) := by
  refine ⟨hloads.toExtends.alloc hloads.within, fun r hr a ha => ?_⟩
  rw [List.mem_singleton.mp hr] at ha
  cases ha
  exact ⟨hloads.next_le, Nat.lt_succ_self _⟩

theorem load_loads (x : Val) : ∀ h : Heap, h.Loads [(h.load x).1] (h.load x).2 := by
  induction x using Val.induct with
  | scalar s =>
      refine fun h => ⟨.refl h, fun r hr a ha => ?_⟩
      rw [List.mem_singleton.mp hr] at ha
      cases ha
  | list items ih => exact fun h => (loadItems_loads h ih).alloc
  | dict entries ih => exact fun h => (loadEntries_loads h ih).alloc

theorem UniqueKeys.alloc {h : Heap} (hkeys : h.UniqueKeys) {o : Obj}
    (ho : ∀ entries, o = .dict entries → (dictKeys entries).Nodup) : (h.alloc o).UniqueKeys := by
  intro a entries hobj
  by_cases ha : a = h.next
  · subst ha
    rw [alloc_obj_self] at hobj
    exact ho entries hobj
  · have hold : (h.alloc o).obj a = h.obj a := Function.update_of_ne ha _ _
    exact hkeys a entries (hold ▸ hobj)

theorem dictKeys_loadEntries (entries : Entries) (h : Heap) :
    dictKeys (h.loadEntries entries).1 = dictKeys entries := by
  induction entries generalizing h with
  | nil => rfl
  | cons entry rest ih =>
      obtain ⟨key, x⟩ := entry
      exact congrArg (key :: ·) (ih (h.load x).2)

theorem UniqueKeys.loadItems {items : List Val} {h : Heap} (hkeys : h.UniqueKeys)
    (hitems : ∀ x ∈ items, ∀ {h : Heap}, h.UniqueKeys → (h.load x).2.UniqueKeys) :
    (h.loadItems items).2.UniqueKeys := by
  induction items generalizing h with
  | nil => exact hkeys
  | cons x rest ih =>
      exact ih (hitems x List.mem_cons_self hkeys) fun y hy =>
        hitems y (List.mem_cons_of_mem _ hy)

theorem UniqueKeys.loadEntries {entries : Entries} {h : Heap} (hkeys : h.UniqueKeys)
    (hentries : ∀ entry ∈ entries, ∀ {h : Heap}, h.UniqueKeys →
      (h.load entry.2).2.UniqueKeys) : (h.loadEntries entries).2.UniqueKeys := by
  induction entries generalizing h with
  | nil => exact hkeys
  | cons entry rest ih =>
      obtain ⟨key, x⟩ := entry
      exact ih (hentries (key, x) List.mem_cons_self hkeys) fun y hy =>
        hentries y (List.mem_cons_of_mem _ hy)

theorem UniqueKeys.load {x : Val} (hx : x.WellFormed) {h : Heap} (hkeys : h.UniqueKeys) :
    (h.load x).2.UniqueKeys := by
  induction x using Val.induct generalizing h with
  | scalar s => exact hkeys
  | list items ih =>
      rw [Val.wellFormed_list_iff] at hx
      have hitems := hkeys.loadItems fun x hmem {h} => ih x hmem (hx x hmem)
      exact hitems.alloc fun _ heq => by cases heq
  | dict entries ih =>
      obtain ⟨hnodup, hvalues⟩ := Val.wellFormed_dict_iff.mp hx
      have hentries := hkeys.loadEntries fun entry hmem {h} => ih entry hmem (hvalues entry hmem)
      refine hentries.alloc fun refs heq => ?_
      cases heq
      rwa [dictKeys_loadEntries]

theorem WellFormed.extend {h h' : Heap} (hwf : h.WellFormed) (hext : h.Extends h')
    (hkeys : h'.UniqueKeys) : h'.WellFormed where
  allocated a ha b hb := by
    by_cases hold : a < h.next
    · rw [hext.obj_eq a hold] at hb
      exact (hwf.allocated a hold b hb).trans_le hext.next_le
    · exact (hext.fresh a (Nat.not_lt.mp hold) ha _ hb b rfl).2
  keys := hkeys

theorem WellFormed.load {h : Heap} (hwf : h.WellFormed) {x : Val} (hx : x.WellFormed) :
    (h.load x).2.WellFormed :=
  hwf.extend (load_loads x h).toExtends (hwf.keys.load hx)

theorem wellFormed_empty : empty.WellFormed where
  allocated _ ha := absurd ha (Nat.not_lt_zero _)
  keys _ _ heq := by cases heq

/-- What is loaded later is no part of an earlier object. -/
theorem Extends.lt_of_reaches {h h' : Heap} (hext : h.Extends h') (hwf : h.WellFormed)
    {a b : Addr} (ha : a < h.next) (hreach : h'.Reaches a b) : b < h.next := by
  induction hreach with
  | refl => exact ha
  | tail _ hstep ih =>
      rw [Refers, hext.obj_eq _ ih] at hstep
      exact hwf.allocated _ ih _ hstep

theorem pyType_eq_objDict {h : Heap} {r : Ref} :
    h.pyType r = .objDict ↔ ∃ a entries, r = .obj a ∧ h.obj a = .dict entries := by
  cases r with
  | scalar s => cases s <;> simp [pyType, Val.pyType]
  | obj a =>
      unfold pyType
      cases hobj : h.obj a <;> simp [hobj]

theorem attr?_eq_some {h : Heap} {x r : Ref} {key : String} :
    h.attr? x key = some r ↔
      ∃ a entries, x = .obj a ∧ h.obj a = .dict entries ∧ entries.lookup key = some r := by
  cases x with
  | scalar s => simp [attr?]
  | obj a =>
      unfold attr?
      cases hobj : h.obj a <;> simp [hobj]

theorem refers_of_attr? {h : Heap} {a b : Addr} {key : String}
    (hb : h.attr? (.obj a) key = some (.obj b)) : h.Refers a b := by
  obtain ⟨_, entries, heq, hobj, hlookup⟩ := attr?_eq_some.mp hb
  cases heq
  rw [Refers, hobj]
  exact List.mem_map.mpr ⟨(key, .obj b), mem_of_lookup_eq_some hlookup, rfl⟩

theorem WellFormed.lt_of_attr? {h : Heap} (hwf : h.WellFormed) {a b : Addr} {key : String}
    (ha : a < h.next) (hb : h.attr? (.obj a) key = some (.obj b)) : b < h.next :=
  hwf.allocated a ha b (refers_of_attr? hb)

/-- A loaded document and what it holds under a key are no part of an earlier object. -/
theorem Loads.apart {h h' : Heap} {refs : List Ref} (hloads : h.Loads refs h')
    (hwf : h.WellFormed) {a : Addr} (ha : a < h.next) :
    (∀ b, Ref.obj b ∈ refs → b < h'.next ∧ ¬ h'.Reaches a b) ∧
      ∀ x ∈ refs, ∀ key b, h'.attr? x key = some (.obj b) → ¬ h'.Reaches a b := by
  have hnew : ∀ b, h.next ≤ b → ¬ h'.Reaches a b := fun b hle hreach =>
    absurd (hloads.toExtends.lt_of_reaches hwf ha hreach) (Nat.not_lt.mpr hle)
  refine ⟨fun b hb => ?_, fun x hx key b hattr => ?_⟩
  · obtain ⟨hle, hlt⟩ := hloads.within _ hb b rfl
    exact ⟨hlt, hnew b hle⟩
  · obtain ⟨c, _, rfl, -⟩ := attr?_eq_some.mp hattr
    obtain ⟨hle, hlt⟩ := hloads.within _ hx c rfl
    exact hnew b (hloads.fresh c hle hlt _ (refers_of_attr? hattr) b rfl).1

end Heap

namespace HeapM

variable {α β : Type} {h h' : Heap} {x : Ref} {key : String}

theorem bind_eq_ok {m : HeapM α} {f : α → HeapM β} {b : β} :
    (m >>= f) h = .ok (b, h') ↔ ∃ a h₁, m h = .ok (a, h₁) ∧ f a h₁ = .ok (b, h') := by
  change (m h >>= fun p => f p.1 p.2) = _ ↔ _
  rw [Lib.bind_eq_ok]
  simp

theorem pure_eq_ok {a b : α} : (pure a : HeapM α) h = .ok (b, h') ↔ a = b ∧ h = h' := by
  change (Except.ok (a, h) : Res (α × Heap)) = .ok (b, h') ↔ _
  simp

theorem reads_eq_ok {f : Heap → Res α} {a : α} :
    reads f h = .ok (a, h') ↔ f h = .ok a ∧ h = h' := by
  unfold reads
  cases f h <;> simp [Except.map]

theorem raise_eq_ok {e : Exc} {a : α} : (raise e : HeapM α) h = .ok (a, h') ↔ False := by
  simp [raise]

theorem entriesOf_eq_ok {entries : List (String × Ref)} :
    entriesOf x h = .ok (entries, h') ↔
      (∃ a, x = .obj a ∧ h.obj a = .dict entries) ∧ h = h' := by
  rw [entriesOf, reads_eq_ok]
  cases x with
  | scalar s => simp
  | obj a => cases hobj : h.obj a <;> simp [hobj]

theorem getAttr_eq_ok {r : Ref} :
    getAttr x key h = .ok (r, h') ↔ h.attr? x key = some r ∧ h = h' := by
  rw [getAttr, reads_eq_ok]
  cases h.attr? x key <;> simp

theorem getItem_eq_ok {r : Ref} :
    getItem x key h = .ok (r, h') ↔ h.attr? x key = some r ∧ h = h' := by
  rw [getItem, reads_eq_ok]
  cases x with
  | scalar s => cases s <;> simp [Heap.pyType, Val.pyType, Heap.attr?]
  | obj a =>
      simp only [Heap.pyType, Heap.attr?]
      cases h.obj a with
      | list items => simp
      | dict entries => cases hlookup : entries.lookup key <;> simp [hlookup]

theorem setItem_eq_ok {value : Ref} {u : Unit} :
    setItem x key value h = .ok (u, h') ↔ ∃ a entries, x = .obj a ∧ h.obj a = .dict entries ∧
      h' = h.write a (.dict (dictSet key value entries)) := by
  unfold setItem
  cases x with
  | scalar s => simp
  | obj a => cases hobj : h.obj a <;> simp [hobj, eq_comm]

theorem forEach_cons_eq_ok {item : α} {rest : List α} {body : α → HeapM Unit} {u : Unit} :
    forEach (item :: rest) body h = .ok (u, h') ↔
      ∃ h₁, body item h = .ok ((), h₁) ∧ forEach rest body h₁ = .ok (u, h') := by
  rw [forEach, bind_eq_ok]
  exact ⟨fun ⟨_, h₁, hrun⟩ => ⟨h₁, hrun⟩, fun ⟨h₁, hrun⟩ => ⟨(), h₁, hrun⟩⟩

end HeapM

end LambdaStack
