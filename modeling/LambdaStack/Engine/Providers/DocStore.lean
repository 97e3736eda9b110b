/-
# Documents with identity

The infrastructure builders hand documents around by reference and assign to
their specifications: a document of the user is returned again for every
component and changed each time. A store maps the identity of a document to its
current tree; a computation of a builder reads, allocates and assigns documents
and may raise.
-/

import Mathlib.Data.Set.Insert
import LambdaStack.Data.Exception
import LambdaStack.Lib.StateFrame

namespace LambdaStack

open Lib

/-- The identity of a document. -/
abbrev DocId := Nat

/-- The documents in memory: those below `next` are allocated. -/
structure Store where
  next : DocId
  doc : DocId → Val

namespace Store

/-- The store with another tree under one identity. -/
def write (s : Store) (id : DocId) (v : Val) : Store :=
  { s with doc := Function.update s.doc id v }

/-- The store with a new document. -/
def alloc (s : Store) (v : Val) : Store :=
  { next := s.next + 1, doc := Function.update s.doc s.next v }

/-- Every document of `s` outside `changed` is the same in `s'`, which may have
more documents. -/
def Frame (changed : Set DocId) (s s' : Store) : Prop :=
  s.next ≤ s'.next ∧ ∀ id < s.next, id ∉ changed → s'.doc id = s.doc id

theorem Frame.refl (changed : Set DocId) (s : Store) : Frame changed s s :=
  ⟨le_rfl, fun _ _ _ => rfl⟩

theorem Frame.trans {changed : Set DocId} {s₁ s₂ s₃ : Store} (h : Frame changed s₁ s₂)
    (h' : Frame changed s₂ s₃) : Frame changed s₁ s₃ :=
  ⟨h.1.trans h'.1, fun id hid hout =>
    (h'.2 id (hid.trans_le h.1) hout).trans (h.2 id hid hout)⟩

theorem Frame.mono {changed changed' : Set DocId} {s s' : Store} (h : Frame changed s s')
    (hsub : changed ⊆ changed') : Frame changed' s s' :=
  ⟨h.1, fun id hid hout => h.2 id hid fun hin => hout (hsub hin)⟩

/-- Each document is related to what it was, and there may be new ones. -/
structure Evolves (R : Val → Val → Prop) (s s' : Store) : Prop where
  next_le : s.next ≤ s'.next
  doc : ∀ id < s.next, R (s.doc id) (s'.doc id)

theorem Evolves.imp {R R' : Val → Val → Prop} {s s' : Store} (h : Evolves R s s')
    (hR : ∀ x y, R x y → R' x y) : Evolves R' s s' :=
  ⟨h.next_le, fun id hid => hR _ _ (h.doc id hid)⟩

instance (R : Val → Val → Prop) [Std.Refl R] : Std.Refl (Evolves R) :=
  ⟨fun _ => ⟨le_rfl, fun _ _ => Std.Refl.refl _⟩⟩

instance (R : Val → Val → Prop) [IsTrans Val R] : IsTrans Store (Evolves R) :=
  ⟨fun _ _ _ h h' => ⟨h.next_le.trans h'.next_le, fun id hid =>
    IsTrans.trans _ _ _ (h.doc id hid) (h'.doc id (hid.trans_le h.next_le))⟩⟩

@[simp]
theorem write_next (s : Store) (id : DocId) (v : Val) : (s.write id v).next = s.next := rfl

@[simp]
theorem write_doc_self (s : Store) (id : DocId) (v : Val) : (s.write id v).doc id = v := by
  simp [write]

theorem write_doc_ne (s : Store) {id other : DocId} (h : other ≠ id) (v : Val) :
    (s.write id v).doc other = s.doc other := by
  simp [write, h]

@[simp]
theorem alloc_next (s : Store) (v : Val) : (s.alloc v).next = s.next + 1 := rfl

@[simp]
theorem alloc_doc_self (s : Store) (v : Val) : (s.alloc v).doc s.next = v := by
  simp [alloc]

theorem alloc_doc_of_lt (s : Store) {id : DocId} (h : id < s.next) (v : Val) :
    (s.alloc v).doc id = s.doc id := by
  simp [alloc, Nat.ne_of_lt h]

theorem frame_alloc (changed : Set DocId) (s : Store) (v : Val) :
    Frame changed s (s.alloc v) :=
  ⟨Nat.le_succ _, fun _ hid _ => s.alloc_doc_of_lt hid v⟩

theorem evolves_alloc {R : Val → Val → Prop} [Std.Refl R] (s : Store) (v : Val) :
    Evolves R s (s.alloc v) := by
  refine ⟨Nat.le_succ _, fun id hid => ?_⟩
  rw [s.alloc_doc_of_lt hid]
  exact Std.Refl.refl _

theorem evolves_write {R : Val → Val → Prop} [Std.Refl R] {s : Store} {id : DocId} {v : Val}
    (h : R (s.doc id) v) : Evolves R s (s.write id v) := by
  refine ⟨le_rfl, fun other _ => ?_⟩
  by_cases heq : other = id
  · subst heq
    rwa [s.write_doc_self]
  · rw [s.write_doc_ne heq]
    exact Std.Refl.refl _

theorem frame_write {changed : Set DocId} (s : Store) {id : DocId} (h : id ∈ changed)
    (v : Val) : Frame changed s (s.write id v) :=
  ⟨le_rfl, fun _ _ hout => s.write_doc_ne (ne_of_mem_of_not_mem h hout).symm v⟩

end Store

namespace Val

/-- `x.specification.key`, as an option. -/
def specAttr? (x : Val) (key : String) : Option Val :=
  (x.attr? "specification").bind (·.attr? key)

/-- A document with `specification.key` assigned. -/
def withSpecAttr (x : Val) (key : String) (value : Val) : Res Val := do
  let spec ← x.getAttr "specification"
  let spec ← spec.setAttr key value
  x.setAttr "specification" spec

theorem attr?_setAttr {x y value : Val} {key other : String}
    (h : x.setAttr key value = .ok y) :
    y.attr? other = if other = key then some value else x.attr? other := by
  obtain ⟨entries, rfl, rfl⟩ := setAttr_eq_ok.mp h
  exact lookup_dictSet key other value entries

theorem attr?_setItem {x y value : Val} {key other : String}
    (h : x.setItem key value = .ok y) :
    y.attr? other = if other = key then some value else x.attr? other := by
  obtain ⟨entries, rfl, rfl⟩ := setItem_eq_ok.mp h
  exact lookup_dictSet key other value entries

/-- An assignment to the specification changes no other attribute. -/
theorem attr?_withSpecAttr {x y value : Val} {key other : String}
    (h : x.withSpecAttr key value = .ok y) (hne : other ≠ "specification") :
    y.attr? other = x.attr? other := by
  simp only [withSpecAttr, Lib.bind_eq_ok] at h
  obtain ⟨spec, -, spec', -, h⟩ := h
  rw [attr?_setAttr h, if_neg hne]

theorem specAttr?_withSpecAttr {x y value : Val} {key other : String}
    (h : x.withSpecAttr key value = .ok y) :
    y.specAttr? other = if other = key then some value else x.specAttr? other := by
  simp only [withSpecAttr, Lib.bind_eq_ok, getAttr_eq_ok] at h
  obtain ⟨spec, hspec, spec', hset, h⟩ := h
  rw [specAttr?, attr?_setAttr h, if_pos rfl, Option.bind_some, attr?_setAttr hset]
  simp only [specAttr?, hspec, Option.bind_some]

theorem specAttr?_setItem {x y value : Val} {key other : String}
    (h : x.setItem key value = .ok y) (hne : key ≠ "specification") :
    y.specAttr? other = x.specAttr? other := by
  rw [specAttr?, attr?_setItem h, if_neg (Ne.symm hne)]
  rfl

end Val

/-- A computation of a builder. -/
abbrev BuildM := StateT Store Res

namespace BuildM

variable {α β : Type}

/-- A pure computation that may raise. -/
def lift (x : Res α) : BuildM α := fun s => x.map (·, s)

/-- A computation that reads documents and changes none. -/
def reads (f : (DocId → Val) → Res α) : BuildM α := fun s => (f s.doc).map (·, s)

/-- A new document. -/
def newDoc (v : Val) : BuildM DocId := fun s => .ok (s.next, s.alloc v)

/-- The tree of a document. -/
def readDoc (id : DocId) : BuildM Val := reads fun doc => .ok (doc id)

/-- `doc.specification`. -/
def spec (id : DocId) : BuildM Val := reads fun doc => (doc id).getAttr "specification"

/-- `doc.specification.key`. -/
def specAttr (id : DocId) (key : String) : BuildM Val :=
  reads fun doc => do
    let spec ← (doc id).getAttr "specification"
    spec.getAttr key

/-- `doc.specification.key = value`. -/
def setSpecAttr (id : DocId) (key : String) (value : Val) : BuildM Unit := fun s =>
  ((s.doc id).withSpecAttr key value).map fun doc => ((), s.write id doc)

/-- `doc[key] = value`. -/
def setDocItem (id : DocId) (key : String) (value : Val) : BuildM Unit := fun s =>
  ((s.doc id).setItem key value).map fun doc => ((), s.write id doc)

/-- `doc.specification.a.key = value`. -/
def setDocPath (id : DocId) (path : List String) (key : String) (value : Val) :
    BuildM Unit := fun s =>
  (setAttrPath (s.doc id) path key value).map fun doc => ((), s.write id doc)

/-- A function applied in place to a document. -/
def modifyDoc (id : DocId) (f : Val → Val) : BuildM Unit := fun s =>
  .ok ((), s.write id (f (s.doc id)))

/-- Assign the fields of a specification one after the other. -/
def setSpecAttrs (id : DocId) : List (String × Val) → BuildM Unit
  | [] => pure ()
  | (key, value) :: rest => do
      setSpecAttr id key value
      setSpecAttrs id rest

/-- `doc.specification.tags.append(tag)` for each of the tags. -/
def appendTags (id : DocId) (tags : List Val) : BuildM Unit := do
  let old ← specAttr id "tags"
  let old ← lift old.asList
  setSpecAttr id "tags" (.list (old ++ tags))

theorem bind_eq_ok {x : BuildM α} {f : α → BuildM β} {s s' : Store} {b : β} :
    (x >>= f) s = .ok (b, s') ↔ ∃ a s₁, x s = .ok (a, s₁) ∧ f a s₁ = .ok (b, s') := by
  change (x s >>= fun p => f p.1 p.2) = _ ↔ _
  rw [Lib.bind_eq_ok]
  simp

theorem pure_eq_ok {a b : α} {s s' : Store} :
    (pure a : BuildM α) s = .ok (b, s') ↔ a = b ∧ s = s' := by
  change (Except.ok (a, s) : Res (α × Store)) = .ok (b, s') ↔ _
  simp

theorem lift_eq_ok {x : Res α} {s s' : Store} {a : α} :
    lift x s = .ok (a, s') ↔ x = .ok a ∧ s = s' := by
  unfold lift
  cases x <;> simp [Except.map]

theorem reads_eq_ok {f : (DocId → Val) → Res α} {s s' : Store} {a : α} :
    reads f s = .ok (a, s') ↔ f s.doc = .ok a ∧ s = s' := by
  unfold reads
  cases f s.doc <;> simp [Except.map]

theorem newDoc_eq_ok {v : Val} {s s' : Store} {id : DocId} :
    newDoc v s = .ok (id, s') ↔ id = s.next ∧ s' = s.alloc v := by
  simp [newDoc, eq_comm]

theorem specAttr_eq_ok {id : DocId} {key : String} {s s' : Store} {v : Val} :
    specAttr id key s = .ok (v, s') ↔
      (s.doc id).specAttr? key = some v ∧ s = s' := by
  simp only [specAttr, reads_eq_ok, Lib.bind_eq_ok, Val.getAttr_eq_ok, Val.specAttr?,
    Option.bind_eq_some_iff]

theorem setSpecAttr_eq_ok {id : DocId} {key : String} {value : Val} {s s' : Store} {u : Unit} :
    setSpecAttr id key value s = .ok (u, s') ↔
      ∃ doc, (s.doc id).withSpecAttr key value = .ok doc ∧ s' = s.write id doc := by
  unfold setSpecAttr
  cases (s.doc id).withSpecAttr key value <;> simp [Except.map, eq_comm]

theorem setDocItem_eq_ok {id : DocId} {key : String} {value : Val} {s s' : Store} {u : Unit} :
    setDocItem id key value s = .ok (u, s') ↔
      ∃ doc, (s.doc id).setItem key value = .ok doc ∧ s' = s.write id doc := by
  unfold setDocItem
  cases (s.doc id).setItem key value <;> simp [Except.map, eq_comm]

theorem setDocPath_eq_ok {id : DocId} {path : List String} {key : String} {value : Val}
    {s s' : Store} {u : Unit} :
    setDocPath id path key value s = .ok (u, s') ↔
      ∃ doc, setAttrPath (s.doc id) path key value = .ok doc ∧ s' = s.write id doc := by
  unfold setDocPath
  cases setAttrPath (s.doc id) path key value <;> simp [Except.map, eq_comm]

theorem modifyDoc_eq_ok {id : DocId} {f : Val → Val} {s s' : Store} {u : Unit} :
    modifyDoc id f s = .ok (u, s') ↔ s' = s.write id (f (s.doc id)) := by
  simp [modifyDoc, eq_comm]

/-! ## Computations that keep a relation of documents -/

theorem preserves_lift {R : Store → Store → Prop} [Std.Refl R] (x : Res α) :
    Preserves R (lift x) :=
  preserves_of_same fun _ _ _ h => (lift_eq_ok.mp h).2.symm

theorem preserves_reads {R : Store → Store → Prop} [Std.Refl R] (f : (DocId → Val) → Res α) :
    Preserves R (reads f) :=
  preserves_of_same fun _ _ _ h => (reads_eq_ok.mp h).2.symm

section Preserves

variable {R : Val → Val → Prop} [Std.Refl R]

theorem preserves_newDoc (v : Val) : Preserves (Store.Evolves R) (newDoc v) := by
  refine ⟨fun {s id s'} h => ?_⟩
  obtain ⟨rfl, rfl⟩ := newDoc_eq_ok.mp h
  exact s.evolves_alloc v

theorem preserves_setSpecAttr (id : DocId) {key : String} {value : Val}
    (hR : ∀ x y : Val, x.withSpecAttr key value = .ok y → R x y) :
    Preserves (Store.Evolves R) (setSpecAttr id key value) := by
  refine ⟨fun {s u s'} h => ?_⟩
  obtain ⟨doc, hdoc, rfl⟩ := setSpecAttr_eq_ok.mp h
  exact Store.evolves_write (hR _ _ hdoc)

theorem preserves_setDocItem (id : DocId) {key : String} {value : Val}
    (hR : ∀ x y : Val, x.setItem key value = .ok y → R x y) :
    Preserves (Store.Evolves R) (setDocItem id key value) := by
  refine ⟨fun {s u s'} h => ?_⟩
  obtain ⟨doc, hdoc, rfl⟩ := setDocItem_eq_ok.mp h
  exact Store.evolves_write (hR _ _ hdoc)

theorem preserves_setDocPath (id : DocId) {path : List String} {key : String} {value : Val}
    (hR : ∀ x y : Val, setAttrPath x path key value = .ok y → R x y) :
    Preserves (Store.Evolves R) (setDocPath id path key value) := by
  refine ⟨fun {s u s'} h => ?_⟩
  obtain ⟨doc, hdoc, rfl⟩ := setDocPath_eq_ok.mp h
  exact Store.evolves_write (hR _ _ hdoc)

theorem preserves_modifyDoc (id : DocId) {f : Val → Val} (hR : ∀ x, R x (f x)) :
    Preserves (Store.Evolves R) (modifyDoc id f) := by
  refine ⟨fun {s u s'} h => ?_⟩
  obtain rfl := modifyDoc_eq_ok.mp h
  exact Store.evolves_write (hR _)

end Preserves

end BuildM

end LambdaStack
