/-
# Objects with identity

The lists and mappings of loaded documents as Python has them: objects that are
shared by reference and changed in place. A loaded document is a tree of new
objects; what a reference denotes is read back as a document tree. `depth`
arguments stand for the recursion limit of the interpreter.
-/

import Mathlib.Logic.Function.Basic
import LambdaStack.Data.Exception

namespace LambdaStack

open Lib

/-- The identity of an object. -/
abbrev Addr := Nat

/-- A value as a list or a mapping holds it: a scalar, or a reference. -/
inductive Ref
  | scalar (s : Scalar)
  | obj (addr : Addr)
  deriving DecidableEq, Repr

/-- The content of an object. -/
inductive Obj
  | list (items : List Ref)
  | dict (entries : List (String × Ref))
  deriving Repr

/-- The objects in memory: those below `next` are allocated. -/
structure Heap where
  next : Addr
  obj : Addr → Obj

namespace Heap

def empty : Heap := ⟨0, fun _ => .list []⟩

/-- The heap with other content of one object. -/
def write (h : Heap) (a : Addr) (o : Obj) : Heap := { h with obj := Function.update h.obj a o }

/-- The heap with a new object. -/
def alloc (h : Heap) (o : Obj) : Heap :=
  { next := h.next + 1, obj := Function.update h.obj h.next o }

@[simp]
theorem write_next (h : Heap) (a : Addr) (o : Obj) : (h.write a o).next = h.next := rfl

@[simp]
theorem write_obj_self (h : Heap) (a : Addr) (o : Obj) : (h.write a o).obj a = o := by
  simp [write]

theorem write_obj_ne (h : Heap) {a b : Addr} (hne : b ≠ a) (o : Obj) :
    (h.write a o).obj b = h.obj b := by
  simp [write, hne]

@[simp]
theorem alloc_next (h : Heap) (o : Obj) : (h.alloc o).next = h.next + 1 := rfl

@[simp]
theorem alloc_obj_self (h : Heap) (o : Obj) : (h.alloc o).obj h.next = o := by
  simp [alloc]

theorem alloc_obj_of_lt (h : Heap) {a : Addr} (hlt : a < h.next) (o : Obj) :
    (h.alloc o).obj a = h.obj a := by
  simp [alloc, Nat.ne_of_lt hlt]

mutual
/-- Load a document: new objects for its lists and mappings, the inner ones first. -/
def load : Val → Heap → Ref × Heap
  | .scalar s, h => (.scalar s, h)
  | .list items, h =>
      let (refs, h) := loadItems items h
      (.obj h.next, h.alloc (.list refs))
  | .dict entries, h =>
      let (refs, h) := loadEntries entries h
      (.obj h.next, h.alloc (.dict refs))
termination_by structural x => x

/-- The items of a list. -/
def loadItems : List Val → Heap → List Ref × Heap
  | [], h => ([], h)
  | x :: rest, h =>
      let (ref, h) := load x h
      let (refs, h) := loadItems rest h
      (ref :: refs, h)
termination_by structural x => x

/-- The entries of a mapping. -/
def loadEntries : Entries → Heap → List (String × Ref) × Heap
  | [], h => ([], h)
  | entry :: rest, h =>
      let (ref, h) := loadEntry entry h
      let (refs, h) := loadEntries rest h
      (ref :: refs, h)
termination_by structural x => x

/-- One entry. -/
def loadEntry : String × Val → Heap → (String × Ref) × Heap
  | (key, x), h =>
      let (ref, h) := load x h
      ((key, ref), h)
termination_by structural x => x
end

/-- The tree a reference denotes. -/
def read (h : Heap) : Nat → Ref → Res Val
  | _, .scalar s => .ok (.scalar s)
  | 0, .obj _ => .error .recursionError
  | depth + 1, .obj a =>
      match h.obj a with
      | .list items => do
          let items ← items.mapM (read h depth)
          .ok (.list items)
      | .dict entries => do
          let entries ← entries.mapM fun (key, ref) => do
            let x ← read h depth ref
            .ok (key, x)
          .ok (.dict entries)

/-- `type(x)`. -/
def pyType (h : Heap) : Ref → PyType
  | .scalar s => (Val.scalar s).pyType
  | .obj a =>
      match h.obj a with
      | .list _ => .list
      | .dict _ => .objDict

/-- `hasattr` and attribute access, as an option. -/
def attr? (h : Heap) (x : Ref) (key : String) : Option Ref :=
  match x with
  | .scalar _ => none
  | .obj a =>
      match h.obj a with
      | .dict entries => entries.lookup key
      | .list _ => none

/-- `hasattr(x, key)`. -/
def hasAttr (h : Heap) (x : Ref) (key : String) : Bool := (h.attr? x key).isSome

end Heap

/-- A computation on objects, which may raise. -/
abbrev HeapM := StateT Heap Res

namespace HeapM

variable {α β : Type}

/-- Raise. -/
def raise (e : Exc) : HeapM α := fun _ => .error e

/-- A computation that changes no object. -/
def reads (f : Heap → Res α) : HeapM α := fun h => (f h).map (·, h)

/-- The entries of a mapping. -/
def entriesOf (x : Ref) : HeapM (List (String × Ref)) :=
  reads fun h =>
    match x with
    | .obj a =>
        match h.obj a with
        | .dict entries => .ok entries
        | .list _ => .error (.attributeError "items")
    | .scalar _ => .error (.attributeError "items")

/-- The items of a list. -/
def itemsOf (x : Ref) : HeapM (List Ref) :=
  reads fun h =>
    match x with
    | .obj a =>
        match h.obj a with
        | .list items => .ok items
        | .dict _ => .error .typeError
    | .scalar _ => .error .typeError

/-- `x.key`. -/
def getAttr (x : Ref) (key : String) : HeapM Ref :=
  reads fun h =>
    match h.attr? x key with
    | some ref => .ok ref
    | none => .error (.attributeError ("No such attribute: " ++ key))

/-- `x[key]`. -/
def getItem (x : Ref) (key : String) : HeapM Ref :=
  reads fun h =>
    match h.pyType x, h.attr? x key with
    | .objDict, some ref => .ok ref
    | .objDict, none => .error (.keyError key)
    | _, _ => .error .typeError

/-- `x[key] = value`. -/
def setItem (x : Ref) (key : String) (value : Ref) : HeapM Unit := fun h =>
  match x with
  | .obj a =>
      match h.obj a with
      | .dict entries => .ok ((), h.write a (.dict (dictSet key value entries)))
      | .list _ => .error .typeError
  | .scalar _ => .error .typeError

/-- `x.append(value)`. -/
def append (x value : Ref) : HeapM Unit := fun h =>
  match x with
  | .obj a =>
      match h.obj a with
      | .list items => .ok ((), h.write a (.list (items ++ [value])))
      | .dict _ => .error (.attributeError "append")
  | .scalar _ => .error (.attributeError "append")

/-- A new list. -/
def newList (items : List Ref) : HeapM Ref := fun h => .ok (.obj h.next, h.alloc (.list items))

/-- Load documents. -/
def loadAll : List Val → HeapM (List Ref)
  | [] => pure []
  | x :: rest => do
      let ref ← fun h => .ok (h.load x)
      let refs ← loadAll rest
      pure (ref :: refs)

/-- A loop over a list. -/
def forEach (items : List α) (body : α → HeapM Unit) : HeapM Unit :=
  match items with
  | [] => pure ()
  | item :: rest => do
      body item
      forEach rest body

end HeapM

end LambdaStack
