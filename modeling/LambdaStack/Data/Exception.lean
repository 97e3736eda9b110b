/-
# Exceptions and raising accesses

The exceptions the modelled code raises, by their Python class and with the data
their message interpolates, and the accesses that raise them: attribute and item
access on a mapping, item access on a list, and the coercions whose failure
Python reports as a `TypeError`.
-/

import LambdaStack.Data.Value

namespace LambdaStack

open Lib

/-- A raised exception. `exception` is a plain `Exception(message)`. -/
inductive Exc
  /-- `TypeMismatchException` for `key` and the two types its message names. -/
  | typeMismatch (key : String) (toMerge extendBy : PyType)
  /-- `DuplicatesInNamedListException` for a name of the list under `key`. -/
  | duplicatesInNamedList (name : Val) (key type : String)
  | attributeError (message : String)
  | keyError (key : String)
  | indexError
  | typeError
  | valueError
  | runtimeError (message : String)
  | recursionError
  /-- A YAML file with several documents read as a single one. -/
  | composerError
  | fileNotFoundError (path : String)
  | unboundLocalError (name : String)
  | notImplementedError (message : String)
  /-- `ExpectedSingleResultException` with the number of results received. -/
  | expectedSingleResult (received : Nat)
  | exception (message : String)
  deriving Repr

/-- A computation that ends with a result or with a raised exception. -/
abbrev Res := Except Exc

namespace Val

/-- `x.key`. -/
def getAttr (x : Val) (key : String) : Res Val :=
  match x.attr? key with
  | some value => .ok value
  | none => .error (.attributeError ("No such attribute: " ++ key))

/-- `x[key]` with a string key. -/
def getItem (x : Val) (key : String) : Res Val :=
  match x with
  | .dict entries =>
      match entries.lookup key with
      | some value => .ok value
      | none => .error (.keyError key)
  | _ => .error .typeError

/-- `x[key] = value` on a mapping. -/
def setItem (x : Val) (key : String) (value : Val) : Res Val :=
  match x with
  | .dict entries => .ok (.dict (dictSet key value entries))
  | _ => .error .typeError

/-- `x.key = value` on an `ObjDict`. -/
def setAttr (x : Val) (key : String) (value : Val) : Res Val :=
  match x with
  | .dict entries => .ok (.dict (dictSet key value entries))
  | _ => .error (.attributeError ("No such attribute: " ++ key))

/-- `x[index]` on a list. -/
def getIndex (x : Val) (index : Nat) : Res Val :=
  match x with
  | .list items =>
      match items[index]? with
      | some value => .ok value
      | none => .error .indexError
  | _ => .error .typeError

/-- The items a `for` loop over `x` visits, for a list. -/
def asList (x : Val) : Res (List Val) :=
  match x with
  | .list items => .ok items
  | _ => .error .typeError

/-- `x.items()`. -/
def asDict (x : Val) : Res Entries :=
  match x with
  | .dict entries => .ok entries
  | _ => .error (.attributeError "items")

/-- A value used where the program needs a string. -/
def asStr (x : Val) : Res String :=
  match x with
  | .scalar (.str s _) => .ok s
  | _ => .error .typeError

/-- A value compared with and counted as an integer; a boolean is one. -/
def asInt (x : Val) : Res Int :=
  match x with
  | .scalar (.int i _) => .ok i
  | .scalar (.bool b _) => .ok (if b then 1 else 0)
  | _ => .error .typeError

/-- `x < 1`. -/
def ltOne (x : Val) : Res Bool :=
  match x with
  | .scalar a =>
      match a.num? with
      | some q => .ok (decide (q < 1))
      | none => .error .typeError
  | _ => .error .typeError

/-- `int(x)`, which truncates a float. `parse` reads the digits of a string. -/
def toInt (parse : String → Option Int) (x : Val) : Res Int :=
  match x with
  | .scalar (.int i _) => .ok i
  | .scalar (.bool b _) => .ok (if b then 1 else 0)
  | .scalar (.float q _) => .ok (q.num.tdiv q.den)
  | .scalar (.str s _) =>
      match parse s with
      | some i => .ok i
      | none => .error .valueError
  | _ => .error .typeError

/-- Python's truth value. -/
def truthy : Val → Bool
  | .scalar .null => false
  | .scalar (.bool b _) => b
  | .scalar (.int i _) => i != 0
  | .scalar (.float q _) => q != 0
  | .scalar (.str s _) => s != ""
  | .list items => !items.isEmpty
  | .dict entries => !entries.isEmpty

theorem getAttr_eq_ok {x value : Val} {key : String} :
    x.getAttr key = .ok value ↔ x.attr? key = some value := by
  unfold getAttr
  cases x.attr? key <;> simp

theorem getItem_eq_ok {x value : Val} {key : String} :
    x.getItem key = .ok value ↔ x.attr? key = some value := by
  cases x with
  | dict entries =>
      simp only [getItem, attr?]
      cases h : entries.lookup key <;> simp
  | scalar | list => simp [getItem, attr?]

theorem WellFormed.getIndex {x value : Val} {index : Nat} (hx : x.WellFormed)
    (h : x.getIndex index = .ok value) : value.WellFormed := by
  cases x with
  | list items =>
      rw [Val.getIndex] at h
      cases hitem : items[index]? with
      | none =>
          rw [hitem] at h
          cases h
      | some item =>
          rw [hitem] at h
          cases h
          exact wellFormed_list_iff.mp hx value (List.mem_of_getElem? hitem)
  | scalar | dict => cases h

theorem setAttr_eq_ok {x y value : Val} {key : String} :
    x.setAttr key value = .ok y ↔
      ∃ entries, x = .dict entries ∧ y = .dict (dictSet key value entries) := by
  cases x <;> simp [setAttr, eq_comm]

theorem setItem_eq_ok {x y value : Val} {key : String} :
    x.setItem key value = .ok y ↔
      ∃ entries, x = .dict entries ∧ y = .dict (dictSet key value entries) := by
  cases x <;> simp [setItem, eq_comm]

/-- What is compared with a number is a number. -/
theorem exists_toInt_of_ltOne {x : Val} {answer : Bool} (h : x.ltOne = .ok answer)
    (parse : String → Option Int) : ∃ i, x.toInt parse = .ok i := by
  unfold ltOne at h
  cases x with
  | list | dict => cases h
  | scalar a =>
      cases a with
      | null | str => cases h
      | bool b => exact ⟨_, rfl⟩
      | int i => exact ⟨_, rfl⟩
      | float q => exact ⟨_, rfl⟩

/-- Where a number is counted as an integer, `x < 1` compares the integer. -/
theorem ltOne_of_asInt {x : Val} {i : Int} {answer : Bool} (h : x.ltOne = .ok answer)
    (hi : x.asInt = .ok i) : answer = decide (i < 1) := by
  cases x with
  | list | dict => cases hi
  | scalar a =>
      cases a with
      | null | float | str => cases hi
      | bool b =>
          cases hi
          rw [← Except.ok.inj h]
          cases b <;> rfl
      | int j =>
          cases hi
          rw [← Except.ok.inj h, decide_eq_decide]
          exact_mod_cast Iff.rfl

theorem toInt_of_num? {a : Scalar} {n : Nat} (h : a.num? = some (n : Rat))
    (parse : String → Option Int) : (Val.scalar a).toInt parse = .ok n := by
  cases a with
  | null | str => cases h
  | bool b =>
      have hn : (if b then 1 else 0 : Rat) = n := Option.some.inj h
      cases b with
      | true =>
          have hone : (1 : Int) = n := by exact_mod_cast (show (1 : Rat) = n from hn)
          exact congrArg Except.ok hone
      | false =>
          have hzero : (0 : Int) = n := by exact_mod_cast (show (0 : Rat) = n from hn)
          exact congrArg Except.ok hzero
  | int i =>
      have hn : (i : Rat) = n := Option.some.inj h
      exact congrArg Except.ok (by exact_mod_cast hn)
  | float q =>
      obtain rfl : q = n := Option.some.inj h
      simp [toInt]

/-- A count below one is zero or less as an integer. -/
theorem toInt_nonpos_of_ltOne {x : Val} {i : Int} {parse : String → Option Int}
    (h : x.ltOne = .ok true) (hi : x.toInt parse = .ok i) : i ≤ 0 := by
  cases x with
  | list | dict => cases h
  | scalar a =>
      cases a with
      | null | str => cases h
      | bool b => cases b <;> simp_all [ltOne, toInt, Scalar.num?]
      | int j =>
          cases hi
          have hlt : (i : Rat) < 1 := of_decide_eq_true (Except.ok.inj h)
          have : i < 1 := by exact_mod_cast hlt
          omega
      | float q =>
          cases hi
          have hlt : q < 1 := of_decide_eq_true (Except.ok.inj h)
          have hnum : q.num < q.den := by simpa using (Rat.lt_iff q 1).mp hlt
          by_cases hneg : q.num ≤ 0
          · have hnonneg : 0 ≤ (-q.num).tdiv q.den := Int.tdiv_nonneg (by omega) (by omega)
            rw [Int.neg_tdiv] at hnonneg
            omega
          · exact Int.le_of_eq (Int.tdiv_eq_zero_of_lt (by omega) hnum)

theorem asStr_eq_ok {x : Val} {s : String} : x.asStr = .ok s ↔ x.str? = some s := by
  cases x with
  | list | dict => simp [asStr, str?]
  | scalar a => cases a <;> simp [asStr, str?, Scalar.str?]

/-- The values are strings with these texts. -/
def HasTexts (values : List Val) (texts : List String) : Prop :=
  List.Forall₂ (fun x s => x.str? = some s) values texts

theorem mapM_asStr_eq_ok {values : List Val} {texts : List String} :
    values.mapM asStr = .ok texts ↔ HasTexts values texts := by
  simp only [mapM_eq_ok, asStr_eq_ok, HasTexts]

theorem HasTexts.mem_iff {values : List Val} {texts : List String} (h : HasTexts values texts)
    {s : String} : s ∈ texts ↔ ∃ x ∈ values, x.str? = some s := by
  induction h with
  | nil => simp
  | @cons x t values texts hx _ ih =>
      rw [List.mem_cons, List.exists_mem_cons_iff, ih, hx, Option.some.injEq, eq_comm]

theorem asList_eq_ok {x : Val} {items : List Val} : x.asList = .ok items ↔ x = .list items := by
  cases x <;> simp [asList]

theorem asDict_eq_ok {x : Val} {entries : Entries} :
    x.asDict = .ok entries ↔ x = .dict entries := by
  cases x <;> simp [asDict]

end Val

/-- `x.a.b.c`. -/
def attrPath (x : Val) (path : List String) : Res Val := path.foldlM Val.getAttr x

theorem attrPath_wellFormed {x value : Val} {path : List String} (hx : x.WellFormed)
    (h : attrPath x path = .ok value) : value.WellFormed := by
  induction path generalizing x with
  | nil => cases h; exact hx
  | cons key rest ih =>
      rw [attrPath, List.foldlM_cons, bind_eq_ok] at h
      obtain ⟨child, hchild, h⟩ := h
      exact ih (hx.attr? (Val.getAttr_eq_ok.mp hchild)) h

/-- `x.a.b.key = value`. -/
def setAttrPath (x : Val) (path : List String) (key : String) (value : Val) : Res Val :=
  match path with
  | [] => x.setAttr key value
  | first :: rest => do
      let child ← x.getAttr first
      let child ← setAttrPath child rest key value
      x.setAttr first child

end LambdaStack
