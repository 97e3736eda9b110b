/-
# Selecting documents

The queries of `doc_list_helpers`. A query reads attributes of the document it
is asked about and may raise, which ends the selection; a selection that
returns is the selection by the documents on which the query holds. The list
is never `None` where the modelled code selects from it.
-/

import LambdaStack.Data.Exception

namespace LambdaStack

open Lib

universe u

variable {α : Type}

/-- The truth value a query returns. -/
def Holds? : Res Bool → Bool
  | .ok answer => answer
  | .error _ => false

/-- `select_first`. -/
def selectFirst (documents : List α) (query : α → Res Bool) : Res (Option α) :=
  match documents with
  | [] => .ok none
  | x :: rest => do
      let answer ← query x
      if answer then .ok (some x) else selectFirst rest query

/-- `select_all`. -/
def selectAll (documents : List α) (query : α → Res Bool) : Res (List α) :=
  match documents with
  | [] => .ok []
  | x :: rest => do
      let answer ← query x
      let result ← selectAll rest query
      .ok (if answer then x :: result else result)

/-- `select_single`. -/
def selectSingle (documents : List α) (query : α → Res Bool) : Res α := do
  let results ← selectAll documents query
  match results with
  | [x] => .ok x
  | _ => .error (.expectedSingleResult results.length)

theorem selectFirst_eq_ok {documents : List α} {query : α → Res Bool} {found : Option α}
    (h : selectFirst documents query = .ok found) :
    found = documents.find? (Holds? ∘ query) := by
  induction documents with
  | nil => cases h; rfl
  | cons x rest ih =>
      rw [selectFirst, bind_eq_ok] at h
      obtain ⟨answer, hanswer, h⟩ := h
      rw [List.find?_cons, Function.comp_apply, hanswer, Holds?]
      cases answer with
      | true => cases h; rfl
      | false => exact ih h

theorem selectFirst_map {β : Type} (documents : List β) (f : β → α) (query : α → Res Bool) :
    selectFirst (documents.map f) query =
      (selectFirst documents (query ∘ f)).map (Option.map f) := by
  induction documents with
  | nil => rfl
  | cons x rest ih =>
      rw [List.map_cons, selectFirst, selectFirst, ih, Function.comp_apply]
      cases query (f x) with
      | error e => rfl
      | ok answer => cases answer <;> rfl

theorem selectAll_eq_ok {documents results : List α} {query : α → Res Bool}
    (h : selectAll documents query = .ok results) :
    results = documents.filter (Holds? ∘ query) := by
  induction documents generalizing results with
  | nil => cases h; rfl
  | cons x rest ih =>
      simp only [selectAll, bind_eq_ok, Except.ok.injEq] at h
      obtain ⟨answer, hanswer, result, hresult, rfl⟩ := h
      rw [List.filter_cons, Function.comp_apply, hanswer, Holds?, ih hresult]

theorem selectSingle_eq_ok {documents : List α} {query : α → Res Bool} {x : α}
    (h : selectSingle documents query = .ok x) :
    documents.filter (Holds? ∘ query) = [x] := by
  rw [selectSingle, bind_eq_ok] at h
  obtain ⟨results, hresults, h⟩ := h
  rw [← selectAll_eq_ok hresults]
  match results, h with
  | [y], h => cases h; rfl

theorem selectAll_map {β : Type} (documents : List β) (f : β → α) (query : α → Res Bool) :
    selectAll (documents.map f) query =
      (selectAll documents (query ∘ f)).map (List.map f) := by
  induction documents with
  | nil => rfl
  | cons x rest ih =>
      rw [List.map_cons, selectAll, selectAll, ih, Function.comp_apply]
      cases query (f x) with
      | error e => rfl
      | ok answer =>
          cases selectAll rest (query ∘ f) <;> cases answer <;> rfl

theorem selectSingle_map {β : Type} {documents : List β} {f : β → α} {query : α → Res Bool} {x : β}
    (h : selectSingle documents (query ∘ f) = .ok x) :
    selectSingle (documents.map f) query = .ok (f x) := by
  rw [selectSingle, bind_eq_ok] at h
  obtain ⟨results, hresults, h⟩ := h
  rw [selectSingle, selectAll_map, hresults]
  match results, h with
  | [y], h =>
      cases h
      rfl

/-- `x.key == value`. -/
def attrIs (key : String) (value x : Val) : Res Bool := do
  let own ← x.getAttr key
  .ok (own.pyEq value)

/-- `x.kind == kind`. -/
def kindIs (kind : String) (x : Val) : Res Bool := attrIs "kind" (.str kind) x

/-- `x.kind == kind and x.name == name`. -/
def kindAndNameAre (kind : String) (name x : Val) : Res Bool := do
  let isKind ← kindIs kind x
  if isKind then attrIs "name" name x else .ok false

/-- `x.name == name and x.kind == kind`. -/
def nameAndKindAre (kind : String) (name x : Val) : Res Bool := do
  let isName ← attrIs "name" name x
  if isName then kindIs kind x else .ok false

theorem pyEq_str_eq_true {x : Val} {s : String} {type : StrType} :
    x.pyEq (.scalar (.str s type)) = true ↔ x.str? = some s := by
  cases x with
  | scalar a =>
      cases a <;> simp [Val.pyEq, Scalar.pyEq, Scalar.num?, Scalar.str?, Val.str?]
  | list | dict => simp [Val.pyEq, Val.str?]

theorem str_pyEq_eq_true {x : Val} {s : String} {type : StrType} :
    (Val.scalar (.str s type)).pyEq x = true ↔ x.str? = some s := by
  cases x with
  | scalar a =>
      cases a <;> simp [Val.pyEq, Scalar.pyEq, Scalar.num?, Scalar.str?, Val.str?]
      exact eq_comm
  | list | dict => simp [Val.pyEq, Val.str?]

/-- The class of a string does not matter to `==`. -/
theorem pyEq_str_class (x : Val) (s : String) (type : StrType) :
    x.pyEq (.scalar (.str s type)) = x.pyEq (.str s) := by
  rw [Bool.eq_iff_iff, pyEq_str_eq_true, pyEq_str_eq_true]

theorem kindAndNameAre_str_class (kind s : String) (type : StrType) :
    kindAndNameAre kind (.scalar (.str s type)) = kindAndNameAre kind (.str s) := by
  funext x
  simp only [kindAndNameAre, attrIs, pyEq_str_class]

theorem attrIs_eq_ok {key : String} {value x : Val} {answer : Bool} :
    attrIs key value x = .ok answer ↔
      ∃ own, x.attr? key = some own ∧ own.pyEq value = answer := by
  simp only [attrIs, bind_eq_ok, Val.getAttr_eq_ok, Except.ok.injEq]

theorem kindIs_eq_ok_true {kind : String} {x : Val} :
    kindIs kind x = .ok true ↔ x.IsKind kind := by
  simp only [kindIs, attrIs_eq_ok, pyEq_str_eq_true, Val.IsKind, Option.bind_eq_some_iff]

theorem holds?_eq_true {answer : Res Bool} : Holds? answer = true ↔ answer = .ok true := by
  unfold Holds?
  cases answer <;> simp

/-- The two orders of the conjuncts agree where neither raises. -/
theorem kindAndNameAre_eq_ok_true {kind : String} {name x : Val} :
    kindAndNameAre kind name x = .ok true ↔
      x.IsKind kind ∧ attrIs "name" name x = .ok true := by
  rw [← kindIs_eq_ok_true, kindAndNameAre, bind_eq_ok]
  constructor
  · rintro ⟨isKind, hkind, h⟩
    cases isKind with
    | true => exact ⟨hkind, h⟩
    | false => cases h
  · rintro ⟨hkind, h⟩
    exact ⟨true, hkind, h⟩

theorem nameAndKindAre_eq_ok_true {kind : String} {name x : Val} :
    nameAndKindAre kind name x = .ok true ↔
      x.IsKind kind ∧ attrIs "name" name x = .ok true := by
  rw [← kindIs_eq_ok_true, nameAndKindAre, bind_eq_ok]
  constructor
  · rintro ⟨isName, hname, h⟩
    cases isName with
    | true => exact ⟨h, hname⟩
    | false => cases h
  · rintro ⟨hkind, h⟩
    exact ⟨true, h, hkind⟩

end LambdaStack
