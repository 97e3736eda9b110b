/-
# Answering requests from a log

A list of requests is answered one after the other. Some requests have an own
answer, which is logged each time; any other request is answered from the log
when an item of it fits, and by a new item otherwise. The log ends up with every
request answered. It has no two like items exactly when no own answer is given
twice, and it keeps a singled out item single exactly when the requests for it
are answered from the log.
-/

import Mathlib.Data.List.Count
import Mathlib.Data.List.Basic

namespace Lib

universe u v

variable {Q : Type u} {X : Type v}

/-- What requests and items have to do with each other. -/
structure Answering (Q : Type u) (X : Type v) where
  own : Q → Option X
  fits : Q → X → Prop
  like : X → X → Prop
  own_fits : ∀ {q x}, own q = some x → fits q x
  /-- Requests that fit one item have one own answer. -/
  own_eq : ∀ {q q' x}, fits q x → fits q' x → own q = own q'
  /-- The items that fit a request are those like one of them. -/
  fits_iff_like : ∀ {q x y}, fits q x → (fits q y ↔ like y x)

namespace Answering

variable (A : Answering Q X)

/-- How one request changes the log. -/
inductive Step (q : Q) (log : List X) : List X → Prop
  | own {x : X} (h : A.own q = some x) : Step q log (log ++ [x])
  | known (hown : A.own q = none) {x : X} (hmem : x ∈ log) (hfits : A.fits q x) : Step q log log
  | fresh (hown : A.own q = none) (hunknown : ∀ x ∈ log, ¬ A.fits q x) {x : X}
      (hfits : A.fits q x) : Step q log (log ++ [x])

/-- How a list of requests changes the log. -/
inductive Run : List Q → List X → List X → Prop
  | nil (log : List X) : Run [] log log
  | cons {q : Q} {rest : List Q} {log log₁ log₂ : List X} (hstep : A.Step q log log₁)
      (hrest : Run rest log₁ log₂) : Run (q :: rest) log log₂

/-- Two requests fit one item. -/
def Alike (q q' : Q) : Prop := ∃ x, A.fits q x ∧ A.fits q' x

/-- No own answer is given twice, and none to a request that an item of the log fits
from the start. -/
def OwnOnce (requests : List Q) (log : List X) : Prop :=
  requests.Pairwise (fun q q' => A.own q ≠ none → ¬ A.Alike q q') ∧
    ∀ q ∈ requests, A.own q ≠ none → ∀ x ∈ log, ¬ A.fits q x

variable {A} {requests : List Q} {log log' : List X} {q : Q}

theorem Run.append {rest : List Q} {log'' : List X} (h : A.Run requests log log')
    (hrest : A.Run rest log' log'') : A.Run (requests ++ rest) log log'' := by
  induction h with
  | nil => exact hrest
  | cons hstep _ ih => exact .cons hstep (ih hrest)

theorem Step.isPrefix (h : A.Step q log log') : log <+: log' := by
  cases h with
  | own | fresh => exact List.prefix_append _ _
  | known => exact List.prefix_rfl

theorem Step.answered (h : A.Step q log log') : ∃ x ∈ log', A.fits q x := by
  cases h with
  | @own x hown => exact ⟨x, by simp, A.own_fits hown⟩
  | @known _ x hmem hfits => exact ⟨x, hmem, hfits⟩
  | @fresh _ _ x hfits => exact ⟨x, by simp, hfits⟩

theorem Run.isPrefix (h : A.Run requests log log') : log <+: log' := by
  induction h with
  | nil => exact List.prefix_rfl
  | cons hstep _ ih => exact hstep.isPrefix.trans ih

/-- Every request is answered in the end. -/
theorem Run.answered (h : A.Run requests log log') : ∀ q ∈ requests, ∃ x ∈ log', A.fits q x := by
  induction h with
  | nil => simp
  | cons hstep hrest ih =>
      rw [List.forall_mem_cons]
      refine ⟨?_, ih⟩
      obtain ⟨x, hmem, hfits⟩ := hstep.answered
      exact ⟨x, hrest.isPrefix.subset hmem, hfits⟩

/-- Requests alike to one with an own answer have it as well. -/
theorem own_ne_none_of_fits {q' : Q} {x : X} (hfits : A.fits q x) (hfits' : A.fits q' x)
    (hown : A.own q ≠ none) : A.own q' ≠ none := by
  rwa [← A.own_eq hfits hfits']

/-- An item for a request no item of the log fits is like none of them. -/
theorem pairwise_concat {x : X} (hlog : log.Pairwise fun x y => ¬ A.like x y)
    (hfits : A.fits q x) (hunknown : ∀ y ∈ log, ¬ A.fits q y) :
    (log ++ [x]).Pairwise fun x y => ¬ A.like x y := by
  rw [List.pairwise_append]
  refine ⟨hlog, List.pairwise_singleton _ _, fun y hy z hz => ?_⟩
  rw [List.mem_singleton.mp hz, ← A.fits_iff_like hfits]
  exact hunknown y hy

/-- The log has no two like items in the end exactly when no own answer is given
twice. -/
theorem Run.pairwise_iff (h : A.Run requests log log')
    (hlog : log.Pairwise fun x y => ¬ A.like x y) :
    (log'.Pairwise fun x y => ¬ A.like x y) ↔ A.OwnOnce requests log := by
  induction h with
  | nil log => simp [OwnOnce, hlog]
  | @cons q rest log log₁ log₂ hstep hrest ih =>
      unfold OwnOnce
      rw [List.pairwise_cons, List.forall_mem_cons]
      cases hstep with
      | known hown hmem hfits =>
          rw [ih hlog, OwnOnce]
          simp [hown]
      | @fresh hown hunknown x hfits =>
          have hother : ∀ q' : Q, A.own q' ≠ none → ¬ A.fits q' x := fun q' hown' hfits' =>
            own_ne_none_of_fits hfits' hfits hown' hown
          rw [ih (pairwise_concat hlog hfits hunknown), OwnOnce]
          simp only [List.forall_mem_append, List.forall_mem_singleton, hown, ne_eq,
            not_true_eq_false, false_implies, implies_true, true_and]
          constructor
          · rintro ⟨hpairs, hrest⟩
            exact ⟨hpairs, fun q' hq' hown' => (hrest q' hq' hown').1⟩
          · rintro ⟨hpairs, hrest⟩
            exact ⟨hpairs, fun q' hq' hown' => ⟨hrest q' hq' hown', hother q' hown'⟩⟩
      | @own x hown =>
          have hfits := A.own_fits hown
          have hne : A.own q ≠ none := by simp [hown]
          have halike : ∀ q', A.own q' ≠ none → (¬ A.fits q' x ↔ ¬ A.Alike q q') := by
            intro q' hown'
            apply not_congr
            constructor
            · intro hfits'
              exact ⟨x, hfits, hfits'⟩
            · rintro ⟨y, hy, hy'⟩
              -- `y` is like `x`, so what fits `y` fits `x`
              have hlike := (A.fits_iff_like hy).mp hfits
              exact (A.fits_iff_like hy').mpr hlike
          have hown_of_alike : ∀ q', A.Alike q q' → A.own q' ≠ none := by
            rintro q' ⟨y, hy, hy'⟩
            exact own_ne_none_of_fits hy hy' hne
          by_cases hknown : ∃ y ∈ log, A.fits q y
          · -- the own answer is like an item that is there already
            obtain ⟨y, hy, hfitsy⟩ := hknown
            refine iff_of_false (fun hpairs => ?_) fun hright => ?_
            · have hbegin := hpairs.sublist hrest.isPrefix.sublist
              rw [List.pairwise_append] at hbegin
              exact hbegin.2.2 y hy x (List.mem_singleton_self x)
                ((A.fits_iff_like hfits).mp hfitsy)
            · exact hright.2.1 hne y hy hfitsy
          · have hunknown : ∀ y ∈ log, ¬ A.fits q y := fun y hy hfitsy => hknown ⟨y, hy, hfitsy⟩
            rw [ih (pairwise_concat hlog hfits hunknown), OwnOnce]
            simp only [List.forall_mem_append, List.forall_mem_singleton]
            constructor
            · rintro ⟨hpairs, hrest⟩
              refine ⟨⟨fun q' hq' _ halike' => ?_, hpairs⟩, fun _ => hunknown,
                fun q' hq' hown' => (hrest q' hq' hown').1⟩
              have hown' := hown_of_alike q' halike'
              exact (halike q' hown').mp (hrest q' hq' hown').2 halike'
            · rintro ⟨⟨hfirst, hpairs⟩, -, hrest⟩
              exact ⟨hpairs, fun q' hq' hown' =>
                ⟨hrest q' hq' hown', (halike q' hown').mpr (hfirst q' hq' hne)⟩⟩

/-- The first item with a property of requests and items that agree on it: the log's
own one, or an item for the first such request. -/
theorem Run.find?_some {R : X → Bool} {S : Q → Bool}
    (hRS : ∀ {q x}, A.fits q x → R x = S q) (h : A.Run requests log log')
    (hlog : log.find? R = none) (hfirst : requests.find? S = some q) :
    ∃ x, log'.find? R = some x ∧ A.fits q x := by
  induction h with
  | nil log => cases hfirst
  | @cons q' rest log log₁ log₂ hstep hrest ih =>
      rw [List.find?_cons] at hfirst
      have hnone := List.find?_eq_none.mp hlog
      cases hS : S q' with
      | true =>
          rw [hS] at hfirst
          cases hfirst
          have happend : ∀ x, A.fits q x → log₁ = log ++ [x] →
              ∃ x, log₂.find? R = some x ∧ A.fits q x := by
            rintro x hfits rfl
            refine ⟨x, ?_, hfits⟩
            obtain ⟨later, rfl⟩ := hrest.isPrefix
            rw [List.find?_append, List.find?_append, hlog, List.find?_singleton, hRS hfits, hS]
            rfl
          cases hstep with
          | known hown hmem hfits =>
              exact absurd ((hRS hfits).trans hS) (hnone _ hmem)
          | own hown => exact happend _ (A.own_fits hown) rfl
          | fresh hown hunknown hfits => exact happend _ hfits rfl
      | false =>
          rw [hS] at hfirst
          have happend : ∀ x, A.fits q' x → log₁ = log ++ [x] → log₁.find? R = none := by
            rintro x hfits rfl
            rw [List.find?_append, hlog, List.find?_singleton, hRS hfits, hS]
            rfl
          cases hstep with
          | known => exact ih hlog hfirst
          | own hown => exact ih (happend _ (A.own_fits hown) rfl) hfirst
          | fresh hown hunknown hfits => exact ih (happend _ hfits rfl) hfirst

/-- An item singled out by a property of requests and items that agree on it stays
the only one exactly when every such request is answered from the log it starts
with. -/
theorem Run.countP_iff {R : X → Bool} {S : Q → Prop}
    (hRS : ∀ {q x}, A.fits q x → (R x = true ↔ S q)) (h : A.Run requests log log')
    (hlog : log.countP R = 1) :
    log'.countP R = 1 ↔ ∀ q ∈ requests, S q → A.own q = none ∧ ∃ x ∈ log, A.fits q x := by
  induction h with
  | nil log => simp [hlog]
  | @cons q rest log log₁ log₂ hstep hrest ih =>
      rw [List.forall_mem_cons]
      have hle : log₁.countP R ≤ log₂.countP R := hrest.isPrefix.sublist.countP_le
      -- an appended item without the property answers no request with it
      have happend : ∀ x, A.fits q x → ¬ S q → log₁ = log ++ [x] →
          (log₂.countP R = 1 ↔
            (S q → A.own q = none ∧ ∃ x ∈ log, A.fits q x) ∧
              ∀ q ∈ rest, S q → A.own q = none ∧ ∃ x ∈ log, A.fits q x) := by
        rintro x hfits hS rfl
        have hR : ¬ R x = true := fun hR => hS ((hRS hfits).mp hR)
        rw [ih (by simp [List.countP_append, hlog, hR])]
        simp only [hS, false_implies, true_and]
        refine forall_congr' fun q' => forall_congr' fun _ => forall_congr' fun hS' =>
          and_congr_right fun _ => ?_
        constructor
        · rintro ⟨y, hy, hfits'⟩
          rcases List.mem_append.mp hy with hy | hy
          · exact ⟨y, hy, hfits'⟩
          · rw [List.mem_singleton.mp hy] at hfits'
            exact absurd ((hRS hfits').mpr hS') hR
        · rintro ⟨y, hy, hfits'⟩
          exact ⟨y, List.mem_append_left _ hy, hfits'⟩
      have hmore : ∀ x, A.fits q x → S q → log₁ = log ++ [x] → log₂.countP R ≠ 1 := by
        rintro x hfits hS rfl
        have hR := (hRS hfits).mpr hS
        rw [List.countP_append, hlog, List.countP_singleton, if_pos hR] at hle
        omega
      cases hstep with
      | known hown hmem hfits =>
          rw [ih hlog]
          exact ⟨fun hrest => ⟨fun _ => ⟨hown, _, hmem, hfits⟩, hrest⟩, fun hall => hall.2⟩
      | @own x hown =>
          by_cases hS : S q
          · refine iff_of_false (hmore x (A.own_fits hown) hS rfl) fun hall => ?_
            rw [(hall.1 hS).1] at hown
            cases hown
          · exact happend x (A.own_fits hown) hS rfl
      | @fresh hown hunknown x hfits =>
          by_cases hS : S q
          · refine iff_of_false (hmore x hfits hS rfl) fun hall => ?_
            obtain ⟨y, hy, hfitsy⟩ := (hall.1 hS).2
            exact hunknown y hy hfitsy
          · exact happend x hfits hS rfl

end Answering

end Lib
