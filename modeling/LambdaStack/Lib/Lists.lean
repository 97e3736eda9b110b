/-
# Lists related item by item

Searching two lists whose items are related pairwise, and taking a list apart at
the first of its separators or at its first item with a property.
-/

import Mathlib.Data.List.Basic
import Mathlib.Data.List.Forall2

namespace Lib

universe u v

variable {α : Type u} {β : Type v} {R : α → β → Prop}

/-- A search that cannot tell related items apart finds nothing in both lists or
two related items. -/
theorem find?_forall₂ {p : α → Bool} {q : β → Bool} {xs : List α} {ys : List β}
    (hrel : List.Forall₂ R xs ys) (hpq : ∀ x ∈ xs, ∀ y ∈ ys, R x y → p x = q y) :
    (xs.find? p = none ∧ ys.find? q = none) ∨
      ∃ x y, xs.find? p = some x ∧ ys.find? q = some y ∧ R x y := by
  induction hrel with
  | nil => exact Or.inl ⟨rfl, rfl⟩
  | @cons x y xs ys hxy hrest ih =>
      have hhead := hpq x (by simp) y (by simp) hxy
      rw [List.find?_cons, List.find?_cons, ← hhead]
      cases p x with
      | true => exact Or.inr ⟨x, y, rfl, rfl, hxy⟩
      | false => exact ih fun a ha b hb => hpq a (by simp [ha]) b (by simp [hb])

/-- The same for the question whether some item is found. -/
theorem any_forall₂ {p : α → Bool} {q : β → Bool} {xs : List α} {ys : List β}
    (hrel : List.Forall₂ R xs ys) (hpq : ∀ x ∈ xs, ∀ y ∈ ys, R x y → p x = q y) :
    xs.any p = ys.any q := by
  rw [Bool.eq_iff_iff, List.any_eq_true, List.any_eq_true, ← List.find?_isSome,
    ← List.find?_isSome]
  rcases find?_forall₂ hrel hpq with ⟨hx, hy⟩ | ⟨x, y, hx, hy, -⟩ <;> simp [hx, hy]

/-- The same for the number of items found. -/
theorem countP_forall₂ {p : α → Bool} {q : β → Bool} {xs : List α} {ys : List β}
    (hrel : List.Forall₂ R xs ys) (hpq : ∀ x y, R x y → p x = q y) :
    xs.countP p = ys.countP q := by
  induction hrel with
  | nil => rfl
  | @cons x y xs ys hxy hrest ih => rw [List.countP_cons, List.countP_cons, ih, hpq x y hxy]

/-- The same for a property of all items. -/
theorem forall_forall₂ {P : α → Prop} {Q : β → Prop} {xs : List α} {ys : List β}
    (hrel : List.Forall₂ R xs ys) (hPQ : ∀ x y, R x y → (P x ↔ Q y)) :
    (∀ x ∈ xs, P x) ↔ ∀ y ∈ ys, Q y := by
  induction hrel with
  | nil => simp
  | @cons x y xs ys hxy hrest ih =>
      rw [List.forall_mem_cons, List.forall_mem_cons, ih, hPQ x y hxy]

/-- Every item has a related one. -/
theorem exists_of_mem_forall₂ {xs : List α} {ys : List β} (hrel : List.Forall₂ R xs ys) {x : α}
    (hx : x ∈ xs) : ∃ y, y ∈ ys ∧ R x y := by
  induction hrel with
  | nil => cases hx
  | @cons x' y xs ys hxy hrest ih =>
      rcases List.mem_cons.mp hx with rfl | hx
      · exact ⟨y, by simp, hxy⟩
      · obtain ⟨y', hy', hrel⟩ := ih hx
        exact ⟨y', by simp [hy'], hrel⟩

/-- Replacing every item of a list by two related lists. -/
theorem forall₂_flatMap {γ : Type u} {items : List γ} {f : γ → List α} {g : γ → List β}
    (h : ∀ x ∈ items, List.Forall₂ R (f x) (g x)) :
    List.Forall₂ R (items.flatMap f) (items.flatMap g) := by
  induction items with
  | nil => exact .nil
  | cons x rest ih =>
      rw [List.forall_mem_cons] at h
      exact List.rel_append h.1 (ih h.2)

/-- Two lists related to a third one item by item. -/
theorem forall₂_of_common {γ : Type u} {S : α → γ → Prop} {T : β → γ → Prop} {xs : List α}
    {ys : List β} {zs : List γ} (hrel : List.Forall₂ R xs ys) (hrel' : List.Forall₂ S xs zs)
    (hT : ∀ x y z, R x y → S x z → T y z) : List.Forall₂ T ys zs := by
  induction hrel generalizing zs with
  | nil =>
      cases hrel'
      exact .nil
  | @cons x y xs ys hxy hrest ih =>
      cases hrel' with
      | @cons _ z _ zs hxz hrest' => exact .cons (hT x y z hxy hxz) (ih hrest')

/-- Two lists related to a third one item by item, where an item of the one is given by
that of the other. -/
theorem eq_filterMap_of_forall₂ {γ : Type u} {S : α → γ → Prop} {f : β → Option γ} {xs : List α}
    {ys : List β} {zs : List γ} (hrel : List.Forall₂ R xs ys) (hrel' : List.Forall₂ S xs zs)
    (hf : ∀ x y z, R x y → S x z → f y = some z) : zs = ys.filterMap f := by
  induction hrel generalizing zs with
  | nil =>
      cases hrel'
      rfl
  | @cons x y xs ys hxy hrest ih =>
      cases hrel' with
      | @cons _ z _ zs hxz hrest' => rw [List.filterMap_cons_some (hf x y z hxy hxz), ih hrest']

/-- The same for a relation of all pairs of items. -/
theorem pairwise_forall₂ {S : α → α → Prop} {T : β → β → Prop} {xs : List α} {ys : List β}
    (hrel : List.Forall₂ R xs ys)
    (hST : ∀ x y x' y', R x y → R x' y' → (S x x' ↔ T y y')) :
    xs.Pairwise S ↔ ys.Pairwise T := by
  induction hrel with
  | nil => simp
  | @cons x y xs ys hxy hrest ih =>
      rw [List.pairwise_cons, List.pairwise_cons, ih,
        forall_forall₂ hrest fun x' y' h => hST x y x' y' hxy h]

/-- A property some item has and no two items have is one of exactly one item. -/
theorem countP_eq_one {p : α → Bool} {xs : List α} (hsome : ∃ x ∈ xs, p x = true)
    (hpairs : xs.Pairwise fun x y => ¬ (p x = true ∧ p y = true)) : xs.countP p = 1 := by
  induction xs with
  | nil => simp at hsome
  | cons x rest ih =>
      rw [List.pairwise_cons] at hpairs
      rw [List.countP_cons]
      by_cases hx : p x = true
      · have hrest : rest.countP p = 0 :=
          List.countP_eq_zero.mpr fun y hy hpy => hpairs.1 y hy ⟨hx, hpy⟩
        rw [hrest, if_pos hx]
      · rw [if_neg hx]
        apply ih _ hpairs.2
        obtain ⟨y, hy, hpy⟩ := hsome
        rcases List.mem_cons.mp hy with rfl | hy
        · exact absurd hpy hx
        · exact ⟨y, hy, hpy⟩

/-- Items are pairwise different exactly when each item there is occurs once, and no other
does. -/
theorem pairwise_iff_countP {same : α → α → Bool} {P : α → Prop} {xs : List α}
    (hxs : ∀ x ∈ xs, P x) (hrefl : ∀ x, P x → same x x = true)
    (hright : ∀ x y z, P y → P z → same x z = true → same y z = true → same x y = true) :
    (xs.Pairwise fun x y => same x y = false) ↔ ∀ z, P z →
      xs.countP (fun x => same x z) = if xs.any (fun x => same x z) then 1 else 0 := by
  constructor
  · intro hpairs z hz
    split
    · next hany =>
        rw [List.any_eq_true] at hany
        apply countP_eq_one hany
        apply hpairs.imp_of_mem
        rintro x y - hy hne ⟨hxz, hyz⟩
        rw [hright x y z (hxs y hy) hz hxz hyz] at hne
        cases hne
    · next hany =>
        rw [List.countP_eq_zero]
        exact fun x hx hxz => hany (List.any_eq_true.mpr ⟨x, hx, hxz⟩)
  · intro hcount
    have hle : ∀ z, P z → xs.countP (fun x => same x z) ≤ 1 := by
      intro z hz
      rw [hcount z hz]
      split <;> omega
    clear hcount
    induction xs with
    | nil => exact .nil
    | cons x rest ih =>
        rw [List.forall_mem_cons] at hxs
        refine .cons (fun y hy => ?_) (ih hxs.2 fun z hz => ?_)
        · -- an item like the first would occur twice
          by_contra hne
          rw [Bool.not_eq_false] at hne
          have hy' := hxs.2 y hy
          have hpos : 0 < rest.countP fun x => same x y :=
            List.countP_pos_iff.mpr ⟨y, hy, hrefl y hy'⟩
          have htwo := hle y hy'
          rw [List.countP_cons, if_pos hne] at htwo
          omega
        · exact Nat.le_trans (List.sublist_cons_self x rest).countP_le (hle z hz)

/-- What follows the first separator is determined. -/
theorem append_cons_eq_iff {c : α} {xs ys a b : List α} (hx : c ∉ xs) (hy : c ∉ ys) :
    xs ++ c :: a = ys ++ c :: b ↔ xs = ys ∧ a = b := by
  induction xs generalizing ys with
  | nil =>
      cases ys with
      | nil => simp
      | cons y ys =>
          rw [List.mem_cons, not_or] at hy
          simp [hy.1]
  | cons x xs ih =>
      rw [List.mem_cons, not_or] at hx
      cases ys with
      | nil => simp [Ne.symm hx.1]
      | cons y ys =>
          rw [List.mem_cons, not_or] at hy
          simp [ih hx.2 hy.2, and_assoc]

/-- `a` is an item of the list with the property `p`, and none before it has that. -/
def FirstWith (p : α → Prop) (l : List α) (a : α) : Prop :=
  ∃ before after, l = before ++ a :: after ∧ p a ∧ ∀ b ∈ before, ¬ p b

theorem FirstWith.mem {p : α → Prop} {l : List α} {a : α} (h : FirstWith p l a) : a ∈ l := by
  obtain ⟨before, after, rfl, -⟩ := h
  simp

/-- There is one first item with the property. -/
theorem FirstWith.unique {p : α → Prop} {l : List α} {a b : α} (ha : FirstWith p l a)
    (hb : FirstWith p l b) : a = b := by
  obtain ⟨before, after, rfl, hpa, hbefore⟩ := ha
  obtain ⟨before', after', heq, hpb, hbefore'⟩ := hb
  rcases List.append_eq_append_iff.mp heq with ⟨c, rfl, htail⟩ | ⟨c, rfl, htail⟩
  · cases c with
    | nil =>
        simp only [List.nil_append, List.cons.injEq] at htail
        exact htail.1
    | cons d c =>
        simp only [List.cons_append, List.cons.injEq] at htail
        exact absurd (htail.1 ▸ hpa) (hbefore' d (by simp))
  · cases c with
    | nil =>
        simp only [List.nil_append, List.cons.injEq] at htail
        exact htail.1.symm
    | cons d c =>
        simp only [List.cons_append, List.cons.injEq] at htail
        exact absurd (htail.1 ▸ hpb) (hbefore d (by simp))

end Lib
