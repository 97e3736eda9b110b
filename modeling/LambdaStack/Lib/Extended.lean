/-
# Lists extended by what they lack

A list to which items are appended one after another, each unless the list has one
that is the same. Sameness is any relation: nothing here needs it to be an
equivalence, and an item that is not the same as itself may be appended again.
-/

import LambdaStack.Lib.Lists

namespace Lib

universe u

variable {α : Type u} {Same : α → α → Prop} {added added' old mid new xs : List α} {x : α}

/-- A list extended by those of the added items it lacked. -/
structure Extended (Same : α → α → Prop) (added old new : List α) : Prop where
  grows : old ⊆ new
  sound : ∀ x ∈ new, x ∈ old ∨ x ∈ added
  covers : ∀ x ∈ added, Same x x → ∃ y ∈ new, Same y x
  apart : old.Pairwise (fun x y => ¬ Same x y) → new.Pairwise fun x y => ¬ Same x y

namespace Extended

theorem nil (xs : List α) : Extended Same [] xs xs where
  grows := List.Subset.refl xs
  sound _ hx := Or.inl hx
  covers _ hx := absurd hx List.not_mem_nil
  apart h := h

/-- An item the list has is not appended. -/
theorem known (h : ∃ y ∈ xs, Same y x) : Extended Same [x] xs xs where
  grows := List.Subset.refl xs
  sound _ hx := Or.inl hx
  covers y hy _ := by rwa [List.mem_singleton.mp hy]
  apart h := h

/-- An item the list lacks is. -/
theorem lacking (h : ∀ y ∈ xs, ¬ Same y x) : Extended Same [x] xs (xs ++ [x]) where
  grows := List.subset_append_left xs [x]
  sound _ hx := List.mem_append.mp hx
  covers y hy hsame := by
    rw [List.mem_singleton.mp hy] at hsame ⊢
    exact ⟨x, by simp, hsame⟩
  apart hxs := by
    rw [List.pairwise_append]
    refine ⟨hxs, List.pairwise_singleton _ _, fun y hy z hz => ?_⟩
    rw [List.mem_singleton.mp hz]
    exact h y hy

theorem trans (h : Extended Same added old mid) (h' : Extended Same added' mid new) :
    Extended Same (added ++ added') old new where
  grows := List.Subset.trans h.grows h'.grows
  sound x hx := by
    rcases h'.sound x hx with hmid | hadded
    · exact (h.sound x hmid).imp_right fun hadded => List.mem_append.mpr (Or.inl hadded)
    · exact Or.inr (List.mem_append.mpr (Or.inr hadded))
  covers x hx hsame := by
    rcases List.mem_append.mp hx with hx | hx
    · obtain ⟨y, hy, hyx⟩ := h.covers x hx hsame
      exact ⟨y, h'.grows hy, hyx⟩
    · exact h'.covers x hx hsame
  apart hold := h'.apart (h.apart hold)

/-- Only which items are added matters. -/
theorem of_mem_iff (h : Extended Same added old new) (hmem : ∀ x, x ∈ added ↔ x ∈ added') :
    Extended Same added' old new where
  grows := h.grows
  sound x hx := (h.sound x hx).imp_right (hmem x).mp
  covers x hx hsame := h.covers x ((hmem x).mpr hx) hsame
  apart := h.apart

/-- Adding the same items twice is adding them once. -/
theorem again (h : Extended Same added old mid) (h' : Extended Same added mid new) :
    Extended Same added old new :=
  (h.trans h').of_mem_iff (by simp)

/-- A list that started out empty has one item with a property some added item has, where
the items with the property are the same as one another. -/
theorem countP_eq {p : α → Bool} (h : Extended Same added [] new)
    (hrefl : ∀ x ∈ added, Same x x) (hresp : ∀ x y, Same x y → p y = true → p x = true)
    (hsame : ∀ x ∈ new, ∀ y ∈ new, p x = true → p y = true → Same x y) :
    new.countP p = if added.any p then 1 else 0 := by
  split
  · next hany =>
      obtain ⟨x, hx, hpx⟩ := List.any_eq_true.mp hany
      obtain ⟨y, hy, hyx⟩ := h.covers x hx (hrefl x hx)
      apply countP_eq_one ⟨y, hy, hresp y x hyx hpx⟩
      apply (h.apart .nil).imp_of_mem
      rintro y z hy hz hne ⟨hpy, hpz⟩
      exact hne (hsame y hy z hz hpy hpz)
  · next hany =>
      rw [List.countP_eq_zero]
      intro x hx hpx
      have hadded := (h.sound x hx).resolve_left List.not_mem_nil
      exact hany (List.any_eq_true.mpr ⟨x, hadded, hpx⟩)

end Extended

end Lib
