/-
# Loops that may run forever

A `while` loop is given by its test and its body and run for a bounded number of
iterations. It ends where some number is enough. A measure that each iteration
lowers makes a loop end, and an invariant under which the test stays true keeps it
from ending.
-/

import Mathlib.Data.List.Basic

namespace Lib

universe u

variable {σ : Type u}

/-- A loop of at most `fuel` tests; `none` where it has not ended by then. -/
def whileLoop (test : σ → Bool) (body : σ → σ) : Nat → σ → Option σ
  | 0, _ => none
  | fuel + 1, s => if test s then whileLoop test body fuel (body s) else some s

variable {test : σ → Bool} {body : σ → σ}

theorem whileLoop_of_not_test {s : σ} (h : test s = false) (fuel : Nat) :
    whileLoop test body (fuel + 1) s = some s := by
  rw [whileLoop, h]
  rfl

theorem whileLoop_of_test {s : σ} (h : test s = true) (fuel : Nat) :
    whileLoop test body (fuel + 1) s = whileLoop test body fuel (body s) := by
  rw [whileLoop, if_pos h]

/-- More fuel changes no result. -/
theorem whileLoop_mono {fuel fuel' : Nat} (hle : fuel ≤ fuel') {s s' : σ}
    (h : whileLoop test body fuel s = some s') : whileLoop test body fuel' s = some s' := by
  induction fuel generalizing s fuel' with
  | zero => cases h
  | succ fuel ih =>
      obtain ⟨fuel', rfl⟩ : ∃ n, fuel' = n + 1 := ⟨fuel' - 1, by omega⟩
      cases htest : test s with
      | false =>
          rw [whileLoop_of_not_test htest] at h ⊢
          exact h
      | true =>
          rw [whileLoop_of_test htest] at h ⊢
          exact ih (Nat.le_of_succ_le_succ hle) h

/-- The results of two bounds that are enough are the same. -/
theorem whileLoop_unique {fuel fuel' : Nat} {s s₁ s₂ : σ}
    (h₁ : whileLoop test body fuel s = some s₁) (h₂ : whileLoop test body fuel' s = some s₂) :
    s₁ = s₂ := by
  have h₁' := whileLoop_mono (Nat.le_max_left fuel fuel') h₁
  have h₂' := whileLoop_mono (Nat.le_max_right fuel fuel') h₂
  exact Option.some.inj (h₁'.symm.trans h₂')

/-- The termination rule: each iteration keeps the invariant and lowers the measure. -/
theorem whileLoop_ends {I : σ → Prop} (measure : σ → Nat)
    (hstep : ∀ s, I s → test s = true → I (body s) ∧ measure (body s) < measure s) {s : σ}
    (hs : I s) : ∃ s', whileLoop test body (measure s + 1) s = some s' := by
  induction hmeasure : measure s using Nat.strongRecOn generalizing s with
  | ind n ih =>
      cases htest : test s with
      | false => exact ⟨s, whileLoop_of_not_test htest n⟩
      | true =>
          obtain ⟨hbody, hlt⟩ := hstep s hs htest
          rw [hmeasure] at hlt
          obtain ⟨s', hs'⟩ := ih _ hlt hbody rfl
          rw [whileLoop_of_test htest]
          exact ⟨s', whileLoop_mono hlt hs'⟩

/-- The divergence rule: the invariant is kept and never lets the test fail. -/
theorem whileLoop_diverges {I : σ → Prop} (htest : ∀ s, I s → test s = true)
    (hstep : ∀ s, I s → I (body s)) {s : σ} (hs : I s) (fuel : Nat) :
    whileLoop test body fuel s = none := by
  induction fuel generalizing s with
  | zero => rfl
  | succ fuel ih =>
      rw [whileLoop_of_test (htest s hs)]
      exact ih (hstep s hs)

end Lib
