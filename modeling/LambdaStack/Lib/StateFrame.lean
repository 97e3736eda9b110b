/-
# What a computation may do to the state

A computation that carries a state and may raise keeps a relation when every
successful run relates the state it starts in to the one it ends in. A relation
that is reflexive and transitive is kept by a sequence whose parts keep it.
-/

import Mathlib.Order.Defs.Unbundled
import LambdaStack.Lib.Result

namespace Lib

universe u

variable {σ ε α β : Type u}

/-- Every successful run relates the states before and after it. -/
structure Preserves (R : σ → σ → Prop) (x : StateT σ (Except ε) α) : Prop where
  rel : ∀ {s a s'}, x s = .ok (a, s') → R s s'

section

variable {R : σ → σ → Prop}

/-- A computation that leaves the state as it is. -/
theorem preserves_of_same [Std.Refl R] {x : StateT σ (Except ε) α}
    (h : ∀ s a s', x s = .ok (a, s') → s' = s) : Preserves R x := by
  refine ⟨fun {s a s'} hrun => ?_⟩
  rw [h s a s' hrun]
  exact Std.Refl.refl s

theorem preserves_pure [Std.Refl R] (a : α) : Preserves R (pure a : StateT σ (Except ε) α) := by
  refine preserves_of_same fun s b s' h => ?_
  cases h
  rfl

/-- The rule for a sequence. -/
theorem Preserves.bind [IsTrans σ R] {x : StateT σ (Except ε) α}
    {f : α → StateT σ (Except ε) β} (hx : Preserves R x) (hf : ∀ a, Preserves R (f a)) :
    Preserves R (x >>= f) := by
  refine ⟨fun {s b s'} hrun => ?_⟩
  change (x s >>= fun p => f p.1 p.2) = _ at hrun
  obtain ⟨⟨a, s₁⟩, hfirst, hrest⟩ := bind_eq_ok.mp hrun
  exact Trans.trans (hx.rel hfirst) ((hf a).rel hrest)

/-- The relation is kept, and the result is the value. -/
structure Returns (R : σ → σ → Prop) (a : α) (x : StateT σ (Except ε) α) : Prop
    extends Preserves R x where
  eq : ∀ {s b s'}, x s = .ok (b, s') → b = a

theorem returns_pure [Std.Refl R] (a : α) :
    Returns R a (pure a : StateT σ (Except ε) α) := by
  refine ⟨preserves_pure a, fun {s b s'} h => ?_⟩
  cases h
  rfl

/-- A sequence returns what its last part does. -/
theorem Preserves.bindReturns [IsTrans σ R] {x : StateT σ (Except ε) α} {b : β}
    {f : α → StateT σ (Except ε) β} (hx : Preserves R x) (hf : ∀ a, Returns R b (f a)) :
    Returns R b (x >>= f) := by
  refine ⟨hx.bind fun a => (hf a).toPreserves, fun {s c s'} hrun => ?_⟩
  change (x s >>= fun p => f p.1 p.2) = _ at hrun
  obtain ⟨⟨a, s₁⟩, -, hrest⟩ := bind_eq_ok.mp hrun
  exact (hf a).eq hrest

theorem Preserves.ite {p : Prop} [Decidable p] {x y : StateT σ (Except ε) α}
    (hx : Preserves R x) (hy : Preserves R y) : Preserves R (if p then x else y) := by
  split
  · exact hx
  · exact hy

end

end Lib
