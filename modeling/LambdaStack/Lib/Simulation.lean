/-
# Actions that end alike

An action is simulated by one on another state: where the one returns the other returns,
and where the one raises the other raises the same, though the exceptions of the other
may carry more. The rules read a sequence as the run of its parts.
-/

import LambdaStack.Lib.Action

namespace Lib

open Lib.Action

variable {σ τ ε δ α β α' β' : Type}

/-- Two runs that end alike: `Q` holds of what they return and leave, `F` of what they
leave when they raise. -/
inductive EndAlike (E : δ → ε) (Q : α → σ → β → τ → Prop) (F : σ → τ → Prop) :
    Except ε α × σ → Except δ β × τ → Prop
  | returned {a : α} {s : σ} {b : β} {t : τ} : Q a s b t → EndAlike E Q F (.ok a, s) (.ok b, t)
  | raised {e : δ} {s : σ} {t : τ} : F s t → EndAlike E Q F (.error (E e), s) (.error e, t)

namespace EndAlike

variable {E : δ → ε} {Q : α → σ → β → τ → Prop} {F : σ → τ → Prop} {s : σ} {t : τ}

theorem mono {Q' : α → σ → β → τ → Prop} {F' : σ → τ → Prop} {run : Except ε α × σ}
    {plain : Except δ β × τ} (h : EndAlike E Q F run plain)
    (hQ : ∀ a s b t, Q a s b t → Q' a s b t) (hF : ∀ s t, F s t → F' s t) :
    EndAlike E Q' F' run plain := by
  cases h with
  | returned h => exact .returned (hQ _ _ _ _ h)
  | raised h => exact .raised (hF _ _ h)

/-- The rule for a sequence. -/
theorem bind {x : Action σ ε α} {y : Action τ δ β} {f : α → Action σ ε α'} {g : β → Action τ δ β'}
    {Q' : α' → σ → β' → τ → Prop} (hx : EndAlike E Q F (x.exec s) (y.exec t))
    (hf : ∀ a s₁ b t₁, x.exec s = (.ok a, s₁) → Q a s₁ b t₁ →
      EndAlike E Q' F ((f a).exec s₁) ((g b).exec t₁)) :
    EndAlike E Q' F ((x >>= f).exec s) ((y >>= g).exec t) := by
  rw [exec_bind, exec_bind]
  generalize hrun : x.exec s = run at hx hf
  generalize y.exec t = plain at hx
  cases hx with
  | returned h => exact hf _ _ _ _ rfl h
  | raised h => exact .raised h

/-- The rules for a step that one of the two takes alone. -/
theorem stepLeft {x : Action σ ε α} {f : α → Action σ ε α'} {a : α} {s₁ : σ}
    {plain : Except δ β × τ} {Q' : α' → σ → β → τ → Prop} (hrun : x.exec s = (.ok a, s₁))
    (hf : EndAlike E Q' F ((f a).exec s₁) plain) : EndAlike E Q' F ((x >>= f).exec s) plain := by
  rw [exec_bind_ok hrun]
  exact hf

theorem stepRight {y : Action τ δ β} {g : β → Action τ δ β'} {b : β} {t₁ : τ}
    {run : Except ε α × σ} {Q' : α → σ → β' → τ → Prop} (hrun : y.exec t = (.ok b, t₁))
    (hg : EndAlike E Q' F run ((g b).exec t₁)) : EndAlike E Q' F run ((y >>= g).exec t) := by
  rw [exec_bind_ok hrun]
  exact hg

/-- The rule for a plan that returns something else than its last step. -/
theorem returnRight {y : Action τ δ β} {c : β'} {run : Except ε α × σ}
    (h : EndAlike E (fun _ s _ t => F s t) F run (y.exec t)) :
    EndAlike E (fun _ s _ t => F s t) F run ((y >>= fun _ => pure c).exec t) := by
  rw [exec_bind]
  generalize y.exec t = plain at h
  cases h with
  | returned h => exact .returned h
  | raised h => exact .raised h

end EndAlike

end Lib
