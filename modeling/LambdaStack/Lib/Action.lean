/-
# Actions that may raise

An action runs in a state and ends with a value or an exception; what it did to
the state before it raised stays. The lemmas read a sequence as the run of its
parts, so that a proof never unfolds the monad.
-/

import Mathlib.Control.Basic
import Mathlib.Data.List.Basic
import Mathlib.Order.Defs.Unbundled

namespace Lib

/-- An action on a state that may raise and keeps the state when it does. -/
abbrev Action (σ ε α : Type) := ExceptT ε (StateM σ) α

namespace Action

variable {σ ε α β : Type}

/-- The end of an action and the state it leaves. -/
def exec (x : Action σ ε α) (s : σ) : Except ε α × σ := x s

/-- An action that changes the state. -/
def change (f : σ → σ) : Action σ ε Unit := fun s => (.ok (), f s)

/-- What a function of the state returns or raises. -/
def read (f : σ → Except ε α) : Action σ ε α := fun s => (f s, s)

/-- An exception. -/
def raise (e : ε) : Action σ ε α := fun s => (.error e, s)

/-- Try an action and, where it raises, do another one instead. -/
def orElse (x : Action σ ε α) (handler : ε → Action σ ε α) : Action σ ε α := fun s =>
  match x s with
  | (.ok a, s') => (.ok a, s')
  | (.error e, s') => handler e s'

variable {s s' : σ} {e : ε}

@[simp]
theorem exec_pure (a : α) (s : σ) : (pure a : Action σ ε α).exec s = (.ok a, s) := rfl

@[simp]
theorem exec_change (f : σ → σ) (s : σ) :
    (change f : Action σ ε Unit).exec s = (.ok (), f s) := rfl

@[simp]
theorem exec_read (f : σ → Except ε α) (s : σ) : (read f).exec s = (f s, s) := rfl

@[simp]
theorem exec_raise (e : ε) (s : σ) : (raise e : Action σ ε α).exec s = (.error e, s) := rfl

theorem exec_bind (x : Action σ ε α) (f : α → Action σ ε β) (s : σ) :
    (x >>= f).exec s =
      match x.exec s with
      | (.ok a, s₁) => (f a).exec s₁
      | (.error e, s₁) => (.error e, s₁) := by
  change ExceptT.bindCont f (x.exec s).1 (x.exec s).2 = _
  rcases x.exec s with ⟨a | e, s₁⟩ <;> rfl

theorem exec_bind_ok {x : Action σ ε α} {a : α} {s₁ : σ} (h : x.exec s = (.ok a, s₁))
    (f : α → Action σ ε β) : (x >>= f).exec s = (f a).exec s₁ := by
  rw [exec_bind, h]

theorem exec_bind_error {x : Action σ ε α} {s₁ : σ} (h : x.exec s = (.error e, s₁))
    (f : α → Action σ ε β) : (x >>= f).exec s = (.error e, s₁) := by
  rw [exec_bind, h]

theorem pure_eq_ok {a b : α} :
    (pure a : Action σ ε α).exec s = (.ok b, s') ↔ a = b ∧ s = s' := by
  simp

theorem bind_eq_ok {x : Action σ ε α} {f : α → Action σ ε β} {b : β} :
    (x >>= f).exec s = (.ok b, s') ↔
      ∃ a s₁, x.exec s = (.ok a, s₁) ∧ (f a).exec s₁ = (.ok b, s') := by
  rw [exec_bind]
  rcases x.exec s with ⟨e | a, s₁⟩ <;> simp

theorem bind_eq_error {x : Action σ ε α} {f : α → Action σ ε β} :
    (x >>= f).exec s = (.error e, s') ↔
      x.exec s = (.error e, s') ∨
        ∃ a s₁, x.exec s = (.ok a, s₁) ∧ (f a).exec s₁ = (.error e, s') := by
  rw [exec_bind]
  rcases x.exec s with ⟨e | a, s₁⟩ <;> simp

theorem exec_orElse (x : Action σ ε α) (handler : ε → Action σ ε α) (s : σ) :
    (orElse x handler).exec s =
      match x.exec s with
      | (.ok a, s') => (.ok a, s')
      | (.error e, s') => (handler e).exec s' := rfl

theorem exec_orElse_ok {x : Action σ ε α} {a : α} (h : x.exec s = (.ok a, s'))
    (handler : ε → Action σ ε α) : (orElse x handler).exec s = (.ok a, s') := by
  rw [exec_orElse, h]

theorem exec_orElse_error {x : Action σ ε α} (h : x.exec s = (.error e, s'))
    (handler : ε → Action σ ε α) : (orElse x handler).exec s = (handler e).exec s' := by
  rw [exec_orElse, h]

end Action

open Lib.Action

variable {σ ε α β : Type}

/-- Every run, however it ends, relates the state before it to the one after it. -/
structure Relates (R : σ → σ → Prop) (x : Action σ ε α) : Prop where
  rel : ∀ s, R s (x.exec s).2

section

variable {R : σ → σ → Prop}

theorem relates_of_same [Std.Refl R] {x : Action σ ε α} (h : ∀ s, (x.exec s).2 = s) :
    Relates R x := by
  refine ⟨fun s => ?_⟩
  rw [h s]
  exact Std.Refl.refl s

theorem relates_pure [Std.Refl R] (a : α) : Relates R (pure a : Action σ ε α) :=
  relates_of_same fun _ => rfl

theorem relates_read [Std.Refl R] (f : σ → Except ε α) : Relates R (read f) :=
  relates_of_same fun _ => rfl

theorem relates_raise [Std.Refl R] (e : ε) : Relates R (raise e : Action σ ε α) :=
  relates_of_same fun _ => rfl

/-- The rule for a sequence in one state: the second part may use how the first has ended. -/
theorem rel_bind [IsTrans σ R] {x : Action σ ε α} {f : α → Action σ ε β} {s : σ}
    (hx : R s (x.exec s).2) (hf : ∀ a s₁, x.exec s = (.ok a, s₁) → R s₁ ((f a).exec s₁).2) :
    R s ((x >>= f).exec s).2 := by
  rw [exec_bind]
  rcases hrun : x.exec s with ⟨e | a, s₁⟩
  · rw [hrun] at hx
    exact hx
  · rw [hrun] at hx
    exact Trans.trans hx (hf a s₁ hrun)

/-- The rule for a sequence. -/
theorem Relates.bind [IsTrans σ R] {x : Action σ ε α} {f : α → Action σ ε β} (hx : Relates R x)
    (hf : ∀ a, Relates R (f a)) : Relates R (x >>= f) :=
  ⟨fun s => rel_bind (hx.rel s) fun a s₁ _ => (hf a).rel s₁⟩

/-- The rule for a sequence that begins by reading: the rest may use what was read. -/
theorem relates_read_bind [Std.Refl R] {f : σ → Except ε α} {g : α → Action σ ε β}
    (h : ∀ s a, f s = .ok a → Relates R (g a)) : Relates R (read f >>= g) := by
  refine ⟨fun s => ?_⟩
  cases hread : f s with
  | error e =>
      have hrun : (read f).exec s = (.error e, s) := by rw [exec_read, hread]
      rw [exec_bind_error hrun]
      exact Std.Refl.refl s
  | ok a =>
      have hrun : (read f).exec s = (.ok a, s) := by rw [exec_read, hread]
      rw [exec_bind_ok hrun]
      exact (h s a hread).rel s

/-- The rule for a handler. -/
theorem Relates.orElse [IsTrans σ R] {x : Action σ ε α} {handler : ε → Action σ ε α}
    (hx : Relates R x) (hhandler : ∀ e, Relates R (handler e)) :
    Relates R (Action.orElse x handler) := by
  refine ⟨fun s => ?_⟩
  have hfirst := hx.rel s
  rw [exec_orElse]
  rcases hrun : x.exec s with ⟨e | a, s₁⟩
  · rw [hrun] at hfirst
    exact Trans.trans hfirst ((hhandler e).rel s₁)
  · rw [hrun] at hfirst
    exact hfirst

/-- The rule for a branch. -/
theorem Relates.ite {p : Prop} [Decidable p] {x y : Action σ ε α} (hx : Relates R x)
    (hy : Relates R y) : Relates R (if p then x else y) := by
  split
  · exact hx
  · exact hy

/-- The rule for a loop over a list. -/
theorem relates_forM [Std.Refl R] [IsTrans σ R] {items : List β} {f : β → Action σ ε Unit}
    (h : ∀ a ∈ items, Relates R (f a)) : Relates R (forM items f) := by
  induction items with
  | nil => exact relates_pure ()
  | cons a rest ih =>
      rw [List.forall_mem_cons] at h
      exact h.1.bind fun _ => ih h.2

theorem Relates.mono {S : σ → σ → Prop} {x : Action σ ε α} (hx : Relates R x)
    (h : ∀ s s', R s s' → S s s') : Relates S x := ⟨fun s => h _ _ (hx.rel s)⟩

end

/-- A part of the state is as it was. -/
def Same {η : Type} (view : σ → η) (s s' : σ) : Prop := view s' = view s

@[simp]
theorem same_iff {η : Type} {view : σ → η} {s s' : σ} : Same view s s' ↔ view s' = view s := Iff.rfl

instance {η : Type} (view : σ → η) : Std.Refl (Same view) := ⟨fun _ => rfl⟩

instance {η : Type} (view : σ → η) : IsTrans σ (Same view) := ⟨fun _ _ _ h h' => h'.trans h⟩

/-- An action that never changes a part of the state. -/
abbrev Quiet {η : Type} (view : σ → η) (x : Action σ ε α) : Prop := Relates (Same view) x

theorem quiet_of_eq {η : Type} {view : σ → η} {x : Action σ ε α}
    (h : ∀ s, view (x.exec s).2 = view s) : Quiet view x := ⟨h⟩

/-- A property of the state is carried from one state to another. -/
def Carries (I : σ → Prop) (s s' : σ) : Prop := I s → I s'

instance (I : σ → Prop) : Std.Refl (Carries I) := ⟨fun _ => id⟩

instance (I : σ → Prop) : IsTrans σ (Carries I) := ⟨fun _ _ _ h h' => h' ∘ h⟩

/-- An action after which a property holds, however it ends, if it has held before. -/
abbrev Maintains (I : σ → Prop) (x : Action σ ε α) : Prop := Relates (Carries I) x

/-- A property of a part of the state is maintained by what leaves that part as it is. -/
theorem Relates.maintains {η : Type} {view : σ → η} {I : σ → Prop} {x : Action σ ε α}
    (hx : Quiet view x) (hI : ∀ s s', view s' = view s → I s → I s') : Maintains I x :=
  hx.mono hI

/-- The rule for a sequence in one state: the property holds where the second part begins. -/
theorem carries_bind {I : σ → Prop} {x : Action σ ε α} {f : α → Action σ ε β} {s : σ}
    (hx : Carries I s (x.exec s).2)
    (hf : ∀ a s₁, x.exec s = (.ok a, s₁) → I s₁ → I ((f a).exec s₁).2) :
    Carries I s ((x >>= f).exec s).2 := by
  intro hs
  refine rel_bind hx (fun a s₁ hrun => ?_) hs
  have hs₁ := hx hs
  rw [hrun] at hs₁
  exact fun _ => hf a s₁ hrun hs₁

/-- What holds after a sequence that ends without an exception. -/
theorem Maintains.of_ok {I : σ → Prop} {x : Action σ ε α} {s s' : σ} {a : α} (hx : Maintains I x)
    (hrun : x.exec s = (.ok a, s')) (hs : I s) : I s' := by
  have hrel := hx.rel s
  rw [hrun] at hrel
  exact hrel hs

end Lib
