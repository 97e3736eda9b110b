/-
# State machines

A machine has an initial state and a partial step function on labelled events.
A state is reachable under a condition on events when a run whose events all
meet the condition ends in it; an invariant kept by such events holds there.
-/

import Mathlib.Data.List.Basic

namespace Lib

universe u v

/-- A machine whose step on an event the state does not allow is `none`. -/
structure Machine (σ : Type u) (ε : Type v) where
  init : σ
  step : σ → ε → Option σ

namespace Machine

variable {σ : Type u} {ε : Type v} (m : Machine σ ε)

/-- The states of the runs whose events meet a condition on the event and the
state before it. -/
inductive Reachable (allowed : σ → ε → Bool) : σ → Prop
  | init : Reachable allowed m.init
  | step {s s' : σ} (e : ε) (hreach : Reachable allowed s) (hallowed : allowed s e = true)
      (hstep : m.step s e = some s') : Reachable allowed s'

/-- The state in which a run of events that all meet the condition ends. -/
def run (allowed : σ → ε → Bool) (s : σ) : List ε → Option σ
  | [] => some s
  | e :: rest =>
      match m.step s e with
      | some s' => if allowed s e then run allowed s' rest else none
      | none => none

variable {m} {allowed : σ → ε → Bool}

/-- The invariant rule. -/
theorem Reachable.invariant {I : σ → Prop} (hinit : I m.init)
    (hstep : ∀ {s s' e}, I s → allowed s e = true → m.step s e = some s' → I s') {s : σ}
    (h : m.Reachable allowed s) : I s := by
  induction h with
  | init => exact hinit
  | step e _ hallowed hs ih => exact hstep ih hallowed hs

/-- Runs that meet a condition meet a weaker one. -/
theorem Reachable.mono {allowed' : σ → ε → Bool}
    (hallowed : ∀ s e, allowed s e = true → allowed' s e = true) {s : σ}
    (h : m.Reachable allowed s) : m.Reachable allowed' s := by
  induction h with
  | init => exact .init
  | step e _ he hs ih => exact .step e ih (hallowed _ e he) hs

/-- A run ends in a reachable state. -/
theorem Reachable.of_run {s s' : σ} {events : List ε} (hs : m.Reachable allowed s)
    (h : m.run allowed s events = some s') : m.Reachable allowed s' := by
  induction events generalizing s with
  | nil =>
      cases h
      exact hs
  | cons e rest ih =>
      rw [run] at h
      split at h
      · next next hnext =>
          split at h
          · next hallowed => exact ih (.step e hs hallowed hnext) h
          · cases h
      · cases h

end Machine

end Lib
