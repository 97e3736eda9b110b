/-
# Computations that may raise

Inversion lemmas for `Except`: what the run of a sequence or of a map over a list
says about its parts, when it succeeds and when it fails.
-/

import Mathlib.Data.List.Basic
import Mathlib.Data.List.Forall2

namespace Lib

universe u v

variable {ε α β γ : Type u}

theorem bind_eq_ok {x : Except ε α} {f : α → Except ε β} {b : β} :
    (x >>= f) = .ok b ↔ ∃ a, x = .ok a ∧ f a = .ok b := by
  cases x <;> simp [bind, Except.bind]

@[simp]
theorem pure_eq_ok {a b : α} : (pure a : Except ε α) = .ok b ↔ a = b := by
  simp [pure, Except.pure]

@[simp]
theorem ok_bind (a : α) (f : α → Except ε β) : (Except.ok a >>= f) = f a := rfl

@[simp]
theorem error_bind (e : ε) (f : α → Except ε β) :
    ((Except.error e : Except ε α) >>= f) = .error e := rfl

theorem toOption_eq_some {x : Except ε α} {a : α} : x.toOption = some a ↔ x = .ok a := by
  cases x <;> simp [Except.toOption]

/-- A computation that does not raise. -/
theorem exists_ok_of_isSome {x : Except ε α} (h : x.toOption.isSome = true) :
    ∃ a, x = .ok a := by
  cases x with
  | ok a => exact ⟨a, rfl⟩
  | error e => simp [Except.toOption] at h

/-- A successful map runs its function successfully on every item. -/
theorem mapM_eq_ok {f : α → Except ε β} {items : List α} {results : List β} :
    items.mapM f = .ok results ↔ List.Forall₂ (fun a b => f a = .ok b) items results := by
  induction items generalizing results with
  | nil =>
      cases results <;> simp [pure, Except.pure]
  | cons item rest ih =>
      rw [List.mapM_cons]
      simp only [bind_eq_ok, pure_eq_ok]
      constructor
      · rintro ⟨b, hb, bs, hbs, rfl⟩
        exact List.Forall₂.cons hb (ih.mp hbs)
      · intro h
        cases h with
        | cons hb hrest => exact ⟨_, hb, _, ih.mpr hrest, rfl⟩

/-- A map that fails does so on one of the items, after it has succeeded on those before. -/
theorem exists_of_mapM_eq_error {f : α → Except ε β} {items : List α} {e : ε}
    (h : items.mapM f = .error e) : ∃ before item after, items = before ++ item :: after ∧
      f item = .error e ∧ ∀ a ∈ before, ∃ b, f a = .ok b := by
  induction items with
  | nil => cases h
  | cons item rest ih =>
      rw [List.mapM_cons] at h
      cases hitem : f item with
      | error e' =>
          rw [hitem] at h
          cases h
          exact ⟨[], item, rest, rfl, hitem, by simp⟩
      | ok b =>
          have hrest : rest.mapM f = .error e := by
            cases hrest : rest.mapM f with
            | error e' =>
                rw [hitem, hrest] at h
                cases h
                rfl
            | ok bs =>
                rw [hitem, hrest] at h
                cases h
          obtain ⟨before, failing, after, rfl, hfailing, hbefore⟩ := ih hrest
          refine ⟨item :: before, failing, after, rfl, hfailing, fun a ha => ?_⟩
          rcases List.mem_cons.mp ha with rfl | ha
          · exact ⟨b, hitem⟩
          · exact hbefore a ha

/-- Every result of a successful map is the result of one of its items. -/
theorem exists_of_mem_mapM {f : α → Except ε β} {items : List α} {results : List β}
    (hrun : items.mapM f = .ok results) {b : β} (hmem : b ∈ results) :
    ∃ a ∈ items, f a = .ok b := by
  obtain ⟨i, hi, rfl⟩ := List.mem_iff_getElem.mp hmem
  have hpairs := mapM_eq_ok.mp hrun
  have hi' : i < items.length := hpairs.length_eq ▸ hi
  exact ⟨items[i], List.getElem_mem hi', hpairs.get hi' hi⟩

theorem mem_mapM_iff {f : α → Except ε β} {items : List α} {results : List β}
    (hrun : items.mapM f = .ok results) {b : β} : b ∈ results ↔ ∃ a ∈ items, f a = .ok b := by
  refine ⟨exists_of_mem_mapM hrun, ?_⟩
  rintro ⟨a, hmem, hb⟩
  obtain ⟨i, hi, rfl⟩ := List.mem_iff_getElem.mp hmem
  have hpairs := mapM_eq_ok.mp hrun
  have hi' : i < results.length := hpairs.length_eq ▸ hi
  have hresult : f items[i] = .ok results[i] := hpairs.get hi hi'
  rw [hb] at hresult
  cases hresult
  exact List.getElem_mem hi'

/-- A successful map succeeds on each of its items. -/
theorem exists_ok_of_mem_mapM {f : α → Except ε β} {items : List α} {results : List β}
    (hrun : items.mapM f = .ok results) {a : α} (hmem : a ∈ items) : ∃ b, f a = .ok b := by
  obtain ⟨i, hi, rfl⟩ := List.mem_iff_getElem.mp hmem
  have hpairs := mapM_eq_ok.mp hrun
  have hi' : i < results.length := hpairs.length_eq ▸ hi
  exact ⟨results[i], hpairs.get hi hi'⟩

end Lib
