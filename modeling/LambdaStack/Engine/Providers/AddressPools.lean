/-
# Requests for different address pools

A builder requests one subnet for each address pool: before a request is made, none of
the requests so far is for the same pool. Requests that ask for one and the same pool
are therefore at most one.
-/

import LambdaStack.Data.Value
import LambdaStack.Lib.Lists

namespace LambdaStack

universe u

variable {R : Type u}

/-- Requests for different address pools. -/
structure Apart (pool : R → Val) (requests : List R) : Prop where
  wellFormed : ∀ r ∈ requests, (pool r).WellFormed
  apart : requests.Pairwise fun r r' => (pool r).pyEq (pool r') = false

namespace Apart

variable {pool : R → Val} {requests : List R} {r : R}

theorem nil (pool : R → Val) : Apart pool [] :=
  ⟨fun _ h => absurd h List.not_mem_nil, .nil⟩

theorem nodup (h : Apart pool requests) : requests.Nodup := by
  apply h.apart.imp_of_mem
  rintro r r' hr - hne rfl
  rw [Val.pyEq_refl (h.wellFormed r hr)] at hne
  cases hne

/-- A request for a pool nothing has been requested for. -/
theorem append (h : Apart pool requests) (hwf : (pool r).WellFormed)
    (hfind : (requests.find? fun r' => (pool r').pyEq (pool r)) = none) :
    Apart pool (requests ++ [r]) where
  wellFormed r' hr' := by
    rcases List.mem_append.mp hr' with hr' | hr'
    · exact h.wellFormed r' hr'
    · rw [List.mem_singleton.mp hr']
      exact hwf
  apart := by
    rw [List.pairwise_append]
    refine ⟨h.apart, List.pairwise_singleton _ _, ?_⟩
    intro r' hr' r'' hr''
    rw [List.mem_singleton.mp hr'']
    have hne := List.find?_eq_none.mp hfind r' hr'
    rwa [Bool.not_eq_true] at hne

/-- One request is for a pool that something has been requested for. -/
theorem countP_eq_one (h : Apart pool requests) {value : Val} (hvalue : value.WellFormed)
    (hfind : (requests.find? fun r' => (pool r').pyEq value) = some r) :
    requests.countP (fun r' => (pool r').pyEq value) = 1 := by
  apply Lib.countP_eq_one
  · exact ⟨r, List.mem_of_find?_eq_some hfind, by simpa using List.find?_some hfind⟩
  · apply h.apart.imp_of_mem
    rintro r r' hr hr' hne ⟨hfirst, hsecond⟩
    rw [Val.pyEq_trans hfirst (Val.pyEq_symm (h.wellFormed r' hr') hvalue hsecond)] at hne
    cases hne

theorem length_le_one (h : Apart pool requests)
    (hsame : ∀ r ∈ requests, ∀ r' ∈ requests, pool r = pool r') : requests.length ≤ 1 := by
  cases requests with
  | nil => simp
  | cons first rest =>
      cases rest with
      | nil => simp
      | cons second rest =>
          have hne := (List.pairwise_cons.mp h.apart).1 second (by simp)
          rw [hsame first (by simp) second (by simp),
            Val.pyEq_refl (h.wellFormed second (by simp))] at hne
          cases hne

end Apart

end LambdaStack
