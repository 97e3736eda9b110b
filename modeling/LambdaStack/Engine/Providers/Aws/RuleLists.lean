/-
# The rules of a security group

Adding the rules of a component to a security group appends those the group lacks,
where two rules are the same when five of their fields are the same in lower case.
-/

import LambdaStack.Engine.Providers.Aws.InfrastructureBuilder
import LambdaStack.Lib.Extended

namespace LambdaStack

open Lib

namespace Aws

section

variable (env : Env)

/-- Two rules that `rule_exists_in_list` takes for the same. -/
def SameRule (rule other : Val) : Prop :=
  InfrastructureBuilder.sameRule env rule other InfrastructureBuilder.ruleFields = .ok true

/-- A rule whose compared fields are strings. -/
def HasStringFields (rule : Val) : Prop :=
  ∀ key ∈ InfrastructureBuilder.ruleFields, ∃ s, rule.attrStr? key = some s

end

/-- The items of a value that is a list. -/
def listItems : Option Val → List Val
  | some (.list items) => items
  | _ => []

/-- The rules of a `security` part. -/
def rulesIn (security : Option Val) : List Val := listItems (security.bind (·.attr? "rules"))

variable {env : Env} {rule other : Val} {rules groupRules : List Val}

theorem lowerAttr_eq_ok {key lowered : String} :
    InfrastructureBuilder.lowerAttr env rule key = .ok lowered ↔
      ∃ s, rule.attrStr? key = some s ∧ env.lower s = lowered := by
  simp only [InfrastructureBuilder.lowerAttr, Lib.bind_eq_ok, Val.getAttr_eq_ok,
    Val.asStr_eq_ok, Except.ok.injEq, Val.attrStr?_eq_some]
  constructor
  · rintro ⟨value, hvalue, s, hs, hlower⟩
    exact ⟨s, ⟨value, hvalue, hs⟩, hlower⟩
  · rintro ⟨s, ⟨value, hvalue, hs⟩, hlower⟩
    exact ⟨value, hvalue, s, hs, hlower⟩

theorem sameRule_eq_ok_true {keys : List String} :
    InfrastructureBuilder.sameRule env rule other keys = .ok true ↔
      ∀ key ∈ keys, ∃ s s', rule.attrStr? key = some s ∧ other.attrStr? key = some s' ∧
        env.lower s = env.lower s' := by
  induction keys with
  | nil => simp [InfrastructureBuilder.sameRule]
  | cons key rest ih =>
      simp only [InfrastructureBuilder.sameRule, Lib.bind_eq_ok, lowerAttr_eq_ok,
        List.forall_mem_cons]
      constructor
      · rintro ⟨_, ⟨s, hs, rfl⟩, _, ⟨s', hs', rfl⟩, h⟩
        by_cases heq : env.lower s = env.lower s'
        · rw [if_pos heq] at h
          exact ⟨⟨s, s', hs, hs', heq⟩, ih.mp h⟩
        · simp [heq] at h
      · rintro ⟨⟨s, s', hs, hs', heq⟩, hrest⟩
        refine ⟨_, ⟨s, hs, rfl⟩, _, ⟨s', hs', rfl⟩, ?_⟩
        rw [if_pos heq]
        exact ih.mpr hrest

theorem SameRule.refl (h : HasStringFields rule) : SameRule env rule rule := by
  apply sameRule_eq_ok_true.mpr
  intro key hkey
  obtain ⟨s, hs⟩ := h key hkey
  exact ⟨s, s, hs, hs, rfl⟩

theorem SameRule.symm (h : SameRule env rule other) : SameRule env other rule := by
  apply sameRule_eq_ok_true.mpr
  intro key hkey
  obtain ⟨s, s', hs, hs', heq⟩ := sameRule_eq_ok_true.mp h key hkey
  exact ⟨s', s, hs', hs, heq.symm⟩

theorem ruleExistsInList_eq_ok {known : Bool}
    (h : InfrastructureBuilder.ruleExistsInList env rule rules = .ok known) :
    known = true ↔ ∃ own ∈ rules, SameRule env own rule := by
  induction rules with
  | nil =>
      cases h
      simp
  | cons own rest ih =>
      simp only [InfrastructureBuilder.ruleExistsInList, Lib.bind_eq_ok] at h
      obtain ⟨same, hsame, h⟩ := h
      rw [List.exists_mem_cons_iff]
      cases same with
      | true =>
          cases h
          exact ⟨fun _ => Or.inl hsame, fun _ => rfl⟩
      | false =>
          have hne : ¬ SameRule env own rule := fun h => by
            rw [SameRule, hsame] at h
            cases h
          rw [ih h]
          simp [hne]

/-- Adding rules to a group. -/
theorem addMissingRules_eq_ok {newRules : List Val}
    (h : InfrastructureBuilder.addMissingRules env groupRules rules = .ok newRules) :
    Extended (SameRule env) rules groupRules newRules := by
  induction rules generalizing groupRules with
  | nil =>
      cases h
      exact .nil _
  | cons rule rest ih =>
      simp only [InfrastructureBuilder.addMissingRules, Lib.bind_eq_ok] at h
      obtain ⟨known, hknown, h⟩ := h
      have hfirst : Extended (SameRule env) [rule] groupRules
          (if known then groupRules else groupRules ++ [rule]) := by
        have hiff := ruleExistsInList_eq_ok hknown
        cases known with
        | true => exact .known (hiff.mp rfl)
        | false =>
            refine .lacking fun own hown hsame => ?_
            exact absurd (hiff.mpr ⟨own, hown, hsame⟩) (by decide)
      exact hfirst.trans (ih h)

end Aws

end LambdaStack
