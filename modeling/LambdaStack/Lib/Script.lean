/-
# Scripts of commands

A script runs its tasks one after the other. A task is a command that may be tried
a number of times; the script goes on after the first attempt that succeeds and
ends with the error of the task when every attempt has failed. `Follows` says
which commands such a run starts, in which order and with which result, whatever
the commands do. An action implements a script when every run of it follows the
script.
-/

import Mathlib.Data.List.Infix
import LambdaStack.Lib.Action

namespace Lib

/-- A command, the number of attempts it has, and what is raised when they fail. -/
structure Task (κ ε : Type) where
  command : κ
  attempts : Nat
  failure : ε

namespace Script

variable {κ ε : Type}

/-- The commands a run of a script starts, each with whether it succeeded, and how
the run ends. -/
inductive Follows : List (Task κ ε) → List (κ × Bool) → Except ε Unit → Prop
  | done : Follows [] [] (.ok ())
  /-- The task succeeds after some failures, and the rest follows. -/
  | next {task : Task κ ε} {plan : List (Task κ ε)} {trace : List (κ × Bool)}
      {result : Except ε Unit} (failures : Nat) (hlt : failures < task.attempts)
      (rest : Follows plan trace result) :
      Follows (task :: plan)
        (List.replicate failures (task.command, false) ++ (task.command, true) :: trace) result
  /-- Every attempt fails, and nothing is started after them. -/
  | fail (task : Task κ ε) {plan : List (Task κ ε)} :
      Follows (task :: plan) (List.replicate task.attempts (task.command, false))
        (.error task.failure)

/-- The commands that succeeded, in their order. -/
def succeeded (trace : List (κ × Bool)) : List κ :=
  (trace.filter Prod.snd).map Prod.fst

@[simp]
theorem succeeded_append (before after : List (κ × Bool)) :
    succeeded (before ++ after) = succeeded before ++ succeeded after := by
  simp [succeeded]

@[simp]
theorem succeeded_replicate (n : Nat) (c : κ) :
    succeeded (List.replicate n (c, false)) = [] := by
  simp [succeeded]

@[simp]
theorem succeeded_cons (c : κ) (trace : List (κ × Bool)) :
    succeeded ((c, true) :: trace) = c :: succeeded trace := by
  simp [succeeded]

variable {plan more : List (Task κ ε)} {trace trace' : List (κ × Bool)}
  {result : Except ε Unit} {e : ε}

/-- A run that raises does so for one task: the tasks before it have succeeded, and
its attempts are the last commands of the run. -/
theorem Follows.of_error (h : Follows plan trace (.error e)) :
    ∃ done task todo before, plan = done ++ task :: todo ∧ e = task.failure ∧
      Follows done before (.ok ()) ∧
      trace = before ++ List.replicate task.attempts (task.command, false) := by
  generalize hresult : (Except.error e : Except ε Unit) = result at h
  induction h with
  | done => cases hresult
  | @next task plan trace result failures hlt rest ih =>
      obtain ⟨done, failing, todo, before, rfl, he, hdone, rfl⟩ := ih hresult
      exact ⟨task :: done, failing, todo, _, rfl, he, .next failures hlt hdone, by simp⟩
  | @fail task plan =>
      cases hresult
      exact ⟨[], task, plan, [], rfl, rfl, .done, rfl⟩

/-- A run that ends without an error has succeeded with each task once, in order. -/
theorem Follows.succeeded_of_ok (h : Follows plan trace (.ok ())) :
    succeeded trace = plan.map Task.command := by
  generalize hresult : (Except.ok () : Except ε Unit) = result at h
  induction h with
  | done => rfl
  | next failures hlt rest ih => simp [ih hresult]
  | fail => cases hresult

/-- A run of a script goes on with a run of another one. -/
theorem Follows.append (h : Follows plan trace (.ok ())) (hmore : Follows more trace' result) :
    Follows (plan ++ more) (trace ++ trace') result := by
  generalize hok : (Except.ok () : Except ε Unit) = first at h
  induction h with
  | done => exact hmore
  | next failures hlt rest ih =>
      have hrest := Follows.next failures hlt (ih hok)
      simpa using hrest
  | fail => cases hok

/-- After an error nothing is started. -/
theorem Follows.append_of_error (h : Follows plan trace (.error e)) :
    Follows (plan ++ more) trace (.error e) := by
  obtain ⟨done, task, todo, before, rfl, rfl, hdone, rfl⟩ := h.of_error
  rw [List.append_assoc]
  exact hdone.append (.fail task)

/-- One more attempt, which fails before the others. -/
theorem Follows.again {c : κ} {n : Nat} {failure : ε}
    (h : Follows (⟨c, n, failure⟩ :: plan) trace result) :
    Follows (⟨c, n + 1, failure⟩ :: plan) ((c, false) :: trace) result := by
  cases h with
  | next failures hlt rest => exact .next (failures + 1) (Nat.succ_lt_succ hlt) rest
  | fail => exact .fail ⟨c, n + 1, failure⟩

/-- Every command that is started is a task of the plan. The tasks before it have
succeeded, its earlier attempts have failed, and an attempt was left. -/
theorem Follows.started (h : Follows plan trace result) {before after : List (κ × Bool)} {c : κ}
    {ok : Bool} (htrace : trace = before ++ (c, ok) :: after) :
    ∃ done task todo failures, plan = done ++ task :: todo ∧ task.command = c ∧
      failures < task.attempts ∧ ∃ earlier, before = earlier ++ List.replicate failures (c, false) ∧
        Follows done earlier (.ok ()) := by
  induction h generalizing before with
  | done => simp at htrace
  | @next task plan trace result failures hlt rest ih =>
      rcases List.append_eq_append_iff.mp htrace with ⟨middle, hbefore, hrest⟩ |
        ⟨middle, hleft, hright⟩
      · cases middle with
        | nil =>
            simp only [List.append_nil, List.nil_append, List.cons.injEq, Prod.mk.injEq]
              at hbefore hrest
            obtain ⟨⟨rfl, rfl⟩, rfl⟩ := hrest
            exact ⟨[], task, plan, failures, rfl, rfl, hlt, [], by simpa using hbefore, .done⟩
        | cons event middle =>
            simp only [List.cons_append, List.cons.injEq] at hrest
            obtain ⟨rfl, hrest⟩ := hrest
            obtain ⟨done, own, todo, count, rfl, hcommand, hcount, earlier, rfl, hdone⟩ := ih hrest
            refine ⟨task :: done, own, todo, count, rfl, hcommand, hcount, _, ?_,
              .next failures hlt hdone⟩
            rw [hbefore]
            simp
      · cases middle with
        | nil =>
            simp only [List.append_nil, List.nil_append, List.cons.injEq, Prod.mk.injEq]
              at hleft hright
            obtain ⟨⟨rfl, rfl⟩, rfl⟩ := hright
            exact ⟨[], task, plan, failures, rfl, rfl, hlt, [], by simpa using hleft.symm, .done⟩
        | cons event middle =>
            simp only [List.cons_append, List.cons.injEq] at hright
            obtain ⟨rfl, -⟩ := hright
            obtain ⟨hlength, hbefore, htail⟩ := List.replicate_eq_append_iff.mp hleft
            have hevent : (c, ok) = (task.command, false) :=
              (List.eq_replicate_iff.mp htail).2 _ List.mem_cons_self
            cases hevent
            refine ⟨[], task, plan, before.length, rfl, rfl, ?_, [], by simpa using hbefore, .done⟩
            simp only [List.length_cons] at hlength
            omega
  | @fail task plan =>
      obtain ⟨hlength, hbefore, htail⟩ := List.replicate_eq_append_iff.mp htrace
      have hevent : (c, ok) = (task.command, false) :=
        (List.eq_replicate_iff.mp htail).2 _ List.mem_cons_self
      cases hevent
      refine ⟨[], task, plan, before.length, rfl, rfl, ?_, [], by simpa using hbefore, .done⟩
      simp only [List.length_cons] at hlength
      omega

/-- A command that is no task of the first part of a plan is started after the first
part has succeeded. -/
theorem Follows.succeeded_before (h : Follows (plan ++ more) trace result)
    {before after : List (κ × Bool)} {c : κ} {ok : Bool} (hc : ∀ task ∈ plan, task.command ≠ c)
    (htrace : trace = before ++ (c, ok) :: after) :
    plan.map Task.command <+: succeeded before := by
  obtain ⟨done, task, todo, failures, hplan, rfl, -, earlier, rfl, hdone⟩ := h.started htrace
  rw [succeeded_append, succeeded_replicate, List.append_nil, hdone.succeeded_of_ok]
  apply List.IsPrefix.map
  rcases List.append_eq_append_iff.mp hplan with ⟨middle, rfl, -⟩ | ⟨middle, rfl, hrest⟩
  · exact List.prefix_append _ _
  · cases middle with
    | nil => simp
    | cons other rest =>
        obtain ⟨rfl, -⟩ := List.cons.inj hrest
        exact absurd rfl (hc task (by simp))

end Script

open Script Lib.Action

section Implements

variable {σ κ ε α β : Type}

/-- Every run of an action adds commands to a history that follow a script, and
raises what the script does. -/
structure Implements (history : σ → List (κ × Bool)) (x : Action σ ε Unit)
    (plan : List (Task κ ε)) : Prop where
  follows : ∀ s, ∃ trace, history (x.exec s).2 = history s ++ trace ∧
    Follows plan trace (x.exec s).1

variable {history : σ → List (κ × Bool)} {x y : Action σ ε Unit} {plan more : List (Task κ ε)}

/-- An action that starts nothing and raises nothing. -/
theorem implements_nil (h : ∀ s, (x.exec s).1 = .ok () ∧ history (x.exec s).2 = history s) :
    Implements history x ([] : List (Task κ ε)) := by
  refine ⟨fun s => ⟨[], ?_, ?_⟩⟩
  · rw [(h s).2, List.append_nil]
  · rw [(h s).1]
    exact .done

theorem implements_pure : Implements history (pure () : Action σ ε Unit)
    ([] : List (Task κ ε)) := implements_nil fun _ => ⟨rfl, rfl⟩

/-- The rule for a sequence whose second part follows its script from the state in
which the first part ends. -/
theorem Implements.bind_follows {s : σ} (hx : Implements history x plan)
    (hy : ∀ s₁, x.exec s = (.ok (), s₁) → ∃ trace, history (y.exec s₁).2 = history s₁ ++ trace ∧
      Follows more trace (y.exec s₁).1) :
    ∃ trace, history ((x >>= fun _ => y).exec s).2 = history s ++ trace ∧
      Follows (plan ++ more) trace ((x >>= fun _ => y).exec s).1 := by
  obtain ⟨trace, hhistory, hfollows⟩ := hx.follows s
  rw [exec_bind]
  rcases hrun : x.exec s with ⟨e | _, s₁⟩
  · rw [hrun] at hhistory hfollows
    exact ⟨trace, hhistory, hfollows.append_of_error⟩
  · rw [hrun] at hhistory hfollows
    obtain ⟨trace', hhistory', hfollows'⟩ := hy s₁ hrun
    refine ⟨trace ++ trace', ?_, hfollows.append hfollows'⟩
    rw [hhistory', hhistory, List.append_assoc]

/-- The rule for a sequence. -/
theorem Implements.bind (hx : Implements history x plan) (hy : Implements history y more) :
    Implements history (x >>= fun _ => y) (plan ++ more) :=
  ⟨fun _ => hx.bind_follows fun s₁ _ => hy.follows s₁⟩

/-- What a quiet action returns decides which script follows. -/
theorem Quiet.follows {x : Action σ ε α} {f : α → Action σ ε Unit} {s s₁ : σ} {a : α}
    (hx : Quiet history x) (hrun : x.exec s = (.ok a, s₁)) (hf : Implements history (f a) plan) :
    ∃ trace, history ((x >>= f).exec s).2 = history s ++ trace ∧
      Follows plan trace ((x >>= f).exec s).1 := by
  obtain ⟨trace, hhistory, hfollows⟩ := hf.follows s₁
  have hquiet := hx.rel s
  rw [hrun] at hquiet
  change history s₁ = history s at hquiet
  rw [exec_bind_ok hrun]
  exact ⟨trace, hhistory.trans (congrArg (· ++ trace) hquiet), hfollows⟩

/-- The rule for a loop over a list whose items stand for the tasks. -/
theorem implements_forM {R : α → β → Prop} {items : List α} {names : List β}
    (hnames : List.Forall₂ R items names) {f : α → Action σ ε Unit} {task : β → Task κ ε}
    (h : ∀ a b, R a b → Implements history (f a) [task b]) :
    Implements history (forM items f) (names.map task) := by
  induction hnames with
  | nil => exact implements_pure
  | cons hname _ ih => simpa using (h _ _ hname).bind ih

/-- One attempt of a command: it is started once, and the action raises unless it
succeeds. -/
structure Attempts (history : σ → List (κ × Bool)) (x : Action σ ε Unit) (c : κ) : Prop where
  started : ∀ s, ∃ ok, history (x.exec s).2 = history s ++ [(c, ok)] ∧
    (ok = true ↔ (x.exec s).1 = .ok ())

/-- Try an action a number of times, with another one after each failure. -/
def retrying (x : Action σ ε Unit) (after : ε → Action σ ε Unit) (failure : ε) :
    Nat → Action σ ε Unit
  | 0 => raise failure
  | n + 1 => orElse x fun e => after e >>= fun _ => retrying x after failure n

theorem Relates.retrying {R : σ → σ → Prop} [Std.Refl R] [IsTrans σ R]
    {after : ε → Action σ ε Unit} {failure : ε} (hx : Relates R x)
    (hafter : ∀ e, Relates R (after e)) (n : Nat) :
    Relates R (Lib.retrying x after failure n) := by
  induction n with
  | zero => exact relates_raise failure
  | succ n ih => exact hx.orElse fun e => (hafter e).bind fun _ => ih

/-- The rule for trying again: the number of tries is that of the task. -/
theorem implements_retrying {c : κ} {after : ε → Action σ ε Unit} {failure : ε}
    (hx : Attempts history x c)
    (hafter : ∀ e s, ((after e).exec s).1 = .ok () ∧
      history ((after e).exec s).2 = history s) (n : Nat) :
    Implements history (retrying x after failure n) [⟨c, n, failure⟩] := by
  induction n with
  | zero => exact ⟨fun s => ⟨[], by simp [retrying], .fail ⟨c, 0, failure⟩⟩⟩
  | succ n ih =>
      refine ⟨fun s => ?_⟩
      obtain ⟨ok, hstarted, hok⟩ := hx.started s
      rw [retrying]
      rcases hrun : x.exec s with ⟨e | _, s₁⟩
      · rw [hrun] at hstarted hok
        obtain rfl : ok = false := by simpa using hok
        obtain ⟨hpause, hquiet⟩ := hafter e s₁
        obtain ⟨trace, hhistory, hfollows⟩ := ih.follows ((after e).exec s₁).2
        refine ⟨(c, false) :: trace, ?_, ?_⟩
        · rw [exec_orElse_error hrun, exec_bind_ok (Prod.ext hpause rfl), hhistory, hquiet,
            hstarted]
          simp
        · rw [exec_orElse_error hrun, exec_bind_ok (Prod.ext hpause rfl)]
          exact hfollows.again
      · rw [hrun] at hstarted hok
        obtain rfl : ok = true := hok.mpr rfl
        rw [exec_orElse_ok hrun]
        exact ⟨[(c, true)], hstarted, .next 0 (Nat.succ_pos n) .done⟩

/-- An action that is tried once. -/
theorem Attempts.implements {c : κ} {failure : ε} (hx : Attempts history x c)
    (hfailure : ∀ s, (x.exec s).1 ≠ .ok () → (x.exec s).1 = .error failure) :
    Implements history x [⟨c, 1, failure⟩] := by
  refine ⟨fun s => ?_⟩
  obtain ⟨ok, hstarted, hok⟩ := hx.started s
  refine ⟨[(c, ok)], hstarted, ?_⟩
  cases ok with
  | true =>
      rw [hok.mp rfl]
      exact .next 0 Nat.one_pos .done
  | false =>
      have hraised : (x.exec s).1 ≠ .ok () := fun h => by simpa using hok.mpr h
      rw [hfailure s hraised]
      exact .fail ⟨c, 1, failure⟩

end Implements

end Lib
