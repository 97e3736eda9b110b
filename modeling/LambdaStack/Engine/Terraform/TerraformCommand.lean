/-
# Running Terraform again

`TerraformCommand.run` starts a process whose output goes into a pipe. A reader
thread, `LogPipe`, moves the lines one by one to `stderrstrings`, and once the
process has exited the main thread searches them for an error that can be
retried. Nothing joins the two threads, so a run is a machine whose events are
those of the process, the reader and the main thread in any order. The reader of
an earlier attempt writes to a list of its own and is left out, as is logging.
-/

import Mathlib.Data.List.Infix
import LambdaStack.Helpers.OsImages
import LambdaStack.Lib.Machine

namespace LambdaStack

open Lib

namespace TerraformCommand

/-- `LogPipe.errorStrings`: a line with one of these is kept. -/
def errorStrings : List String := ["error", "Error", "ERROR", "fatal", "FAILED"]

/-- `any([substring in line for substring in self.errorStrings])`. -/
def isError (line : String) : Bool := errorStrings.any (isSubstring · line)

/-- `'RetryableError' in s`. -/
def isRetryable (line : String) : Bool := isSubstring "RetryableError" line

/-- What a process does: the lines it writes, and the code it returns. -/
structure Process where
  lines : List String
  returncode : Int

/-- The arguments of `run`. The loop of `run` needs an attempt to be allowed. -/
structure Command where
  workingDirectory : String
  command : String
  autoApprove : Bool
  autoRetries : Nat
  autoRetries_pos : 0 < autoRetries

/-- The command line. -/
def Command.line (c : Command) : String :=
  " ".intercalate (["terraform", c.command] ++
    (if c.autoApprove then ["--auto-approve"] else []) ++
    (if c.command = "apply" ∨ c.command = "destroy" then
      ["-state=" ++ c.workingDirectory ++ "/terraform.tfstate"] else []) ++
    ["-no-color", c.workingDirectory])

/-- `apply`, which passes `auto_retries=3`. -/
def apply (workingDirectory : String) (autoApprove : Bool) : Command where
  workingDirectory := workingDirectory
  command := "apply"
  autoApprove := autoApprove
  autoRetries := 3
  autoRetries_pos := by decide

/-- Where the main thread is: waiting for the process, at an index of
`stderrstrings`, or at the end of `run`. -/
inductive Phase
  | running
  | inspecting (index : Nat)
  | finished
  deriving DecidableEq

/-- The state of a run. -/
structure State where
  /-- The attempts that have been started. -/
  attempts : Nat
  /-- What the process has still to write. -/
  unwritten : List String
  /-- The lines in the pipe. -/
  pipe : List String
  stderrstrings : List String
  phase : Phase
  /-- For each attempt that was inspected, whether another one was started. -/
  retried : List Bool
  /-- How `run` has ended. -/
  outcome : Option (Res Unit)

/-- What happens next. -/
inductive Event
  /-- The process writes a line. -/
  | write
  /-- The process exits, and the main thread goes on. -/
  | exit
  /-- The reader moves a line. -/
  | move
  /-- The main thread looks at the next item of `stderrstrings`. -/
  | inspect
  deriving DecidableEq

variable (c : Command) (process : Nat → Process)

/-- The end of `run`: it raises unless the last process returned zero. -/
def finish (attempts : Nat) : Res Unit :=
  if (process (attempts - 1)).returncode ≠ 0 then
    .error (.exception ("Error running: \"" ++ c.line ++ "\""))
  else .ok ()

/-- The head of the loop, after the `do_retry` of an attempt is known. -/
def loop (s : State) (doRetry : Bool) : State :=
  if s.attempts + 1 ≤ c.autoRetries ∧ doRetry = true then
    { attempts := s.attempts + 1
      unwritten := (process s.attempts).lines
      pipe := []
      stderrstrings := []
      phase := .running
      retried := s.retried ++ [true]
      outcome := none }
  else
    { s with
      phase := .finished
      retried := s.retried ++ [false]
      outcome := some (finish c process s.attempts) }

/-- One step of a run. -/
def step (s : State) : Event → Option State
  | .write =>
      match s.phase, s.unwritten with
      | .running, line :: rest => some { s with unwritten := rest, pipe := s.pipe ++ [line] }
      | _, _ => none
  | .exit =>
      match s.phase, s.unwritten with
      | .running, [] => some { s with phase := .inspecting 0 }
      | _, _ => none
  | .move =>
      match s.pipe with
      | line :: rest =>
          some { s with
            pipe := rest
            stderrstrings := if isError line then s.stderrstrings ++ [line] else s.stderrstrings }
      | [] => none
  | .inspect =>
      match s.phase with
      | .inspecting index =>
          match s.stderrstrings[index]? with
          | some line =>
              if isRetryable line then some (loop c process s true)
              else some { s with phase := .inspecting (index + 1) }
          | none => some (loop c process s false)
      | _ => none

/-- `run`, from the start of the first process on. -/
def machine : Machine State Event where
  init := ⟨1, (process 0).lines, [], [], .running, [], none⟩
  step := step c process

/-! ## What a run has to decide -/

/-- Some line of an attempt can be retried. -/
def Retryable (k : Nat) : Prop := ∃ line ∈ (process k).lines, isRetryable line = true

/-- Another attempt was started exactly after those with a line that can be retried
that were not the last allowed; there are at most as many as allowed; and the run
raised exactly if the last process did not return zero. -/
structure Decides (s : State) : Prop where
  retries : ∀ k (h : k < s.retried.length),
    s.retried[k] = true ↔ Retryable process k ∧ k + 1 < c.autoRetries
  attempts : s.attempts ≤ c.autoRetries
  raises : ∀ outcome, s.outcome = some outcome →
    (outcome = .error (.exception ("Error running: \"" ++ c.line ++ "\"")) ↔
      (process (s.attempts - 1)).returncode ≠ 0) ∧
    (outcome = .ok () ↔ (process (s.attempts - 1)).returncode = 0)

/-- The main thread does not reach the end of `stderrstrings` while a line that can
be retried is still in the pipe, unless no attempt is left anyway. -/
def readInTime (s : State) : Event → Bool
  | .inspect =>
      match s.phase with
      | .inspecting index =>
          index < s.stderrstrings.length || !s.pipe.any isRetryable ||
            s.attempts == c.autoRetries
      | _ => true
  | _ => true

/-- What every state of a run satisfies, in whatever order its events happen. -/
structure Tracks (s : State) : Prop where
  attempts_pos : 0 < s.attempts
  attempts_le : s.attempts ≤ c.autoRetries
  length : s.retried.length = if s.phase = .finished then s.attempts else s.attempts - 1
  /-- No line is lost: it was moved, is in the pipe or is still to be written. -/
  lines : ∃ moved, (process (s.attempts - 1)).lines = moved ++ s.pipe ++ s.unwritten ∧
    s.stderrstrings = moved.filter isError
  exited : s.phase ≠ .running → s.unwritten = []
  inspected : ∀ index, s.phase = .inspecting index → index ≤ s.stderrstrings.length ∧
    ∀ line ∈ s.stderrstrings.take index, isRetryable line = false
  outcome : s.outcome = if s.phase = .finished then some (finish c process s.attempts) else none

variable {c process}

/-! ## Lines -/

theorem isSubstring_iff {part text : String} :
    isSubstring part text = true ↔ part.toList <:+: text.toList := by
  simp only [isSubstring, List.any_eq_true, List.mem_tails, List.isPrefixOf_iff_prefix]
  constructor
  · rintro ⟨tail, hsuffix, hbegin⟩
    exact hbegin.isInfix.trans hsuffix.isInfix
  · rintro ⟨before, after, h⟩
    exact ⟨part.toList ++ after, ⟨before, by rw [← h, List.append_assoc]⟩,
      List.prefix_append _ _⟩

/-- The reader keeps every line that can be retried. -/
theorem isError_of_isRetryable {line : String} (h : isRetryable line = true) :
    isError line = true := by
  have hwithin : "Error".toList <:+: "RetryableError".toList := ⟨"Retryable".toList, [], rfl⟩
  rw [isError, List.any_eq_true]
  refine ⟨"Error", by simp [errorStrings], ?_⟩
  exact isSubstring_iff.mpr (hwithin.trans (isSubstring_iff.mp h))

section

variable {s s' : State}

/-- Once the process has exited, a line that can be retried is among the strings of
the reader or in the pipe. -/
theorem Tracks.retryable_iff (h : Tracks c process s) (hphase : s.phase ≠ .running) :
    Retryable process (s.attempts - 1) ↔
      (∃ line ∈ s.stderrstrings, isRetryable line = true) ∨
        ∃ line ∈ s.pipe, isRetryable line = true := by
  obtain ⟨moved, hlines, hstrings⟩ := h.lines
  rw [h.exited hphase, List.append_nil] at hlines
  rw [Retryable, hlines, hstrings]
  constructor
  · rintro ⟨line, hmem, hretry⟩
    rcases List.mem_append.mp hmem with hmem | hmem
    · have herror := isError_of_isRetryable hretry
      exact Or.inl ⟨line, List.mem_filter.mpr ⟨hmem, herror⟩, hretry⟩
    · exact Or.inr ⟨line, hmem, hretry⟩
  · rintro (⟨line, hmem, hretry⟩ | ⟨line, hmem, hretry⟩)
    · exact ⟨line, List.mem_append_left _ (List.mem_of_mem_filter hmem), hretry⟩
    · exact ⟨line, List.mem_append_right _ hmem, hretry⟩

/-! ## What each event keeps -/

theorem tracks_init : Tracks c process (machine c process).init where
  attempts_pos := Nat.one_pos
  attempts_le := c.autoRetries_pos
  length := rfl
  lines := ⟨[], rfl, rfl⟩
  exited h := absurd rfl h
  inspected index h := by cases h
  outcome := rfl

theorem Tracks.write {line : String} {rest : List String} (h : Tracks c process s)
    (hphase : s.phase = .running) (hunwritten : s.unwritten = line :: rest) :
    Tracks c process { s with unwritten := rest, pipe := s.pipe ++ [line] } where
  attempts_pos := h.attempts_pos
  attempts_le := h.attempts_le
  length := h.length
  lines := by
    obtain ⟨moved, hlines, hstrings⟩ := h.lines
    refine ⟨moved, ?_, hstrings⟩
    rw [hlines, hunwritten]
    simp
  exited hne := absurd hphase hne
  inspected := h.inspected
  outcome := h.outcome

theorem Tracks.exit (h : Tracks c process s) (hphase : s.phase = .running)
    (hunwritten : s.unwritten = []) : Tracks c process { s with phase := .inspecting 0 } where
  attempts_pos := h.attempts_pos
  attempts_le := h.attempts_le
  length := by
    have hlength := h.length
    simpa [hphase] using hlength
  lines := h.lines
  exited _ := hunwritten
  inspected index hindex := by
    cases hindex
    exact ⟨Nat.zero_le _, by simp⟩
  outcome := by
    have houtcome := h.outcome
    simpa [hphase] using houtcome

theorem Tracks.move {line : String} {rest : List String} (h : Tracks c process s)
    (hpipe : s.pipe = line :: rest) :
    Tracks c process { s with
      pipe := rest
      stderrstrings := if isError line then s.stderrstrings ++ [line] else s.stderrstrings } where
  attempts_pos := h.attempts_pos
  attempts_le := h.attempts_le
  length := h.length
  lines := by
    obtain ⟨moved, hlines, hstrings⟩ := h.lines
    refine ⟨moved ++ [line], ?_, ?_⟩
    · rw [hlines, hpipe]
      simp
    · rw [List.filter_append, ← hstrings]
      split <;> simp [*]
  exited := h.exited
  inspected index hindex := by
    obtain ⟨hle, hnone⟩ := h.inspected index hindex
    by_cases hline : isError line = true
    · simp only [hline, if_true]
      rw [List.take_append_of_le_length hle, List.length_append]
      exact ⟨Nat.le_add_right_of_le hle, hnone⟩
    · simp only [hline]
      exact ⟨hle, hnone⟩
  outcome := h.outcome

theorem Tracks.inspect_next {index : Nat} {line : String} (h : Tracks c process s)
    (hphase : s.phase = .inspecting index) (hline : s.stderrstrings[index]? = some line)
    (hnot : isRetryable line = false) :
    Tracks c process { s with phase := .inspecting (index + 1) } where
  attempts_pos := h.attempts_pos
  attempts_le := h.attempts_le
  length := by
    have hlength := h.length
    simpa [hphase] using hlength
  lines := h.lines
  exited _ := h.exited (by simp [hphase])
  inspected index' hindex' := by
    cases hindex'
    refine ⟨(List.getElem?_eq_some_iff.mp hline).1, ?_⟩
    rw [List.take_add_one, hline]
    simp only [Option.toList_some, List.mem_append, List.mem_singleton]
    rintro other (hother | rfl)
    · exact (h.inspected index hphase).2 other hother
    · exact hnot
  outcome := by
    have houtcome := h.outcome
    simpa [hphase] using houtcome

theorem Tracks.loop (h : Tracks c process s) {index : Nat} (hphase : s.phase = .inspecting index)
    (doRetry : Bool) : Tracks c process (loop c process s doRetry) := by
  have hlength := h.length
  have hpos := h.attempts_pos
  simp only [hphase, reduceCtorEq, if_false] at hlength
  unfold TerraformCommand.loop
  split
  · next hagain =>
      exact
        { attempts_pos := Nat.succ_pos _
          attempts_le := hagain.1
          length := by simp [hlength]; omega
          lines := ⟨[], by simp, rfl⟩
          exited := fun hne => absurd rfl hne
          inspected := fun index hindex => by cases hindex
          outcome := by simp }
  · exact
      { attempts_pos := h.attempts_pos
        attempts_le := h.attempts_le
        length := by simp [hlength]; omega
        lines := h.lines
        exited := fun _ => h.exited (by simp [hphase])
        inspected := fun index hindex => by cases hindex
        outcome := by simp }

/-- A step is one of the process, of the reader, or of the main thread, which looks
at another string or decides. -/
theorem step_cases {e : Event} (h : step c process s e = some s') :
    (∃ line rest, e = .write ∧ s.phase = .running ∧ s.unwritten = line :: rest ∧
        s' = { s with unwritten := rest, pipe := s.pipe ++ [line] }) ∨
      (e = .exit ∧ s.phase = .running ∧ s.unwritten = [] ∧
        s' = { s with phase := .inspecting 0 }) ∨
      (∃ line rest, e = .move ∧ s.pipe = line :: rest ∧
        s' = { s with
          pipe := rest
          stderrstrings := if isError line then s.stderrstrings ++ [line]
            else s.stderrstrings }) ∨
      (∃ index line, e = .inspect ∧ s.phase = .inspecting index ∧
        s.stderrstrings[index]? = some line ∧ isRetryable line = false ∧
        s' = { s with phase := .inspecting (index + 1) }) ∨
      ∃ index doRetry, e = .inspect ∧ s.phase = .inspecting index ∧
        (if doRetry = true then ∃ line, s.stderrstrings[index]? = some line ∧
          isRetryable line = true else s.stderrstrings.length ≤ index) ∧
        s' = loop c process s doRetry := by
  cases e with
  | write =>
      simp only [step] at h
      split at h
      · next line rest hphase hunwritten =>
          cases h
          exact Or.inl ⟨line, rest, rfl, hphase, hunwritten, rfl⟩
      · cases h
  | exit =>
      simp only [step] at h
      split at h
      · next hphase hunwritten =>
          cases h
          exact Or.inr (Or.inl ⟨rfl, hphase, hunwritten, rfl⟩)
      · cases h
  | move =>
      simp only [step] at h
      split at h
      · next line rest hpipe =>
          cases h
          exact Or.inr (Or.inr (Or.inl ⟨line, rest, rfl, hpipe, rfl⟩))
      · cases h
  | inspect =>
      simp only [step] at h
      split at h
      · next index hphase =>
          right; right; right
          split at h
          · next line hline =>
              by_cases hretry : isRetryable line = true
              · rw [if_pos hretry] at h
                cases h
                exact Or.inr ⟨index, true, rfl, hphase, ⟨line, hline, hretry⟩, rfl⟩
              · rw [if_neg hretry] at h
                cases h
                exact Or.inl ⟨index, line, rfl, hphase, hline, by simpa using hretry, rfl⟩
          · next hend =>
              cases h
              exact Or.inr ⟨index, false, rfl, hphase, List.getElem?_eq_none_iff.mp hend, rfl⟩
      · cases h

theorem Tracks.step {e : Event} (h : Tracks c process s)
    (hstep : TerraformCommand.step c process s e = some s') : Tracks c process s' := by
  rcases step_cases hstep with ⟨line, rest, -, hphase, hunwritten, rfl⟩ |
    ⟨-, hphase, hunwritten, rfl⟩ | ⟨line, rest, -, hpipe, rfl⟩ |
    ⟨index, line, -, hphase, hline, hnot, rfl⟩ | ⟨index, doRetry, -, hphase, -, rfl⟩
  · exact h.write hphase hunwritten
  · exact h.exit hphase hunwritten
  · exact h.move hpipe
  · exact h.inspect_next hphase hline hnot
  · exact h.loop hphase doRetry

/-! ## The decision -/

/-- The decisions recorded so far are the right ones. -/
def RetriedRight (c : Command) (process : Nat → Process) (retried : List Bool) : Prop :=
  ∀ k (h : k < retried.length),
    retried[k] = true ↔ Retryable process k ∧ k + 1 < c.autoRetries

theorem retriedRight_concat {retried : List Bool} {again : Bool} :
    RetriedRight c process (retried ++ [again]) ↔
      RetriedRight c process retried ∧
        (again = true ↔ Retryable process retried.length ∧ retried.length + 1 < c.autoRetries) := by
  constructor
  · intro h
    refine ⟨fun k hk => ?_, ?_⟩
    · have hlt : k < (retried ++ [again]).length := by simp; omega
      simpa [List.getElem_append_left hk] using h k hlt
    · simpa using h retried.length (by simp)
  · rintro ⟨h, hlast⟩ k hk
    by_cases hlt : k < retried.length
    · simpa [List.getElem_append_left hlt] using h k hlt
    · obtain rfl : k = retried.length := by simp at hk; omega
      simpa using hlast

/-- A tracked state decides right as far as its decisions are right. -/
theorem Tracks.decides_iff (h : Tracks c process s) :
    Decides c process s ↔ RetriedRight c process s.retried := by
  refine ⟨Decides.retries, fun hretried => ⟨hretried, h.attempts_le, ?_⟩⟩
  intro outcome houtcome
  rw [h.outcome] at houtcome
  split at houtcome
  · cases houtcome
    unfold finish
    split
    · next hcode => simp [hcode]
    · next hcode => simp [not_not.mp hcode]
  · cases houtcome

theorem loop_retried (doRetry : Bool) :
    (loop c process s doRetry).retried =
      s.retried ++ [decide (s.attempts + 1 ≤ c.autoRetries ∧ doRetry = true)] := by
  unfold loop
  by_cases hagain : s.attempts + 1 ≤ c.autoRetries ∧ doRetry = true
  · rw [if_pos hagain, decide_eq_true hagain]
  · rw [if_neg hagain, decide_eq_false hagain]

/-- The decision after an attempt is right exactly when it is to try again, or no
line that can be retried is left in the pipe, or no attempt is left. -/
theorem Tracks.loop_right (h : Tracks c process s) {index : Nat}
    (hphase : s.phase = .inspecting index) {doRetry : Bool}
    (hfound : if doRetry = true then ∃ line, s.stderrstrings[index]? = some line ∧
      isRetryable line = true else s.stderrstrings.length ≤ index) :
    RetriedRight c process (TerraformCommand.loop c process s doRetry).retried ↔
      RetriedRight c process s.retried ∧
        (doRetry = true ∨ (∀ line ∈ s.pipe, isRetryable line = false) ∨
          s.attempts = c.autoRetries) := by
  have hlength := h.length
  simp only [hphase, reduceCtorEq, if_false] at hlength
  have hpos := h.attempts_pos
  have hle := h.attempts_le
  have hretryable := h.retryable_iff (by simp [hphase])
  rw [loop_retried, retriedRight_concat, hlength, decide_eq_true_iff,
    Nat.sub_add_cancel hpos, Nat.succ_le_iff, hretryable]
  apply and_congr_right
  intro _
  cases doRetry with
  | true =>
      rw [if_pos rfl] at hfound
      obtain ⟨line, hline, hretry⟩ := hfound
      have hstrings : ∃ line ∈ s.stderrstrings, isRetryable line = true :=
        ⟨line, List.mem_of_getElem? hline, hretry⟩
      simp [hstrings]
  | false =>
      simp only [Bool.false_eq_true, if_false] at hfound
      have hnone : ∀ line ∈ s.stderrstrings, isRetryable line = false := by
        have hinspected := (h.inspected index hphase).2
        rwa [List.take_of_length_le hfound] at hinspected
      have hstrings : ¬ ∃ line ∈ s.stderrstrings, isRetryable line = true := by
        rintro ⟨line, hmem, hretry⟩
        rw [hnone line hmem] at hretry
        cases hretry
      simp only [Bool.false_eq_true, and_false, false_iff, hstrings, false_or, not_and, not_lt]
      constructor
      · intro hlate
        by_cases hpipe : ∃ line ∈ s.pipe, isRetryable line = true
        · exact Or.inr (Nat.le_antisymm hle (hlate hpipe))
        · exact Or.inl fun line hmem => by simpa using fun hretry => hpipe ⟨line, hmem, hretry⟩
      · rintro (hpipe | heq) ⟨line, hmem, hretry⟩
        · rw [hpipe line hmem] at hretry
          cases hretry
        · exact heq.ge

/-- A step from a state that has decided right leads to one exactly when the reader
was in time. -/
theorem Decides.step_iff {e : Event} (h : Tracks c process s) (hs : Decides c process s)
    (hstep : TerraformCommand.step c process s e = some s') :
    Decides c process s' ↔ readInTime c s e = true := by
  have hretried := h.decides_iff.mp hs
  rw [(h.step hstep).decides_iff]
  rcases step_cases hstep with ⟨line, rest, rfl, -, -, rfl⟩ | ⟨rfl, -, -, rfl⟩ |
    ⟨line, rest, rfl, -, rfl⟩ | ⟨index, line, rfl, hphase, hline, -, rfl⟩ |
    ⟨index, doRetry, rfl, hphase, hfound, rfl⟩
  · exact iff_of_true hretried rfl
  · exact iff_of_true hretried rfl
  · exact iff_of_true hretried rfl
  · refine iff_of_true hretried ?_
    have hlt := (List.getElem?_eq_some_iff.mp hline).1
    simp [readInTime, hphase, hlt]
  · rw [h.loop_right hphase hfound, and_iff_right hretried]
    cases doRetry with
    | true =>
        rw [if_pos rfl] at hfound
        obtain ⟨line, hline, -⟩ := hfound
        have hlt := (List.getElem?_eq_some_iff.mp hline).1
        simp [readInTime, hphase, hlt]
    | false =>
        simp only [Bool.false_eq_true, if_false] at hfound
        simp [readInTime, hphase, Nat.not_lt.mpr hfound]

/-- In every run in which the reader is in time, every decision is right. The first
step at which it is not leads to a wrong one. -/
theorem decides_iff_readInTime (c : Command) (process : Nat → Process) :
    (∀ s, (machine c process).Reachable (readInTime c) s → Decides c process s) ∧
      ∀ s e s', (machine c process).Reachable (readInTime c) s →
        (machine c process).step s e = some s' →
        (Decides c process s' ↔ readInTime c s e = true) := by
  have hreach : ∀ s, (machine c process).Reachable (readInTime c) s →
      Tracks c process s ∧ Decides c process s := by
    intro s h
    refine h.invariant (I := fun s => Tracks c process s ∧ Decides c process s) ?_ ?_
    · refine ⟨tracks_init, tracks_init.decides_iff.mpr ?_⟩
      intro k hk
      exact absurd hk (Nat.not_lt_zero k)
    · intro s s' e hs hallowed hstep
      exact ⟨hs.1.step hstep, (hs.2.step_iff hs.1 hstep).mpr hallowed⟩
  refine ⟨fun s h => (hreach s h).2, fun s e s' h hstep => ?_⟩
  exact (hreach s h).2.step_iff (hreach s h).1 hstep

end

/-! ## A retry that is lost -/

namespace RetrySample

/-- An apply. -/
def command : Command := apply "/build" true

/-- Every attempt ends with an error that can be retried. -/
def failing (_ : Nat) : Process := ⟨["Error: RetryableError"], 1⟩

/-- The process has exited and its line is in the pipe. -/
def exited : State where
  attempts := 1
  unwritten := []
  pipe := ["Error: RetryableError"]
  stderrstrings := []
  phase := .inspecting 0
  retried := []
  outcome := none

/-- The main thread has searched the strings before the reader moved the line. -/
def lost : State :=
  { exited with
    phase := .finished
    retried := [false]
    outcome := some (.error (.exception
      ("Error running: \"terraform apply --auto-approve " ++
        "-state=/build/terraform.tfstate -no-color /build\""))) }

/-- The main thread has searched them after the reader moved the line. -/
def again : State where
  attempts := 2
  unwritten := ["Error: RetryableError"]
  pipe := []
  stderrstrings := []
  phase := .running
  retried := [true]
  outcome := none

theorem run_exited : (machine command failing).run (readInTime command)
    (machine command failing).init [.write, .exit] = some exited := rfl

theorem step_lost : (machine command failing).step exited .inspect = some lost := rfl

theorem run_again : (machine command failing).run (readInTime command)
    (machine command failing).init [.write, .exit, .move, .inspect] = some again := rfl

theorem retryable_zero : Retryable failing 0 :=
  ⟨"Error: RetryableError", List.mem_singleton_self _, by decide⟩

end RetrySample

/-- A run that loses a retry: the line that asks for one is still in the pipe when
the main thread has searched the strings. -/
theorem retry_lost :
    ¬ ∀ s, (machine RetrySample.command RetrySample.failing).Reachable (fun _ _ => true) s →
      Decides RetrySample.command RetrySample.failing s := by
  intro h
  have hrun : (machine RetrySample.command RetrySample.failing).run (fun _ _ => true)
      (machine RetrySample.command RetrySample.failing).init [.write, .exit, .inspect] =
        some RetrySample.lost := rfl
  have hdecides := h _ (Machine.Reachable.of_run .init hrun)
  have hretry := (hdecides.retries 0 (by decide)).mpr ⟨RetrySample.retryable_zero, by decide⟩
  exact absurd hretry (by decide)

theorem decides_iff_readInTime_sample :
    Decides RetrySample.command RetrySample.failing RetrySample.again ∧
      ¬ Decides RetrySample.command RetrySample.failing RetrySample.lost := by
  constructor
  · exact (decides_iff_readInTime RetrySample.command RetrySample.failing).1 _
      (Machine.Reachable.of_run .init RetrySample.run_again)
  · intro h
    have hinTime := ((decides_iff_readInTime RetrySample.command RetrySample.failing).2 _ _ _
      (Machine.Reachable.of_run .init RetrySample.run_exited) RetrySample.step_lost).mp h
    exact absurd hinTime (by decide)

end TerraformCommand

end LambdaStack
