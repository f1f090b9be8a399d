import SteamInputLease.Launch.Run
import SteamInputLease.Lib.Hoare
import SteamInputLease.Proof.Launch.CommandLine

/-!
# The launched program starts at most once

One specification for each function says what it enters into the journal with each kind of result;
the properties of a run are read off the entries.

The question is what an error means. Every function of the launch can fail behind any of its calls,
and `run_command` answers an error of the attempt with a lease by starting the program without one.
That is right only if an error was never returned by something that had already let the program run.
`Unstarted` is what a failed start enters, at most a process that was never resumed, and `LetsRun`
what a start that succeeded does, down to the entries that tell of its wait; there is no third case
(`Runs.cases`). What the two attempts show is then put together: the process that was let run, the
command it was created for, the job it was put into before, and the code that came back. Printed
lines and the entries of the lease are no part of this and drop out wherever they stand.
-/

namespace SteamInputLease
namespace Launch

open Lib Protocol

/-! ## Logs -/

section

variable {log pre post : List Event}

theorem resumes_append : resumes (pre ++ post) = resumes pre + resumes post :=
  List.countP_append

theorem releases_append : releases (pre ++ post) = releases pre + releases post :=
  List.count_append

/-- Entries that are no part of a lease. -/
def Event.aside : Event → Bool
  | .sent _ => false
  | .acquired => false
  | .returned => false
  | _ => true

theorem releases_aside (h : ∀ e ∈ log, e.aside = true) : releases log = 0 := by
  apply List.count_eq_zero.mpr
  intro hmem
  exact absurd (h _ hmem) (by decide)

theorem not_acquired_aside (h : ∀ e ∈ log, e.aside = true) : Event.acquired ∉ log := by
  intro hmem
  exact absurd (h _ hmem) (by decide)

theorem not_resumed (h : resumes log = 0) (thread : UInt64) : Event.resumed thread ∉ log := by
  intro hmem
  have := List.countP_eq_zero.mp h _ hmem
  exact this rfl

/-- Only processes of `command` are created. -/
def Lines (command : List (List UInt16)) (log : List Event) : Prop :=
  ∀ line environment process, .created line environment process ∈ log → line = commandLine command

section

variable {command : List (List UInt16)}

theorem Lines.nil : Lines command [] := fun _ _ _ h => absurd h List.not_mem_nil

theorem Lines.append (h : Lines command pre) (h' : Lines command post) :
    Lines command (pre ++ post) := fun line environment process hmem =>
  (List.mem_append.mp hmem).elim (h line environment process) (h' line environment process)

theorem Lines.of_not_created (h : ∀ e ∈ log, e.isCreated = false) : Lines command log := by
  intro line environment process hmem
  cases h _ hmem

end

/-! ## The process that was let run -/

/-- What a wait enters tells of the job and of the process only. -/
theorem Follows.mem {w : Answers} {job process : UInt64} {r : Option UInt32}
    (h : Follows w job process r log) :
    ∀ e ∈ log, (∃ answer, e = .queried job answer) ∨ ∃ answer, e = .exited process answer := by
  induction h with
  | waits => exact List.forall_mem_nil _
  | lost i hi => exact List.forall_mem_cons.mpr ⟨.inl ⟨none, rfl⟩, List.forall_mem_nil _⟩
  | ended i k hi =>
    exact List.forall_mem_cons.mpr ⟨.inl ⟨some 0, rfl⟩,
      List.forall_mem_cons.mpr ⟨.inr ⟨_, rfl⟩, List.forall_mem_nil _⟩⟩
  | polled i active r log hi hactive hlog ih =>
    exact List.forall_mem_cons.mpr ⟨.inl ⟨some active, rfl⟩, ih⟩

theorem Follows.resumes {w : Answers} {job process : UInt64} {r : Option UInt32}
    (h : Follows w job process r log) : resumes log = 0 := by
  apply List.countP_eq_zero.mpr
  intro e he
  rcases h.mem e he with ⟨answer, rfl⟩ | ⟨answer, rfl⟩ <;> exact Bool.false_ne_true

theorem Follows.aside {w : Answers} {job process : UInt64} {r : Option UInt32}
    (h : Follows w job process r log) : ∀ e ∈ log, e.aside = true := by
  intro e he
  rcases h.mem e he with ⟨answer, rfl⟩ | ⟨answer, rfl⟩ <;> rfl

theorem Follows.lines {w : Answers} {job process : UInt64} {r : Option UInt32}
    {command : List (List UInt16)} (h : Follows w job process r log) : Lines command log := by
  refine .of_not_created fun e he => ?_
  rcases h.mem e he with ⟨answer, rfl⟩ | ⟨answer, rfl⟩ <;> rfl

section

variable {w : Answers} {line : List UInt16} {r : Option UInt32}

theorem LetsRun.around (h : LetsRun w line r log) (hpre : resumes pre = 0)
    (hpost : resumes post = 0) : LetsRun w line r (pre ++ log ++ post) := by
  obtain ⟨before, environment, process, job, tree, after, rfl, hb, htree, ha⟩ := h
  refine ⟨pre ++ before, environment, process, job, tree, after ++ post, ?_, ?_, htree, ?_⟩
  · simp only [List.append_assoc]
  · rw [resumes_append, hpre, hb]
  · rw [resumes_append, ha, hpost]

theorem LetsRun.resumes (h : LetsRun w line r log) : resumes log = 1 := by
  obtain ⟨before, environment, process, job, tree, after, rfl, hb, htree, ha⟩ := h
  rw [resumes_append, resumes_append, resumes_append, hb, htree.resumes, ha]
  rfl

/-- What was let run is in its job by then. -/
theorem LetsRun.confined (h : LetsRun w line r log) : Confined log := by
  intro earlier thread later heq
  obtain ⟨before, environment, process, job, tree, after, rfl, hb, htree, ha⟩ := h
  -- the resumed thread stands where this entry does
  have hsplit : before ++ [.created line environment process, .assigned job process.process] ++
      .resumed process.thread :: (tree ++ after) = earlier ++ .resumed thread :: later := by
    rw [← heq]
    simp
  have hbefore : Event.resumed thread ∉
      before ++ [.created line environment process, .assigned job process.process] := by
    intro hmem
    rcases List.mem_append.mp hmem with hmem | hmem
    · exact not_resumed hb thread hmem
    · simp at hmem
  have hafter : Launch.resumes (tree ++ after) = 0 := by rw [resumes_append, htree.resumes, ha]
  obtain ⟨rfl, hthread, rfl⟩ := split_unique hsplit hbefore (not_resumed hafter thread)
  refine ⟨before, line, environment, process, [.assigned job process.process], job, rfl, ?_, ?_, ?_⟩
  · simp [Event.isCreated]
  · exact (Event.resumed.inj hthread).symm
  · exact List.mem_cons_self

end

theorem confined_none (h : resumes log = 0) : Confined log := by
  intro before thread after heq
  exact absurd (heq ▸ List.mem_append_right _ List.mem_cons_self) (not_resumed h thread)

end

/-! ## The lease -/

section

variable {w : Answers}

theorem windowsError_quiet {operation : String} :
    Writes (windowsError w operation) fun _ new => new = [] := by
  apply Writes.ask
  intro source
  exact Writes.pure rfl

theorem readResponse_quiet : Writes (readResponse w) fun _ new => new = [] := by
  apply Writes.ask
  intro answer
  cases answer with
  | none =>
    apply Writes.skip windowsError_quiet
    intro error
    exact Writes.pure rfl
  | some answer =>
    dsimp only
    split
    · exact Writes.pure rfl
    · split <;> exact Writes.pure rfl

/-- An exchange is one attempt to send. -/
theorem exchange_writes {command : Command} :
    Writes (exchange w command) fun _ new => new = [.sent command] := by
  apply Writes.tell
  apply Writes.ask
  intro answer
  cases answer with
  | none =>
    apply Writes.skip windowsError_quiet
    intro error
    exact Writes.pure rfl
  | some transferred =>
    dsimp only
    split
    · exact Writes.pure rfl
    · exact readResponse_quiet.imp fun _ new hnew => by rw [hnew]

/-- An acquisition that fails has entered a request at most; a lease is entered behind its own. -/
theorem acquire_writes {targetName : String} :
    Writes (acquire w targetName) fun r new =>
      (∃ e, r = .error e ∧ ∀ n ∈ new, n = .sent .acquireLease) ∨
        (∃ lease, r = .ok lease ∧ new = [.sent .acquireLease, .acquired]) := by
  apply Writes.ask
  intro processId
  cases processId with
  | error e => exact Writes.pure (.inl ⟨e, rfl, fun n hn => absurd hn List.not_mem_nil⟩)
  | ok processId =>
    apply Writes.ask
    intro pipe
    cases pipe with
    | error e => exact Writes.pure (.inl ⟨e, rfl, fun n hn => absurd hn List.not_mem_nil⟩)
    | ok pipe =>
      apply Writes.bind exchange_writes
      intro response new hnew
      subst hnew
      cases response with
      | error e => exact Writes.pure (.inl ⟨e, rfl, fun n hn => List.mem_singleton.mp hn⟩)
      | ok response =>
        apply Writes.tell
        exact Writes.pure (.inr ⟨_, rfl, rfl⟩)

theorem releaseRecovery_quiet {lease : Lease} {response : Response} :
    Writes (releaseRecovery w lease response) fun _ new => new = [] := by
  unfold releaseRecovery
  split
  · exact Writes.pure rfl
  · split
    · exact Writes.pure rfl
    · apply Writes.ask
      intro answer
      cases answer <;> exact Writes.pure rfl

/-- A release is sent once. -/
theorem release_writes {lease : Lease} :
    Writes (lease.release w) fun _ new => new = [.sent .releaseLease] := by
  apply Writes.bind exchange_writes
  intro response new hnew
  subst hnew
  cases response with
  | error e => exact Writes.pure rfl
  | ok response =>
    apply Writes.skip releaseRecovery_quiet
    intro recovery
    exact Writes.pure rfl

/-! ## The process -/

theorem abortUnstartedProcess_quiet {cause : Error} :
    Writes (abortUnstartedProcess w cause) fun _ new => new = [] := by
  apply Writes.ask
  intro terminated
  split
  · apply Writes.ask
    intro source
    exact Writes.pure rfl
  · apply Writes.ask
    intro waited
    cases waited with
    | object0 => exact Writes.pure rfl
    | timeout => exact Writes.pure rfl
    | failed =>
      apply Writes.ask
      intro source
      exact Writes.pure rfl

theorem leasedEnvironment_quiet : Writes (leasedEnvironment w) fun _ new => new = [] := by
  apply Writes.ask
  intro environment
  cases environment with
  | none =>
    apply Writes.skip windowsError_quiet
    intro error
    exact Writes.pure rfl
  | some environment => exact Writes.pure rfl

theorem childEnvironment_quiet {leased : Bool} :
    Writes (childEnvironment w leased) fun _ new => new = [] := by
  unfold childEnvironment
  split
  · apply Writes.skip leasedEnvironment_quiet
    intro environment
    exact Writes.pure rfl
  · exact Writes.pure rfl

/-- Giving a tree up enters nothing. -/
theorem abortTree_quiet : Writes (abortTree w) fun _ new => new = [] := by
  apply Writes.ask
  intro terminated
  split
  · apply Writes.ask
    intro limited
    split
    · apply Writes.ask
      intro ended
      exact Writes.pure rfl
    · exact Writes.pure rfl
  · exact Writes.pure rfl

/-- The wait follows its job and its process. -/
theorem awaitTree_follows {job process : UInt64} {polls : Nat} :
    Writes (awaitTree w job process polls) (Follows w job process) := by
  induction polls with
  | zero => exact Writes.pure .waits
  | succ polls ih =>
    apply Writes.askAt
    intro i
    apply Writes.tell
    match hactive : w.queryInformationJobObject i with
    | none =>
      apply Writes.skip abortTree_quiet
      intro aborted
      apply Writes.ask
      intro waited
      exact Writes.pure (.lost i hactive)
    | some active =>
      dsimp only
      split
      next hzero =>
        subst hzero
        apply Writes.askAt
        intro k
        apply Writes.tell
        exact Writes.pure (.ended i k hactive)
      next hsome => exact ih.imp fun r new h => .polled i active r new hactive hsome h

theorem abortInJob_quiet : Writes (abortInJob w) fun _ new => new = [] := by
  apply Writes.skip windowsError_quiet
  intro error
  apply Writes.ask
  intro terminated
  split
  · exact abortUnstartedProcess_quiet
  · apply Writes.ask
    intro waited
    cases waited <;> exact Writes.pure rfl

/-- What a launch enters when it fails: a process at most, in a job at most. -/
def Unstarted (new : List Event) : Prop := resumes new = 0 ∧ ∀ e ∈ new, e.aside = true

theorem Unstarted.nil : Unstarted [] := ⟨rfl, List.forall_mem_nil _⟩

/-- **The start**: an error with nothing resumed, or a process that was put into a job and resumed,
    in this order. -/
theorem startInJob_writes {process : ProcessInformation} :
    Writes (startInJob w process) fun r new =>
      (∀ e ∈ new, e.isCreated = false) ∧
        ((∃ e, r = .error e ∧ Unstarted new) ∨
          ∃ job, r = .ok job ∧ new = [.assigned job process.process, .resumed process.thread]) := by
  apply Writes.ask
  intro job
  cases job with
  | none =>
    apply Writes.skip windowsError_quiet
    intro error
    apply Writes.skip abortUnstartedProcess_quiet
    intro error
    exact Writes.pure ⟨List.forall_mem_nil _, .inl ⟨error, rfl, .nil⟩⟩
  | some job =>
    apply Writes.ask
    intro assigned
    split
    · apply Writes.skip windowsError_quiet
      intro error
      apply Writes.skip abortUnstartedProcess_quiet
      intro error
      exact Writes.pure ⟨List.forall_mem_nil _, .inl ⟨error, rfl, .nil⟩⟩
    · apply Writes.tell
      apply Writes.ask
      intro previous
      split
      · apply Writes.skip abortInJob_quiet
        intro error
        exact Writes.pure ⟨by simp [Event.isCreated],
          .inl ⟨error, rfl, rfl, by simp [Event.aside]⟩⟩
      · apply Writes.tell
        exact Writes.pure ⟨by simp [Event.isCreated], .inr ⟨job, rfl, rfl⟩⟩

/-- The exit code that came back, if one did. -/
def codeOf {α : Type} (code : α → UInt32) (r : Option (Except Error α)) : Option UInt32 :=
  r.bind fun r => r.toOption.map code

/-- What a way to run the command shows: only the command is created; with an error nothing was let
    run, else the command was. -/
structure Runs {α : Type} (w : Answers) (code : α → UInt32) (command : List (List UInt16))
    (r : Option (Except Error α)) (new : List Event) : Prop where
  lines : Lines command new
  failed : ∀ e, r = some (.error e) → resumes new = 0
  ran : (∀ e, r ≠ some (.error e)) → LetsRun w (commandLine command) (codeOf code r) new

section

variable {α : Type} {code : α → UInt32} {command : List (List UInt16)}
  {r : Option (Except Error α)} {new : List Event}

theorem Runs.nothing {e : Error} (hlines : Lines command new) (hnone : resumes new = 0) :
    Runs w code command (some (.error e)) new :=
  ⟨hlines, fun _ _ => hnone, fun hne => absurd rfl (hne e)⟩

theorem Runs.cases (h : Runs w code command r new) :
    resumes new = 0 ∨ LetsRun w (commandLine command) (codeOf code r) new := by
  by_cases hr : ∃ e, r = some (.error e)
  · exact .inl (hr.elim h.failed)
  · exact .inr (h.ran (not_exists.mp hr))

theorem Runs.once (h : Runs w code command r new) : resumes new ≤ 1 := by
  rcases h.cases with hnone | hran
  · exact hnone ▸ Nat.zero_le 1
  · exact hran.resumes.le

theorem Runs.confined (h : Runs w code command r new) : Confined new :=
  h.cases.elim confined_none LetsRun.confined

end

/-- A process that was created for the command. -/
theorem lines_created {arguments : List (List UInt16)} {environment : Option (List UInt16)}
    {process : ProcessInformation} {new : List Event} (h : Lines arguments new) :
    Lines arguments (.created (commandLine arguments) environment process :: new) := by
  intro line environment process hmem
  rcases List.mem_cons.mp hmem with heq | hmem
  · cases heq
    rfl
  · exact h line environment process hmem

/-- The command is created suspended, and is let run in its job or not at all. -/
theorem runProcess_runs {arguments : List (List UInt16)} {environment : Option (List UInt16)}
    {process : ProcessInformation} {polls : Nat} :
    Writes (runProcess w process polls) fun r new =>
      Runs w id arguments r (.created (commandLine arguments) environment process :: new) ∧
        ∀ n ∈ new, n.aside = true := by
  apply Writes.bind startInJob_writes
  intro r new ⟨hcreated, h⟩
  rcases h with ⟨e, rfl, hnone, haside⟩ | ⟨job, rfl, rfl⟩
  · refine Writes.pure ?_
    rw [List.append_nil]
    refine ⟨.nothing (lines_created (.of_not_created hcreated)) ?_, haside⟩
    show resumes ([Event.created (commandLine arguments) environment process] ++ new) = 0
    rw [resumes_append, hnone]
    rfl
  · apply Writes.bind awaitTree_follows
    intro exitCode tree htree
    refine Writes.pure ⟨⟨?_, ?_, fun _ => ?_⟩, ?_⟩
    · rw [List.append_nil]
      exact lines_created ((Lines.of_not_created hcreated).append htree.lines)
    · intro e he
      cases exitCode <;> cases he
    · refine ⟨[], environment, process, job, tree, [], by simp, rfl, ?_, rfl⟩
      cases exitCode <;> exact htree
    · rw [List.append_nil]
      exact List.forall_mem_append.mpr ⟨by simp [Event.aside], htree.aside⟩

/-- Without an environment block no process is created. -/
theorem launchAndWait_runs {arguments : List (List UInt16)} {leased : Bool} {polls : Nat} :
    Writes (launchAndWait w arguments leased polls) fun r new =>
      Runs w id arguments r new ∧ ∀ n ∈ new, n.aside = true := by
  apply Writes.skip childEnvironment_quiet
  intro environment
  cases environment with
  | error e => exact Writes.pure ⟨.nothing .nil rfl, List.forall_mem_nil _⟩
  | ok environment =>
    apply Writes.ask
    intro process
    cases process with
    | none =>
      apply Writes.skip windowsError_quiet
      intro error
      exact Writes.pure ⟨.nothing .nil rfl, List.forall_mem_nil _⟩
    | some process =>
      apply Writes.tell
      exact runProcess_runs.imp fun r new h => ⟨h.1, List.forall_mem_cons.mpr ⟨rfl, h.2⟩⟩

/-! ## The callers -/

/-- What a whole `run_wrapped` shows. -/
structure WrappedShows (w : Answers) (command : List (List UInt16))
    (r : Option (Except Error WrappedRun)) (new : List Event) : Prop
    extends Runs w WrappedRun.exitCode command r new where
  released : r ≠ none → .acquired ∈ new → ReleasedAfterLaunch new
  waiting : r = none → releases new = 0

/-- Entries of a lease, which let nothing run and create nothing. -/
theorem lease_lines (command : List (List UInt16)) {new : List Event}
    (h : ∀ n ∈ new, n = .acquired ∨ n = .returned ∨ ∃ command, n = .sent command) :
    Lines command new ∧ resumes new = 0 := by
  refine ⟨.of_not_created fun n hn => ?_, List.countP_eq_zero.mpr fun n hn => ?_⟩
  · rcases h n hn with rfl | rfl | ⟨command, rfl⟩ <;> rfl
  · rcases h n hn with rfl | rfl | ⟨command, rfl⟩ <;> exact Bool.false_ne_true

theorem wrapped_nothing {command : List (List UInt16)} {e : Error} {new : List Event}
    (h : ∀ n ∈ new, n = .sent .acquireLease) : WrappedShows w command (some (.error e)) new := by
  obtain ⟨hlines, hnone⟩ := lease_lines command fun n hn => .inr (.inr ⟨_, h n hn⟩)
  refine ⟨.nothing hlines hnone, fun _ hacquired => ?_, fun hr => by cases hr⟩
  exact absurd (h _ hacquired) (by decide)

/-- The launch between an acquisition and a release. -/
theorem runWrapped_shows {targetName : String} {command : List (List UInt16)} {polls : Nat} :
    Writes (runWrapped w targetName command polls) (WrappedShows w command) := by
  unfold runWrapped
  cases hwide : wideCommand command with
  | error e => exact Writes.pure (wrapped_nothing fun n hn => absurd hn List.not_mem_nil)
  | ok arguments =>
    obtain ⟨rfl, -⟩ := wideCommand_eq_ok hwide
    apply Writes.bind acquire_writes
    intro r new h
    rcases h with ⟨e, rfl, hsent⟩ | ⟨lease, rfl, rfl⟩
    -- no lease was had: nothing is launched, and nothing is released
    · refine Writes.pure ?_
      rw [List.append_nil]
      exact wrapped_nothing hsent
    -- the acquisition and the release start no process, so the launch alone answers for it
    · apply Writes.bind launchAndWait_runs
      intro launched new ⟨hruns, haside⟩
      have hacquire : Lines arguments [.sent .acquireLease, .acquired] :=
        (lease_lines arguments (by simp)).1
      have hnone : resumes [.sent .acquireLease, .acquired] = 0 := rfl
      have hsent : releases ([.sent .acquireLease, .acquired] ++ new) = 0 := by
        rw [releases_append, releases_aside haside]
        rfl
      cases launched with
      | none =>
        refine Writes.pure ⟨⟨?_, ?_, fun _ => ?_⟩, fun hr => absurd rfl hr, ?_⟩
        · rw [List.append_nil]
          exact hacquire.append hruns.lines
        · intro e he
          cases he
        · rw [← List.append_assoc]
          exact (hruns.ran (by simp)).around hnone rfl
        · intro _
          rw [List.append_nil]
          exact hsent
      | some launched =>
        apply Writes.tell
        apply Writes.bind release_writes
        intro released more hmore
        subst hmore
        have hrelease : Lines arguments [.returned, .sent .releaseLease] :=
          (lease_lines arguments (by simp)).1
        have hquiet : resumes [.returned, .sent .releaseLease] = 0 := rfl
        refine Writes.pure ⟨⟨hacquire.append (hruns.lines.append hrelease), ?_, ?_⟩, ?_, ?_⟩
        · intro e he
          have hfailed : launched = .error e := by
            cases launched with
            | error e' => cases he; rfl
            | ok code => cases he
          rw [resumes_append, resumes_append, hnone, hruns.failed e (by rw [hfailed])]
          exact hquiet
        · intro hne
          rw [← List.append_assoc]
          cases launched with
          | error e => exact absurd rfl (hne e)
          | ok exitCode => exact (hruns.ran (by simp)).around hnone hquiet
        · intro _ _
          refine ⟨[.sent .acquireLease, .acquired] ++ new, [.sent .releaseLease], ?_, hsent, rfl⟩
          simp
        · intro hr
          cases hr

/-- The attempt without a lease is a launch like the other. -/
theorem runUnleased_runs {command : List (List UInt16)} {polls : Nat} :
    Writes (runUnleased w command polls) fun r new =>
      Runs w id command r new ∧ ∀ n ∈ new, n.aside = true := by
  unfold runUnleased
  cases hwide : wideCommand command with
  | error e => exact Writes.pure ⟨.nothing .nil rfl, List.forall_mem_nil _⟩
  | ok arguments =>
    obtain ⟨rfl, -⟩ := wideCommand_eq_ok hwide
    exact launchAndWait_runs

/-- Only lines are printed. -/
def Printed (new : List Event) : Prop := ∀ n ∈ new, ∃ text, n = .printed text

theorem Printed.resumes {new : List Event} (h : Printed new) : resumes new = 0 := by
  apply List.countP_eq_zero.mpr
  intro n hn
  obtain ⟨text, rfl⟩ := h n hn
  exact Bool.false_ne_true

theorem Printed.aside {new : List Event} (h : Printed new) : ∀ n ∈ new, n.aside = true := by
  intro n hn
  obtain ⟨text, rfl⟩ := h n hn
  rfl

theorem Printed.lines {command : List (List UInt16)} {new : List Event} (h : Printed new) :
    Lines command new := by
  refine .of_not_created fun e he => ?_
  obtain ⟨text, rfl⟩ := h e he
  rfl

theorem Printed.nil : Printed [] := List.forall_mem_nil _

theorem printed_one {text : String} : Printed [.printed text] := by
  intro n hn
  exact ⟨text, List.mem_singleton.mp hn⟩

theorem reportRun_writes {run : WrappedRun} : Writes (reportRun run) fun _ new => Printed new := by
  unfold reportRun
  cases run.release with
  | ok outcome =>
    apply Writes.tell
    cases outcome.recovery.error with
    | none => exact Writes.pure printed_one
    | some error =>
      refine Writes.record ?_
      intro n hn
      simp only [List.mem_cons, List.not_mem_nil, or_false] at hn
      rcases hn with rfl | rfl <;> exact ⟨_, rfl⟩
  | error error => exact Writes.record printed_one

/-- What a whole `run_command` shows: the command was let run and its code is returned, or nothing
    was, which takes that the attempt without a lease `fails`, and 1 is returned. -/
structure CommandShows (w : Answers) (fails : Prop) (command : List (List UInt16))
    (r : Option UInt32) (new : List Event) : Prop where
  lines : Lines command new
  ran : LetsRun w (commandLine command) r new ∨ fails ∧ resumes new = 0 ∧ r = some 1
  released : r ≠ none → .acquired ∈ new → ReleasedAfterLaunch new

theorem CommandShows.once {fails : Prop} {command : List (List UInt16)} {r : Option UInt32}
    {new : List Event} (h : CommandShows w fails command r new) : resumes new ≤ 1 := by
  rcases h.ran with hran | ⟨-, hnone, -⟩
  · exact hran.resumes.le
  · exact hnone ▸ Nat.zero_le 1

theorem CommandShows.confined {fails : Prop} {command : List (List UInt16)} {r : Option UInt32}
    {new : List Event} (h : CommandShows w fails command r new) : Confined new :=
  h.ran.elim LetsRun.confined fun h => confined_none h.2.1

/-- A release behind the launch stays one when nothing else about a lease is entered. -/
theorem ReleasedAfterLaunch.around {log pre post : List Event} (h : ReleasedAfterLaunch log)
    (hpre : ∀ n ∈ pre, n.aside = true) (hpost : ∀ n ∈ post, n.aside = true) :
    ReleasedAfterLaunch (pre ++ log ++ post) := by
  obtain ⟨before, after, rfl, hb, ha⟩ := h
  refine ⟨pre ++ before, after ++ post, by simp, ?_, ?_⟩
  · rw [releases_append, releases_aside hpre, hb]
  · rw [releases_append, releases_aside hpost, ha]

theorem acquired_around {log pre post : List Event} (hpre : ∀ n ∈ pre, n.aside = true)
    (hpost : ∀ n ∈ post, n.aside = true) (h : .acquired ∈ pre ++ log ++ post) :
    .acquired ∈ log := by
  rcases List.mem_append.mp h with h | h
  · rcases List.mem_append.mp h with h | h
    · exact absurd h (not_acquired_aside hpre)
    · exact h
  · exact absurd h (not_acquired_aside hpost)

/-- The second attempt comes behind a first one that has let nothing run. -/
theorem runCommand_shows {targetName : String} {fails : Prop} {command : List (List UInt16)}
    {polls : Nat}
    (hfails : Writes (runUnleased w command polls) fun r _ => ∀ e, r = some (.error e) → fails) :
    Writes (runCommand w targetName command polls) (CommandShows w fails command) := by
  apply Writes.bind (P := fun _ new => Printed new) (Writes.record printed_one)
  intro _ pre hpre
  apply Writes.bind runWrapped_shows
  intro r new hnew
  match r with
  | none =>
    refine Writes.pure ⟨?_, .inl ?_, fun hr => absurd rfl hr⟩
    · rw [List.append_nil]
      exact hpre.lines.append hnew.lines
    · rw [← List.append_assoc]
      exact (hnew.ran (by simp)).around hpre.resumes rfl
  | some (.ok run) =>
    apply Writes.bind reportRun_writes
    intro _ more hmore
    refine Writes.pure ⟨?_, .inl ?_, fun _ hacquired => ?_⟩
    · rw [List.append_nil]
      exact hpre.lines.append (hnew.lines.append hmore.lines)
    · rw [List.append_nil, ← List.append_assoc]
      exact (hnew.ran (by simp)).around hpre.resumes hmore.resumes
    · rw [List.append_nil, ← List.append_assoc] at hacquired ⊢
      have hin := acquired_around hpre.aside hmore.aside hacquired
      exact (hnew.released (by simp) hin).around hpre.aside hmore.aside
  | some (.error error) =>
    apply Writes.bind (P := fun _ more => Printed more) (Writes.record printed_one)
    intro _ warned hwarned
    apply Writes.bind (runUnleased_runs.and hfails)
    intro second launched ⟨⟨hruns, haside⟩, hfails⟩
    -- whatever is printed at the end, the run without a lease is the only one to start anything
    have hshows : ∀ (r : Option UInt32) (last : List Event), Printed last →
        (LetsRun w (commandLine command) r launched ∨
          fails ∧ resumes launched = 0 ∧ r = some 1) →
        CommandShows w fails command r (pre ++ (new ++ (warned ++ (launched ++ last)))) := by
      intro r last hlast hran
      have hstart : pre ++ (new ++ (warned ++ (launched ++ last))) =
          pre ++ new ++ warned ++ launched ++ last := by
        simp
      have hlease : pre ++ new ++ warned ++ launched ++ last =
          pre ++ new ++ (warned ++ launched ++ last) := by
        simp
      have hbefore : resumes (pre ++ new ++ warned) = 0 := by
        rw [resumes_append, resumes_append, hpre.resumes, hnew.failed error rfl, hwarned.resumes]
      have hpost : ∀ n ∈ warned ++ launched ++ last, n.aside = true :=
        List.forall_mem_append.mpr
          ⟨List.forall_mem_append.mpr ⟨hwarned.aside, haside⟩, hlast.aside⟩
      refine ⟨?_, ?_, fun _ hacquired => ?_⟩
      · exact hpre.lines.append (hnew.lines.append (hwarned.lines.append
          (hruns.lines.append hlast.lines)))
      · rw [hstart]
        refine hran.imp (fun hran => hran.around hbefore hlast.resumes) fun hnone => ?_
        refine ⟨hnone.1, ?_, hnone.2.2⟩
        rw [resumes_append, resumes_append, hbefore, hnone.2.1, hlast.resumes]
      · rw [hstart, hlease] at hacquired ⊢
        have hin := acquired_around hpre.aside hpost hacquired
        exact (hnew.released (by simp) hin).around hpre.aside hpost
    match second with
    | none => exact Writes.pure (hshows none [] .nil (.inl (hruns.ran (by simp))))
    | some (.ok exitCode) =>
      apply Writes.tell
      exact Writes.pure (hshows _ _ printed_one (.inl (hruns.ran (by simp))))
    | some (.error error) =>
      apply Writes.tell
      exact Writes.pure (hshows _ _ printed_one
        (.inr ⟨hfails error rfl, hruns.failed error rfl, rfl⟩))

/-! ## The launched program starts at most once -/

theorem Runs.startsOnce {α : Type} {code : α → UInt32} {command : List (List UInt16)}
    {x : Run (Option (Except Error α))} (h : Runs w code command (result x) (entries x)) :
    StartsOnce x where
  failed := h.failed
  started hne r hr := by
    cases r with
    | error e => exact absurd (h.failed e hr) hne
    | ok a => exact ⟨a, rfl⟩
  once := h.once
  confined := h.confined

end

/-- **The launched program starts at most once, and fails open**: an error is returned only
    where nothing was resumed, so falling back starts one process at most; what is resumed is
    in its job; and a lease is released once, behind the launch. -/
theorem failOpen (w : Answers) (targetName : String) (command : List (List UInt16))
    (polls : Nat) :
    (∀ arguments leased, StartsOnce (launchAndWait w arguments leased polls)) ∧
      StartsOnce (runWrapped w targetName command polls) ∧
      (resumes (entries (runCommand w targetName command polls)) ≤ 1 ∧
        Confined (entries (runCommand w targetName command polls))) ∧
      (result (runWrapped w targetName command polls) ≠ none →
        .acquired ∈ entries (runWrapped w targetName command polls) →
          ReleasedAfterLaunch (entries (runWrapped w targetName command polls))) ∧
      (result (runWrapped w targetName command polls) = none →
        releases (entries (runWrapped w targetName command polls)) = 0) ∧
      (result (runCommand w targetName command polls) ≠ none →
        .acquired ∈ entries (runCommand w targetName command polls) →
          ReleasedAfterLaunch (entries (runCommand w targetName command polls))) := by
  have hwrapped : WrappedShows w command (result (runWrapped w targetName command polls))
      (entries (runWrapped w targetName command polls)) := runWrapped_shows.start
  have hfails : Writes (runUnleased w command polls) fun r _ => ∀ e, r = some (.error e) → True :=
    runUnleased_runs.imp fun _ _ _ _ _ => trivial
  have hcommand : CommandShows w True command (result (runCommand w targetName command polls))
      (entries (runCommand w targetName command polls)) := (runCommand_shows hfails).start
  refine ⟨?_, hwrapped.toRuns.startsOnce, ⟨hcommand.once, hcommand.confined⟩, hwrapped.released,
    hwrapped.waiting, hcommand.released⟩
  intro arguments leased
  have hlaunch : Runs w id arguments (result (launchAndWait w arguments leased polls))
      (entries (launchAndWait w arguments leased polls)) :=
    launchAndWait_runs.start.1
  exact hlaunch.startsOnce

/-- A tree that can be followed no further, and neither be killed: the run ends all the same. -/
def lostTree : Answers where
  processId _ := .ok 7
  connect _ := .ok 16
  writeFile _ := some 8
  readFile _ := some
    ({ magic := protocolMagic, version := protocolVersion, capabilities := 1, result := 0,
       leaseCount := 0, hidHandleCount := 0, lastRevokedHandleCount := 0 }, 24)
  rescanSteamControllers _ := .error .architectureMismatch
  lastOsError _ := "access denied"
  getEnvironmentStrings _ := some [0, 0]
  createProcess _ := some ⟨20, 24⟩
  createJobObject _ := some 28
  assignProcessToJobObject _ := true
  resumeThread _ := 1
  terminateJobObject _ := false
  terminateProcess _ := false
  waitForSingleObject _ := .timeout
  queryInformationJobObject _ := none
  setInformationJobObject _ := false
  getExitCodeProcess _ := none

theorem failOpen_lostTree :
    ReleasedAfterLaunch (entries (runWrapped lostTree "steam.exe" [[97]] 1)) ∧
      StartsOnce (runWrapped lostTree "steam.exe" [[97]] 1) :=
  ⟨(failOpen lostTree "steam.exe" [[97]] 1).2.2.2.1 (by decide) (by decide),
    (failOpen lostTree "steam.exe" [[97]] 1).2.1⟩

/-! ## The wait ends -/

section

variable {w : Answers}

/-- The wait ends with the first query that fails or finds the tree empty. -/
theorem awaitTree_returns {job process : UInt64} (k : Nat) : ∀ j : Journal Event,
    (w.queryInformationJobObject (j.instant + k) = none ∨
      w.queryInformationJobObject (j.instant + k) = some 0) →
    ((awaitTree w job process (k + 1)).run j).1 ≠ none := by
  induction k with
  | zero =>
    intro j h
    rw [Nat.add_zero] at h
    rw [awaitTree, run_bind, run_consult, run_bind, run_record]
    rcases h with h | h
    · rw [h]
      exact Option.some_ne_none _
    · rw [h]
      exact Option.some_ne_none _
  | succ k ih =>
    intro j h
    rw [awaitTree, run_bind, run_consult, run_bind, run_record]
    match hactive : w.queryInformationJobObject j.instant with
    | none => exact Option.some_ne_none _
    | some active =>
      dsimp only
      split
      · exact Option.some_ne_none _
      · exact ih _ (by rwa [Nat.add_right_comm, Nat.add_assoc])

/-- If the queries are bound to fail or to find the tree empty, the launch returns. -/
theorem launchAndWait_returns {arguments : List (List UInt16)} {leased : Bool}
    (h : ∀ i, ∃ k, w.queryInformationJobObject (i + k) = none ∨
      w.queryInformationJobObject (i + k) = some 0) :
    ∃ polls, result (launchAndWait w arguments leased polls) ≠ none := by
  have hprocess : ∀ process j, ∃ polls, ((runProcess w process polls).run j).1 ≠ none := by
    intro process j
    obtain ⟨k, hk⟩ := h ((startInJob w process).run j).2.instant
    refine ⟨k + 1, ?_⟩
    unfold runProcess
    rw [run_bind]
    match ((startInJob w process).run j).1 with
    | .error e => exact Option.some_ne_none _
    | .ok job =>
      show Option.map Except.ok _ ≠ none
      rw [Ne, Option.map_eq_none_iff]
      exact awaitTree_returns k _ hk
  unfold result launchAndWait
  simp only [run_bind]
  match ((childEnvironment w leased).run (.start Event)).1 with
  | .error e => exact ⟨0, Option.some_ne_none _⟩
  | .ok environment =>
    simp only [run_bind, run_consult]
    match w.createProcess _ with
    | none => exact ⟨0, Option.some_ne_none _⟩
    | some process =>
      simp only [run_bind, run_record]
      exact hprocess process _

end

end Launch
end SteamInputLease
