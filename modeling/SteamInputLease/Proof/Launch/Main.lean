import SteamInputLease.Proof.Launch.Cli

/-!
# What the launcher starts

The command behind the separator is what every attempt creates a process of, with a lease or
without, and the code of the process that was let run is what `main` exits with. Where Windows lets
a process start, the payload cannot keep it from starting.

The first statement holds of every run and is `Run` and `Cli` put together: the arguments are read,
and what is then run is run for the command they gave. The second is about progress, and so it needs
something of the environment, that Windows lets a process start wherever it is asked to; of the
payload, of Steam and of the lease it needs nothing, because the attempt without a lease comes
behind any failure of the one with it. It is followed through the start alone, and that the program
was let run once and not twice is the first statement again.
-/

namespace SteamInputLease
namespace Launch

open Lib

section

variable {w : Answers} {command : List (List UInt16)} {polls : Nat}

/-! ## Where Windows lets a process start -/

theorem startInJob_starts (hw : LetsStart w) (process : ProcessInformation) :
    Writes (startInJob w process) fun r _ => ∃ job, r = .ok job := by
  apply Writes.askAt
  intro i
  obtain ⟨job, hjob⟩ := Option.isSome_iff_exists.mp (hw.createJobObject i)
  rw [hjob]
  apply Writes.askAt
  intro i
  rw [hw.assignProcessToJobObject i]
  apply Writes.tell
  apply Writes.askAt
  intro i
  rw [if_neg (hw.resumeThread i)]
  apply Writes.tell
  exact Writes.pure ⟨job, rfl⟩

/-- The program without a lease inherits the environment, so nothing else is asked for. -/
theorem runUnleased_starts (hw : LetsStart w) (hcommand : wideCommand command = .ok command) :
    Writes (runUnleased w command polls) fun r _ => ∀ e, r = some (.error e) → False := by
  have hinherits : childEnvironment w false = pure (.ok none) := rfl
  rw [runUnleased, hcommand]
  show Writes (launchAndWait w command false polls) _
  unfold launchAndWait
  rw [hinherits, pure_bind]
  apply Writes.askAt
  intro i
  obtain ⟨process, hprocess⟩ := Option.isSome_iff_exists.mp (hw.createProcess i)
  rw [hprocess]
  apply Writes.tell
  apply Writes.bind (startInJob_starts hw process)
  intro r _ ⟨job, hr⟩
  subst hr
  apply Writes.bind awaitTree_follows
  intro exitCode _ _
  refine Writes.pure fun e he => ?_
  cases exitCode <;> cases he

/-- Whatever the payload answers, and whatever became of the attempt with a lease. -/
theorem runCommand_starts {targetName : String} (hw : LetsStart w)
    (hcommand : wideCommand command = .ok command) :
    Writes (runCommand w targetName command polls) (LetsRun w (commandLine command)) :=
  (runCommand_shows (runUnleased_starts hw hcommand)).imp fun _ _ h =>
    h.ran.resolve_right fun hfails => hfails.1

end

/-! ## The launcher -/

section

variable {w : LauncherAnswers} {arguments : List (List UInt16)} {polls : Nat}

/-- A command line that asks for a command is plain options, the separator and the command. -/
theorem Reads.command {default : Ffi.ClientOptions} {options : Ffi.ClientOptions}
    {command : List (List UInt16)} (h : Reads default arguments (.ok ⟨options, .run command⟩)) :
    ∃ items, Plain items ∧ arguments = items.flatMap Item.words ++ word "--" :: command := by
  obtain ⟨items, rest, tail, htail, rfl, hresult⟩ := h
  cases tail with
  | error e => cases hresult
  | ok given =>
    have hconclude : conclude default items given = .ok ⟨options, .run command⟩ := hresult.symm
    rw [conclude] at hconclude
    split at hconclude
    · cases hconclude
    rw [modeOf] at hconclude
    split at hconclude
    · cases hconclude
    next hhelp =>
    split at hconclude
    · cases hconclude
    next hstatus =>
    split at hconclude
    · cases hconclude
    next hrescan =>
    split at hconclude
    · cases hconclude
    next hgiven =>
    cases hconclude
    refine ⟨items, fun item hitem => ?_, ?_⟩
    · simp only [List.any_eq_true, not_exists, not_and, Bool.not_eq_true] at hhelp hstatus hrescan
      exact ⟨hhelp item hitem, hstatus item hitem, hrescan item hitem⟩
    · cases given with
      | none => exact absurd rfl hgiven
      | some given =>
        cases htail
        rfl

/-- Nothing of the command is run. -/
theorem mainShows_printed {r : Option UInt32} {new : List Event} (h : Printed new)
    (hr : ∀ code, r = some code → code = 0 ∨ code = 1) : MainShows w arguments r new where
  created line environment process hmem := by
    obtain ⟨text, heq⟩ := h _ hmem
    cases heq
  once := by
    rw [h.resumes]
    exact Nat.zero_le 1
  confined := confined_none h.resumes
  exitCode hone := by
    rw [h.resumes] at hone
    cases hone
  failed code hcode _ := hr code hcode

theorem run_diagnoses {invocation : Invocation} (hmode : ∀ command, invocation.mode ≠ .run command) :
    Writes (run w invocation polls) fun r new => Printed new ∧
      ∀ code, r = some (.ok code) → code = 0 := by
  have hzero : ∀ code : UInt32, (some (.ok 0) : Option (Except String UInt32)) = some (.ok code) →
      code = 0 := by
    rintro _ ⟨⟩
    rfl
  obtain ⟨options, mode⟩ := invocation
  unfold run
  cases mode with
  | help =>
    apply Writes.tell
    exact Writes.pure ⟨printed_one, hzero⟩
  | status =>
    apply Writes.ask
    intro answer
    cases answer with
    | error error => exact Writes.pure ⟨.nil, nofun⟩
    | ok status =>
      apply Writes.tell
      exact Writes.pure ⟨printed_one, hzero⟩
  | rescan =>
    apply Writes.ask
    intro answer
    cases answer with
    | error error => exact Writes.pure ⟨.nil, nofun⟩
    | ok result =>
      apply Writes.tell
      exact Writes.pure ⟨printed_one, hzero⟩
  | run command => exact absurd rfl (hmode command)

/-- The run of a command, which has no error of its own. -/
theorem run_commands {options : Ffi.ClientOptions} {command : List (List UInt16)}
    {P : Option UInt32 → List Event → Prop}
    (h : Writes (runCommand w.toAnswers (String.ofList options.targetName) command polls) P) :
    Writes (run w ⟨options, .run command⟩ polls) fun r new =>
      ∃ exitCode, r = exitCode.map .ok ∧ P exitCode new := by
  unfold run
  apply Writes.bind h
  intro exitCode new hnew
  refine Writes.pure ⟨exitCode, rfl, ?_⟩
  rwa [List.append_nil]

theorem main_shows : Writes (main w arguments polls) (MainShows w arguments) := by
  unfold main
  cases hparse : parse w.defaultOptions arguments with
  | error error =>
    apply Writes.tell
    refine Writes.pure (mainShows_printed printed_one ?_)
    rintro _ ⟨⟩
    exact .inr rfl
  | ok invocation =>
    obtain ⟨options, mode⟩ := invocation
    by_cases hmode : ∃ command, mode = .run command
    -- a diagnosis, or nothing, is asked for
    case neg =>
      rw [not_exists] at hmode
      apply Writes.bind (run_diagnoses hmode)
      intro r new ⟨hprinted, hzero⟩
      rcases r with _ | error | code
      · refine Writes.pure ?_
        rw [List.append_nil]
        exact mainShows_printed hprinted nofun
      · apply Writes.tell
        refine Writes.pure (mainShows_printed ?_ ?_)
        · intro n hn
          exact (List.mem_append.mp hn).elim (hprinted n) (printed_one n)
        · rintro _ ⟨⟩
          exact .inr rfl
      · refine Writes.pure ?_
        rw [List.append_nil]
        refine mainShows_printed hprinted ?_
        rintro _ ⟨⟩
        exact .inl (hzero code rfl)
    case pos =>
      obtain ⟨command, rfl⟩ := hmode
      obtain ⟨items, hplain, harguments⟩ := ((parse_reads _ _ _).mp hparse).command
      have hfails : Writes (runUnleased w.toAnswers command polls) fun r _ =>
          ∀ e, r = some (.error e) → True :=
        runUnleased_runs.imp fun _ _ _ _ _ => trivial
      apply Writes.bind (run_commands (runCommand_shows hfails))
      intro r new ⟨exitCode, hr, hshows⟩
      subst hr
      have hmain : MainShows w arguments exitCode new := by
        refine ⟨fun line environment process hmem => ?_, hshows.once, hshows.confined,
          fun hone => ?_, fun code hcode hnone => ?_⟩
        · exact ⟨items, command, hplain, harguments, hshows.lines line environment process hmem⟩
        -- the exit code is that of the process that was let run, if one was
        · rcases hshows.ran with hran | ⟨-, hnone, -⟩
          · exact ⟨_, hran⟩
          · omega
        · rcases hshows.ran with hran | ⟨-, -, hr⟩
          · exact absurd hran.resumes (by omega)
          · exact .inr (Option.some.inj (hcode.symm.trans hr))
      cases exitCode with
      | none =>
        refine Writes.pure ?_
        rwa [List.append_nil]
      | some code =>
        refine Writes.pure ?_
        rwa [List.append_nil]

/-- Steam is not running, and no environment can be had; Windows lets a process start. -/
def withoutSteam : LauncherAnswers where
  toAnswers := { lostTree with
    processId := fun _ => .error .architectureMismatch
    getEnvironmentStrings := fun _ => none }
  defaultOptions := ⟨"steam.exe".toList, [], 10000, false⟩
  status _ := .error .architectureMismatch
  rescan _ := .error .architectureMismatch
  version := "0.1.0"

end

end Launch
end SteamInputLease
