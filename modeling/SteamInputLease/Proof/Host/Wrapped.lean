import SteamInputLease.Host.Wrapped
import SteamInputLease.Proof.Host.Client

/-!
# The process under a lease

What becomes of the process is followed call by call, beside what is in hand. The lease is asked for
before the first of these calls and released behind the last, so it covers the process.

`Fate` is a small machine over the calls of the launch: a process is created suspended, put into a
job, let run, killed or seen to end, and a job may be set to kill what it holds. Each function of
the launch is followed through it, with a postcondition that names the fates in which it can leave
the process by the result it returns (`ProcessStarts`, `TreeEnds`, `ProcessEnds`). Refusals are part
of that: Windows may refuse to kill, and then nothing more can be promised than that it was asked. A
launch that fails must not have let anything run. The machine alone does not show it, as it forgets
the past, so the resumptions are counted apart (`Unresumed`). At the end the log of the whole run is
cut into the requests, the calls of the library and those of the launch, and the three parts are put
in order.
-/

namespace SteamInputLease
namespace Host

open Lib Protocol
open Launch (Error ReleaseOutcome WrappedRun wideCommand resumeFailed errorProcessAborted)

section

variable {held : Multiset LaunchHandle}

/-! ## Calls that change nothing -/

theorem launched_mem {handle : UInt64} (h : launched handle ≤ held) :
    ∀ x ∈ launched handle, x ∈ held := fun _ hx => Multiset.mem_of_le h hx

/-- The calls that do nothing to a process. -/
def LaunchCall.idle : LaunchCall → Prop
  | .getEnvironmentStrings | .freeEnvironmentStrings _ | .createJobObject | .waitForSingleObject _
  | .getExitCodeProcess _ | .sleep | .lastOsError => True
  | _ => False

theorem Fate.next_idle {c : LaunchCall} (h : c.idle) (f : Fate) (a : LaunchAnswer) :
    f.next (c, a) = f := by
  cases c <;> first | exact h.elim | (cases f <;> rfl)

/-- The job may not kill its processes when it is closed. -/
def Fate.unarmed : Fate → Prop
  | .running _ _ armed => armed = false
  | _ => True

theorem Fate.next_close {f : Fate} (h : f.unarmed) (handle : UInt64) (a : LaunchAnswer) :
    f.next (.closeHandle handle, a) = f := by
  cases f with
  | running process job armed =>
    cases h
    rfl
  | _ => rfl

theorem Fate.foldl_close {log : List (LaunchCall × LaunchAnswer)} {handle : UInt64}
    (hlog : ∀ e ∈ log, e.1 = .closeHandle handle) {f : Fate} (h : f.unarmed) :
    log.foldl Fate.next f = f := by
  induction log with
  | nil => rfl
  | cons e log ih =>
    obtain ⟨c, a⟩ := e
    obtain rfl : c = .closeHandle handle := hlog (c, a) List.mem_cons_self
    rw [List.foldl_cons, Fate.next_close h]
    exact ih fun e he => hlog e (List.mem_cons_of_mem _ he)

@[simp] theorem Fate.foldl_over (log : List (LaunchCall × LaunchAnswer)) :
    log.foldl Fate.next .over = .over := by
  induction log with
  | nil => rfl
  | cons e log ih => exact ih

/-! ## Calls that move a process -/

section

variable {process thread job : UInt64} {a : LaunchAnswer}

theorem Fate.next_uncreated {line : List UInt16} {environment : Option (List UInt16)}
    (h : a.ok = false) : Fate.absent.next (.createProcess line environment, a) = .absent :=
  if_neg (by simp [h])

/-- A suspended process goes into the job. -/
theorem Fate.next_assigned {before : Option UInt64} (h : a.ok = true) :
    (suspended process thread before).next (.assignProcessToJobObject job process, a) =
      .suspended process thread (some job) := if_pos ⟨h, rfl⟩

theorem Fate.next_unassigned {before : Option UInt64} (h : a.ok = false) :
    (suspended process thread before).next (.assignProcessToJobObject job process, a) =
      .suspended process thread before := if_neg (by simp [h])

/-- It runs, in the job it is in. -/
theorem Fate.next_resumed {job : Option UInt64} (h : a.value ≠ resumeFailed) :
    (suspended process thread job).next (.resumeThread thread, a) = .running process job false :=
  if_pos ⟨h, rfl⟩

theorem Fate.next_unresumed {job : Option UInt64} (h : a.value = resumeFailed) :
    (suspended process thread job).next (.resumeThread thread, a) =
      .suspended process thread job := if_neg (by simp [h])

theorem Fate.next_killed {job : Option UInt64} (h : a.ok = true) :
    (suspended process thread job).next (.terminateProcess process, a) = .over := if_pos ⟨h, rfl⟩

theorem Fate.next_unkilled {job : Option UInt64} (h : a.ok = false) :
    (suspended process thread job).next (.terminateProcess process, a) =
      .suspended process thread job := if_neg (by simp [h])

theorem Fate.next_jobKilled (h : a.ok = true) :
    (suspended process thread (some job)).next (.terminateJobObject job, a) = .over :=
  if_pos ⟨h, rfl⟩

theorem Fate.next_jobUnkilled (h : a.ok = false) :
    (suspended process thread (some job)).next (.terminateJobObject job, a) =
      .suspended process thread (some job) := if_neg (by simp [h])

/-- With its job the whole tree is over. -/
theorem Fate.next_treeKilled {armed : Bool} (h : a.ok = true) :
    (running process (some job) armed).next (.terminateJobObject job, a) = .over := by
  cases armed <;> exact if_pos ⟨h, rfl⟩

theorem Fate.next_treeUnkilled (h : a.ok = false) :
    (running process (some job) false).next (.terminateJobObject job, a) =
      .running process (some job) false := if_neg (by simp [h])

theorem Fate.next_armed (h : a.ok = true) :
    (running process (some job) false).next (.setInformationJobObject job, a) =
      .running process (some job) true := if_pos ⟨h, rfl⟩

/-- The last handle of a job that kills its processes is closed. -/
theorem Fate.next_closed :
    (running process (some job) true).next (.closeHandle job, a) = .over := if_pos rfl

/-- The job has no process left. -/
theorem Fate.next_ended (h : a.ok = true) (hv : a.value = 0) :
    (running process (some job) false).next (.queryInformationJobObject job, a) = .over :=
  if_pos ⟨h, hv, rfl⟩

theorem Fate.next_unended (h : ¬(a.ok = true ∧ a.value = 0)) :
    (running process (some job) false).next (.queryInformationJobObject job, a) =
      .running process (some job) false := if_neg fun hn => h ⟨hn.1, hn.2.1⟩

end

theorem dropLaunched_guards (handle : UInt64) :
    launchCustody.Guards (fun log _ rest => rest = held ∧
        (∀ e ∈ log, e.1 = .closeHandle handle) ∧
        (handle ≠ 0 → handle ≠ invalidHandle → ∃ a, log = [(.closeHandle handle, a)]))
      (dropLaunched handle) (held + launched handle) := by
  unfold dropLaunched launched
  split
  next h =>
    refine .pure ⟨add_zero _, List.forall_mem_nil _, fun h₀ hi => ?_⟩
    exact (h.elim h₀ hi).elim
  · refine .spend (by simp [launchCustody]) (fun _ => rfl) (fun _ => rfl) fun a => .pure ⟨rfl, ?_⟩
    exact ⟨fun e he => by rw [List.mem_singleton.mp he], fun _ _ => ⟨a, rfl⟩⟩

theorem launchError_guards (operation : String) :
    launchCustody.Guards (fun log _ rest => rest = held ∧ ∃ a, log = [(.lastOsError, a)])
      (launchError operation) held :=
  .look (by simp [launchCustody]) (fun _ => rfl) (fun _ => rfl) fun a => .pure ⟨rfl, a, rfl⟩

/-! ## Up to the running process -/

/-- A suspended process is killed, unless it refused to be. -/
def Killed (process thread : UInt64) (job : Option UInt64)
    (log : List (LaunchCall × LaunchAnswer)) : Prop :=
  log.foldl Fate.next (.suspended process thread job) = .over ∨
    log.foldl Fate.next (.suspended process thread job) = .suspended process thread job ∧ Stuck log

/-- `abort_unstarted_process` kills it, and says in the error if it could not. -/
theorem abortUnstartedProcess_guards {process : UInt64} (hp : launched process ≤ held)
    (cause : Error) (thread : UInt64) (job : Option UInt64) :
    launchCustody.Guards (fun log _ rest => rest = held ∧ Killed process thread job log)
      (abortUnstartedProcess process cause) held := by
  refine .look (launched_mem hp) (fun _ => rfl) (fun _ => rfl) fun terminated => ?_
  split
  next hno =>
    have hno : terminated.ok = false := by simpa using hno
    refine .look (by simp [launchCustody]) (fun _ => rfl) (fun _ => rfl) fun last => .pure ⟨rfl, ?_⟩
    refine .inr ⟨?_, process, terminated, List.mem_cons_self, hno⟩
    show Fate.next (Fate.next (.suspended process thread job) (.terminateProcess process,
      terminated)) (.lastOsError, last) = _
    rw [Fate.next_unkilled hno]
    rfl
  next hyes =>
    have hyes : terminated.ok = true := by simpa using hyes
    have hover : ∀ log : List (LaunchCall × LaunchAnswer),
        Killed process thread job ((.terminateProcess process, terminated) :: log) := by
      refine fun log => .inl ?_
      rw [List.foldl_cons, Fate.next_killed hyes, Fate.foldl_over]
    refine .look (launched_mem hp) (fun _ => rfl) (fun _ => rfl) fun waited => ?_
    split
    · exact .pure ⟨rfl, hover _⟩
    split
    · exact .pure ⟨rfl, hover _⟩
    · exact .look (by simp [launchCustody]) (fun _ => rfl) (fun _ => rfl) fun _ =>
        .pure ⟨rfl, hover _⟩

theorem closing_nil (handle : UInt64) :
    ∀ e ∈ ([] : List (LaunchCall × LaunchAnswer)), e.1 = .closeHandle handle :=
  List.forall_mem_nil _

/-- What becomes of a process that is suspended in no job, by the result of its start. -/
def ProcessStarts (process thread : UInt64) (log : List (LaunchCall × LaunchAnswer)) :
    Except Error UInt64 → Prop
  | .error _ => (∃ job, log.foldl Fate.next (.suspended process thread none) =
      .suspended process thread job) ∧ Stuck log ∨
      log.foldl Fate.next (.suspended process thread none) = .over
  | .ok job => log.foldl Fate.next (.suspended process thread none) =
      .running process (some job) false ∧
      ∃ a, (.createJobObject, a) ∈ log ∧ a.handle = job ∧ job ≠ 0

/-- The calls before the process is killed, and the closing of the job behind them. -/
theorem ProcessStarts.killed {process thread handle : UInt64} {error : Error}
    {log closing : List (LaunchCall × LaunchAnswer)} (job : Option UInt64)
    (before : List (LaunchCall × LaunchAnswer))
    (hbefore : before.foldl Fate.next (.suspended process thread none) =
      .suspended process thread job)
    (hlog : Killed process thread job log) (hc : ∀ e ∈ closing, e.1 = .closeHandle handle) :
    ProcessStarts process thread (before ++ (log ++ closing)) (.error error) := by
  have hfold : (before ++ (log ++ closing)).foldl Fate.next (.suspended process thread none) =
      closing.foldl Fate.next (log.foldl Fate.next (.suspended process thread job)) := by
    rw [List.foldl_append, List.foldl_append, hbefore]
  rcases hlog with hover | ⟨hstill, p, terminated, hmem, hno⟩
  · refine .inr ?_
    rw [hfold, hover, Fate.foldl_over]
  · refine .inl ⟨⟨job, ?_⟩, p, terminated, ?_, hno⟩
    · rw [hfold, hstill, Fate.foldl_close hc (f := .suspended process thread job) trivial]
    · exact List.mem_append_right _ (List.mem_append_left _ hmem)

theorem abortInJob_guards {job process : UInt64} (hp : launched process ≤ held)
    (hj : launched job ≤ held) (thread : UInt64) :
    launchCustody.Guards (fun log _ rest => rest = held ∧ Killed process thread (some job) log)
      (abortInJob job process) held := by
  refine .bind (launchError_guards _) fun log error rest h => ?_
  obtain ⟨rfl, last, rfl⟩ := h
  refine .look (launched_mem hj) (fun _ => rfl) (fun _ => rfl) fun terminated => ?_
  split
  next hno =>
    have hno : terminated.ok = false := by simpa using hno
    refine (abortUnstartedProcess_guards hp error thread (some job)).imp fun log _ rest h => ?_
    obtain ⟨rfl, hlog⟩ := h
    refine ⟨rfl, hlog.imp (fun hover => ?_) fun hstill => ⟨?_, ?_⟩⟩
    · show log.foldl Fate.next (Fate.next (.suspended process thread (some job))
        (.terminateJobObject job, terminated)) = _
      rw [Fate.next_jobUnkilled hno, hover]
    · show log.foldl Fate.next (Fate.next (.suspended process thread (some job))
        (.terminateJobObject job, terminated)) = _
      rw [Fate.next_jobUnkilled hno, hstill.1]
    · obtain ⟨p, a, hmem, ha⟩ := hstill.2
      exact ⟨p, a, by simp [hmem], ha⟩
  next hyes =>
    have hyes : terminated.ok = true := by simpa using hyes
    refine .look (launched_mem hp) (fun _ => rfl) (fun _ => rfl) fun waited => ?_
    have hover : ∀ waited : LaunchAnswer, Killed process thread (some job)
        [(.lastOsError, last), (.terminateJobObject job, terminated),
          (.waitForSingleObject process, waited)] := by
      refine fun waited => .inl ?_
      show Fate.next (Fate.next (.suspended process thread (some job))
        (.terminateJobObject job, terminated)) (.waitForSingleObject process, waited) = _
      rw [Fate.next_jobKilled hyes]
      rfl
    split <;> exact .pure ⟨rfl, hover waited⟩

/-- Where the thread cannot be resumed, the process is killed with its job. -/
theorem resumeInJob_guards {job process thread : UInt64} {created : LaunchAnswer}
    (hp : launched process + launched thread ≤ held) (hcreated : created.handle = job)
    (hjob : job ≠ 0) :
    launchCustody.Guards (fun log r rest =>
        ProcessStarts process thread ((.createJobObject, created) :: log) r ∧
        (∀ error, r = .error error → rest = held) ∧ ∀ j, r = .ok j → rest = held + launched j)
      (resumeInJob job process thread) (held + launched job) := by
  have hpj : launched process ≤ held + launched job :=
    ((Multiset.le_add_right _ _).trans hp).trans (Multiset.le_add_right _ _)
  have htj : launched thread ≤ held + launched job :=
    ((Multiset.le_add_left _ _).trans hp).trans (Multiset.le_add_right _ _)
  have hjj : launched job ≤ held + launched job := Multiset.le_add_left _ _
  refine .look ?_ (fun _ => rfl) (fun _ => rfl) fun assigned => ?_
  · intro x hx
    exact (Multiset.mem_add.mp hx).elim (launched_mem hjj x) (launched_mem hpj x)
  split
  next hno =>
    have hno : assigned.ok = false := by simpa using hno
    refine .bind (launchError_guards _) fun log error rest h => ?_
    obtain ⟨rfl, last, rfl⟩ := h
    refine .bind (abortUnstartedProcess_guards hpj error thread none) fun log error rest h => ?_
    obtain ⟨rfl, hkilled⟩ := h
    refine .bind (dropLaunched_guards job) fun closing _ rest h => ?_
    obtain ⟨rfl, hc, -⟩ := h
    refine .pure ⟨?_, fun _ _ => rfl, fun _ h => by cases h⟩
    rw [List.append_nil]
    -- the process never got into the job, so it is killed by itself
    refine ProcessStarts.killed none [(.createJobObject, created),
      (.assignProcessToJobObject job process, assigned), (.lastOsError, last)] ?_ hkilled hc
    show Fate.next (Fate.next (.suspended process thread none)
      (.assignProcessToJobObject job process, assigned)) (.lastOsError, last) = _
    rw [Fate.next_unassigned hno]
    rfl
  next hyes =>
    have hyes : assigned.ok = true := by simpa using hyes
    refine .look (launched_mem htj) (fun _ => rfl) (fun _ => rfl) fun previous => ?_
    split
    next hfailed =>
      refine .bind (abortInJob_guards hpj hjj thread) fun log error rest h => ?_
      obtain ⟨rfl, hkilled⟩ := h
      refine .bind (dropLaunched_guards job) fun closing _ rest h => ?_
      obtain ⟨rfl, hc, -⟩ := h
      refine .pure ⟨?_, fun _ _ => rfl, fun _ h => by cases h⟩
      rw [List.append_nil]
      -- it is in the job, which is terminated
      refine ProcessStarts.killed (some job) [(.createJobObject, created),
        (.assignProcessToJobObject job process, assigned), (.resumeThread thread, previous)] ?_
        hkilled hc
      show Fate.next (Fate.next (.suspended process thread none)
        (.assignProcessToJobObject job process, assigned)) (.resumeThread thread, previous) = _
      rw [Fate.next_assigned hyes, Fate.next_unresumed hfailed]
    next hran =>
      refine .pure ⟨⟨?_, created, List.mem_cons_self, hcreated, hjob⟩, (fun _ h => by cases h),
        fun j h => ?_⟩
      · show Fate.next (Fate.next (.suspended process thread none)
          (.assignProcessToJobObject job process, assigned)) (.resumeThread thread, previous) = _
        rw [Fate.next_assigned hyes, Fate.next_resumed hran]
      · cases h
        rfl

/-- The job is held where the process runs in it, and is closed otherwise. -/
theorem startInJob_guards {process thread : UInt64}
    (hp : launched process + launched thread ≤ held) :
    launchCustody.Guards (fun log r rest => ProcessStarts process thread log r ∧
        (∀ error, r = .error error → rest = held) ∧ ∀ j, r = .ok j → rest = held + launched j)
      (startInJob process thread) held := by
  refine .receive (by simp [launchCustody]) (fun _ => rfl) fun created => ?_
  rw [show launchCustody.gives .createJobObject created = launched created.handle from rfl]
  split
  next hnull =>
    rw [show launched created.handle = 0 from if_pos (.inl hnull), add_zero]
    refine .bind (launchError_guards _) fun log error rest h => ?_
    obtain ⟨rfl, last, rfl⟩ := h
    refine .bind (abortUnstartedProcess_guards ((Multiset.le_add_right _ _).trans hp) error thread
      none) fun log error rest h => ?_
    obtain ⟨rfl, hkilled⟩ := h
    refine .pure ⟨?_, fun _ _ => rfl, fun _ h => by cases h⟩
    exact ProcessStarts.killed none [(.createJobObject, created), (.lastOsError, last)] rfl hkilled
      (closing_nil 0)
  next hjob => exact resumeInJob_guards hp rfl hjob

/-! ## The tree -/

/-- What becomes of a process that runs in its job. -/
def TreeEnds (process job : UInt64) (log : List (LaunchCall × LaunchAnswer)) (exitCode : UInt32) :
    Prop :=
  log.foldl Fate.next (.running process (some job) false) = .over ∨
    Refused log ∧ exitCode = errorProcessAborted

theorem Refused.mono {log more : List (LaunchCall × LaunchAnswer)} (h : Refused log)
    (hsub : ∀ e ∈ log, e ∈ more) : Refused more := by
  obtain ⟨job, terminated, limited, ht, hno, hl, hno'⟩ := h
  exact ⟨job, terminated, limited, hsub _ ht, hno, hsub _ hl, hno'⟩

theorem Stuck.mono {log more : List (LaunchCall × LaunchAnswer)} (h : Stuck log)
    (hsub : ∀ e ∈ log, e ∈ more) : Stuck more := by
  obtain ⟨process, terminated, ht, hno⟩ := h
  exact ⟨process, terminated, hsub _ ht, hno⟩

/-- The tree is killed, or will be with the job, unless the job refused both. -/
theorem abortTree_guards {job process : UInt64} (hp : launched process ≤ held)
    (hj : launched job ≤ held) :
    launchCustody.Guards (fun log _ rest => rest = held ∧
        (log.foldl Fate.next (.running process (some job) false) = .over ∨
          log.foldl Fate.next (.running process (some job) false) =
            .running process (some job) true ∨
          Refused log))
      (abortTree job process) held := by
  refine .look (launched_mem hj) (fun _ => rfl) (fun _ => rfl) fun terminated => ?_
  split
  next hno =>
    have hno : terminated.ok = false := by simpa using hno
    refine .look (launched_mem hj) (fun _ => rfl) (fun _ => rfl) fun limited => ?_
    split
    next hno' =>
      have hno' : limited.ok = false := by simpa using hno'
      refine .look (launched_mem hp) (fun _ => rfl) (fun _ => rfl) fun killed => .pure ⟨rfl, ?_⟩
      exact .inr (.inr ⟨job, terminated, limited, by simp, hno, by simp, hno'⟩)
    next hyes =>
      have hyes : limited.ok = true := by simpa using hyes
      refine .pure ⟨rfl, .inr (.inl ?_)⟩
      show Fate.next (Fate.next (.running process (some job) false)
        (.terminateJobObject job, terminated)) (.setInformationJobObject job, limited) = _
      rw [Fate.next_treeUnkilled hno, Fate.next_armed hyes]
  next hyes =>
    have hyes : terminated.ok = true := by simpa using hyes
    exact .pure ⟨rfl, .inl (Fate.next_treeKilled hyes)⟩

/-- Where the wait returns, its job is closed, and the tree is over or was given up. -/
theorem awaitTree_guards {job process : UInt64} (hp : launched process ≤ held) (polls : Nat) :
    launchCustody.Guards (fun log r rest => ∀ exitCode, r = some exitCode → rest = held ∧
        (job ≠ 0 → job ≠ invalidHandle → TreeEnds process job log exitCode))
      (awaitTree job process polls) (held + launched job) := by
  have hj : launched job ≤ held + launched job := Multiset.le_add_left _ _
  have hpj : launched process ≤ held + launched job := hp.trans (Multiset.le_add_right _ _)
  induction polls with
  | zero => exact .pure fun _ h => by cases h
  | succ polls ih =>
    refine .look (launched_mem hj) (fun _ => rfl) (fun _ => rfl) fun accounting => ?_
    split
    next hno =>
      have hno : accounting.ok = false := by simpa using hno
      -- the job cannot be asked: the tree is aborted and its job dropped
      have hnext : Fate.next (.running process (some job) false)
          (.queryInformationJobObject job, accounting) = .running process (some job) false :=
        Fate.next_unended fun h => Bool.false_ne_true (hno.symm.trans h.1)
      refine .bind (abortTree_guards hpj hj) fun log _ rest h => ?_
      obtain ⟨rfl, hlog⟩ := h
      refine .bind (dropLaunched_guards job) fun closing _ rest h => ?_
      obtain ⟨rfl, -, hclosed⟩ := h
      refine .look (launched_mem hp) (fun _ => rfl) (fun _ => rfl) fun waited => .pure ?_
      intro exitCode hr
      obtain rfl : errorProcessAborted = exitCode := by simpa using hr
      refine ⟨rfl, fun h₀ hi => ?_⟩
      obtain ⟨closed, rfl⟩ := hclosed h₀ hi
      have hfold : ∀ tail : List (LaunchCall × LaunchAnswer),
          ((.queryInformationJobObject job, accounting) :: (log ++ tail)).foldl Fate.next
            (.running process (some job) false) =
          tail.foldl Fate.next (log.foldl Fate.next (.running process (some job) false)) := by
        intro tail
        rw [List.foldl_cons, hnext, List.foldl_append]
      rcases hlog with hover | harmed | hrefused
      · refine .inl ?_
        rw [hfold, hover, Fate.foldl_over]
      · refine .inl ?_
        rw [hfold, harmed]
        show Fate.next (Fate.next (.running process (some job) true) (.closeHandle job, closed))
          (.waitForSingleObject process, waited) = _
        rw [Fate.next_closed]
        rfl
      · refine .inr ⟨hrefused.mono fun e he => ?_, rfl⟩
        exact List.mem_cons_of_mem _ (List.mem_append_left _ he)
    next hyes =>
      have hyes : accounting.ok = true := by simpa using hyes
      split
      next hzero =>
        -- no process is left in the job
        have hnext : Fate.next (.running process (some job) false)
            (.queryInformationJobObject job, accounting) = .over := Fate.next_ended hyes hzero
        refine .look (launched_mem hpj) (fun _ => rfl) (fun _ => rfl) fun code => ?_
        refine .bind (dropLaunched_guards job) fun closing _ rest h => .pure ?_
        obtain ⟨rfl, -, -⟩ := h
        refine fun exitCode _ => ⟨rfl, fun _ _ => .inl ?_⟩
        rw [List.foldl_cons, hnext, Fate.foldl_over]
      next hsome =>
        -- the tree still runs: one more round, from the same state of the process
        have hnext : Fate.next (.running process (some job) false)
            (.queryInformationJobObject job, accounting) = .running process (some job) false :=
          Fate.next_unended fun h => hsome h.2
        refine .look (by simp [launchCustody]) (fun _ => rfl) (fun _ => rfl) fun slept => ?_
        refine ih.imp fun log r rest h exitCode hr => ?_
        obtain ⟨rfl, htree⟩ := h exitCode hr
        refine ⟨rfl, fun h₀ hi => (htree h₀ hi).imp (fun hover => ?_) fun hrefused => ?_⟩
        · rw [List.foldl_cons, hnext]
          exact hover
        · refine ⟨hrefused.1.mono fun e he => ?_, hrefused.2⟩
          exact List.mem_cons_of_mem _ (List.mem_cons_of_mem _ he)

/-! ## The launch -/

/-- What has become of a process that was created, where the launch returned. -/
def ProcessEnds (process thread : UInt64) (log : List (LaunchCall × LaunchAnswer)) :
    Except Error UInt32 → Prop
  | .error _ => log.foldl Fate.next (.suspended process thread none) = .over ∨
      (∃ job, log.foldl Fate.next (.suspended process thread none) =
        .suspended process thread job) ∧ Stuck log
  | .ok exitCode => JobsValid log → log.foldl Fate.next (.suspended process thread none) = .over ∨
      Refused log ∧ exitCode = errorProcessAborted

/-- The thread and the process are closed wherever the run ends. -/
theorem runProcess_guards (process thread : UInt64) (polls : Nat) :
    launchCustody.Guards (fun log r rest => ∀ ended, r = some ended → rest = held ∧
        ProcessEnds process thread log ended)
      (runProcess process thread polls) (held + (launched process + launched thread)) := by
  refine .bind (startInJob_guards (Multiset.le_add_left _ _)) fun log started rest h => ?_
  obtain ⟨hlog, herror, hok⟩ := h
  cases started with
  | error error =>
    obtain rfl := herror error rfl
    rw [← add_assoc]
    refine .bind (dropLaunched_guards thread) fun closing _ rest h => ?_
    obtain ⟨rfl, hc, -⟩ := h
    refine .bind (dropLaunched_guards process) fun closing' _ rest h => .pure ?_
    obtain ⟨rfl, hc', -⟩ := h
    intro ended hended
    cases hended
    refine ⟨rfl, ?_⟩
    rw [List.append_nil]
    rcases hlog with ⟨⟨job, hstill⟩, hstuck⟩ | hover
    · refine .inr ⟨⟨job, ?_⟩, hstuck.mono fun e he => List.mem_append_left _ he⟩
      -- the two handles are closed behind it, which changes no fate that is not armed to kill
      have hunarmed : (Fate.suspended process thread job).unarmed := trivial
      rw [List.foldl_append, hstill, List.foldl_append, Fate.foldl_close hc hunarmed,
        Fate.foldl_close hc' hunarmed]
    · refine .inl ?_
      rw [List.foldl_append, hover, Fate.foldl_over]
  | ok job =>
    obtain rfl := hok job rfl
    obtain ⟨hruns, created, hcreated, hhandle, hjob⟩ := hlog
    have hunarmed : (Fate.running process (some job) false).unarmed := rfl
    rw [← add_assoc, add_right_comm]
    refine .bind (dropLaunched_guards thread) fun closing _ rest h => ?_
    obtain ⟨rfl, hc, -⟩ := h
    refine .bind (awaitTree_guards (Multiset.le_add_left _ _) polls) fun tree r rest h => ?_
    cases r with
    | none => exact .pure fun _ h => by cases h
    | some exitCode =>
      obtain ⟨rfl, htree⟩ := h exitCode rfl
      refine .bind (dropLaunched_guards process) fun closing' _ rest h => .pure ?_
      obtain ⟨rfl, -, -⟩ := h
      intro ended hended
      cases hended
      refine ⟨rfl, fun hvalid => ?_⟩
      -- an invalid job is not closed by its drop, so only a valid one ends its tree by closing
      have hinvalid : job ≠ invalidHandle := by
        rw [← hhandle]
        exact hvalid created (List.mem_append_left _ hcreated)
      have hfold : ∀ tail : List (LaunchCall × LaunchAnswer),
          (log ++ (closing ++ (tree ++ tail))).foldl Fate.next (.suspended process thread none) =
          tail.foldl Fate.next (tree.foldl Fate.next (.running process (some job) false)) := by
        intro tail
        rw [List.foldl_append, hruns, List.foldl_append, Fate.foldl_close hc hunarmed,
          List.foldl_append]
      refine (htree hjob hinvalid).imp (fun hover => ?_) fun hrefused => ?_
      · rw [hfold, hover, Fate.foldl_over]
      · refine ⟨hrefused.1.mono fun e he => ?_, hrefused.2⟩
        exact List.mem_append_right _ (List.mem_append_right _ (List.mem_append_left _ he))

/-- Only calls that do nothing to a process. -/
def Idle (log : List (LaunchCall × LaunchAnswer)) : Prop := ∀ e ∈ log, e.1.idle

theorem Idle.nil : Idle [] := List.forall_mem_nil _

theorem Idle.cons {c : LaunchCall} {a : LaunchAnswer} {log : List (LaunchCall × LaunchAnswer)}
    (hc : c.idle) (h : Idle log) : Idle ((c, a) :: log) := List.forall_mem_cons.mpr ⟨hc, h⟩

/-- The environment block is given back, and no process is touched. -/
theorem leasedEnvironment_guards :
    launchCustody.Guards (fun log _ rest => rest = held ∧ Idle log) leasedEnvironment held := by
  refine .receive (by simp [launchCustody]) (fun _ => rfl) fun block => ?_
  split
  next hnull =>
    rw [show launchCustody.gives .getEnvironmentStrings block = 0 from if_pos hnull, add_zero]
    refine .bind (launchError_guards _) fun log error rest h => .pure ?_
    obtain ⟨rfl, last, rfl⟩ := h
    exact ⟨rfl, .cons trivial (.cons trivial .nil)⟩
  next hsome =>
    rw [show launchCustody.gives .getEnvironmentStrings block = {.environment block.handle}
      from if_neg hsome]
    refine .spend (by simp [launchCustody]) (fun _ => rfl) (fun _ => rfl) fun _ => .pure ?_
    exact ⟨rfl, .cons trivial (.cons trivial .nil)⟩

theorem childEnvironment_guards (leased : Bool) :
    launchCustody.Guards (fun log _ rest => rest = held ∧ Idle log) (childEnvironment leased)
      held := by
  unfold childEnvironment
  split
  · exact .bind leasedEnvironment_guards fun log r rest h => .pure (by rwa [List.append_nil])
  · exact .pure ⟨rfl, .nil⟩

theorem Fate.foldl_idle {log : List (LaunchCall × LaunchAnswer)} (h : Idle log) (f : Fate) :
    log.foldl Fate.next f = f := by
  induction log with
  | nil => rfl
  | cons e log ih =>
    obtain ⟨c, a⟩ := e
    rw [List.foldl_cons, Fate.next_idle (h _ List.mem_cons_self)]
    exact ih fun e he => h e (List.mem_cons_of_mem _ he)

/-- Before the process is created there is nothing to become of it. -/
theorem launchAndWait_guards (arguments : List (List UInt16)) (leased : Bool) (polls : Nat) :
    launchCustody.Guards (fun log r rest => ∀ ended, r = some ended → rest = held ∧
        LaunchEnds log ended)
      (launchAndWait arguments leased polls) held := by
  refine .bind (childEnvironment_guards leased) fun before environment rest h => ?_
  obtain ⟨rfl, hidle⟩ := h
  cases environment with
  | error error =>
    refine .pure fun ended hended => ⟨rfl, ?_⟩
    cases hended
    refine .inl ?_
    rw [List.append_nil]
    exact Fate.foldl_idle hidle .absent
  | ok environment =>
    refine .receive (by simp [launchCustody]) (fun _ => rfl) fun created => ?_
    split
    next hno =>
      -- no process, so nothing but the environment to give back, and that was dropped
      have hno : created.ok = false := by simpa using hno
      rw [show launchCustody.gives (.createProcess _ environment) created = 0 from
        if_neg (by simp [hno]), add_zero]
      refine .bind (launchError_guards _) fun log error rest h => .pure ?_
      obtain ⟨rfl, last, rfl⟩ := h
      intro ended hended
      cases hended
      refine ⟨rfl, .inl ?_⟩
      rw [fate, List.foldl_append, Fate.foldl_idle hidle]
      show Fate.next (Fate.next .absent (.createProcess (Launch.commandLine arguments) environment,
        created)) (.lastOsError, last) = _
      rw [Fate.next_uncreated hno]
      rfl
    next hyes =>
      have hyes : created.ok = true := by simpa using hyes
      rw [show launchCustody.gives (.createProcess _ environment) created =
        launched created.handle + launched created.thread from if_pos hyes]
      refine (runProcess_guards created.handle created.thread polls).imp
        fun log r rest h ended hended => ?_
      obtain ⟨rfl, hends⟩ := h ended hended
      refine ⟨rfl, ?_⟩
      -- from here on the fate is that of the process just created
      have hfate : fate (before ++ (.createProcess (Launch.commandLine arguments) environment,
          created) :: log) =
          log.foldl Fate.next (.suspended created.handle created.thread none) := by
        rw [fate, List.foldl_append, Fate.foldl_idle hidle, List.foldl_cons]
        exact congrArg (fun f => List.foldl Fate.next f log) (if_pos hyes)
      have hsub : ∀ e ∈ log, e ∈ before ++ (.createProcess (Launch.commandLine arguments)
          environment, created) :: log := fun e he =>
        List.mem_append_right _ (List.mem_cons_of_mem _ he)
      cases ended with
      | error error =>
        refine .inr (hends.imp (fun hover => hfate.trans hover) fun hstill => ?_)
        obtain ⟨⟨job, hjob⟩, hstuck⟩ := hstill
        exact ⟨⟨created.handle, created.thread, job, hfate.trans hjob⟩, hstuck.mono hsub⟩
      | ok exitCode =>
        intro hvalid
        exact (hends fun a ha => hvalid a (hsub _ ha)).imp (fun hover => hfate.trans hover)
          fun hrefused => ⟨hrefused.1.mono hsub, hrefused.2⟩

end

/-! ## A launch that fails -/

section

def LaunchCall.resumes : LaunchCall → Bool
  | .resumeThread _ => true
  | _ => false

/-- A part of the launch that resumes nothing. -/
abbrev Still {α : Type} (x : Launching α) : Prop := x.Only fun c => c.resumes = false

/-- No thread was let run. -/
def Unresumed (log : List (LaunchCall × LaunchAnswer)) : Prop :=
  ∀ e ∈ log, e.1.resumes = true → e.2.value = resumeFailed

theorem Unresumed.nil : Unresumed [] := List.forall_mem_nil _

theorem Unresumed.cons {e : LaunchCall × LaunchAnswer} {log : List (LaunchCall × LaunchAnswer)}
    (he : e.1.resumes = true → e.2.value = resumeFailed) (h : Unresumed log) :
    Unresumed (e :: log) := List.forall_mem_cons.mpr ⟨he, h⟩

theorem Unresumed.append {log more : List (LaunchCall × LaunchAnswer)} (h : Unresumed log)
    (h' : Unresumed more) : Unresumed (log ++ more) := List.forall_mem_append.mpr ⟨h, h'⟩

theorem Unresumed.of_still {log : List (LaunchCall × LaunchAnswer)}
    (h : ∀ e ∈ log, e.1.resumes = false) : Unresumed log := fun e he hresumes =>
  absurd (hresumes.symm.trans (h e he)) (by decide)

/-- A process that was never let run is not one that ran. -/
theorem Unresumed.not_ran {log : List (LaunchCall × LaunchAnswer)} (h : Unresumed log) :
    ¬ Ran log := fun ⟨_, _, hmem, hran⟩ => hran (h _ hmem rfl)

theorem dropLaunched_still (handle : UInt64) : Still (dropLaunched handle) := by
  unfold dropLaunched
  split
  · exact .pure _
  · exact .ask rfl fun _ => .pure _

theorem launchError_still (operation : String) : Still (launchError operation) :=
  .ask rfl fun _ => .pure _

/-- What is done to a process that did not start resumes nothing. -/
theorem abortUnstartedProcess_still (process : UInt64) (cause : Error) :
    Still (abortUnstartedProcess process cause) := by
  refine .ask rfl fun terminated => ?_
  split
  · exact .ask rfl fun _ => .pure _
  · refine .ask rfl fun waited => ?_
    split
    · exact .pure _
    split
    · exact .pure _
    · exact .ask rfl fun _ => .pure _

theorem abortInJob_still (job process : UInt64) : Still (abortInJob job process) := by
  refine .bind (launchError_still _) fun error => .ask rfl fun terminated => ?_
  split
  · exact abortUnstartedProcess_still _ _
  · refine .ask rfl fun waited => ?_
    split <;> exact .pure _

theorem childEnvironment_still (leased : Bool) : Still (childEnvironment leased) := by
  unfold childEnvironment leasedEnvironment
  split
  · refine .bind (.ask rfl fun block => ?_) fun _ => .pure _
    split
    · exact .bind (launchError_still _) fun _ => .pure _
    · exact .ask rfl fun _ => .pure _
  · exact .pure _

/-- A start that failed let no thread run. -/
def FailsUnresumed {α : Type} (log : List (LaunchCall × LaunchAnswer)) (r : Except Error α) :
    Prop := ∀ error, r = .error error → Unresumed log

theorem resumeInJob_failed (job process thread : UInt64) :
    (resumeInJob job process thread).Yields FailsUnresumed := by
  refine .ask fun assigned => ?_
  split
  · refine .bind (launchError_still _) fun last error hlast => ?_
    refine .bind (abortUnstartedProcess_still process error) fun aborting error haborting => ?_
    refine .bind (dropLaunched_still job) fun closing _ hclosing => .pure fun _ _ => ?_
    exact .cons (fun h => by cases h) ((Unresumed.of_still hlast).append
      ((Unresumed.of_still haborting).append ((Unresumed.of_still hclosing).append .nil)))
  · refine .ask fun previous => ?_
    split
    next hfailed =>
      refine .bind (abortInJob_still job process) fun aborting error haborting => ?_
      refine .bind (dropLaunched_still job) fun closing _ hclosing => .pure fun _ _ => ?_
      exact .cons (fun h => by cases h) (.cons (fun _ => hfailed)
        ((Unresumed.of_still haborting).append ((Unresumed.of_still hclosing).append .nil)))
    · exact .pure fun _ h => by cases h

/-- Up to the resumption nothing runs, and a failed one is no resumption. -/
theorem startInJob_failed (process thread : UInt64) :
    (startInJob process thread).Yields FailsUnresumed := by
  refine .ask fun job => ?_
  split
  · refine .bind (launchError_still _) fun last error hlast => ?_
    refine .bind (abortUnstartedProcess_still process error) fun aborting error haborting => ?_
    refine .pure fun _ _ => ?_
    exact .cons (fun h => by cases h) ((Unresumed.of_still hlast).append
      ((Unresumed.of_still haborting).append .nil))
  · refine (resumeInJob_failed job.handle process thread).imp fun log r h error hr => ?_
    exact .cons (fun h => by cases h) (h error hr)

theorem runProcess_failed (process thread : UInt64) (polls : Nat) :
    (runProcess process thread polls).Yields fun log r =>
      ∀ error, r = some (.error error) → Unresumed log := by
  refine .bind (startInJob_failed process thread) fun starting started hstarting => ?_
  split
  next error =>
    refine .bind (dropLaunched_still thread) fun closing _ hclosing => ?_
    refine .bind (dropLaunched_still process) fun closing' _ hclosing' => .pure fun _ _ => ?_
    exact (hstarting error rfl).append ((Unresumed.of_still hclosing).append
      ((Unresumed.of_still hclosing').append .nil))
  next job =>
    refine .bind (.of_forall fun _ _ => trivial) fun _ _ _ => ?_
    refine .bind (.of_forall fun _ _ => trivial) fun _ exitCode _ => ?_
    split
    · exact .pure fun _ h => by cases h
    · refine .bind (.of_forall fun _ _ => trivial) fun _ _ _ => .pure fun _ h => ?_
      cases h

/-- With an error of the launch no thread was let run. -/
theorem launchAndWait_failed (arguments : List (List UInt16)) (leased : Bool) (polls : Nat) :
    (launchAndWait arguments leased polls).Yields fun log r =>
      ∀ error, r = some (.error error) → ¬ Ran log := by
  have hunresumed : (launchAndWait arguments leased polls).Yields fun log r =>
      ∀ error, r = some (.error error) → Unresumed log := by
    refine .bind (childEnvironment_still leased) fun asking environment hasking => ?_
    split
    · refine .pure fun _ _ => ?_
      exact (Unresumed.of_still hasking).append .nil
    · refine .ask fun created => ?_
      split
      · refine .bind (launchError_still _) fun last error hlast => .pure fun _ _ => ?_
        exact (Unresumed.of_still hasking).append (.cons (fun h => by cases h)
          ((Unresumed.of_still hlast).append .nil))
      · refine (runProcess_failed created.handle created.thread polls).imp fun log r h error hr => ?_
        exact (Unresumed.of_still hasking).append (.cons (fun h => by cases h) (h error hr))
  exact hunresumed.imp fun _ _ h error hr => (h error hr).not_ran

end

/-! ## The run -/

theorem host_within : Custody.Within hostCustody wrappedCustody .host WrappedAnswer.host .host :=
  ⟨fun _ => rfl, fun _ _ => rfl, fun _ _ => rfl⟩

theorem launch_within :
    Custody.Within launchCustody wrappedCustody .launch WrappedAnswer.launch .launch :=
  ⟨fun _ => rfl, fun _ _ => rfl, fun _ _ => rfl⟩

/-- The calls of the library's operations are none of the launch. -/
theorem launchLog_host (own : List (HostCall × WrappedAnswer)) :
    launchLog (own.map (Prod.map .host id)) = [] := by
  rw [launchLog, List.filterMap_map]
  exact List.filterMap_eq_nil_iff.mpr fun _ _ => rfl

theorem hostLog_host (own : List (HostCall × WrappedAnswer)) :
    hostLog (own.map (Prod.map .host id)) = own.map (Prod.map id WrappedAnswer.host) := by
  rw [hostLog, List.filterMap_map, ← List.filterMap_eq_map]
  rfl

theorem requestLog_host (own : List (HostCall × WrappedAnswer)) :
    requestLog (own.map (Prod.map .host id)) =
      written (own.map (Prod.map id WrappedAnswer.host)) := by
  rw [requestLog, written, List.filterMap_map, List.filterMap_map]
  rfl

theorem launchLog_launch (own : List (LaunchCall × WrappedAnswer)) :
    launchLog (own.map (Prod.map .launch id)) = own.map (Prod.map id WrappedAnswer.launch) := by
  rw [launchLog, List.filterMap_map, ← List.filterMap_eq_map]
  rfl

theorem requestLog_launch (own : List (LaunchCall × WrappedAnswer)) :
    requestLog (own.map (Prod.map .launch id)) = [] := by
  rw [requestLog, List.filterMap_map]
  exact List.filterMap_eq_nil_iff.mpr fun _ _ => rfl

section

variable (options : ClientOptions) (rounds : Nat) (command : List (List UInt16)) (polls : Nat)

/-- What is in hand where a run returns. -/
def Handed (allowed : Bool) (r : Option (Except Error WrappedRun))
    (rest : Multiset WrappedHandle) : Prop :=
  r.isSome = true → ∃ left : Multiset HostHandle,
    (∀ x ∈ left, ∃ process address, x = .remote process address) ∧
    (allowed = false → left = 0) ∧ rest = left.map .host

/-- The lease, the launch and the release behind it, with what is handed from one to the next. -/
theorem runWrapped_guards :
    wrappedCustody.Guards (fun log r rest => WrappedGoes log r ∧
        Handed options.allowInjection r rest)
      (runWrapped options rounds command polls) 0 := by
  unfold runWrapped
  split
  -- the command line cannot be encoded: no call was made
  · refine .pure ⟨.unleased [] _ rfl (.inr rfl) (by simp), fun _ => ?_⟩
    exact ⟨0, fun x hx => absurd hx (Multiset.notMem_zero x), fun _ => rfl, rfl⟩
  next arguments _ =>
    have hacquire : hostCustody.Guards (fun log r rest =>
        Grants options.allowInjection 0 Lease.pipe .acquireLease log r rest ∧
          ((∃ lease, r = some (.ok lease)) → Granted .acquireLease log)) (acquire options rounds) 0 :=
      acquire_guards.and acquire_granted
    refine .bind (hacquire.embed host_within 0) fun log r rest h => ?_
    obtain ⟨own, rfl, left, rfl, ⟨hrequest, hleft⟩, hgranted⟩ := h
    have hasked : requestLog (own.map (Prod.map .host id)) = [Request.new .acquireLease] ∨
        requestLog (own.map (Prod.map .host id)) = [] := by
      rw [requestLog_host]
      exact hrequest.imp_right And.left
    rw [zero_add]
    rcases r with _ | error | lease
    · refine .pure ⟨?_, fun h => by cases h⟩
      rw [List.append_nil]
      exact .unleased _ _ (launchLog_host own) hasked (by simp)
    · obtain ⟨stays, hremote, hnone, rfl⟩ := hleft
      refine .pure ⟨?_, fun _ => ⟨stays, hremote, hnone, ?_⟩⟩
      · rw [List.append_nil]
        exact .unleased _ _ (launchLog_host own) hasked (by simp)
      · rw [heldOf_error, zero_add, zero_add]
    obtain ⟨stays, hremote, hnone, rfl⟩ := hleft
    have hacquired : requestLog (own.map (Prod.map .host id)) = [Request.new .acquireLease] := by
      rw [requestLog_host]
      exact hrequest.resolve_right fun h => h.2 lease rfl
    have hgranted : Granted .acquireLease (hostLog (own.map (Prod.map .host id))) := by
      rw [hostLog_host]
      exact hgranted ⟨lease, rfl⟩
    -- the pipe of the lease and what the injection left are the frame of the launch
    rw [show heldOf Lease.pipe (some (.ok lease)) = owned lease.pipe from rfl, zero_add,
      Multiset.map_add, add_comm]
    have hlaunch : launchCustody.Guards (fun log r rest =>
        (∀ ended, r = some ended → rest = 0 ∧ LaunchEnds log ended) ∧
          ∀ error, r = some (.error error) → ¬ Ran log) (launchAndWait arguments true polls) 0 :=
      (launchAndWait_guards arguments true polls).and (launchAndWait_failed arguments true polls)
    have hlaunch := hlaunch.embed launch_within
      (stays.map .host + (owned lease.pipe).map WrappedHandle.host)
    rw [Multiset.map_zero, add_zero] at hlaunch
    refine .bind hlaunch fun log r rest h => ?_
    obtain ⟨during, rfl, opened, rfl, hended, hfailed⟩ := h
    cases r with
    -- the launch still polls, and the lease is held all the while
    | none =>
      refine .pure ⟨?_, fun h => by cases h⟩
      rw [List.append_nil]
      exact .waits _ _ (launchLog_host own) hacquired hgranted (requestLog_launch during)
    | some ended =>
      obtain ⟨rfl, hends⟩ := hended ended rfl
      rw [Multiset.map_zero, add_zero]
      -- the release gives the pipe back, with what the injection left as its frame
      have hrelease : hostCustody.Guards (fun log _ rest => rest = 0 ∧
          written log = [Request.new .releaseLease]) lease.release (0 + owned lease.pipe) :=
        lease.release_guards
      rw [zero_add] at hrelease
      refine .bind (hrelease.embed host_within (stays.map .host)) fun log released rest h => ?_
      obtain ⟨after, rfl, closed, rfl, rfl, hreleased⟩ := h
      refine .pure ⟨?_, fun _ => ⟨stays, hremote, hnone, ?_⟩⟩
      · rw [List.append_nil]
        refine .ran _ _ _ ended released (launchLog_host own) hacquired hgranted
          (requestLog_launch during) ?_ ?_ (launchLog_host after) ?_
        · rw [launchLog_launch]
          intro error herror
          exact hfailed error (congrArg some herror)
        · rw [launchLog_launch]
          exact hends
        · rw [requestLog_host]
          exact hreleased
      · rw [Multiset.map_zero, add_zero]

/-- However Windows and the payload answer, `run_wrapped` names only handles it holds and closes
    each once, but for what an injection leaves in the target. It launches nothing without a lease
    and asks for the release of the lease behind the launch only: by then its process has never
    run and is killed, or its tree is over, unless they refused to be killed. -/
theorem wrapped_run_covered (answers : Nat → WrappedAnswer) :
    ∃ rest, wrappedCustody.Along 0 ((runWrapped options rounds command polls).run answers).1 rest ∧
      WrappedGoes ((runWrapped options rounds command polls).run answers).1
        ((runWrapped options rounds command polls).run answers).2 ∧
      (((runWrapped options rounds command polls).run answers).2.isSome = true →
        ∃ left : Multiset HostHandle, (∀ x ∈ left, ∃ process address, x = .remote process address) ∧
          (options.allowInjection = false → left = 0) ∧ rest = left.map .host) := by
  obtain ⟨rest, halong, hgoes, hhanded⟩ :=
    (runWrapped_guards options rounds command polls).along.run answers
  exact ⟨rest, halong, hgoes, hhanded⟩

end

end Host
end SteamInputLease
