import SteamInputLease.Host.Reading
import SteamInputLease.Lib.Hoare
import SteamInputLease.Proof.Host.Connect
import SteamInputLease.Proof.Host.Wrapped

/-!
# `run_wrapped`, call by call

The launcher's proofs are about `Launch.runWrapped`, which asks an environment; custody and the
fate of the process are about `Host.runWrapped`, which calls Windows. A change of the source means
a change of both, and nothing would notice if only one of them followed. `wrapped_refines` does:
with the answers that the calls of a run tell of, the first one returns what that run returned, and
enters into its journal what the run did, in its order.

Up to the launch a question may stand for many calls, and its answer is what they lead to. From the
process on the two go in step: `Simulates` relates a part of one to the part of the other that makes
the calls, and has one rule for each way in which they are put together. What the second one does
beside the first, that is to give back handles and to sleep, answers nothing and shows nothing.
-/

namespace SteamInputLease
namespace Host

open Lib Protocol
open Launch (Error Answers Event Run ProcessInformation WrappedRun resumeFailed
  errorProcessAborted wideCommand)

/-! ## Answers in turn -/

theorem gives_append {w : Answers} {answers more : List Consulted} {i : Nat} :
    Gives w i (answers ++ more) ↔ Gives w i answers ∧ Gives w (i + answers.length) more := by
  induction answers generalizing i with
  | nil => exact ⟨fun h => ⟨trivial, h⟩, And.right⟩
  | cons c answers ih =>
    have hi : i + 1 + answers.length = i + (c :: answers).length := by
      rw [List.length_cons, Nat.add_assoc, Nat.add_comm 1]
    show c.Holds w i ∧ Gives w (i + 1) (answers ++ more) ↔ (c.Holds w i ∧ _) ∧ _
    rw [ih, hi, and_assoc]

/-- The environment gives the answers it was made of. -/
theorem environment_gives (answers : List Consulted) : Gives (environment answers) 0 answers := by
  have hfrom : ∀ before behind : List Consulted,
      Gives (environment (before ++ behind)) before.length behind := by
    intro before behind
    induction behind generalizing before with
    | nil => trivial
    | cons c behind ih =>
      refine ⟨?_, ?_⟩
      · have hc : (before ++ c :: behind)[before.length]? = some c := by simp
        cases c <;> simp only [Consulted.Holds, environment, hc]
      · have h := ih (before ++ [c])
        rwa [List.append_assoc, List.length_append] at h
  exact hfrom [] answers

/-! ## In step -/

section

variable {α β γ : Type} {due : List Event}

/-- Where the environment gives the answers of the calls of `x`, `y` has its result, and enters what
    is still due and then what the calls show. -/
def Simulates (due : List Event) (y : Answers → Run α) (x : Launching α) : Prop :=
  x.Yields fun log a => ∀ w j, Gives w j.instant (log.flatMap readLaunch) →
    (y w).run j = (a, ⟨j.instant + (log.flatMap readLaunch).length,
      j.entries ++ (due ++ log.flatMap showLaunch)⟩)

theorem Simulates.pure (a : α) : Simulates [] (fun _ => pure a) (pure a) := by
  intro w j _
  show (a, j) = (a, ⟨j.instant + 0, j.entries ++ []⟩)
  rw [List.append_nil]
  rfl

theorem Simulates.bind {x : Launching α} {y : Answers → Run α} {f : α → Launching β}
    {g : α → Answers → Run β} (hx : Simulates due y x) (hf : ∀ a, Simulates [] (g a) (f a)) :
    Simulates due (fun w => y w >>= fun a => g a w) (x >>= f) := by
  refine Program.Yields.bind hx fun log a h => (hf a).imp fun more b h' w j hg => ?_
  rw [List.flatMap_append, gives_append] at hg
  show (y w >>= fun a => g a w).run j = _
  rw [run_bind, h w j hg.1, h' w _ hg.2]
  simp only [List.flatMap_append, List.length_append, List.append_assoc, Nat.add_assoc,
    List.nil_append]

/-- A question, and the call that it stands for. -/
theorem Simulates.consult {c : LaunchCall} {f : LaunchAnswer → Launching β}
    {field : Answers → Nat → γ} {g : γ → Answers → Run β} (view : LaunchAnswer → γ)
    (hone : ∀ a, (readLaunch (c, a)).length = 1)
    (hview : ∀ a w i, Gives w i (readLaunch (c, a)) → field w i = view a)
    (h : ∀ a, Simulates (showLaunch (c, a)) (g (view a)) (f a)) :
    Simulates [] (fun w => consult (field w) >>= fun v => g v w) (Program.ask c >>= f) := by
  refine Program.Yields.ask fun a => (h a).imp fun log b h w j hg => ?_
  rw [List.flatMap_cons, gives_append, hone] at hg
  show (g (field w j.instant) w).run { j with instant := j.instant + 1 } = _
  rw [hview a w _ hg.1, h w { j with instant := j.instant + 1 } hg.2]
  simp only [List.flatMap_cons, List.length_append, hone, Nat.add_assoc, List.nil_append]

/-- An entry that is due. -/
theorem Simulates.tell {n : Event} {x : Launching β} {y : Answers → Run β}
    (h : Simulates due y x) : Simulates (n :: due) (fun w => record n >>= fun _ => y w) x := by
  refine Program.Yields.imp h fun log b h w j hg => ?_
  show (y w).run { j with entries := j.entries ++ [n] } = _
  rw [h w { j with entries := j.entries ++ [n] } hg]
  simp only [List.append_assoc, List.cons_append, List.nil_append]

/-- A call that answers nothing and shows nothing. -/
theorem Simulates.silent {c : LaunchCall} {f : LaunchAnswer → Launching β} {y : Answers → Run β}
    (hread : ∀ a, readLaunch (c, a) = []) (hshow : ∀ a, showLaunch (c, a) = [])
    (h : ∀ a, Simulates due y (f a)) : Simulates due y (Program.ask c >>= f) := by
  refine Program.Yields.ask fun a => (h a).imp fun log b h w j hg => ?_
  rw [List.flatMap_cons, hread, List.nil_append] at hg ⊢
  rw [List.flatMap_cons, hshow, List.nil_append]
  exact h w j hg

theorem Simulates.drop {handle : UInt64} {f : Unit → Launching β} {y : Answers → Run β}
    (h : Simulates due y (f ())) : Simulates due y (dropLaunched handle >>= f) := by
  unfold dropLaunched
  split
  · exact h
  · exact .silent (fun _ => rfl) (fun _ => rfl) fun _ => h

/-! ## The process -/

theorem launchError_simulates (operation : String) :
    Simulates [] (fun w => Launch.windowsError w operation) (launchError operation) :=
  .consult (·.text) (fun _ => rfl) (fun _ _ _ h => h.1) fun _ => .pure _

theorem abortUnstartedProcess_simulates (process : UInt64) (cause : Error) :
    Simulates [] (fun w => Launch.abortUnstartedProcess w cause)
      (abortUnstartedProcess process cause) := by
  refine .consult (·.ok) (fun _ => rfl) (fun _ _ _ h => h.1) fun terminated => ?_
  dsimp only [showLaunch]
  split
  · exact .consult (·.text) (fun _ => rfl) (fun _ _ _ h => h.1) fun _ => .pure _
  refine .consult (waitResult ·.value) (fun _ => rfl) (fun _ _ _ h => h.1) fun waited => ?_
  dsimp only [waitResult]
  by_cases hended : waited.value = waitObject0
  · rw [if_pos hended, if_pos hended]
    exact .pure _
  rw [if_neg hended, if_neg hended]
  by_cases hlate : waited.value = waitTimeout
  · rw [if_pos hlate, if_pos hlate]
    exact .pure _
  · rw [if_neg hlate, if_neg hlate]
    exact .consult (·.text) (fun _ => rfl) (fun _ _ _ h => h.1) fun _ => .pure _

theorem leasedEnvironment_simulates :
    Simulates [] Launch.leasedEnvironment leasedEnvironment := by
  refine .consult (fun a => if a.handle = 0 then none else some a.environment) (fun _ => rfl)
    (fun _ _ _ h => h.1) fun block => ?_
  by_cases hnull : block.handle = 0
  · rw [if_pos hnull, if_pos hnull]
    exact .bind (launchError_simulates _) fun error => .pure _
  · rw [if_neg hnull, if_neg hnull]
    exact .silent (fun _ => rfl) (fun _ => rfl) fun _ => .pure _

theorem childEnvironment_simulates (leased : Bool) :
    Simulates [] (fun w => Launch.childEnvironment w leased) (childEnvironment leased) := by
  cases leased with
  | false => exact .pure _
  | true => exact .bind leasedEnvironment_simulates fun _ => .pure _

/-- The way back from a process that is in the job. -/
theorem abortInJob_simulates (job process : UInt64) :
    Simulates [] Launch.abortInJob (abortInJob job process) := by
  refine .bind (launchError_simulates _) fun error => ?_
  refine .consult (·.ok) (fun _ => rfl) (fun _ _ _ h => h.1) fun terminated => ?_
  dsimp only [showLaunch]
  split
  · exact abortUnstartedProcess_simulates process error
  refine .consult (waitResult ·.value) (fun _ => rfl) (fun _ _ _ h => h.1) fun waited => ?_
  dsimp only [waitResult]
  by_cases hended : waited.value = waitObject0
  · rw [if_pos hended, if_neg fun h => h hended]
    exact .pure _
  · rw [if_neg hended, if_pos hended]
    by_cases hlate : waited.value = waitTimeout
    · rw [if_pos hlate]
      exact .pure _
    · rw [if_neg hlate]
      exact .pure _

theorem resumeInJob_simulates (job : UInt64) (process : ProcessInformation) :
    Simulates [] (fun w => Launch.resumeInJob w job process)
      (resumeInJob job process.process process.thread) := by
  refine .consult (·.ok) (fun _ => rfl) (fun _ _ _ h => h.1) fun assigned => ?_
  dsimp only [showLaunch]
  cases assigned.ok with
  | false =>
    exact .bind (launchError_simulates _) fun error =>
      .bind (abortUnstartedProcess_simulates _ error) fun error => .drop (.pure _)
  | true =>
    refine .tell (.consult (·.value) (fun _ => rfl) (fun _ _ _ h => h.1) fun previous => ?_)
    dsimp only [showLaunch]
    by_cases hfailed : previous.value = resumeFailed
    · simp only [if_pos hfailed]
      exact .bind (abortInJob_simulates job _) fun error => .drop (.pure _)
    · simp only [if_neg hfailed]
      exact .tell (.pure _)

/-- The start: both go the same way, as they are told the same. -/
theorem startInJob_simulates (process : ProcessInformation) :
    Simulates [] (fun w => Launch.startInJob w process)
      (startInJob process.process process.thread) := by
  refine .consult (fun a => if a.handle = 0 then none else some a.handle) (fun _ => rfl)
    (fun _ _ _ h => h.1) fun job => ?_
  by_cases hnull : job.handle = 0
  · rw [if_pos hnull, if_pos hnull]
    exact .bind (launchError_simulates _) fun error =>
      .bind (abortUnstartedProcess_simulates _ error) fun error => .pure _
  · rw [if_neg hnull, if_neg hnull]
    exact resumeInJob_simulates job.handle process

/-! ## The tree -/

theorem abortTree_simulates (job process : UInt64) :
    Simulates [] Launch.abortTree (abortTree job process) := by
  refine .consult (·.ok) (fun _ => rfl) (fun _ _ _ h => h.1) fun terminated => ?_
  dsimp only [showLaunch]
  split
  · refine .consult (·.ok) (fun _ => rfl) (fun _ _ _ h => h.1) fun limited => ?_
    dsimp only [showLaunch]
    split
    · exact .consult (·.ok) (fun _ => rfl) (fun _ _ _ h => h.1) fun _ => .pure _
    · exact .pure _
  · exact .pure _

/-- The wait, by induction on the rounds; both run out of them together. -/
theorem awaitTree_simulates (job process : UInt64) (polls : Nat) :
    Simulates [] (fun w => Launch.awaitTree w job process polls) (awaitTree job process polls) := by
  induction polls with
  | zero => exact .pure none
  | succ polls ih =>
    refine .consult (fun a => if a.ok then some a.value else none) (fun _ => rfl)
      (fun _ _ _ h => h.1) fun accounting => .tell ?_
    cases hok : accounting.ok with
    | false =>
      exact .bind (abortTree_simulates job process) fun _ => .drop <|
        .consult (waitResult ·.value) (fun _ => rfl) (fun _ _ _ h => h.1) fun _ => .pure _
    | true =>
      show Simulates [] (fun w => if accounting.value = 0 then _ else _)
        (if accounting.value = 0 then _ else _)
      split
      · refine .consult (fun a => if a.ok then some a.value else none) (fun _ => rfl)
          (fun _ _ _ h => h.1) fun code => .tell (.drop ?_)
        cases code.ok <;> exact .pure _
      · exact .silent (fun _ => rfl) (fun _ => rfl) fun _ => ih

/-! ## The launch -/

theorem runProcess_simulates (process : ProcessInformation) (polls : Nat) :
    Simulates [] (fun w => Launch.runProcess w process polls)
      (runProcess process.process process.thread polls) := by
  refine .bind (startInJob_simulates process) fun started => ?_
  cases started with
  | error e => exact .drop (.drop (.pure _))
  | ok job =>
    refine .drop (.bind (awaitTree_simulates job process.process polls) fun exitCode => ?_)
    cases exitCode with
    | none => exact .pure _
    | some exitCode => exact .drop (.pure _)

/-- The launch, from the environment block on. -/
theorem launchAndWait_simulates (arguments : List (List UInt16)) (leased : Bool) (polls : Nat) :
    Simulates [] (fun w => Launch.launchAndWait w arguments leased polls)
      (launchAndWait arguments leased polls) := by
  refine .bind (childEnvironment_simulates leased) fun environment => ?_
  cases environment with
  | error e => exact .pure _
  | ok environment =>
    refine .consult (fun a => if a.ok then some ⟨a.handle, a.thread⟩ else none) (fun _ => rfl)
      (fun _ _ _ h => h.1) fun created => ?_
    dsimp only [showLaunch]
    cases created.ok with
    | false => exact .bind (launchError_simulates _) fun error => .pure _
    | true => exact .tell (runProcess_simulates ⟨created.handle, created.thread⟩ polls)

end

/-! ## The lease -/

section

theorem run_ends {α : Type} {r r' : α} {i i' : Nat} {entries entries' : List Event} (hr : r = r')
    (hi : i = i') (he : entries = entries') :
    (r, Journal.mk i entries) = (r', Journal.mk i' entries') := by
  rw [hr, hi, he]

theorem sentEvents_append (log more : List (HostCall × HostAnswer)) :
    sentEvents (log ++ more) = sentEvents log ++ sentEvents more := by
  rw [sentEvents, written_append, List.filterMap_append]
  rfl

theorem sentEvents_silent {log : List (HostCall × HostAnswer)} (h : written log = []) :
    sentEvents log = [] := by
  rw [sentEvents, h]
  rfl

theorem sentEvents_one {log : List (HostCall × HostAnswer)} {command : Command}
    (h : written log = [Request.new command]) : sentEvents log = [.sent command] := by
  rw [sentEvents, h]
  cases command <;> rfl

/-- An exchange is read off call by call. -/
theorem exchange_refines (pipe : UInt64) (command : Command) :
    (exchange pipe command).Yields fun log r => ∀ w j, Gives w j.instant (log.flatMap readHost) →
      (Launch.exchange w command).run j =
        (r, ⟨j.instant + (log.flatMap readHost).length, j.entries ++ [.sent command]⟩) := by
  refine .ask fun sent => ?_
  -- one environment answer for each call, until the first that fails
  split
  next hsent =>
    refine .ask fun last => .pure fun w j hg => ?_
    have hwrite : w.writeFile j.instant = none := hg.1.trans (if_neg (by simpa using hsent))
    have hlast : w.lastOsError (j.instant + 1) = last.text := hg.2.1
    simp only [Launch.exchange, Launch.windowsError, run_bind, run_record, run_consult, hwrite, hlast]
    rfl
  next hsent =>
  have hsent : sent.ok = true := by simpa using hsent
  have hwrite : ∀ (w : Answers) j log, Gives w j (((.writeFile pipe (Request.new command), sent) ::
      log).flatMap readHost) → w.writeFile j = some sent.number :=
    fun w j log hg => hg.1.trans (if_pos hsent)
  split
  next hpart =>
    refine .pure fun w j hg => ?_
    simp only [Launch.exchange, run_bind, run_record, run_consult, hwrite w _ _ hg, if_pos hpart]
    rfl
  next hwhole =>
  refine .ask fun read => ?_
  split
  next hread =>
    refine .ask fun last => .pure fun w j hg => ?_
    have hnone : w.readFile (j.instant + 1) = none := hg.2.1.trans (if_neg (by simpa using hread))
    have hlast : w.lastOsError (j.instant + 1 + 1) = last.text := hg.2.2.1
    simp only [Launch.exchange, Launch.readResponse, Launch.windowsError, run_bind, run_record,
      run_consult, hwrite w _ _ hg, if_neg hwhole, hnone, hlast]
    rfl
  next hread =>
  have hread : read.ok = true := by simpa using hread
  have hsome : ∀ (w : Answers) j log, Gives w j (((.writeFile pipe (Request.new command), sent) ::
      (.readFile pipe, read) :: log).flatMap readHost) →
        w.readFile (j + 1) = some (read.response, read.number) :=
    fun w j log hg => hg.2.1.trans (if_pos hread)
  split
  next hpart =>
    refine .pure fun w j hg => ?_
    simp only [Launch.exchange, Launch.readResponse, run_bind, run_record, run_consult,
      hwrite w _ _ hg, if_neg hwhole, hsome w _ _ hg, if_pos hpart]
    rfl
  next hall =>
  split
  next hrejected =>
    refine .pure fun w j hg => ?_
    simp only [Launch.exchange, Launch.readResponse, run_bind, run_record, run_consult,
      hwrite w _ _ hg, if_neg hwhole, hsome w _ _ hg, if_neg hall, if_pos hrejected]
    rfl
  next hvalid =>
    refine .pure fun w j hg => ?_
    simp only [Launch.exchange, Launch.readResponse, run_bind, run_record, run_consult,
      hwrite w _ _ hg, if_neg hwhole, hsome w _ _ hg, if_neg hall, if_neg hvalid]
    rfl

/-- Closing a handle answers nothing. -/
theorem closing_reads {log : List (HostCall × HostAnswer)} {handle : UInt64}
    (h : ∀ e ∈ log, e.1 = .closeHandle handle) : log.flatMap readHost = [] := by
  refine List.flatMap_eq_nil_iff.mpr fun e he => ?_
  obtain ⟨c, a⟩ := e
  obtain rfl : c = .closeHandle handle := h (c, a) he
  rfl

theorem closing_sends {log : List (HostCall × HostAnswer)} {handle : UInt64}
    (h : ∀ e ∈ log, e.1 = .closeHandle handle) : sentEvents log = [] := by
  refine sentEvents_silent (List.filterMap_eq_nil_iff.mpr fun e he => ?_)
  rw [writtenRequest, h e he]

theorem findProcess_sends (name : String) :
    (findProcess name).Yields fun log _ => sentEvents log = [] := by
  have hquiet : hostCustody.Guards (fun log _ rest => rest = 0 ∧ Quiet log) (findProcess name) 0 :=
    findProcess_guards name
  refine hquiet.along.imp fun log _ h => ?_
  obtain ⟨rest, -, -, hq⟩ := h
  exact sentEvents_silent hq.written

theorem exchange_sends (pipe : UInt64) (command : Command) :
    (exchange pipe command).Yields fun log _ => sentEvents log = [.sent command] := by
  have hsends : hostCustody.Guards (fun log _ rest => rest = owned pipe ∧
      written log = [Request.new command]) (exchange pipe command) (owned pipe) :=
    exchange_guards (le_refl _)
  refine hsends.along.imp fun log _ h => ?_
  obtain ⟨rest, -, -, hw⟩ := h
  exact sentEvents_one hw

variable (options : ClientOptions) (rounds : Nat)

/-- Nothing is sent before a pipe is there. -/
theorem connect_sends (processId : UInt32) :
    (connect options rounds processId).Yields fun log _ => sentEvents log = [] := by
  have hreaches : hostCustody.Guards (Reaches options.allowInjection 0)
      (connect options rounds processId) 0 := connect_guards options rounds processId
  refine hreaches.along.imp fun log _ h => ?_
  obtain ⟨rest, -, hw, -⟩ := h
  exact sentEvents_silent hw

/-- What an acquisition enters behind what was sent. -/
def acquiredEvents : Except Error Lease → List Event
  | .ok _ => [.acquired]
  | .error _ => []

/-- What comes of an acquisition: the lease without its pipe, what it answers and what it shows. -/
def Acquires (log : List (HostCall × HostAnswer)) (r : Option (Except Error Lease)) : Prop :=
  ∀ acquired, r = some acquired → ∀ w j, Gives w j.instant (acquireReads options rounds log) →
    (Launch.acquire w options.targetName).run j = (acquired.map Lease.unpiped,
      ⟨j.instant + (acquireReads options rounds log).length,
        j.entries ++ (sentEvents log ++ acquiredEvents acquired)⟩)

variable {options rounds}

theorem acquireReads_unfound {e : Error} {log : List (HostCall × HostAnswer)}
    (h : (findProcess options.targetName).replay log = some (.error e, [])) :
    acquireReads options rounds log = [.processId (.error e)] := by
  rw [acquireReads, h]

theorem acquireReads_reached {processId : UInt32} {reached : Except Error UInt64}
    {log behind rest : List (HostCall × HostAnswer)}
    (h : (findProcess options.targetName).replay log = some (.ok processId, behind))
    (h' : (connect options rounds processId).replay behind = some (some reached, rest)) :
    acquireReads options rounds log =
      .processId (.ok processId) :: .connect reached :: rest.flatMap readHost := by
  rw [acquireReads, h]
  dsimp only
  rw [h']

theorem targetOf_found {processId : UInt32} {log behind : List (HostCall × HostAnswer)}
    (h : (findProcess options.targetName).replay log = some (.ok processId, behind)) :
    targetOf options log = processId := by
  rw [targetOf, h]

theorem acquire_refines :
    (acquire options rounds).Yields fun log r => Acquires options rounds log r ∧
      ∀ lease, r = some (.ok lease) → targetOf options log = lease.processId := by
  have hopen : (openWith options (connect options rounds) .acquireLease).Yields fun log r =>
      Acquires options rounds log (r.map fun r => r.map (Lease.ofGrant options)) ∧
        ∀ granted, r = some (.ok granted) → targetOf options log = granted.2.1 := by
    refine .bind ((findProcess_sends _).and (Program.yields_replay _)) fun finding found h => ?_
    obtain ⟨hfinding, hfound⟩ := h
    -- `find_process`, `connect` and `exchange` fail one after another; each failure ends the run
    split
    next e =>
      refine .pure ⟨fun acquired hr w j hg => ?_, fun _ h => by cases h⟩
      obtain rfl : .error e = acquired := Option.some.inj hr
      rw [acquireReads_unfound (hfound [])] at hg ⊢
      have hprocess : w.processId j.instant = .error e := hg.1
      rw [sentEvents_append, hfinding]
      simp only [Launch.acquire, run_bind, run_consult, hprocess]
      exact run_ends rfl rfl (List.append_nil _).symm
    next processId =>
    refine .bind ((connect_sends options rounds processId).and (Program.yields_replay _))
      fun connecting reached h => ?_
    obtain ⟨hconnecting, hreached⟩ := h
    have htarget : ∀ behind, targetOf options (finding ++ (connecting ++ behind)) = processId :=
      fun behind => targetOf_found (hfound _)
    have hreads : ∀ reached' behind, reached = some reached' →
        acquireReads options rounds (finding ++ (connecting ++ behind)) =
          .processId (.ok processId) :: .connect reached' :: behind.flatMap readHost := by
      rintro reached' behind rfl
      exact acquireReads_reached (hfound _) (hreached _)
    have hsends : ∀ behind, sentEvents (finding ++ (connecting ++ behind)) = sentEvents behind := by
      intro behind
      rw [sentEvents_append, sentEvents_append, hfinding, hconnecting]
      rfl
    split
    · exact .pure ⟨(fun _ h => by cases h), fun _ h => by cases h⟩
    next e =>
      refine .pure ⟨fun acquired hr w j hg => ?_, fun _ h => by cases h⟩
      obtain rfl : .error e = acquired := Option.some.inj hr
      rw [hreads _ _ rfl] at hg ⊢
      have hprocess : w.processId j.instant = .ok processId := hg.1
      have hconnect : w.connect (j.instant + 1) = .error e := hg.2.1
      rw [hsends]
      simp only [Launch.acquire, run_bind, run_consult, hprocess, hconnect]
      exact run_ends rfl rfl (List.append_nil _).symm
    next pipe =>
    refine .bind ((exchange_sends pipe _).and (exchange_refines pipe _)) fun asking r h => ?_
    obtain ⟨hasking, hexchange⟩ := h
    -- whether the exchange fails or not, the environment gives the same two answers before it
    have hasks : ∀ (w : Answers) (j : Journal Event) (behind : List (HostCall × HostAnswer)),
        behind.flatMap readHost = [] →
        Gives w j.instant (acquireReads options rounds
          (finding ++ (connecting ++ (asking ++ behind)))) →
        w.processId j.instant = .ok processId ∧ w.connect (j.instant + 1) = .ok pipe ∧
          (Launch.exchange w .acquireLease).run { j with instant := j.instant + 1 + 1 } =
            (r, ⟨j.instant + 1 + 1 + (asking.flatMap readHost).length,
              j.entries ++ [.sent .acquireLease]⟩) := by
      intro w j behind hbehind hg
      rw [hreads _ _ rfl, List.flatMap_append, hbehind, List.append_nil] at hg
      exact ⟨hg.1, hg.2.1, hexchange w _ hg.2.2⟩
    split
    next e =>
      refine .bind (dropHandle_yields pipe) fun closing _ hclosing => .pure ?_
      rw [List.append_nil]
      refine ⟨fun acquired hr w j hg => ?_, fun _ h => by cases h⟩
      obtain rfl : .error e = acquired := Option.some.inj hr
      obtain ⟨hprocess, hconnect, hrun⟩ := hasks w j closing (closing_reads hclosing) hg
      rw [hreads _ _ rfl, hsends, sentEvents_append, hasking, closing_sends hclosing,
        List.flatMap_append, closing_reads hclosing]
      simp only [Launch.acquire, run_bind, run_consult, hprocess, hconnect, hrun]
      refine run_ends rfl ?_ rfl
      simp only [List.length_cons, List.append_nil]
      omega
    next response =>
      refine .pure ⟨fun acquired hr w j hg => ?_, fun granted h => ?_⟩
      · obtain rfl := Option.some.inj hr
        obtain ⟨hprocess, hconnect, hrun⟩ := hasks w j [] rfl hg
        rw [hreads _ _ rfl, hsends, sentEvents_append, hasking, List.append_nil]
        simp only [Launch.acquire, run_bind, run_consult, run_record, hprocess, hconnect, hrun]
        refine run_ends rfl ?_ (List.append_assoc _ _ _)
        simp only [List.length_cons]
        omega
      · cases h
        exact htarget _
  refine .bind hopen fun log r h => .pure ?_
  rw [List.append_nil]
  refine ⟨h.1, fun lease hr => ?_⟩
  rcases r with _ | e | granted
  · cases hr
  · cases hr
  · cases hr
    exact h.2 granted rfl

/-- An acquisition has no result only where it is still connecting. -/
theorem acquire_waits : (acquire options rounds).Yields fun log r =>
    r = none → StillConnecting options rounds log := by
  have hopen : (openWith options (connect options rounds) .acquireLease).Yields fun log r =>
      r = none → StillConnecting options rounds log := by
    refine .bind (Program.yields_replay _) fun finding found hfound => ?_
    split
    · exact .pure fun h => by cases h
    next processId =>
    refine .bind (Program.yields_replay _) fun connecting reached hreached => ?_
    split
    · exact .pure fun _ => ⟨processId, connecting ++ [], hfound _, hreached []⟩
    · exact .pure fun h => by cases h
    refine .bind (P := fun _ _ => True) (.of_forall fun _ _ => trivial) fun asking r _ => ?_
    split
    · refine .bind (P := fun _ _ => True) (.of_forall fun _ _ => trivial) fun _ _ _ => ?_
      exact .pure fun h => by cases h
    · exact .pure fun h => by cases h
  refine .bind hopen fun log r h => .pure fun hr => ?_
  rw [List.append_nil]
  exact h (Option.map_eq_none_iff.mp hr)

/-! ## The release -/

theorem exchange_unsnapped (pipe : UInt64) (command : Command) :
    (exchange pipe command).Only fun c => c.takesSnapshot = false := by
  refine .ask rfl fun sent => ?_
  split
  · exact .ask rfl fun _ => .pure _
  split
  · exact .pure _
  refine .ask rfl fun read => ?_
  split
  · exact .ask rfl fun _ => .pure _
  split
  · exact .pure _
  split <;> exact .pure _

/-- A rescan looks for a module first. -/
theorem rescan_begins (processId : UInt32) :
    (rescanSteamControllers processId).Yields fun log _ =>
      ∃ snapshot behind, log = (.snapshotModules processId, snapshot) :: behind := by
  refine .bind (remoteModule_refines _) fun log r h => .of_forall fun more _ => ?_
  obtain ⟨⟨snapshot, behind, rfl⟩, -, -⟩ := h
  exact ⟨snapshot, behind ++ more, rfl⟩

/-- A rescan sends no request. -/
theorem rescan_sends (processId : UInt32) :
    (rescanSteamControllers processId).Yields fun log _ => sentEvents log = [] := by
  have hquiet : hostCustody.Guards (fun log _ rest => rest = 0 ∧ Quiet log)
      (rescanSteamControllers processId) 0 := rescanSteamControllers_guards processId
  refine hquiet.along.imp fun log _ h => ?_
  obtain ⟨rest, -, -, hq⟩ := h
  exact sentEvents_silent hq.written

/-- The exchange of a release, cut out of a log in which a rescan or nothing comes behind it. -/
theorem releaseReads_cut {processId : UInt32} {first rescan : List (HostCall × HostAnswer)}
    (hfirst : ∀ e ∈ first, e.1.takesSnapshot = false)
    (hhead : ∀ e, rescan.head? = some e → e.1.takesSnapshot = true) :
    releaseReads processId (first ++ rescan) =
      first.flatMap readHost ++ rescanReads processId rescan := by
  have hcut : (first ++ rescan).takeWhile (!·.1.takesSnapshot) = first ∧
      (first ++ rescan).dropWhile (!·.1.takesSnapshot) = rescan :=
    Program.log_cut (fun e he => by simp [hfirst e he]) fun e he => by simp [hhead e he]
  rw [releaseReads, hcut.1, hcut.2]

/-- What comes of the recovery of a release: at most one question, and no entry. -/
theorem releaseRecovery_refines (lease : Lease) (response : Response) :
    (releaseRecovery lease response).Yields fun log r =>
      (∀ e, log.head? = some e → e.1.takesSnapshot = true) ∧ sentEvents log = [] ∧
        ∀ w j, Gives w j.instant (rescanReads lease.processId log) →
          (Launch.releaseRecovery w lease.unpiped response).run j =
            (r, ⟨j.instant + (rescanReads lease.processId log).length, j.entries⟩) := by
  have hnothing : rescanReads lease.processId [] = [] := rfl
  unfold releaseRecovery
  split
  next hsteam =>
    refine .pure ⟨by simp, rfl, fun w j _ => ?_⟩
    have hsteam : (!lease.unpiped.targetIsSteam || decide (0 < response.leaseCount)) = true := hsteam
    rw [hnothing, Launch.releaseRecovery, if_pos hsteam]
    rfl
  next hsteam =>
  have hsteam : ¬(!lease.unpiped.targetIsSteam || decide (0 < response.leaseCount)) = true := hsteam
  split
  next hscheduled =>
    refine .pure ⟨by simp, rfl, fun w j _ => ?_⟩
    rw [hnothing, Launch.releaseRecovery, if_neg hsteam, if_pos hscheduled]
    rfl
  next hunscheduled =>
  -- only here does the host rescan by itself, which the environment answers as a whole
  refine .bind (((rescan_begins _).and (rescan_sends _)).and (Program.yields_replay _))
    fun log r h => ?_
  obtain ⟨⟨⟨snapshot, behind, rfl⟩, hsends⟩, hreplay⟩ := h
  have hreads : rescanReads lease.processId ((.snapshotModules lease.processId, snapshot) ::
      behind) = [.rescanSteamControllers r] := by
    have h := hreplay []
    rw [List.append_nil] at h
    rw [rescanReads, h]
    rfl
  have hhead : ∀ e, (((.snapshotModules lease.processId, snapshot) :: behind :
      List (HostCall × HostAnswer)) ++ []).head? = some e → e.1.takesSnapshot = true := by
    intro e he
    cases he
    rfl
  have hrun : ∀ (w : Answers) (j : Journal Event), Gives w j.instant [.rescanSteamControllers r] →
      w.rescanSteamControllers j.instant = r := fun _ _ hg => hg.1
  cases r with
  | ok result =>
    refine .pure ⟨hhead, by rw [List.append_nil, hsends], fun w j hg => ?_⟩
    rw [List.append_nil, hreads] at hg ⊢
    rw [Launch.releaseRecovery, if_neg hsteam, if_neg hunscheduled, run_bind, run_consult,
      hrun w j hg]
    rfl
  | error error =>
    refine .pure ⟨hhead, by rw [List.append_nil, hsends], fun w j hg => ?_⟩
    rw [List.append_nil, hreads] at hg ⊢
    rw [Launch.releaseRecovery, if_neg hsteam, if_neg hunscheduled, run_bind, run_consult,
      hrun w j hg]
    rfl

/-- The exchange of the release, and what comes of the recovery. -/
theorem Lease.release_refines (lease : Lease) :
    lease.release.Yields fun log r => log ≠ [] ∧ ∀ w j,
      Gives w j.instant (releaseReads lease.processId log) →
        (lease.unpiped.release w).run j = (r,
          ⟨j.instant + (releaseReads lease.processId log).length, j.entries ++ sentEvents log⟩) := by
  refine .bind (((exchange_unsnapped lease.pipe .releaseLease).and (exchange_sends _ _)).and
    (exchange_refines _ _)) fun asking r h => ?_
  obtain ⟨⟨hunsnapped, hasking⟩, hexchange⟩ := h
  refine .bind (dropHandle_yields lease.pipe) fun closing _ hclosing => ?_
  have hfirst : ∀ e ∈ asking ++ closing, e.1.takesSnapshot = false :=
    List.forall_mem_append.mpr ⟨hunsnapped, fun e he => by rw [hclosing e he]; rfl⟩
  have hne : ∀ more, asking ++ (closing ++ more) ≠ [] := by
    intro more hnil
    rw [(List.append_eq_nil_iff.mp hnil).1] at hasking
    cases hasking
  -- the exchange, the closing of the pipe, and what comes behind them
  have hreads : ∀ rescan, (∀ e, rescan.head? = some e → e.1.takesSnapshot = true) →
      releaseReads lease.processId (asking ++ (closing ++ rescan)) =
        asking.flatMap readHost ++ rescanReads lease.processId rescan := by
    intro rescan hhead
    rw [← List.append_assoc, releaseReads_cut hfirst hhead, List.flatMap_append,
      closing_reads hclosing, List.append_nil]
  have hsends : ∀ rescan, sentEvents rescan = [] →
      sentEvents (asking ++ (closing ++ rescan)) = [.sent .releaseLease] := by
    intro rescan hrescan
    rw [sentEvents_append, sentEvents_append, hasking, closing_sends hclosing, hrescan]
    rfl
  cases r with
  | error e =>
    refine .pure ⟨hne [], fun w j hg => ?_⟩
    rw [hreads [] (by simp), gives_append] at hg
    rw [hreads [] (by simp), hsends [] rfl, Launch.Lease.release, run_bind, hexchange w j hg.1,
      show rescanReads lease.processId [] = [] from rfl, List.append_nil]
    rfl
  | ok response =>
    refine .bind (releaseRecovery_refines lease response) fun rescan recovery h => .pure ?_
    obtain ⟨hhead, hsilent, hrecovery⟩ := h
    rw [List.append_nil]
    refine ⟨hne rescan, fun w j hg => ?_⟩
    rw [hreads rescan hhead, gives_append] at hg
    rw [hreads rescan hhead, hsends rescan hsilent, Launch.Lease.release, run_bind,
      hexchange w j hg.1, run_bind, hrecovery w _ hg.2]
    refine run_ends rfl ?_ rfl
    rw [List.length_append, Nat.add_assoc]

/-! ## The run -/

/-- The calls of the client's operations. -/
def fromHost (own : List (HostCall × WrappedAnswer)) : List (HostCall × HostAnswer) :=
  own.map (Prod.map id WrappedAnswer.host)

theorem host_isHost (own : List (HostCall × WrappedAnswer)) :
    ∀ e ∈ own.map (Prod.map WrappedCall.host id), e.1.isHost = true := by
  intro e he
  obtain ⟨x, -, rfl⟩ := List.mem_map.mp he
  rfl

theorem hostLog_launch (own : List (LaunchCall × WrappedAnswer)) :
    hostLog (own.map (Prod.map .launch id)) = [] := by
  rw [hostLog, List.filterMap_map]
  exact List.filterMap_eq_nil_iff.mpr fun _ _ => rfl

/-- Without a launch, all calls come before it. -/
theorem launch_missing (own : List (HostCall × WrappedAnswer)) :
    beforeLaunch (own.map (Prod.map .host id)) = fromHost own ∧
      behindLaunch (own.map (Prod.map .host id)) = [] := by
  have hhead : ∀ e, ([] : List (WrappedCall × WrappedAnswer)).head? = some e →
      e.1.isHost = false := by simp
  have hcut := Program.log_cut (host_isHost own) hhead
  rw [List.append_nil] at hcut
  rw [beforeLaunch, behindLaunch, hcut.1, hcut.2]
  exact ⟨hostLog_host own, rfl⟩

/-- The three parts of a run with a launch. -/
theorem launch_cut (own after : List (HostCall × WrappedAnswer))
    {during : List (LaunchCall × WrappedAnswer)} (hne : during ≠ []) :
    beforeLaunch (own.map (Prod.map .host id) ++
        (during.map (Prod.map .launch id) ++ after.map (Prod.map .host id))) = fromHost own ∧
      launchLog (own.map (Prod.map .host id) ++
        (during.map (Prod.map .launch id) ++ after.map (Prod.map .host id))) =
          during.map (Prod.map id WrappedAnswer.launch) ∧
      behindLaunch (own.map (Prod.map .host id) ++
        (during.map (Prod.map .launch id) ++ after.map (Prod.map .host id))) = fromHost after := by
  have hhead : ∀ e, (during.map (Prod.map WrappedCall.launch id) ++
      after.map (Prod.map WrappedCall.host id)).head? = some e → e.1.isHost = false := by
    intro e he
    cases during with
    | nil => exact absurd rfl hne
    | cons x during =>
      cases he
      rfl
  have hcut := Program.log_cut (host_isHost own) hhead
  refine ⟨?_, ?_, ?_⟩
  · rw [beforeLaunch, hcut.1]
    exact hostLog_host own
  · rw [launchLog, List.filterMap_append, List.filterMap_append]
    show launchLog _ ++ (launchLog _ ++ launchLog _) = _
    rw [launchLog_host, launchLog_launch, launchLog_host, List.append_nil, List.nil_append]
  · rw [behindLaunch, hcut.2, hostLog, List.filterMap_append]
    show hostLog _ ++ hostLog _ = _
    rw [hostLog_launch, hostLog_host, List.nil_append]
    rfl

theorem launchAndWait_calls (arguments : List (List UInt16)) (polls : Nat) :
    (launchAndWait arguments true polls).Yields fun log _ => log ≠ [] :=
  fun _ => .of_forall fun _ _ => List.cons_ne_nil _ _

variable (options rounds) (command : List (List UInt16)) (polls : Nat)

/-- The lease, the launch and the release, each for its part of the log. -/
theorem runWrapped_refines :
    (runWrapped options rounds command polls).Yields fun log r =>
      (r = none ∧ launchLog log = [] ∧ StillConnecting options rounds (hostLog log)) ∨
        ∀ w j, Gives w j.instant (wrappedReads options rounds command log) →
          (Launch.runWrapped w options.targetName command polls).run j =
            (r, ⟨j.instant + (wrappedReads options rounds command log).length,
              j.entries ++ wrappedShows log⟩) := by
  unfold runWrapped
  split
  next error hwide =>
    refine .pure (.inr fun w j _ => ?_)
    rw [wrappedReads, Launch.runWrapped, hwide]
    exact run_ends rfl rfl (List.append_nil _).symm
  next arguments hwide =>
  have hreads : ∀ log, wrappedReads options rounds command log =
      acquireReads options rounds (beforeLaunch log) ++ (launchLog log).flatMap readLaunch ++
        releaseReads (targetOf options (beforeLaunch log)) (behindLaunch log) := by
    intro log
    rw [wrappedReads, hwide]
  refine .bind (Program.Yields.embed (acquire_refines.and acquire_waits)) fun log r h => ?_
  obtain ⟨own, rfl, ⟨hacquires, htarget⟩, hwaits⟩ := h
  have hacquires : Acquires options rounds (fromHost own) r := hacquires
  obtain ⟨hbefore, hbehind⟩ := launch_missing own
  rcases r with _ | error | lease
  -- the run ends while it is still connecting: nothing can be said of an answer
  · refine .pure (.inl ⟨rfl, ?_⟩)
    rw [List.append_nil, hostLog_host]
    exact ⟨launchLog_host own, hwaits rfl⟩
  -- no lease, so the log holds no call of the launch and none behind it
  · refine .pure (.inr fun w j hg => ?_)
    rw [List.append_nil] at hg ⊢
    have hnothing : releaseReads (targetOf options (fromHost own)) [] = [] := rfl
    rw [hreads, hbefore, hbehind, launchLog_host, List.flatMap_nil, hnothing, List.append_nil,
      List.append_nil] at hg ⊢
    rw [Launch.runWrapped, hwide]
    show (Launch.acquire w options.targetName >>= _).run j = _
    rw [run_bind, hacquires _ rfl w j hg]
    refine run_ends rfl rfl ?_
    rw [wrappedShows, hbefore, hbehind, launchLog_host, if_pos rfl, if_pos rfl, List.append_nil]
    rfl
  have htarget : targetOf options (fromHost own) = lease.processId := htarget lease rfl
  refine .bind (Program.Yields.embed ((launchAndWait_calls arguments polls).and
    (launchAndWait_simulates arguments true polls))) fun log r h => ?_
  obtain ⟨during, rfl, hcalls, hlaunch⟩ := h
  have hne : during ≠ [] := fun h => hcalls (by rw [h]; rfl)
  rcases r with _ | launched
  -- the launch runs out of polls, so nothing is released
  · refine .pure (.inr fun w j hg => ?_)
    obtain ⟨hbefore, hduring, hbehind⟩ := launch_cut own [] hne
    rw [List.map_nil] at hbefore hduring hbehind
    have hnothing : releaseReads (targetOf options (fromHost own)) [] = [] := rfl
    rw [hreads, hbefore, hduring, hbehind, show fromHost [] = [] from rfl, hnothing,
      List.append_nil, gives_append] at hg
    rw [hreads, hbefore, hduring, hbehind, show fromHost [] = [] from rfl, hnothing,
      List.append_nil, Launch.runWrapped, hwide]
    show (Launch.acquire w options.targetName >>= _).run j = _
    rw [run_bind, hacquires _ rfl w j hg.1]
    show (Launch.launchAndWait w arguments true polls >>= _).run _ = _
    rw [run_bind, hlaunch w _ hg.2]
    refine run_ends rfl ?_ ?_
    · rw [List.length_append, Nat.add_assoc]
    · rw [wrappedShows, hbefore, hduring, hbehind, if_neg hcalls,
        if_pos (show fromHost [] = [] from rfl)]
      simp only [acquiredEvents, List.append_assoc, List.cons_append, List.nil_append,
        List.append_nil]
  -- all three parts are there; the log is cut where the launch begins and ends
  refine .bind (Program.Yields.embed lease.release_refines) fun log released h => ?_
  obtain ⟨after, rfl, hsends, hrelease⟩ := h
  have hsends : fromHost after ≠ [] := hsends
  refine .pure (.inr fun w j hg => ?_)
  rw [List.append_nil] at hg ⊢
  obtain ⟨hbefore, hduring, hbehind⟩ := launch_cut own after hne
  rw [hreads, hbefore, hduring, hbehind, htarget, gives_append, gives_append, List.length_append,
    ← Nat.add_assoc] at hg
  rw [hreads, hbefore, hduring, hbehind, htarget, Launch.runWrapped, hwide]
  show (Launch.acquire w options.targetName >>= _).run j = _
  rw [run_bind, hacquires _ rfl w j hg.1.1]
  show (Launch.launchAndWait w arguments true polls >>= _).run _ = _
  rw [run_bind, hlaunch w _ hg.1.2]
  show (record Event.returned >>= fun _ => lease.unpiped.release w >>= _).run _ = _
  rw [run_bind, run_record, run_bind, hrelease w _ hg.2]
  refine run_ends rfl ?_ ?_
  · rw [List.length_append, List.length_append, Nat.add_assoc, Nat.add_assoc, Nat.add_assoc]
    rfl
  · rw [wrappedShows, hbefore, hduring, hbehind, if_neg hcalls, if_neg hsends]
    simp only [acquiredEvents, List.append_assoc, List.cons_append, List.nil_append]
    rfl

/-- **The two models of `run_wrapped` agree.** However Windows and the payload answer, the
    launcher's model, in the environment that the calls of the run tell of, returns what the run
    returned and enters what it did; but for a run that ends while it is still connecting. -/
theorem wrapped_refines (answers : Nat → WrappedAnswer) :
    (((runWrapped options rounds command polls).run answers).2 = none ∧
        launchLog ((runWrapped options rounds command polls).run answers).1 = [] ∧
          StillConnecting options rounds
            (hostLog ((runWrapped options rounds command polls).run answers).1)) ∨
      (Launch.runWrapped (environment (wrappedReads options rounds command
          ((runWrapped options rounds command polls).run answers).1)) options.targetName command
            polls).run (.start Event) =
        (((runWrapped options rounds command polls).run answers).2,
          ⟨(wrappedReads options rounds command
            ((runWrapped options rounds command polls).run answers).1).length,
            wrappedShows ((runWrapped options rounds command polls).run answers).1⟩) := by
  refine ((runWrapped_refines options rounds command polls).run answers).imp_right fun h => ?_
  have hrun := h _ (.start Event) (environment_gives _)
  rw [hrun]
  exact run_ends rfl (Nat.zero_add _) (List.nil_append _)

end

end Host
end SteamInputLease
