import SteamInputLease.Host.Client
import SteamInputLease.Proof.Host.Process

/-!
# `connect`, call by call

Two models of `connect` stand side by side. `Launch.connect` takes a `Target`: what the attempts at
the pipe, the snapshots and the injection come to, one value for each part, which is what the
launcher's proofs want. `Host.connect` calls Windows and is answered call by call, which is what
custody wants. One source change would mean two models, if nothing tied them together.

`connect_refines` ties them: `targetIn` reads a target off the log of a call-level run, and for that
target `Launch.connect` returns what the run returned and injects where the run did. There is no
choice in it: the attempts are those whose `CreateFileW` is in the log, the snapshots are those that
were taken, in their order, and what `inject_payload` returned is what its own answers, given once
more, lead to. So a call-level `connect` that left out the probe, the lookup, the file check or the
identity of the pipe's server would return something else than its own log says.

The proof follows the calls. Each part of the log is cut out again by the kind of its calls: the
probe is all that comes before the first snapshot or file check, the wait all that comes behind the
next look at the clock.
-/

namespace SteamInputLease
namespace Host

open Lib
open Launch (Error ModuleEntry RemoteModule Snapshot PipeAttempt PipeCalls Target inContext)

section

variable {processId : UInt32} {log first more : List (HostCall × HostAnswer)}

/-! ## Parts of a log -/

theorem injectsInto_append : injectsInto (log ++ more) = (injectsInto log || injectsInto more) :=
  List.any_append

theorem firstAnswer_skip {p : HostCall → Bool} (h : ∀ e ∈ log, p e.1 = false) :
    firstAnswer p (log ++ more) = firstAnswer p more := by
  have hnone : log.find? (fun e => p e.1) = none :=
    List.find?_eq_none.mpr fun e he => by simp [h e he]
  rw [firstAnswer, firstAnswer, List.find?_append, hnone, Option.none_or]

/-- Calls of another kind add no snapshot. -/
theorem snapshotsIn_skip (h : ∀ e ∈ log, e.1.takesSnapshot = false) :
    snapshotsIn (log ++ more) = snapshotsIn more := by
  induction log with
  | nil => rfl
  | cons e log ih =>
    obtain ⟨c, a⟩ := e
    have hc := h (c, a) List.mem_cons_self
    have hrest := ih fun e he => h e (List.mem_cons_of_mem _ he)
    cases c with
    | snapshotModules _ => cases hc
    | _ => exact hrest

theorem reachesPipe_opensProcess {c : HostCall} (h : c.reachesPipe = true) :
    c.opensProcess = false := by
  cases c <;> first | rfl | cases h

theorem injectsInto_reaching (h : ∀ e ∈ log, e.1.reachesPipe = true) : injectsInto log = false :=
  List.any_eq_false.mpr fun e he => by simp [reachesPipe_opensProcess (h e he)]

theorem reachesPipe_closing {handle : UInt64} (h : ∀ e ∈ log, e.1 = .closeHandle handle) :
    ∀ e ∈ log, e.1.reachesPipe = true := fun e he => by
  rw [h e he]
  rfl

/-! ## The pipe -/

/-- A round that opened the pipe. -/
theorem openedPipe_refines (pipe : UInt64) :
    (openedPipe processId pipe).Yields fun log r => (∀ e ∈ log, e.1.reachesPipe = true) ∧
      ∀ file, Launch.openedPipe processId (attemptIn file log) pipe = r := by
  refine .ask fun server => ?_
  have hserver : ∀ file log, (attemptIn file ((.getNamedPipeServerProcessId pipe, server) ::
      log)).server = if server.ok then some server.value else none := fun _ _ => rfl
  split
  next hok =>
    refine .bind (windowsError_yields _) fun log r h => ?_
    obtain ⟨last, rfl, rfl⟩ := h
    refine .bind (dropHandle_yields pipe) fun closing _ hc => .pure ⟨?_, fun file => ?_⟩
    · rw [List.append_nil]
      exact List.forall_mem_cons.mpr ⟨rfl, List.forall_mem_cons.mpr ⟨rfl, reachesPipe_closing hc⟩⟩
    · rw [Launch.openedPipe, hserver, if_neg (by simpa using hok)]
      rfl
  next hok =>
  have hok : server.ok = true := by simpa using hok
  split
  next e he =>
    refine .bind (dropHandle_yields pipe) fun closing _ hc => .pure ⟨?_, fun file => ?_⟩
    · rw [List.append_nil]
      exact List.forall_mem_cons.mpr ⟨rfl, reachesPipe_closing hc⟩
    · rw [Launch.openedPipe, hserver, if_pos hok]
      show (Launch.verifyPipeServer processId server.value).map (fun _ => pipe) = _
      rw [he]
      rfl
  next he =>
    refine .pure ⟨List.forall_mem_cons.mpr ⟨rfl, List.forall_mem_nil _⟩, fun file => ?_⟩
    rw [Launch.openedPipe, hserver, if_pos hok]
    show (Launch.verifyPipeServer processId server.value).map (fun _ => pipe) = _
    rw [he]
    rfl

/-- The loop over the pipe is the loop over its attempts: each round that goes on is one of them,
    and the last one is what the loop ends with. -/
theorem pollPipe_refines (deadline rounds : Nat) :
    (pollPipe processId deadline rounds).Yields fun log r =>
      (∀ e ∈ log, e.1.reachesPipe = true) ∧
        Launch.pollPipe processId deadline (attemptsIn log) = r := by
  induction rounds with
  | zero => exact .pure ⟨List.forall_mem_nil _, rfl⟩
  | succ rounds ih =>
    refine .ask fun file => ?_
    split
    next hi =>
      refine .bind (openedPipe_refines file.handle) fun log r h => .pure ⟨?_, ?_⟩
      · rw [List.append_nil]
        exact List.forall_mem_cons.mpr ⟨rfl, h.1⟩
      · have hfile : (attemptIn file log).createFile = .ok file.handle := if_pos hi
        rw [List.append_nil, attemptsIn, Launch.pollPipe, hfile, ← h.2 file]
    next hi =>
    have hfile : ∀ last more, (attemptIn file ((.lastOsError, last) :: more)).createFile =
        .error last.error := fun _ _ => if_neg hi
    refine .ask fun last => ?_
    split
    next hother =>
      refine .pure ⟨List.forall_mem_cons.mpr ⟨rfl, List.forall_mem_cons.mpr ⟨rfl,
        List.forall_mem_nil _⟩⟩, ?_⟩
      rw [attemptsIn, Launch.pollPipe, hfile]
      exact if_pos hother
    next hrefused =>
    refine .ask fun now => ?_
    split
    next hover =>
      refine .pure ⟨List.forall_mem_cons.mpr ⟨rfl, List.forall_mem_cons.mpr ⟨rfl,
        List.forall_mem_cons.mpr ⟨rfl, List.forall_mem_nil _⟩⟩⟩, ?_⟩
      rw [attemptsIn, Launch.pollPipe, hfile]
      exact (if_neg hrefused).trans (if_pos hover)
    next hwaits =>
      -- how long it waits, and on what, does not tell in the attempts
      have hpause : ∀ pause : HostCall × HostAnswer, ∀ log,
          attemptsIn ((.lastOsError, last) :: (.now, now) ::
            (if last.error = Launch.errorFileNotFound then .sleep else .waitNamedPipe, pause.2) ::
              log) = attemptsIn log := by
        intro pause log
        split <;> rfl
      refine .ask fun pause => ih.imp fun log r h => ⟨?_, ?_⟩
      · refine List.forall_mem_cons.mpr ⟨rfl, List.forall_mem_cons.mpr ⟨rfl,
          List.forall_mem_cons.mpr ⟨rfl, List.forall_mem_cons.mpr ⟨?_, h.1⟩⟩⟩⟩
        show HostCall.reachesPipe (if _ then _ else _) = true
        split <;> rfl
      · rw [attemptsIn, Launch.pollPipe, hfile, hpause (.now, pause)]
        exact ((if_neg hrefused).trans (if_neg hwaits)).trans h.2

theorem connectPipe_refines (timeout rounds : Nat) :
    (connectPipe processId timeout rounds).Yields fun log r =>
      (∀ e ∈ log, e.1.reachesPipe = true) ∧ (∃ started behind, log = (.now, started) :: behind) ∧
        Launch.connectPipe processId timeout (pipeCallsIn log) = r := by
  refine .ask fun started => (pollPipe_refines _ rounds).imp fun log r h => ?_
  exact ⟨List.forall_mem_cons.mpr ⟨rfl, h.1⟩, ⟨started, log, rfl⟩, h.2⟩

/-! ## The lookup -/

/-- The calls of `remote_module`. -/
def HostCall.looksUp : HostCall → Bool
  | .sleep | .snapshotModules _ | .lastOsError | .closeHandle _ => true
  | _ => false

theorem looksUp_none {c : HostCall} (h : c.looksUp = true) :
    c.asksTime = false ∧ c.asksFile = false ∧ c.opensProcess = false := by
  cases c <;> first | exact ⟨rfl, rfl, rfl⟩ | cases h

theorem looksUp_closing {handle : UInt64} (h : ∀ e ∈ log, e.1 = .closeHandle handle) :
    (∀ e ∈ log, e.1.looksUp = true) ∧ ∀ e ∈ log, e.1.takesSnapshot = false :=
  ⟨fun e he => by rw [h e he]; rfl, fun e he => by rw [h e he]; rfl⟩

theorem retryDelay_yields (left : Nat) :
    (retryDelay left).Yields fun log _ =>
      (∀ e ∈ log, e.1.looksUp = true) ∧ ∀ e ∈ log, e.1.takesSnapshot = false := by
  unfold retryDelay
  split
  · refine .ask fun _ => .pure ⟨?_, ?_⟩ <;>
      exact List.forall_mem_cons.mpr ⟨rfl, List.forall_mem_nil _⟩
  · exact .pure ⟨List.forall_mem_nil _, List.forall_mem_nil _⟩

/-- A snapshot that was enumerated to its end. -/
theorem remoteModuleFrom_taken {name : List Char} {attempt left : Nat}
    {snapshots : Nat → Snapshot} {modules : List ModuleEntry}
    (h : snapshots attempt = .taken modules modules.length) :
    Launch.remoteModuleFrom name snapshots attempt (left + 1) =
      (findModule name modules).getD
        (Launch.remoteModuleFrom name snapshots (attempt + 1) left) := by
  rw [Launch.remoteModuleFrom, h, findModule]
  simp only [List.take_length]
  split <;> rfl

/-- The snapshots from `attempt` on are those of the log, as far as it has any. -/
def FollowsFrom (snapshots : Nat → Snapshot) (attempt : Nat)
    (log : List (HostCall × HostAnswer)) : Prop :=
  ∀ i snapshot, (snapshotsIn log)[i]? = some snapshot → snapshots (attempt + i) = snapshot

/-- A snapshot at the front, and those behind it. -/
theorem FollowsFrom.cons {snapshots : Nat → Snapshot} {attempt : Nat} {snapshot : HostAnswer}
    (h : FollowsFrom snapshots attempt ((.snapshotModules processId, snapshot) :: log)) :
    snapshots attempt = snapshotIn snapshot log ∧ FollowsFrom snapshots (attempt + 1) log := by
  refine ⟨h 0 _ rfl, fun i s hi => ?_⟩
  rw [Nat.add_assoc, Nat.add_comm 1 i]
  exact h (i + 1) s hi

theorem FollowsFrom.skip {snapshots : Nat → Snapshot} {attempt : Nat}
    (hlog : ∀ e ∈ log, e.1.takesSnapshot = false)
    (h : FollowsFrom snapshots attempt (log ++ more)) : FollowsFrom snapshots attempt more := by
  rw [FollowsFrom, snapshotsIn_skip hlog] at h
  exact h

theorem remoteModuleFrom_refines (name : List Char) (attempt left : Nat) :
    (remoteModuleFrom processId name left).Yields fun log r =>
      (∀ e ∈ log, e.1.looksUp = true) ∧
        ∀ more snapshots, FollowsFrom snapshots attempt (log ++ more) →
          Launch.remoteModuleFrom name snapshots attempt left = r := by
  induction left generalizing attempt with
  | zero => exact .pure ⟨List.forall_mem_nil _, fun _ _ _ => rfl⟩
  | succ left ih =>
    refine .bind (retryDelay_yields _) fun pause _ hpause => .ask fun snapshot => ?_
    obtain ⟨hpause, hnone⟩ := hpause
    -- the calls of this attempt, and of what comes behind it
    have hcalls : ∀ {behind : List (HostCall × HostAnswer)}, (∀ e ∈ behind, e.1.looksUp = true) →
        ∀ e ∈ pause ++ (.snapshotModules processId, snapshot) :: behind, e.1.looksUp = true :=
      fun hb => List.forall_mem_append.mpr ⟨hpause, List.forall_mem_cons.mpr ⟨rfl, hb⟩⟩
    have hfollows : ∀ {behind more : List (HostCall × HostAnswer)} {snapshots : Nat → Snapshot},
        FollowsFrom snapshots attempt
          ((pause ++ (.snapshotModules processId, snapshot) :: behind) ++ more) →
        snapshots attempt = snapshotIn snapshot (behind ++ more) ∧
          FollowsFrom snapshots (attempt + 1) (behind ++ more) := by
      intro behind more snapshots h
      rw [List.append_assoc] at h
      exact (h.skip hnone).cons
    split
    next hi =>
      have hinvalid : ∀ last more, snapshotIn snapshot ((.lastOsError, last) :: more) =
          .invalid last.error := fun _ _ => if_pos hi
      refine .ask fun last => ?_
      split
      next hbad =>
        refine (ih (attempt + 1)).imp fun log r h => ⟨?_, fun more snapshots hs => ?_⟩
        · exact hcalls (List.forall_mem_cons.mpr ⟨rfl, h.1⟩)
        · obtain ⟨hfirst, hrest⟩ := hfollows hs
          rw [Launch.remoteModuleFrom, hfirst, List.cons_append, hinvalid]
          refine (if_pos hbad).trans (h.2 more snapshots ?_)
          have hnone : ∀ e ∈ [((.lastOsError, last) : HostCall × HostAnswer)],
              e.1.takesSnapshot = false :=
            List.forall_mem_cons.mpr ⟨rfl, List.forall_mem_nil _⟩
          exact FollowsFrom.skip hnone hrest
      next hother =>
        refine .pure ⟨hcalls (List.forall_mem_cons.mpr ⟨rfl, List.forall_mem_nil _⟩),
          fun more snapshots hs => ?_⟩
        obtain ⟨hfirst, _⟩ := hfollows hs
        rw [Launch.remoteModuleFrom, hfirst, List.cons_append, hinvalid]
        exact if_neg hother
    next hi =>
    have htaken : ∀ more, snapshotIn snapshot more =
        .taken snapshot.modules snapshot.modules.length := fun _ => if_neg hi
    refine .bind (dropHandle_yields snapshot.handle) fun closing _ hc => ?_
    obtain ⟨hclosing, hnothing⟩ := looksUp_closing hc
    split
    next found hfind =>
      refine .pure ⟨?_, fun more snapshots hs => ?_⟩
      · rw [List.append_nil]
        exact hcalls hclosing
      · rw [List.append_nil] at hs
        rw [remoteModuleFrom_taken ((hfollows hs).1.trans (htaken _)), hfind]
        rfl
    next hfind =>
      refine (ih (attempt + 1)).imp fun log r h => ⟨?_, fun more snapshots hs => ?_⟩
      · exact hcalls (List.forall_mem_append.mpr ⟨hclosing, h.1⟩)
      · obtain ⟨hfirst, hrest⟩ := hfollows hs
        rw [remoteModuleFrom_taken (hfirst.trans (htaken _)), hfind]
        rw [List.append_assoc] at hrest
        exact h.2 more snapshots (hrest.skip hnothing)

/-- The lookup begins with a snapshot: only the attempts behind the first one pause. -/
theorem remoteModule_refines (name : List Char) :
    (remoteModule processId name).Yields fun log r =>
      (∃ snapshot behind, log = (.snapshotModules processId, snapshot) :: behind) ∧
        (∀ e ∈ log, e.1.looksUp = true) ∧
        ∀ more snapshots, FollowsFrom snapshots 0 (log ++ more) →
          Launch.remoteModule name snapshots = r := by
  have hbegins : (remoteModule processId name).Yields fun log _ =>
      ∃ snapshot behind, log = (.snapshotModules processId, snapshot) :: behind :=
    fun snapshot => .of_forall fun behind _ => ⟨snapshot, behind, rfl⟩
  exact hbegins.and (remoteModuleFrom_refines name 0 _)

/-! ## The injection -/

/-- An injection opens the target first, and never looks at the clock. -/
theorem injectPayload_opens (payload : String) :
    (injectPayload processId payload).Yields fun log _ =>
      ∃ process behind, log = (.openProcess processId, process) :: behind :=
  .ask fun process => .of_forall fun behind _ => ⟨process, behind, rfl⟩

/-- A part of the library that does not look at the clock. -/
abbrev Untimed {α : Type} (x : Hosting α) : Prop := x.Only fun c => c.asksTime = false

theorem dropHandle_untimed (handle : UInt64) : Untimed (dropHandle handle) := by
  unfold dropHandle
  split
  · exact .pure _
  · exact .ask rfl fun _ => .pure _

theorem windowsError_untimed {α : Type} (operation : String) :
    Untimed (windowsError operation : Hosting (Except Error α)) := .ask rfl fun _ => .pure _

theorem remoteModule_untimed (name : List Char) : Untimed (remoteModule processId name) :=
  (remoteModule_refines name).imp fun _ _ h e he => (looksUp_none (h.2.1 e he)).1

theorem sameArchitecture_untimed (target : UInt64) : Untimed (sameArchitecture target) := by
  refine .ask rfl fun own => ?_
  split
  · exact .pure _
  · exact .ask rfl fun _ => .pure _

theorem awaitThread_untimed (thread : UInt64) : Untimed (awaitThread thread) := by
  refine .ask rfl fun wait => ?_
  split
  · refine .ask rfl fun exit => ?_
    split <;> exact .pure _
  split
  · exact .pure _
  · exact .bind (windowsError_untimed _) fun _ => .pure _

theorem inject_untimed (process start remotePath : UInt64) (payloadWide : List UInt16) :
    Untimed (inject process start remotePath payloadWide) := by
  refine .ask rfl fun written => ?_
  split
  · exact .bind (windowsError_untimed _) fun _ => .pure _
  refine .ask rfl fun thread => ?_
  split
  · exact .bind (windowsError_untimed _) fun _ => .pure _
  · exact .bind (awaitThread_untimed _) fun _ => .bind (dropHandle_untimed _) fun _ => .pure _

theorem loadRemotely_untimed (process start : UInt64) (payloadWide : List UInt16) :
    Untimed (loadRemotely process start payloadWide) := by
  refine .ask rfl fun remote => ?_
  split
  · exact windowsError_untimed _
  refine .bind (inject_untimed _ _ _ _) fun r => .bind ?_ fun _ => .pure _
  unfold freeIdle
  split
  · exact .ask rfl fun _ => .pure _
  · exact .pure _

theorem injectInto_untimed (process : UInt64) (payload : String) :
    Untimed (injectInto processId process payload) := by
  refine .bind (sameArchitecture_untimed process) fun same => ?_
  split
  · exact .pure _
  refine .bind (remoteModule_untimed _) fun kernel32 => ?_
  cases kernel32 with
  | none => exact .pure _
  | some kernel32 =>
    refine .ask rfl fun localKernel32 => .ask rfl fun loadLibrary => ?_
    split
    · exact .pure _
    refine .ask rfl fun absolute => ?_
    split
    · exact .pure _
    split
    · exact .pure _
    · exact loadRemotely_untimed _ _ _

theorem injectPayload_untimed (payload : String) : Untimed (injectPayload processId payload) := by
  refine .ask rfl fun process => ?_
  split
  · exact windowsError_untimed _
  · exact .bind (injectInto_untimed _ _) fun _ => .bind (dropHandle_untimed _) fun _ => .pure _

/-! ## The client -/

variable (options : ClientOptions) (rounds : Nat) (mapped : List ModuleEntry)

/-- The run is that of `x` for the target its log tells of. -/
def Refines (processId : UInt32) (x : Target → Launch.Connecting (Option (Except Error UInt64)))
    (log : List (HostCall × HostAnswer)) (r : Option (Except Error UInt64)) : Prop :=
  (x (targetIn options processId mapped log)).run [] =
    (r, if injectsInto log then [mapped] else [])

/-- What a log tells of the target behind a probe. -/
theorem targetIn_behind (hallow : options.allowInjection = true)
    (hfirst : ∀ e ∈ first, e.1.reachesPipe = true)
    (hhead : ∀ e, log.head? = some e → e.1.reachesPipe = false) :
    targetIn options processId mapped (first ++ log) =
      { probe := pipeCallsIn first
        wait := pipeCallsIn (log.dropWhile (!·.1.asksTime))
        snapshots := fun i => ((snapshotsIn log)[i]?).getD (.invalid 0)
        isFile := (firstAnswer HostCall.asksFile log).any (·.ok)
        mapped := mapped
        injectPayload := ((injectPayload processId options.payloadPath).replay
          (log.dropWhile (!·.1.opensProcess))).elim (.ok ()) (·.1) } := by
  obtain ⟨htake, hdrop⟩ := Program.log_cut hfirst hhead
  simp only [targetIn, htake, hdrop, hallow, if_true]

/-- The wait, cut out of a log in which nothing before it looks at the clock. -/
theorem wait_cut (hlog : ∀ e ∈ log, e.1.asksTime = false)
    (hmore : ∃ started behind, more = (.now, started) :: behind) :
    (log ++ more).dropWhile (!·.1.asksTime) = more := by
  obtain ⟨started, behind, rfl⟩ := hmore
  rw [List.dropWhile_append_of_pos fun e he => by simp [hlog e he]]
  rfl

/-- The injection, cut out of a log in which nothing before it opens the target. -/
theorem injection_cut (hlog : ∀ e ∈ log, e.1.opensProcess = false)
    (hmore : ∃ process behind, more = (.openProcess processId, process) :: behind) :
    (log ++ more).dropWhile (!·.1.opensProcess) = more := by
  obtain ⟨process, behind, rfl⟩ := hmore
  rw [List.dropWhile_append_of_pos fun e he => by simp [hlog e he]]
  rfl

theorem residentByName_refines :
    (residentByName options processId).Yields fun log resident =>
      (∀ e ∈ log, e.1.looksUp = true) ∧
      (∀ e, log.head? = some e → e.1.reachesPipe = false) ∧
      (resident = true → log ≠ []) ∧
      ∀ more probe wait snapshots isFile mapped injected, FollowsFrom snapshots 0 (log ++ more) →
        Launch.residentByName options.toClientOptions
          ⟨probe, wait, snapshots, isFile, mapped, injected⟩ = resident := by
  unfold residentByName
  split
  next hname =>
    refine .pure ⟨List.forall_mem_nil _, by simp, by simp, fun _ _ _ _ _ _ _ _ => ?_⟩
    rw [Launch.residentByName, hname]
  next name hname =>
    refine .bind (remoteModule_refines name) fun log r h => .pure ?_
    obtain ⟨⟨snapshot, behind, rfl⟩, hcalls, hr⟩ := h
    rw [List.append_nil]
    refine ⟨hcalls, ?_, by simp, fun more _ _ snapshots _ _ _ ht => ?_⟩
    · intro e he
      cases he
      rfl
    · rw [Launch.residentByName, hname, ← hr more snapshots ht]

/-- The snapshots that the log tells of are those of the log. -/
theorem followsFrom_snapshotsIn :
    FollowsFrom (fun i => ((snapshotsIn log)[i]?).getD (.invalid 0)) 0 log := by
  intro i snapshot hi
  rw [Nat.zero_add]
  exact congrArg (·.getD (.invalid 0)) hi

/-- Behind a probe that nothing answered. -/
theorem injectAndConnect_refines {context source : String} (hallow : options.allowInjection = true)
    (hfirst : ∀ e ∈ first, e.1.reachesPipe = true)
    (hprobe : Launch.connectPipe processId Launch.probeTimeout (pipeCallsIn first) =
      some (.error (.payloadUnavailable context source))) :
    (injectAndConnect options rounds processId).Yields fun log r =>
      Refines options mapped processId
        (Launch.connectOrInject options.toClientOptions processId) (first ++ log) r := by
  have hquiet := injectsInto_reaching hfirst
  refine .bind (residentByName_refines options) fun lookup resident h => ?_
  obtain ⟨hcalls, hhead, hsome, hresident⟩ := h
  have hlookup : injectsInto lookup = false :=
    List.any_eq_false.mpr fun e he => by simp [(looksUp_none (hcalls e he)).2.2]
  cases resident with
  | true =>
    refine .bind (connectPipe_refines _ rounds) fun wait r h => .pure ?_
    obtain ⟨hwait, hbegins, rfl⟩ := h
    have hhead' : ∀ e, (lookup ++ (wait ++ [])).head? = some e → e.1.reachesPipe = false := by
      intro e he
      rw [List.head?_append_of_ne_nil _ (hsome rfl)] at he
      exact hhead e he
    have hcut : (lookup ++ (wait ++ [])).dropWhile (!·.1.asksTime) = wait := by
      rw [List.append_nil]
      exact wait_cut (fun e he => (looksUp_none (hcalls e he)).1) hbegins
    rw [Refines, targetIn_behind options mapped hallow hfirst hhead', hcut, List.append_nil,
      injectsInto_append, injectsInto_append, hquiet, hlookup, injectsInto_reaching hwait,
      Launch.connectOrInject, hprobe]
    simp only [hresident wait _ _ _ _ _ _ followsFrom_snapshotsIn]
    rfl
  | false =>
    refine .ask fun file => ?_
    have hhead' : ∀ behind : List (HostCall × HostAnswer), ∀ e,
        (lookup ++ (.isFile options.payloadPath, file) :: behind).head? = some e →
          e.1.reachesPipe = false := by
      intro behind e he
      cases lookup with
      | nil =>
        cases he
        rfl
      | cons e' lookup =>
        cases he
        exact hhead e rfl
    have hfile : ∀ behind : List (HostCall × HostAnswer), firstAnswer HostCall.asksFile
        (lookup ++ (.isFile options.payloadPath, file) :: behind) = some file := by
      intro behind
      rw [firstAnswer_skip fun e he => (looksUp_none (hcalls e he)).2.1]
      rfl
    have hlog : ∀ behind : List (HostCall × HostAnswer),
        injectsInto (first ++ (lookup ++ (.isFile options.payloadPath, file) :: behind)) =
          injectsInto behind := by
      intro behind
      rw [injectsInto_append, injectsInto_append, hquiet, hlookup]
      rfl
    split
    next hf =>
      rw [Bool.not_eq_true'] at hf
      refine .pure ?_
      rw [Refines, targetIn_behind options mapped hallow hfirst (hhead' _), hfile, hlog,
        Launch.connectOrInject, hprobe]
      simp only [hresident _ _ _ _ _ _ _ followsFrom_snapshotsIn, Option.any_some, hf]
      rfl
    next hf =>
    have hf : file.ok = true := by simpa using hf
    refine .bind (((injectPayload_opens options.payloadPath).and
      (injectPayload_untimed options.payloadPath)).and (Program.yields_replay _))
        fun injection r h => ?_
    obtain ⟨⟨hopens, huntimed⟩, hreplay⟩ := h
    have hinjects : ∀ behind, injectsInto (injection ++ behind) = true := by
      obtain ⟨process, rest, rfl⟩ := hopens
      exact fun _ => rfl
    -- what the answers of the injection lead to, with anything behind it
    have hresult : ∀ behind : List (HostCall × HostAnswer),
        (injectPayload processId options.payloadPath).replay
          ((lookup ++ (HostCall.isFile options.payloadPath, file) ::
            (injection ++ behind)).dropWhile (!·.1.opensProcess)) = some (r, behind) := by
      intro behind
      have hbefore : ∀ e ∈ lookup ++ [((.isFile options.payloadPath, file) : HostCall × HostAnswer)],
          e.1.opensProcess = false :=
        List.forall_mem_append.mpr ⟨fun e he => (looksUp_none (hcalls e he)).2.2,
          List.forall_mem_cons.mpr ⟨rfl, List.forall_mem_nil _⟩⟩
      have hbegins : ∃ process rest, injection ++ behind =
          (.openProcess processId, process) :: rest := by
        obtain ⟨process, rest, rfl⟩ := hopens
        exact ⟨process, rest ++ behind, rfl⟩
      have hcut := injection_cut hbefore hbegins
      rw [List.append_assoc] at hcut
      rw [show lookup ++ (.isFile options.payloadPath, file) :: (injection ++ behind) = lookup ++
        ([(.isFile options.payloadPath, file)] ++ (injection ++ behind)) from rfl, hcut]
      exact hreplay _
    cases r with
    | error e =>
      refine .pure ?_
      rw [Refines, targetIn_behind options mapped hallow hfirst (hhead' _), hfile, hlog, hinjects,
        hresult, Launch.connectOrInject, hprobe]
      simp only [hresident _ _ _ _ _ _ _ followsFrom_snapshotsIn, Option.any_some, hf]
      rfl
    | ok u =>
      refine .bind (connectPipe_refines _ rounds) fun wait r h => .pure ?_
      obtain ⟨hwait, hbegins, rfl⟩ := h
      have hbefore : ∀ e ∈ lookup ++ ((HostCall.isFile options.payloadPath, file) :: injection),
          e.1.asksTime = false :=
        List.forall_mem_append.mpr ⟨fun e he => (looksUp_none (hcalls e he)).1,
          List.forall_mem_cons.mpr ⟨rfl, huntimed⟩⟩
      have hcut : (lookup ++ (HostCall.isFile options.payloadPath, file) ::
          (injection ++ (wait ++ []))).dropWhile (!·.1.asksTime) = wait := by
        rw [List.append_nil]
        have h := wait_cut hbefore hbegins
        rwa [List.append_assoc] at h
      rw [Refines, targetIn_behind options mapped hallow hfirst (hhead' _), hfile, hlog, hinjects,
        hresult, hcut, Launch.connectOrInject, hprobe]
      simp only [hresident _ _ _ _ _ _ _ followsFrom_snapshotsIn, Option.any_some, hf]
      rfl

theorem connectOrInject_refines (hallow : options.allowInjection = true) :
    (connectOrInject options rounds processId).Yields
      (Refines options mapped processId
        (Launch.connectOrInject options.toClientOptions processId)) := by
  refine .bind (connectPipe_refines _ rounds) fun first r h => ?_
  obtain ⟨hfirst, _, hprobe⟩ := h
  split
  next context source =>
    exact injectAndConnect_refines options rounds mapped hallow hfirst hprobe
  next hother =>
    refine .pure ?_
    rw [Refines, targetIn_behind options mapped hallow hfirst (by simp), List.append_nil,
      injectsInto_reaching hfirst, Launch.connectOrInject, hprobe]
    rcases r with _ | e | pipe
    · rfl
    · cases e <;> first | rfl | exact absurd rfl (hother _ _)
    · rfl

/-- However Windows answers, what `connect` returns call by call is what the function-level
    `connect` returns for the target that the log of its calls tells of, whatever is mapped where
    the payload is injected, and it injects just where that one does. -/
theorem connect_refines (answers : Nat → HostAnswer) :
    (Launch.connect options.toClientOptions processId (targetIn options processId mapped
      ((connect options rounds processId).run answers).1)).run [] =
        (((connect options rounds processId).run answers).2,
          if injectsInto ((connect options rounds processId).run answers).1 then [mapped]
          else []) := by
  have hrefines : (connect options rounds processId).Yields
      (Refines options mapped processId
        (Launch.connect options.toClientOptions processId)) := by
    unfold connect
    by_cases hallow : options.allowInjection = true
    · rw [if_pos hallow]
      refine (connectOrInject_refines options rounds mapped hallow).imp fun log r h => ?_
      rw [Refines, Launch.connect, if_pos hallow]
      exact h
    · rw [if_neg hallow]
      refine .bind (connectPipe_refines _ rounds) fun log r h => .pure ?_
      obtain ⟨hlog, _, rfl⟩ := h
      rw [Refines, Launch.connect, if_neg hallow, List.append_nil, injectsInto_reaching hlog,
        Launch.connectOnly, targetIn, if_neg hallow]
      rfl
  exact hrefines.run answers

end

end Host
end SteamInputLease
