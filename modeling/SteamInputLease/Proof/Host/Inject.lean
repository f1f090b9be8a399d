import SteamInputLease.Host.Inject
import SteamInputLease.Proof.Host.Calls

/-!
# What `inject_payload` leaves behind

From the allocation on there are five ways a run can go (`LoadRun`). Everything before it is quiet,
and everything behind it closes handles, so what holds of these five holds of the whole.

The difficulty is the path that is written into the target. It may be freed as long as no thread was
started on it, and again when that thread was seen to end; a wait that times out or fails leaves a
thread that may still read it, and then it has to stay. So the runs are listed instead of described:
`WaitRun`, `InjectRun` and `LoadRun` have one constructor for each way of getting to the end, with
the calls it is made of, and the lemmas about the functions only say that these are all. Custody,
the fate of the path, the one thread and what it was started on are then read off the lists, for
each constructor by computation.
-/

namespace SteamInputLease
namespace Host

open Lib
open Launch (Error RemoteModule)

section

variable {held : Multiset HostHandle}

/-! ## The closure -/

/-- How the wait for the thread goes, with what it says of the path. -/
inductive WaitRun (thread : UInt64) :
    List (HostCall × HostAnswer) → Bool × Except Error Unit → Prop
  | ended (wait exit : HostAnswer) (r : Except Error Unit) (hwait : wait.value = waitObject0)
      (hr : r = .ok () ↔ exit.ok = true ∧ exit.value ≠ 0) :
    WaitRun thread [(.waitForSingleObject thread, wait), (.getExitCodeThread thread, exit)]
      (true, r)
  | abandoned (wait : HostAnswer) (tail : List (HostCall × HostAnswer)) (e : Error)
      (hwait : wait.value ≠ waitObject0) (ht : ∀ e ∈ tail, e.1 = .lastOsError) :
    WaitRun thread ((.waitForSingleObject thread, wait) :: tail) (false, .error e)

/-- How the closure goes, with what it says of the path. -/
inductive InjectRun (process start address : UInt64) (wide : List UInt16) :
    List (HostCall × HostAnswer) → Bool × Except Error Unit → Prop
  | unwritten (w last : HostAnswer) (e : Error) :
    InjectRun process start address wide
      [(.writeProcessMemory process address wide, w), (.lastOsError, last)] (true, .error e)
  | unstarted (w t last : HostAnswer) (e : Error) (hw : w.ok = true) (ht : t.handle = 0) :
    InjectRun process start address wide
      [(.writeProcessMemory process address wide, w),
        (.createRemoteThread process start address, t), (.lastOsError, last)] (true, .error e)
  | waited (w t : HostAnswer) (log closing : List (HostCall × HostAnswer))
      (r : Bool × Except Error Unit) (hw : w.ok = true) (ht : t.handle ≠ 0)
      (hlog : WaitRun t.handle log r) (hc : ∀ e ∈ closing, e.1 = .closeHandle t.handle) :
    InjectRun process start address wide
      ((.writeProcessMemory process address wide, w) ::
        (.createRemoteThread process start address, t) :: (log ++ closing)) r

theorem awaitThread_guards {thread : UInt64} (ht : owned thread ≤ held) :
    hostCustody.Guards (fun log r rest => rest = held ∧ WaitRun thread log r)
      (awaitThread thread) held := by
  refine .look (owned_mem ht) (fun _ => rfl) (fun _ => rfl) fun wait => ?_
  split
  case isTrue hw =>
    refine .look (owned_mem ht) (fun _ => rfl) (fun _ => rfl) fun exit => ?_
    split
    case isTrue hx =>
      refine .pure ⟨rfl, .ended wait exit _ hw ?_⟩
      simp only [Bool.or_eq_true, Bool.not_eq_true', beq_iff_eq] at hx
      rcases hx with hx | hx <;> simp [hx]
    case isFalse hx =>
      refine .pure ⟨rfl, .ended wait exit _ hw ?_⟩
      simpa using hx
  case isFalse hw =>
    split
    · exact .pure ⟨rfl, .abandoned wait [] _ hw (List.forall_mem_nil _)⟩
    · refine .bind (windowsError_guards _) fun log r rest h => ?_
      obtain ⟨rfl, last, rfl, rfl⟩ := h
      exact .pure ⟨rfl, .abandoned wait [(.lastOsError, last)] _ hw (by simp)⟩

theorem inject_guards {process start address : UInt64} {wide : List UInt16}
    (hp : owned process + {.remote process address} ≤ held) :
    hostCustody.Guards (fun log r rest => rest = held ∧
        InjectRun process start address wide log r)
      (inject process start address wide) held := by
  have huses : ∀ h ∈ owned process + {HostHandle.remote process address}, h ∈ held :=
    fun _ hh => Multiset.mem_of_le hp hh
  refine .look huses (fun _ => rfl) (fun _ => rfl) fun w => ?_
  split
  · refine .bind (windowsError_guards _) fun log r rest h => ?_
    obtain ⟨rfl, last, rfl, rfl⟩ := h
    exact .pure ⟨rfl, .unwritten w last _⟩
  next hw =>
    have hw : w.ok = true := by simpa using hw
    refine .receive huses (fun _ => rfl) fun t => ?_
    rw [show hostCustody.gives (.createRemoteThread process start address) t = owned t.handle from
      rfl]
    split
    case isTrue ht =>
      rw [show owned t.handle = 0 from if_pos (.inl ht), add_zero]
      refine .bind (windowsError_guards _) fun log r rest h => ?_
      obtain ⟨rfl, last, rfl, rfl⟩ := h
      exact .pure ⟨rfl, .unstarted w t last _ hw ht⟩
    case isFalse ht =>
      refine .bind (awaitThread_guards (Multiset.le_add_left _ _)) fun log r rest h => ?_
      obtain ⟨rfl, hlog⟩ := h
      refine .bind (dropHandle_guards t.handle) fun closing _ rest h => ?_
      obtain ⟨rfl, hclosing⟩ := h
      refine .pure ⟨rfl, ?_⟩
      rw [List.append_nil]
      exact .waited w t log closing r hw ht hlog hclosing

/-! ## What a run of the closure shows -/

section

variable {process start address : UInt64} {wide : List UInt16}
  {log : List (HostCall × HostAnswer)} {r : Bool × Except Error Unit}

/-- Not a call by which the path is given to a thread, or comes back. -/
def HostCall.leavesPath : HostCall → Prop
  | .virtualAllocEx _ _ | .virtualFreeEx _ _ | .createRemoteThread _ _ _
  | .waitForSingleObject _ => False
  | _ => True

theorem RemotePath.next_leaves (path : RemotePath) {e : HostCall × HostAnswer}
    (h : e.1.leavesPath) : path.next e = path := by
  obtain ⟨c, a⟩ := e
  cases c <;> first | exact h.elim | (cases path <;> rfl)

theorem RemotePath.foldl_leaves (path : RemotePath) (h : ∀ e ∈ log, e.1.leavesPath) :
    log.foldl next path = path := by
  induction log with
  | nil => rfl
  | cons e log ih =>
    rw [List.foldl_cons, next_leaves path (h e List.mem_cons_self)]
    exact ih fun e he => h e (List.mem_cons_of_mem _ he)

theorem WaitRun.path {thread : UInt64} (h : WaitRun thread log r) :
    log.foldl RemotePath.next (.lent process address thread) =
      if r.1 then .idle process address else .lent process address thread := by
  cases h with
  | ended wait exit r hwait => simp [RemotePath.next, hwait]
  | abandoned wait tail e hwait ht =>
    rw [List.foldl_cons, RemotePath.foldl_leaves]
    · simp [RemotePath.next, hwait]
    · intro e he
      rw [ht e he]
      trivial

/-- The path is idle again, or a thread has it. -/
theorem InjectRun.path (h : InjectRun process start address wide log r) :
    (r.1 = true → log.foldl RemotePath.next (.idle process address) = .idle process address) ∧
    (r.1 = false → ∃ thread, log.foldl RemotePath.next (.idle process address) =
      .lent process address thread) := by
  cases h with
  | unwritten => exact ⟨fun _ => rfl, nofun⟩
  | unstarted w t last e hw ht => exact ⟨fun _ => by simp [RemotePath.next, ht], nofun⟩
  | waited w t log closing r hw ht hlog hc =>
    have hfold : (log ++ closing).foldl RemotePath.next (.lent process address t.handle) =
        if r.1 then .idle process address else .lent process address t.handle := by
      rw [List.foldl_append, hlog.path, RemotePath.foldl_leaves]
      intro e he
      rw [hc e he]
      trivial
    have hstep : ((.writeProcessMemory process address wide, w) ::
        (.createRemoteThread process start address, t) :: (log ++ closing)).foldl RemotePath.next
          (.idle process address) =
        (log ++ closing).foldl RemotePath.next (.lent process address t.handle) := by
      simp [RemotePath.next, ht]
    rw [hstep, hfold]
    exact ⟨fun hr => if_pos hr, fun hr => ⟨t.handle, if_neg (by simp [hr])⟩⟩

end

/-! ## From the allocation on -/

/-- How a run goes from the allocation on. -/
inductive LoadRun (process start : UInt64) (wide : List UInt16) :
    List (HostCall × HostAnswer) → Except Error Unit → Prop
  | unallocated (a last : HostAnswer) (e : Error) (ha : a.handle = 0) :
    LoadRun process start wide
      [(.virtualAllocEx process (wide.length * 2), a), (.lastOsError, last)] (.error e)
  | freed (a f : HostAnswer) (log : List (HostCall × HostAnswer)) (r : Except Error Unit)
      (ha : a.handle ≠ 0) (hlog : InjectRun process start a.handle wide log (true, r)) :
    LoadRun process start wide
      ((.virtualAllocEx process (wide.length * 2), a) ::
        (log ++ [(.virtualFreeEx process a.handle, f)])) r
  | left (a : HostAnswer) (log : List (HostCall × HostAnswer)) (r : Except Error Unit)
      (ha : a.handle ≠ 0) (hlog : InjectRun process start a.handle wide log (false, r)) :
    LoadRun process start wide ((.virtualAllocEx process (wide.length * 2), a) :: log) r

theorem freeIdle_guards (idle : Bool) {process address : UInt64} (hp : owned process ≤ held) :
    hostCustody.Guards (fun log _ rest =>
        (idle = true → rest = held ∧
          ∃ f : HostAnswer, log = [(.virtualFreeEx process address, f)]) ∧
        (idle = false → rest = held + {.remote process address} ∧ log = []))
      (freeIdle idle process address) (held + {.remote process address}) := by
  cases idle with
  | true =>
    refine .spend ?_ (fun _ => rfl) (fun _ => rfl) fun f => .pure ⟨fun _ => ⟨rfl, f, rfl⟩, nofun⟩
    intro x hx
    exact Multiset.mem_add.mpr (.inl (owned_mem hp x hx))
  | false => exact .pure ⟨nofun, fun _ => ⟨rfl, rfl⟩⟩

/-- The path that is left to a thread is the only thing that stays. -/
theorem loadRemotely_guards {process start : UInt64} {wide : List UInt16}
    (hp : owned process ≤ held) :
    hostCustody.Guards (fun log r rest => LoadRun process start wide log r ∧
        rest = held + (remotePath log).leaked) (loadRemotely process start wide) held := by
  refine .receive (owned_mem hp) (fun _ => rfl) fun a => ?_
  split
  case isTrue ha =>
    rw [show hostCustody.gives (.virtualAllocEx process _) a = 0 from if_pos ha, add_zero]
    refine (windowsError_guards _).imp fun log r rest h => ?_
    obtain ⟨rfl, last, rfl, rfl⟩ := h
    refine ⟨.unallocated a last _ ha, ?_⟩
    simp [remotePath, RemotePath.next, ha, RemotePath.leaked]
  case isFalse ha =>
    rw [show hostCustody.gives (.virtualAllocEx process _) a = {.remote process a.handle} from
      if_neg ha]
    refine .bind (inject_guards (add_le_add_left hp _)) fun log idle rest h => ?_
    obtain ⟨rfl, hlog⟩ := h
    obtain ⟨idle, r⟩ := idle
    -- how far the path is behind the closure
    have halloc : ∀ more : List (HostCall × HostAnswer),
        remotePath ((.virtualAllocEx process (wide.length * 2), a) :: (log ++ more)) =
          more.foldl .next (log.foldl .next (.idle process a.handle)) := by
      intro more
      rw [remotePath, List.foldl_cons, List.foldl_append]
      simp [RemotePath.next, ha]
    refine .bind (freeIdle_guards idle hp) fun freed _ rest h => ?_
    cases idle with
    | true =>
      obtain ⟨rfl, f, rfl⟩ := h.1 rfl
      refine .pure ⟨.freed a f log r ha hlog, ?_⟩
      rw [List.append_nil, halloc, hlog.path.1 rfl]
      simp [RemotePath.next, RemotePath.leaked]
    | false =>
      obtain ⟨rfl, rfl⟩ := h.2 rfl
      obtain ⟨thread, hpath⟩ := hlog.path.2 rfl
      have hleft := LoadRun.left a log r ha hlog
      have hnil := halloc []
      rw [List.append_nil, hpath] at hnil
      refine .pure ?_
      rw [List.append_nil, List.append_nil, hnil]
      exact ⟨hleft, rfl⟩

/-! ## Up to the allocation -/

theorem sameArchitecture_guards {target : UInt64} (ht : owned target ≤ held) :
    hostCustody.Guards (fun log same rest => rest = held ∧ Quiet log ∧
        (same = true → ∃ own other : HostAnswer, (.isWow64Process none, own) ∈ log ∧
          (.isWow64Process (some target), other) ∈ log ∧ own.ok = true ∧ other.ok = true ∧
          own.machines = other.machines))
      (sameArchitecture target) held := by
  refine .look (by simp [hostCustody]) (fun _ => rfl) (fun _ => rfl) fun own => ?_
  split
  · exact .pure ⟨rfl, .cons trivial .nil, fun h => by cases h⟩
  next ho =>
    refine .look (owned_mem ht) (fun _ => rfl) (fun _ => rfl) fun other => ?_
    refine .pure ⟨rfl, .cons trivial (.cons trivial .nil), fun hsame => ?_⟩
    simp only [Bool.and_eq_true, beq_iff_eq] at hsame
    exact ⟨own, other, by simp, by simp, by simpa using ho, hsame.1, hsame.2⟩

/-- What was found out before the allocation. -/
structure Behind (processId : UInt32) (payload : String) (process start : UInt64)
    (path : List UInt16) (before : List (HostCall × HostAnswer)) : Prop where
  machines : ∃ own other : HostAnswer, (.isWow64Process none, own) ∈ before ∧
    (.isWow64Process (some process), other) ∈ before ∧ own.ok = true ∧ other.ok = true ∧
    own.machines = other.machines
  start : ∃ snapshot localKernel32 loadLibrary : HostAnswer, ∃ kernel32 : RemoteModule,
    (.snapshotModules processId, snapshot) ∈ before ∧
    findModule "kernel32.dll".toList snapshot.modules = some (some kernel32) ∧
    (.getModuleHandle "kernel32.dll", localKernel32) ∈ before ∧
    (.getProcAddress localKernel32.handle "LoadLibraryW", loadLibrary) ∈ before ∧
    loadLibrary.handle ≠ 0 ∧
    start + localKernel32.handle = .ofNat kernel32.base + loadLibrary.handle
  path : ∃ absolute : HostAnswer, (.canonicalize payload, absolute) ∈ before ∧
    absolute.path = .ok path ∧ 0 ∉ path

/-- How a run into the opened process goes: it fails before the allocation, or reaches it. -/
inductive InjectedRun (processId : UInt32) (payload : String) (process : UInt64) :
    List (HostCall × HostAnswer) → Except Error Unit → Prop
  | refused (log : List (HostCall × HostAnswer)) (e : Error) (hq : Quiet log) :
    InjectedRun processId payload process log (.error e)
  | loads (before load : List (HostCall × HostAnswer)) (start : UInt64) (path : List UInt16)
      (r : Except Error Unit) (hq : Quiet before)
      (hb : Behind processId payload process start path before)
      (hload : LoadRun process start (path ++ [0]) load r) :
    InjectedRun processId payload process (before ++ load) r

/-- What is quiet leaves the path. -/
theorem Quiet.leavesPath {log : List (HostCall × HostAnswer)} (h : Quiet log) :
    ∀ e ∈ log, e.1.leavesPath := by
  intro e he
  have hq := h e he
  obtain ⟨c, a⟩ := e
  cases c <;> first | exact hq.elim | trivial

theorem Quiet.remotePath_append {before : List (HostCall × HostAnswer)} (h : Quiet before)
    (log : List (HostCall × HostAnswer)) : remotePath (before ++ log) = remotePath log := by
  rw [remotePath, List.foldl_append, RemotePath.foldl_leaves _ h.leavesPath, remotePath]

theorem Quiet.remotePath {log : List (HostCall × HostAnswer)} (h : Quiet log) :
    remotePath log = .absent := RemotePath.foldl_leaves _ h.leavesPath

theorem injectInto_guards {processId : UInt32} {process : UInt64} {payload : String}
    (hp : owned process ≤ held) :
    hostCustody.Guards (fun log r rest => InjectedRun processId payload process log r ∧
        rest = held + (remotePath log).leaked) (injectInto processId process payload) held := by
  -- a run that ends before the allocation
  have hrefused : ∀ (log : List (HostCall × HostAnswer)) (e : Error), Quiet log →
      InjectedRun processId payload process log (.error e) ∧
        held = held + (remotePath log).leaked := fun log e hq =>
    ⟨.refused log e hq, by rw [hq.remotePath]; exact (add_zero _).symm⟩
  unfold injectInto
  refine .bind (sameArchitecture_guards hp) fun log₁ same rest h => ?_
  obtain ⟨rfl, hq₁, hmachines⟩ := h
  split
  · exact .pure (hrefused _ _ (hq₁.append .nil))
  next hsame =>
  refine .bind (remoteModule_guards processId _) fun log₂ found rest h => ?_
  obtain ⟨rfl, hq₂, hlisted⟩ := h
  split
  · exact .pure (hrefused _ _ (hq₁.append (hq₂.append .nil)))
  next kernel32 =>
  refine .look (by simp [hostCustody]) (fun _ => rfl) (fun _ => rfl) fun localKernel32 => ?_
  refine .look (by simp [hostCustody]) (fun _ => rfl) (fun _ => rfl) fun loadLibrary => ?_
  split
  · exact .pure (hrefused _ _ (hq₁.append (hq₂.append (.cons trivial (.cons trivial .nil)))))
  next hload =>
  refine .look (by simp [hostCustody]) (fun _ => rfl) (fun _ => rfl) fun absolute => ?_
  have hbefore : Quiet (log₁ ++ (log₂ ++ [(.getModuleHandle "kernel32.dll", localKernel32),
      (.getProcAddress localKernel32.handle "LoadLibraryW", loadLibrary),
      (.canonicalize payload, absolute)])) := by
    refine hq₁.append (hq₂.append ?_)
    exact .cons trivial (.cons trivial (.cons trivial .nil))
  split
  · exact .pure (hrefused _ _ hbefore)
  next path hpath =>
  split
  · exact .pure (hrefused _ _ hbefore)
  next hnul =>
  refine (loadRemotely_guards hp).imp fun load r rest h => ?_
  obtain ⟨hrun, hrest⟩ := h
  obtain ⟨snapshot, hsnapshot, hfind⟩ := hlisted kernel32 rfl
  obtain ⟨own, other, hown, hother, hmachines⟩ := hmachines (by simpa using hsame)
  have hbehind : Behind processId payload process
      (.ofNat kernel32.base + loadLibrary.handle - localKernel32.handle) path
      (log₁ ++ (log₂ ++ [(.getModuleHandle "kernel32.dll", localKernel32),
        (.getProcAddress localKernel32.handle "LoadLibraryW", loadLibrary),
        (.canonicalize payload, absolute)])) :=
    { machines := ⟨own, other, List.mem_append_left _ hown, List.mem_append_left _ hother,
        hmachines⟩
      start := ⟨snapshot, localKernel32, loadLibrary, kernel32,
        List.mem_append_right _ (List.mem_append_left _ hsnapshot), hfind, by simp, by simp, hload,
        UInt64.sub_add_cancel _ _⟩
      path := ⟨absolute, by simp, hpath, by simpa using hnul⟩ }
  have hlog := InjectedRun.loads _ load _ path r hbefore hbehind hrun
  rw [← hbefore.remotePath_append load] at hrest
  simp only [List.append_assoc, List.cons_append, List.nil_append] at hlog hrest
  exact ⟨hlog, hrest⟩

/-! ## The whole -/

/-- How a run goes. -/
inductive PayloadRun (processId : UInt32) (payload : String) :
    List (HostCall × HostAnswer) → Except Error Unit → Prop
  | unopened (p last : HostAnswer) (e : Error) (hp : p.handle = 0) :
    PayloadRun processId payload [(.openProcess processId, p), (.lastOsError, last)] (.error e)
  | opened (p : HostAnswer) (log closing : List (HostCall × HostAnswer)) (r : Except Error Unit)
      (hlog : InjectedRun processId payload p.handle log r) (hc : Quiet closing) :
    PayloadRun processId payload ((.openProcess processId, p) :: (log ++ closing)) r

theorem RemotePath.foldl_quiet {log : List (HostCall × HostAnswer)} (path : RemotePath)
    (h : Quiet log) : log.foldl next path = path := foldl_leaves path h.leavesPath

theorem injectPayload_guards (processId : UInt32) (payload : String) :
    hostCustody.Guards (fun log r rest => PayloadRun processId payload log r ∧
        rest = held + (remotePath log).leaked) (injectPayload processId payload) held := by
  refine .receive (by simp [hostCustody]) (fun _ => rfl) fun p => ?_
  rw [show hostCustody.gives (.openProcess processId) p = owned p.handle from rfl]
  split
  case isTrue hp =>
    rw [show owned p.handle = 0 from if_pos (.inl hp), add_zero]
    refine (windowsError_guards _).imp fun log r rest h => ?_
    obtain ⟨rfl, last, rfl, rfl⟩ := h
    exact ⟨.unopened p last _ hp, (add_zero _).symm⟩
  case isFalse hp =>
    refine .bind (injectInto_guards (Multiset.le_add_left _ _)) fun log r rest h => ?_
    obtain ⟨hlog, rfl⟩ := h
    rw [add_right_comm]
    refine .bind (dropHandle_guards p.handle) fun closing _ rest h => ?_
    obtain ⟨rfl, hclosing⟩ := h
    have hquiet : Quiet closing := by
      intro e he
      rw [hclosing e he]
      trivial
    have hpath : remotePath ((.openProcess processId, p) :: (log ++ closing)) = remotePath log := by
      show (log ++ closing).foldl RemotePath.next .absent = _
      rw [List.foldl_append, RemotePath.foldl_quiet _ hquiet]
      rfl
    refine .pure ?_
    rw [List.append_nil, hpath]
    exact ⟨.opened p log closing r hlog hquiet, rfl⟩

theorem LoadRun.settled {process start : UInt64} {wide : List UInt16}
    {log : List (HostCall × HostAnswer)} {r : Except Error Unit}
    (h : LoadRun process start wide log r) :
    (remotePath log).settled = true ∧ (r = .ok () → remotePath log = .freed) := by
  cases h with
  | unallocated a last e ha => simp [remotePath, RemotePath.next, ha, RemotePath.settled]
  | freed a f log r ha hlog =>
    have hpath : remotePath ((.virtualAllocEx process (wide.length * 2), a) ::
        (log ++ [(.virtualFreeEx process a.handle, f)])) = .freed := by
      rw [remotePath, List.foldl_cons, List.foldl_append]
      simp [RemotePath.next, ha, hlog.path.1 rfl]
    exact ⟨by rw [hpath]; rfl, fun _ => hpath⟩
  | left a log r ha hlog =>
    obtain ⟨thread, hthread⟩ := hlog.path.2 rfl
    have hpath : remotePath ((.virtualAllocEx process (wide.length * 2), a) :: log) =
        .lent process a.handle thread := by
      rw [remotePath, List.foldl_cons]
      simp [RemotePath.next, ha, hthread]
    refine ⟨by rw [hpath]; rfl, fun hr => ?_⟩
    subst hr
    cases hlog with
    | waited w t log closing r hw ht hlog hc => cases hlog

theorem PayloadRun.settled {processId : UInt32} {payload : String}
    {log : List (HostCall × HostAnswer)} {r : Except Error Unit}
    (h : PayloadRun processId payload log r) :
    (remotePath log).settled = true ∧ (r = .ok () → remotePath log = .freed) := by
  cases h with
  | unopened p last e hp => exact ⟨rfl, nofun⟩
  | opened p log closing r hlog hc =>
    have hpath : remotePath ((.openProcess processId, p) :: (log ++ closing)) = remotePath log := by
      show (log ++ closing).foldl RemotePath.next .absent = _
      rw [List.foldl_append, RemotePath.foldl_quiet _ hc]
      rfl
    rw [hpath]
    cases hlog with
    | refused log e hq => exact ⟨by rw [hq.remotePath]; rfl, nofun⟩
    | loads before load start path r hq hb hload =>
      rw [hq.remotePath_append]
      exact hload.settled

/-- Every run is one of these, and holds nothing but a path that is left to a thread. -/
theorem injectPayload_run (processId : UInt32) (payload : String) (answers : Nat → HostAnswer) :
    PayloadRun processId payload ((injectPayload processId payload).run answers).1
      ((injectPayload processId payload).run answers).2 ∧
    hostCustody.Along 0 ((injectPayload processId payload).run answers).1
      (remotePath ((injectPayload processId payload).run answers).1).leaked := by
  have h : hostCustody.Guards _ (injectPayload processId payload) 0 := injectPayload_guards _ _
  obtain ⟨rest, halong, hrun, hrest⟩ := h.along.run answers
  rw [zero_add] at hrest
  subst hrest
  exact ⟨hrun, halong⟩

/-- However Windows answers, the injection closes each handle it opened, once, and names only what
    it holds. The memory of the path it frees once, and never while a thread that was started on it
    has not been seen to end; such a thread keeps it, and nothing else stays. -/
theorem inject_payload_custody (processId : UInt32) (payload : String)
    (answers : Nat → HostAnswer) :
    hostCustody.Along 0 ((injectPayload processId payload).run answers).1
      (remotePath ((injectPayload processId payload).run answers).1).leaked ∧
    (remotePath ((injectPayload processId payload).run answers).1).settled = true ∧
    (((injectPayload processId payload).run answers).2 = .ok () →
      remotePath ((injectPayload processId payload).run answers).1 = .freed) := by
  obtain ⟨hrun, halong⟩ := injectPayload_run processId payload answers
  exact ⟨halong, hrun.settled⟩

/-! ## One thread -/

section

variable {log more : List (HostCall × HostAnswer)}

/-- What holds of the calls before each thread that is started. -/
def Starts (P : List (HostCall × HostAnswer) → UInt64 → UInt64 → UInt64 → Prop)
    (log : List (HostCall × HostAnswer)) : Prop :=
  ∀ (before after : List (HostCall × HostAnswer)) (process start address : UInt64)
    (a : HostAnswer), log = before ++ (.createRemoteThread process start address, a) :: after →
      P before process start address

variable {P : List (HostCall × HostAnswer) → UInt64 → UInt64 → UInt64 → Prop}

theorem Starts.of_none (h : log.countP (·.1.startsThread) = 0) : Starts P log := by
  rintro before after process start address a rfl
  rw [List.countP_eq_zero] at h
  exact absurd rfl (h _ (List.mem_append_right before List.mem_cons_self))

theorem Starts.cons {e : HostCall × HostAnswer}
    (he : ∀ process start address, e.1 = .createRemoteThread process start address →
      P [] process start address)
    (h : Starts (fun before => P (e :: before)) log) : Starts P (e :: log) := by
  intro before after process start address a hlog
  cases before with
  | nil =>
    obtain ⟨rfl, rfl⟩ := List.cons.inj hlog
    exact he process start address rfl
  | cons b before =>
    obtain ⟨rfl, rfl⟩ := List.cons.inj hlog
    exact h before after process start address a rfl

theorem Starts.append (hn : log.countP (·.1.startsThread) = 0)
    (h : Starts (fun before => P (log ++ before)) more) : Starts P (log ++ more) := by
  induction log generalizing P with
  | nil => exact h
  | cons e log ih =>
    rw [List.countP_cons] at hn
    refine .cons (fun process start address he => ?_) (ih (by omega) h)
    rw [he] at hn
    simp [HostCall.startsThread] at hn

theorem Starts.append_none (h : Starts P log) (hn : more.countP (·.1.startsThread) = 0) :
    Starts P (log ++ more) := by
  intro before after process start address a hlog
  have hmore : ∀ as, more ≠ as ++ (.createRemoteThread process start address, a) :: after := by
    rintro as rfl
    rw [List.countP_eq_zero] at hn
    exact absurd rfl (hn _ (List.mem_append_right as List.mem_cons_self))
  rcases List.append_eq_append_iff.mp hlog with ⟨as, -, hm⟩ | ⟨bs, rfl, hm⟩
  · exact absurd hm (hmore as)
  · cases bs with
    | nil => exact absurd hm.symm (hmore [])
    | cons b bs =>
      obtain ⟨rfl, -⟩ := List.cons.inj hm
      exact h before bs process start address a rfl

theorem Starts.imp {Q : List (HostCall × HostAnswer) → UInt64 → UInt64 → UInt64 → Prop}
    (h : Starts P log) (hi : ∀ before process start address, P before process start address →
      Q before process start address) : Starts Q log :=
  fun before after process start address a hlog =>
    hi before process start address (h before after process start address a hlog)

theorem Quiet.starts (h : Quiet log) : log.countP (·.1.startsThread) = 0 := by
  rw [List.countP_eq_zero]
  rintro ⟨c, a⟩ he
  have hq := h _ he
  cases c <;> first | exact hq.elim | simp [HostCall.startsThread]

/-- A call that starts a thread or watches one. -/
def HostCall.ofThread : HostCall → Prop
  | .createRemoteThread _ _ _ | .waitForSingleObject _ | .getExitCodeThread _ => True
  | _ => False

theorem HostCall.quiet.not_ofThread {c : HostCall} (h : c.quiet) : ¬c.ofThread := by
  cases c <;> first | exact h.elim | exact not_false

theorem LoadedModule.mono (h : LoadedModule log) (hm : ∀ e ∈ log, e.1.ofThread → e ∈ more) :
    LoadedModule more := by
  obtain ⟨process, start, address, thread, wait, exit, hthread, ht, hwait, hw, hexit, hx⟩ := h
  exact ⟨process, start, address, thread, wait, exit, hm _ hthread trivial, ht,
    hm _ hwait trivial, hw, hm _ hexit trivial, hx⟩

/-- Calls around a part that are of no thread say nothing of a module. -/
theorem loadedModule_around {before after : List (HostCall × HostAnswer)}
    (hb : ∀ e ∈ before, ¬e.1.ofThread) (ha : ∀ e ∈ after, ¬e.1.ofThread) :
    LoadedModule (before ++ (log ++ after)) ↔ LoadedModule log := by
  constructor
  · refine fun h => h.mono fun e he ht => ?_
    rcases List.mem_append.mp he with he | he
    · exact absurd ht (hb e he)
    · exact (List.mem_append.mp he).resolve_right fun he => ha e he ht
  · exact fun h => h.mono fun e he _ => List.mem_append_right _ (List.mem_append_left _ he)

end

/-- What a run of the closure starts, and what it says of the module. -/
theorem InjectRun.starts {process start address : UInt64} {wide : List UInt16}
    {log : List (HostCall × HostAnswer)} {r : Bool × Except Error Unit}
    (h : InjectRun process start address wide log r) :
    log.countP (·.1.startsThread) ≤ 1 ∧
    Starts (fun before p s a => p = process ∧ s = start ∧ a = address ∧
      ∃ w : HostAnswer, before = [(.writeProcessMemory process address wide, w)] ∧ w.ok = true)
      log := by
  -- behind the thread nothing is started
  have htail : ∀ (w t : HostAnswer) (tail : List (HostCall × HostAnswer)), w.ok = true →
      tail.countP (·.1.startsThread) = 0 →
      Starts (fun before p s a => p = process ∧ s = start ∧ a = address ∧
        ∃ w : HostAnswer, before = [(.writeProcessMemory process address wide, w)] ∧ w.ok = true)
        ((.writeProcessMemory process address wide, w) ::
          (.createRemoteThread process start address, t) :: tail) := by
    intro w t tail hw htail
    refine .cons (fun _ _ _ h => nomatch h) (.cons ?_ (.of_none htail))
    rintro p s a ⟨⟩
    exact ⟨rfl, rfl, rfl, w, rfl, hw⟩
  cases h with
  | unwritten w last e => exact ⟨by simp [HostCall.startsThread], .of_none rfl⟩
  | unstarted w t last e hw ht => exact ⟨by simp [HostCall.startsThread], htail w t _ hw rfl⟩
  | waited w t log closing r hw ht hlog hc =>
    have hclosing : closing.countP (·.1.startsThread) = 0 :=
      List.countP_eq_zero.mpr fun e he => by simp [hc e he, HostCall.startsThread]
    have hwatch : log.countP (·.1.startsThread) = 0 := by
      cases hlog with
      | ended => rfl
      | abandoned wait tail e hwait ht =>
        refine List.countP_eq_zero.mpr (List.forall_mem_cons.mpr ⟨nofun, fun e he => ?_⟩)
        simp [ht e he, HostCall.startsThread]
    have hnone : (log ++ closing).countP (·.1.startsThread) = 0 := by
      rw [List.countP_append, hwatch, hclosing]
    refine ⟨?_, htail w t _ hw hnone⟩
    rw [List.countP_cons, List.countP_cons, hnone]
    simp [HostCall.startsThread]

theorem InjectRun.loaded {process start address : UInt64} {wide : List UInt16}
    {log : List (HostCall × HostAnswer)} {r : Bool × Except Error Unit}
    (h : InjectRun process start address wide log r) : r.2 = .ok () ↔ LoadedModule log := by
  cases h with
  | unwritten w last e => simp [LoadedModule]
  | unstarted w t last e hw ht => simp [LoadedModule]
  | waited w t log closing r hw ht hlog hc =>
    have hclosing : ∀ e ∈ closing, ¬e.1.ofThread := fun e he => by
      rw [hc e he]
      exact not_false
    have haround : LoadedModule ([(.writeProcessMemory process address wide, w)] ++
          ((.createRemoteThread process start address, t) :: log ++ closing)) ↔
        LoadedModule ((.createRemoteThread process start address, t) :: log) :=
      loadedModule_around (List.forall_mem_singleton.mpr not_false) hclosing
    refine Iff.trans ?_ haround.symm
    cases hlog with
    | ended wait exit r hwait hr =>
      rw [hr]
      constructor
      · intro hx
        exact ⟨process, start, address, t, wait, exit, by simp, ht, by simp, hwait, by simp, hx⟩
      · rintro ⟨-, -, -, thread, -, exit', -, -, -, -, hexit, hx⟩
        simp only [List.mem_cons, Prod.mk.injEq, reduceCtorEq, false_and, false_or,
          List.not_mem_nil, or_false] at hexit
        rwa [hexit.2] at hx
    | abandoned wait tail e hwait hlast =>
      refine ⟨nofun, ?_⟩
      rintro ⟨-, -, -, thread, -, exit', -, -, -, -, hexit, -⟩
      simp only [List.mem_cons, Prod.mk.injEq, reduceCtorEq, false_and, false_or] at hexit
      exact nomatch hlast _ hexit

theorem LoadRun.injects {processId : UInt32} {payload : String} {process start : UInt64}
    {path : List UInt16} {before log : List (HostCall × HostAnswer)} {r : Except Error Unit}
    {p : HostAnswer} (hp : p.handle = process)
    (hb : Behind processId payload process start path before)
    (h : LoadRun process start (path ++ [0]) log r) :
    log.countP (·.1.startsThread) ≤ 1 ∧
    Starts (fun more => Prepared processId payload ((.openProcess processId, p) :: before ++ more))
      log ∧
    (r = .ok () ↔ LoadedModule log) := by
  -- what is known behind the allocation and the write
  have hprepared : ∀ (a w : HostAnswer), a.handle ≠ 0 → w.ok = true →
      Prepared processId payload ((.openProcess processId, p) :: before ++
        [(.virtualAllocEx process ((path ++ [0]).length * 2), a),
          (.writeProcessMemory process a.handle (path ++ [0]), w)]) process start a.handle := by
    intro a w ha hw
    obtain ⟨own, other, hown, hother, hm⟩ := hb.machines
    obtain ⟨snapshot, k, l, kernel32, hs, hf, hk, hl, hstart⟩ := hb.start
    obtain ⟨absolute, hc, hpath, hnul⟩ := hb.path
    have hmem : ∀ {e : HostCall × HostAnswer} {more : List (HostCall × HostAnswer)}, e ∈ before →
        e ∈ (.openProcess processId, p) :: before ++ more := fun he =>
      List.mem_append_left _ (List.mem_cons_of_mem _ he)
    refine ⟨⟨p, by simp, hp⟩, ⟨own, other, hmem hown, hmem hother, hm⟩,
      ⟨snapshot, k, l, kernel32, hmem hs, hf, hmem hk, hmem hl, hstart⟩,
      ⟨absolute, a, w, path, hmem hc, hpath, hnul, ?_, rfl, ha, by simp, hw⟩⟩
    rw [List.length_append, List.length_singleton]
    simp
  -- a run of the closure behind the allocation, and what may come behind that
  have hinject : ∀ (a : HostAnswer) (log after : List (HostCall × HostAnswer))
      (r : Bool × Except Error Unit), a.handle ≠ 0 →
      InjectRun process start a.handle (path ++ [0]) log r →
      after.countP (·.1.startsThread) = 0 → (∀ e ∈ after, ¬e.1.ofThread) →
      ((.virtualAllocEx process ((path ++ [0]).length * 2), a) :: (log ++ after)).countP
        (·.1.startsThread) ≤ 1 ∧
      Starts (fun more =>
          Prepared processId payload ((.openProcess processId, p) :: before ++ more))
        ((.virtualAllocEx process ((path ++ [0]).length * 2), a) :: (log ++ after)) ∧
      (r.2 = .ok () ↔
        LoadedModule ((.virtualAllocEx process ((path ++ [0]).length * 2), a) :: (log ++ after))) := by
    intro a log after r ha hlog hn ho
    obtain ⟨hcount, hstarts⟩ := hlog.starts
    refine ⟨?_, .cons (fun _ _ _ h => nomatch h) ?_, ?_⟩
    · rw [List.countP_cons, List.countP_append, hn]
      simpa [HostCall.startsThread] using hcount
    · refine (hstarts.append_none hn).imp ?_
      rintro _ _ _ _ ⟨rfl, rfl, rfl, w, rfl, hw⟩
      exact hprepared a w ha hw
    · have haround : LoadedModule ([(.virtualAllocEx process ((path ++ [0]).length * 2), a)] ++
          (log ++ after)) ↔ LoadedModule log :=
        loadedModule_around (List.forall_mem_singleton.mpr not_false) ho
      exact hlog.loaded.trans haround.symm
  cases h with
  | unallocated a last e ha =>
    refine ⟨by simp [HostCall.startsThread], .of_none rfl, ?_⟩
    simp [LoadedModule]
  | freed a f log r ha hlog =>
    exact hinject a log [(.virtualFreeEx process a.handle, f)] _ ha hlog rfl
      (List.forall_mem_singleton.mpr not_false)
  | left a log r ha hlog =>
    have h := hinject a log [] _ ha hlog rfl fun _ he => absurd he List.not_mem_nil
    rwa [List.append_nil] at h

theorem Quiet.not_loaded {log : List (HostCall × HostAnswer)} (h : Quiet log) :
    ¬LoadedModule log := by
  rintro ⟨process, start, address, thread, wait, exit, hthread, -⟩
  exact h _ hthread

theorem PayloadRun.injectsOnce {processId : UInt32} {payload : String}
    {log : List (HostCall × HostAnswer)} {r : Except Error Unit}
    (h : PayloadRun processId payload log r) : InjectsOnce processId payload log r := by
  -- a run that starts nothing
  have hnone : ∀ (log : List (HostCall × HostAnswer)) (e : Error), Quiet log →
      InjectsOnce processId payload log (.error e) := fun log e hq =>
    { once := by rw [hq.starts]; exact Nat.zero_le 1
      prepared := Starts.of_none (P := Prepared processId payload) hq.starts
      loaded := ⟨nofun, fun hl => absurd hl hq.not_loaded⟩ }
  cases h with
  | unopened p last e hp => exact hnone _ e (.cons trivial (.cons trivial .nil))
  | opened p log closing r hlog hc =>
    cases hlog with
    | refused log e hq => exact hnone _ e (.cons trivial (hq.append hc))
    | loads before load start path r hq hb hload =>
      have hbefore : Quiet ((.openProcess processId, p) :: before) := .cons trivial hq
      obtain ⟨hcount, hstarts, hloaded⟩ := hload.injects rfl hb
      have hlog : (.openProcess processId, p) :: (before ++ load ++ closing) =
          ((.openProcess processId, p) :: before) ++ (load ++ closing) := by
        rw [List.cons_append, List.append_assoc]
      rw [hlog]
      refine ⟨?_, ?_, ?_⟩
      · rw [List.countP_append, List.countP_append, hbefore.starts, hc.starts]
        simpa using hcount
      · exact Starts.append (P := Prepared processId payload) hbefore.starts
          (hstarts.append_none hc.starts)
      · rw [hloaded]
        exact (loadedModule_around (fun e he => (hbefore e he).not_ofThread)
          fun e he => (hc e he).not_ofThread).symm

/-- However Windows answers, the injection starts at most one thread. It starts it only in a target
    of the caller's machine, at that target's `LoadLibraryW`, on the canonical path of the payload,
    which was written whole and holds no NUL but its end. It succeeds just when the thread was seen
    to end with a module. -/
theorem inject_payload_once (processId : UInt32) (payload : String) (answers : Nat → HostAnswer) :
    InjectsOnce processId payload ((injectPayload processId payload).run answers).1
      ((injectPayload processId payload).run answers).2 :=
  (injectPayload_run processId payload answers).1.injectsOnce

end

end Host
end SteamInputLease
