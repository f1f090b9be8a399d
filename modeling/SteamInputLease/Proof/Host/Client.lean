import SteamInputLease.Host.Client
import SteamInputLease.Proof.Host.Inject

/-!
# What a caller of the library holds

Each operation gives back what it opened, but for the pipe of the claim it returns, and for a path
that an injection had to leave in the target. A release is a request on the pipe of a claim, and the
claim is gone with it.

Two things are followed at once: what is held, and which requests were written. They cannot be
separated, because whether a pipe is kept depends on whether its request was granted; so the
postconditions speak of the result, of what is held and of the requests together (`Grants`,
`Reaches`). `Performs` puts an operation into the form in which a session uses it: with these claims
in hand before, these in hand behind, and these requests sent. Over a list of operations the
induction then has nothing to do with Windows any more, and custody and the balance of acquisitions
and releases are two readings of the same run.
-/

namespace SteamInputLease
namespace Host

open Lib Protocol
open Launch (Error inContext responseSize)

section

variable {base : Multiset HostHandle}

/-! ## Requests -/

theorem written_append (log more : List (HostCall × HostAnswer)) :
    written (log ++ more) = written log ++ written more := List.filterMap_append

theorem Quiet.written {log : List (HostCall × HostAnswer)} (h : Quiet log) : written log = [] := by
  refine List.filterMap_eq_nil_iff.mpr fun e he => ?_
  obtain ⟨c, a⟩ := e
  have hq := h _ he
  cases c <;> first | exact hq.elim | rfl

theorem InjectRun.written {process start address : UInt64} {wide : List UInt16}
    {log : List (HostCall × HostAnswer)} {r : Bool × Except Error Unit}
    (h : InjectRun process start address wide log r) : written log = [] := by
  cases h with
  | unwritten => rfl
  | unstarted => rfl
  | waited w t log closing r hw ht hlog hc =>
    have hclosing : Quiet closing := fun e he => by
      rw [hc e he]
      trivial
    show Host.written (log ++ closing) = []
    rw [written_append, hclosing.written, List.append_nil]
    cases hlog with
    | ended => rfl
    | abandoned wait tail e hwait hlast =>
      have htail : Quiet tail := fun e he => by
        rw [hlast e he]
        trivial
      exact htail.written

/-- An injection sends no request. -/
theorem PayloadRun.written {processId : UInt32} {payload : String}
    {log : List (HostCall × HostAnswer)} {r : Except Error Unit}
    (h : PayloadRun processId payload log r) : written log = [] := by
  cases h with
  | unopened => rfl
  | opened p log closing r hlog hc =>
    show Host.written (log ++ closing) = []
    rw [written_append, hc.written, List.append_nil]
    cases hlog with
    | refused log e hq => exact hq.written
    | loads before load start path r hq hb hload =>
      rw [written_append, hq.written, List.nil_append]
      cases hload with
      | unallocated => rfl
      | freed a f log r ha hlog =>
        show Host.written (log ++ [(.virtualFreeEx p.handle a.handle, f)]) = []
        rw [written_append, hlog.written]
        rfl
      | left a log r ha hlog => exact hlog.written

/-! ## What stays in the target -/

/-- From `base` on, nothing stays but paths in a target, and those only where injecting is
    allowed. -/
def Leaves (allowed : Bool) (base rest : Multiset HostHandle) : Prop :=
  ∃ left : Multiset HostHandle, (∀ x ∈ left, ∃ process address, x = .remote process address) ∧
    (allowed = false → left = 0) ∧ rest = base + left

variable {allowed : Bool} {rest rest' : Multiset HostHandle}

theorem Leaves.refl : Leaves allowed base base := ⟨0, nofun, fun _ => rfl, (add_zero _).symm⟩

theorem Leaves.trans (h : Leaves allowed base rest) (h' : Leaves allowed rest rest') :
    Leaves allowed base rest' := by
  obtain ⟨left, hleft, hnone, rfl⟩ := h
  obtain ⟨left', hleft', hnone', rfl⟩ := h'
  refine ⟨left + left', fun x hx => ?_, fun ha => ?_, add_assoc _ _ _⟩
  · exact (Multiset.mem_add.mp hx).elim (hleft x) (hleft' x)
  · rw [hnone ha, hnone' ha, add_zero]

theorem Leaves.add (h : Leaves allowed base rest) (own : Multiset HostHandle) :
    Leaves allowed (base + own) (rest + own) := by
  obtain ⟨left, hleft, hnone, rfl⟩ := h
  exact ⟨left, hleft, hnone, add_right_comm _ _ _⟩

theorem Leaves.leaked (path : RemotePath) : Leaves true base (base + path.leaked) := by
  refine ⟨path.leaked, fun x hx => ?_, nofun, rfl⟩
  cases path with
  | lent process address thread => exact ⟨process, address, Multiset.mem_singleton.mp hx⟩
  | _ => cases hx

/-! ## The pipe -/

/-- What is in hand of a result that may have a pipe. -/
def heldOf {α : Type} (pipe : α → UInt64) : Option (Except Error α) → Multiset HostHandle
  | some (.ok a) => owned (pipe a)
  | _ => 0

theorem heldOf_error {α : Type} (pipe : α → UInt64) (e : Error) :
    heldOf pipe (some (.error e)) = 0 := rfl

theorem heldOf_map {α β : Type} (pipe : β → UInt64) (f : α → β) (r : Option (Except Error α)) :
    heldOf pipe (r.map fun r => r.map f) = heldOf (pipe ∘ f) r := by
  rcases r with _ | e | a <;> rfl

theorem heldOf_inContext (context : String) (r : Option (Except Error UInt64)) :
    heldOf id (r.map (inContext context)) = heldOf id r := by
  rcases r with _ | e | pipe
  · rfl
  · cases e <;> rfl
  · rfl

theorem openedPipe_guards (processId : UInt32) (pipe : UInt64) :
    hostCustody.Guards (fun log r rest => rest = base + heldOf id (some r) ∧ Quiet log)
      (openedPipe processId pipe) (base + owned pipe) := by
  have hclosing : ∀ {closing : List (HostCall × HostAnswer)},
      (∀ e ∈ closing, e.1 = .closeHandle pipe) → Quiet closing := fun h e he => by
    rw [h e he]
    trivial
  refine .look (owned_mem (Multiset.le_add_left _ _)) (fun _ => rfl) (fun _ => rfl) fun server => ?_
  split
  · refine .bind (windowsError_guards _) fun log r rest h => ?_
    obtain ⟨rfl, last, rfl, rfl⟩ := h
    refine .bind (dropHandle_guards pipe) fun closing _ rest h => ?_
    obtain ⟨rfl, hc⟩ := h
    refine .pure ⟨(add_zero _).symm, .cons trivial (.cons trivial ?_)⟩
    rw [List.append_nil]
    exact hclosing hc
  split
  · refine .bind (dropHandle_guards pipe) fun closing _ rest h => ?_
    obtain ⟨rfl, hc⟩ := h
    refine .pure ⟨(add_zero _).symm, .cons trivial ?_⟩
    rw [List.append_nil]
    exact hclosing hc
  · exact .pure ⟨rfl, .cons trivial .nil⟩

theorem pollPipe_guards (processId : UInt32) (deadline rounds : Nat) :
    hostCustody.Guards (fun log r rest => rest = base + heldOf id r ∧ Quiet log)
      (pollPipe processId deadline rounds) base := by
  induction rounds with
  | zero => exact .pure ⟨(add_zero _).symm, .nil⟩
  | succ rounds ih =>
    refine .receive (by simp [hostCustody]) (fun _ => rfl) fun file => ?_
    rw [show hostCustody.gives (.createFile (pipeName processId)) file = owned file.handle from rfl]
    split
    · refine .bind (openedPipe_guards processId file.handle) fun log r rest h => ?_
      obtain ⟨rfl, hlog⟩ := h
      exact .pure ⟨rfl, .cons trivial (hlog.append .nil)⟩
    next hi =>
    rw [show owned file.handle = 0 from if_pos (.inr (not_not.mp hi)), add_zero]
    refine .look (by simp [hostCustody]) (fun _ => rfl) (fun _ => rfl) fun last => ?_
    split
    · exact .pure ⟨(add_zero _).symm, .cons trivial (.cons trivial .nil)⟩
    refine .look (by simp [hostCustody]) (fun _ => rfl) (fun _ => rfl) fun now => ?_
    split
    · exact .pure ⟨(add_zero _).symm, .cons trivial (.cons trivial (.cons trivial .nil))⟩
    split
    · refine .look (by simp [hostCustody]) (fun _ => rfl) (fun _ => rfl) fun _ => ?_
      exact ih.imp fun log r rest h => ⟨h.1, .cons trivial (.cons trivial (.cons trivial
        (.cons trivial h.2)))⟩
    · refine .look (by simp [hostCustody]) (fun _ => rfl) (fun _ => rfl) fun _ => ?_
      exact ih.imp fun log r rest h => ⟨h.1, .cons trivial (.cons trivial (.cons trivial
        (.cons trivial h.2)))⟩

theorem connectPipe_guards (processId : UInt32) (timeout rounds : Nat) :
    hostCustody.Guards (fun log r rest => rest = base + heldOf id r ∧ Quiet log)
      (connectPipe processId timeout rounds) base :=
  .look (by simp [hostCustody]) (fun _ => rfl) (fun _ => rfl) fun _ =>
    (pollPipe_guards processId _ rounds).imp fun _ _ _ h => ⟨h.1, .cons trivial h.2⟩

/-- One request is sent, whatever comes of it. -/
theorem exchange_guards {pipe : UInt64} {command : Command} (hp : owned pipe ≤ base) :
    hostCustody.Guards (fun log _ rest => rest = base ∧ written log = [Request.new command])
      (exchange pipe command) base := by
  refine .look (owned_mem hp) (fun _ => rfl) (fun _ => rfl) fun w => ?_
  split
  · refine (windowsError_guards _).imp fun log r rest h => ?_
    obtain ⟨hrest, last, rfl, -⟩ := h
    exact ⟨hrest, rfl⟩
  split
  · exact .pure ⟨rfl, rfl⟩
  refine .look (owned_mem hp) (fun _ => rfl) (fun _ => rfl) fun read => ?_
  split
  · refine (windowsError_guards _).imp fun log r rest h => ?_
    obtain ⟨hrest, last, rfl, -⟩ := h
    exact ⟨hrest, rfl⟩
  split
  · exact .pure ⟨rfl, rfl⟩
  split
  · exact .pure ⟨rfl, rfl⟩
  · exact .pure ⟨rfl, rfl⟩

/-- Where an exchange succeeds, its command was granted. -/
theorem exchange_granted (pipe : UInt64) (command : Command) :
    (exchange pipe command).Yields fun log r => ∀ response, r = .ok response →
      ∃ sent read, log = [(.writeFile pipe (Request.new command), sent), (.readFile pipe, read)] ∧
        sent.ok = true ∧ sent.number = requestSize ∧
        read.ok = true ∧ read.number = responseSize ∧ read.response.isValid = true := by
  have herror : ∀ operation : String, ∀ c : HostCall, ∀ a : HostAnswer,
      (windowsError operation : Hosting (Except Error Response)).Yields fun _ r =>
        ∀ response, r ≠ .ok response :=
    fun operation _ _ => .ask fun _ => .pure fun _ h => by cases h
  refine .ask fun sent => ?_
  split
  · exact (herror _ .now sent).imp fun _ r h response hr => absurd hr (h response)
  next hsent =>
  split
  · exact .pure fun _ h => by cases h
  next hwhole =>
  refine .ask fun read => ?_
  split
  · exact (herror _ .now read).imp fun _ r h response hr => absurd hr (h response)
  next hread =>
  split
  · exact .pure fun _ h => by cases h
  next hall =>
  split
  · exact .pure fun _ h => by cases h
  next hvalid =>
    refine .pure fun response _ => ⟨sent, read, rfl, ?_⟩
    simp only [Bool.not_eq_true', Bool.not_eq_false, ne_eq, not_not] at hsent hwhole hread hall hvalid
    exact ⟨hsent, hwhole, hread, hall, hvalid⟩

/-! ## Connecting -/

variable (options : ClientOptions) (rounds : Nat) (processId : UInt32)

/-- What a way to the pipe does: it sends nothing, and holds the pipe it found. -/
def Reaches (allowed : Bool) (base : Multiset HostHandle) (log : List (HostCall × HostAnswer))
    (r : Option (Except Error UInt64)) (rest : Multiset HostHandle) : Prop :=
  written log = [] ∧ Leaves allowed (base + heldOf id r) rest

theorem Reaches.behind {log more : List (HostCall × HostAnswer)} {r : Option (Except Error UInt64)}
    (hq : written log = []) (h : Reaches allowed base more r rest) :
    Reaches allowed base (log ++ more) r rest := by
  refine ⟨?_, h.2⟩
  rw [written_append, hq, h.1]
  rfl

/-- `connect_pipe`, with another context for its error. -/
theorem connectPipe_reaches (timeout : Nat) (context : String) :
    hostCustody.Guards (Reaches allowed base) (do
      let r ← connectPipe processId timeout rounds
      pure (r.map (inContext context))) base := by
  refine .bind (connectPipe_guards processId timeout rounds) fun log r rest h => ?_
  obtain ⟨rfl, hlog⟩ := h
  refine .pure ⟨?_, ?_⟩
  · rw [List.append_nil]
    exact hlog.written
  · rw [heldOf_inContext]
    exact .refl

theorem connectOnly_guards :
    hostCustody.Guards (Reaches allowed base) (connectOnly options rounds processId) base :=
  connectPipe_reaches rounds processId _ _

theorem residentByName_guards :
    hostCustody.Guards (fun log _ rest => rest = base ∧ Quiet log)
      (residentByName options processId) base := by
  unfold residentByName
  split
  · exact .pure ⟨rfl, .nil⟩
  · refine .bind (remoteModule_guards processId _) fun log r rest h => ?_
    obtain ⟨rfl, hlog, -⟩ := h
    exact .pure ⟨rfl, hlog.append .nil⟩

theorem injectAndConnect_guards :
    hostCustody.Guards (Reaches true base) (injectAndConnect options rounds processId) base := by
  refine .bind (residentByName_guards options processId) fun log₁ resident rest h => ?_
  obtain ⟨rfl, hq₁⟩ := h
  split
  · exact (connectPipe_reaches rounds processId _ _).imp fun more r rest h => h.behind hq₁.written
  refine .look (by simp [hostCustody]) (fun _ => rfl) (fun _ => rfl) fun file => ?_
  have hq₂ : Quiet (log₁ ++ [(.isFile options.payloadPath, file)]) :=
    hq₁.append (.cons trivial .nil)
  split
  · exact .pure ⟨hq₂.written, by rw [heldOf_error, add_zero]; exact .refl⟩
  refine .bind (injectPayload_guards processId options.payloadPath) fun log₃ r rest h => ?_
  obtain ⟨hrun, rfl⟩ := h
  have hq₃ : written (log₁ ++ ((.isFile options.payloadPath, file) :: log₃)) = [] := by
    have h := written_append (log₁ ++ [(.isFile options.payloadPath, file)]) log₃
    rw [hq₂.written, hrun.written, List.append_assoc] at h
    exact h
  split
  · refine .pure ⟨?_, ?_⟩
    · rw [List.append_nil]
      exact hq₃
    · rw [heldOf_error, add_zero]
      exact .leaked _
  · refine (connectPipe_reaches rounds processId _ _).imp
      fun more r rest (h : Reaches true _ more r rest) => ?_
    have h := h.behind hq₃
    rw [List.append_assoc] at h
    exact ⟨h.1, ((Leaves.leaked (remotePath log₃)).add _).trans h.2⟩

theorem connectOrInject_guards :
    hostCustody.Guards (Reaches true base) (connectOrInject options rounds processId) base := by
  refine .bind (connectPipe_guards processId _ rounds) fun log r rest h => ?_
  obtain ⟨rfl, hlog⟩ := h
  split
  · rw [show heldOf id (some (.error (.payloadUnavailable _ _))) = 0 from rfl, add_zero]
    exact (injectAndConnect_guards options rounds processId).imp fun more r rest h =>
      h.behind hlog.written
  · refine .pure ⟨?_, .refl⟩
    rw [List.append_nil]
    exact hlog.written

theorem connect_guards :
    hostCustody.Guards (Reaches options.allowInjection base) (connect options rounds processId)
      base := by
  unfold connect
  split
  next ha =>
    rw [ha]
    exact connectOrInject_guards options rounds processId
  · exact connectOnly_guards options rounds processId

/-! ## Operations on a new pipe -/

/-- One request is sent at most, and once where it was granted. -/
def Grants {α : Type} (allowed : Bool) (base : Multiset HostHandle) (pipe : α → UInt64)
    (command : Command) (log : List (HostCall × HostAnswer)) (r : Option (Except Error α))
    (rest : Multiset HostHandle) : Prop :=
  (written log = [Request.new command] ∨
    written log = [] ∧ ∀ granted, r ≠ some (.ok granted)) ∧
  Leaves allowed (base + heldOf pipe r) rest

/-- What is made of a grant changes nothing of it. -/
theorem Grants.map {α β : Type} {pipe : β → UInt64} {f : α → β} {command : Command}
    {log : List (HostCall × HostAnswer)} {r : Option (Except Error α)}
    (h : Grants allowed base (pipe ∘ f) command log r rest) :
    Grants allowed base pipe command (log ++ []) (r.map fun r => r.map f) rest := by
  rw [List.append_nil]
  refine ⟨h.1.imp_right fun hn => ⟨hn.1, fun granted hr => ?_⟩, ?_⟩
  · rcases r with _ | e | a
    · cases hr
    · cases hr
    · exact hn.2 a rfl
  · rw [heldOf_map]
    exact h.2

variable {options rounds processId}

theorem openWith_guards {pipeOf : UInt32 → Hosting (Option (Except Error UInt64))}
    {command : Command}
    (hpipe : ∀ processId base, hostCustody.Guards (Reaches allowed base) (pipeOf processId) base) :
    hostCustody.Guards (Grants allowed base Prod.fst command) (openWith options pipeOf command)
      base := by
  refine .bind (findProcess_guards options.targetName) fun log₁ found start h => ?_
  obtain ⟨rfl, hq₁⟩ := h
  split
  · refine .pure ⟨.inr ⟨?_, by simp⟩, ?_⟩
    · rw [List.append_nil]
      exact hq₁.written
    · rw [heldOf_error, add_zero]
      exact .refl
  next processId =>
  refine .bind (hpipe processId _) fun log₂ opened rest h => ?_
  obtain ⟨hw₂, hleft⟩ := h
  have hw : written (log₁ ++ log₂) = [] := by
    rw [written_append, hq₁.written, hw₂]
    rfl
  split
  · refine .pure ⟨.inr ⟨?_, by simp⟩, hleft⟩
    rwa [List.append_nil]
  · refine .pure ⟨.inr ⟨?_, by simp⟩, hleft⟩
    rwa [List.append_nil]
  -- from here on the pipe is held: by the grant, or until it is dropped
  next pipe =>
  obtain ⟨left, hremote, hnone, rfl⟩ := hleft
  rw [show heldOf id (some (.ok pipe)) = owned pipe from rfl]
  have hp : owned pipe ≤ start + owned pipe + left :=
    (Multiset.le_add_left _ _).trans (Multiset.le_add_right _ _)
  refine .bind (exchange_guards hp) fun log₃ r rest h => ?_
  obtain ⟨rfl, hw₃⟩ := h
  have hwritten : written (log₁ ++ (log₂ ++ log₃)) = [Request.new command] := by
    rw [← List.append_assoc, written_append, hw, hw₃]
    rfl
  split
  · rw [add_right_comm]
    refine .bind (dropHandle_guards pipe) fun closing _ rest h => ?_
    obtain ⟨rfl, hc⟩ := h
    have hclosing : Quiet closing := fun e he => by
      rw [hc e he]
      trivial
    refine .pure ⟨.inl ?_, ?_⟩
    · rw [List.append_nil, ← List.append_assoc log₂, ← List.append_assoc log₁, written_append,
        hwritten, hclosing.written]
      rfl
    · rw [heldOf_error, add_zero]
      exact ⟨left, hremote, hnone, rfl⟩
  · refine .pure ⟨.inl ?_, left, hremote, hnone, rfl⟩
    rwa [List.append_nil]

/-- Where the pipe is opened for a command, the command was granted over it. -/
theorem openWith_granted {pipeOf : UInt32 → Hosting (Option (Except Error UInt64))}
    {command : Command} :
    (openWith options pipeOf command).Yields fun log r =>
      (∃ granted, r = some (.ok granted)) → Granted command log := by
  refine .bind (.of_forall fun _ _ => trivial) fun found r _ => ?_
  split
  · exact .pure fun ⟨_, h⟩ => by cases h
  refine .bind (.of_forall fun _ _ => trivial) fun opened r _ => ?_
  split
  · exact .pure fun ⟨_, h⟩ => by cases h
  · exact .pure fun ⟨_, h⟩ => by cases h
  next pipe =>
  refine .bind (exchange_granted pipe command) fun log r h => ?_
  split
  · refine .bind (.of_forall fun _ _ => trivial) fun closing _ _ => .pure ?_
    rintro ⟨_, hr⟩
    cases hr
  next response =>
    refine .pure fun _ => ?_
    obtain ⟨sent, read, rfl, hgranted⟩ := h response rfl
    refine ⟨found ++ opened, pipe, sent, read, ?_, hgranted⟩
    rw [List.append_nil, List.append_assoc]

theorem acquire_granted :
    (acquire options rounds).Yields fun log r =>
      (∃ lease, r = some (.ok lease)) → Granted .acquireLease log := by
  refine .bind openWith_granted fun log r h => .pure ?_
  rintro ⟨lease, hr⟩
  rw [List.append_nil]
  apply h
  rcases r with _ | e | granted
  · cases hr
  · cases hr
  · exact ⟨granted, rfl⟩

theorem acquire_guards :
    hostCustody.Guards (Grants options.allowInjection base Lease.pipe .acquireLease)
      (acquire options rounds) base :=
  .bind (openWith_guards fun processId _ => connect_guards options rounds processId)
    fun _ _ _ h => .pure (h.map (f := Lease.ofGrant options))

theorem acquirePassThrough_guards :
    hostCustody.Guards (Grants options.allowInjection base PassThrough.pipe .acquirePassThrough)
      (acquirePassThrough options rounds) base :=
  .bind (openWith_guards fun processId _ => connect_guards options rounds processId)
    fun _ _ _ h => .pure (h.map (f := PassThrough.ofGrant))

theorem queryWith_guards {pipeOf : UInt32 → Hosting (Option (Except Error UInt64))}
    (hpipe : ∀ processId base, hostCustody.Guards (Reaches allowed base) (pipeOf processId) base) :
    hostCustody.Guards (fun log _ rest => (written log = [Request.new .queryStatus] ∨
        written log = []) ∧ Leaves allowed base rest) (queryWith options pipeOf) base := by
  refine .bind (openWith_guards hpipe) fun log r rest h => ?_
  obtain ⟨hw, hleft⟩ := h
  have hw : written log = [Request.new .queryStatus] ∨ written log = [] := hw.imp_right And.left
  split
  · refine .pure ⟨by rwa [List.append_nil], ?_⟩
    rwa [show heldOf (Prod.fst : UInt64 × UInt32 × Response → UInt64) none = 0 from rfl,
      add_zero] at hleft
  · refine .pure ⟨by rwa [List.append_nil], ?_⟩
    rwa [heldOf_error, add_zero] at hleft
  next pipe _ response =>
  obtain ⟨left, hremote, hnone, rfl⟩ := hleft
  rw [show heldOf Prod.fst (some (.ok (pipe, _, response))) = owned pipe from rfl, add_right_comm]
  refine .bind (dropHandle_guards pipe) fun closing _ rest h => ?_
  obtain ⟨rfl, hc⟩ := h
  have hclosing : Quiet closing := fun e he => by
    rw [hc e he]
    trivial
  refine .pure ⟨?_, left, hremote, hnone, rfl⟩
  rwa [List.append_nil, written_append, hclosing.written, List.append_nil]

/-! ## Recovery and release -/

theorem rescanSteamControllers_guards (processId : UInt32) :
    hostCustody.Guards (fun log _ rest => rest = base ∧ Quiet log)
      (rescanSteamControllers processId) base := by
  refine .bind (remoteModule_guards processId _) fun log₁ found start h => ?_
  obtain ⟨rfl, hq₁, -⟩ := h
  split
  · exact .pure ⟨rfl, hq₁.append .nil⟩
  next steamclient =>
  refine .receive (by simp [hostCustody]) (fun _ => rfl) fun process => ?_
  rw [show hostCustody.gives (.openProcess processId) process = owned process.handle from rfl]
  split
  next hp =>
    rw [show owned process.handle = 0 from if_pos (.inl hp), add_zero]
    refine (windowsError_guards _).imp fun log r rest h => ?_
    obtain ⟨hrest, last, rfl, -⟩ := h
    exact ⟨hrest, hq₁.append (.cons trivial (.cons trivial .nil))⟩
  refine .look (owned_mem (Multiset.le_add_left _ _)) (fun _ => rfl) (fun _ => rfl)
    fun result => ?_
  refine .bind (dropHandle_guards process.handle) fun closing _ rest h => ?_
  obtain ⟨rfl, hc⟩ := h
  refine .pure ⟨rfl, hq₁.append (.cons trivial (.cons trivial ?_))⟩
  rw [List.append_nil]
  intro e he
  rw [hc e he]
  trivial

theorem releaseRecovery_guards (lease : Lease) (response : Response) :
    hostCustody.Guards (fun log _ rest => rest = base ∧ Quiet log) (releaseRecovery lease response)
      base := by
  unfold releaseRecovery
  split
  · exact .pure ⟨rfl, .nil⟩
  split
  · exact .pure ⟨rfl, .nil⟩
  refine .bind (rescanSteamControllers_guards lease.processId) fun log r rest h => ?_
  obtain ⟨rfl, hq⟩ := h
  split <;> exact .pure ⟨rfl, hq.append .nil⟩

/-- The request of a release and the closing of the pipe, and what is quiet behind them. -/
theorem written_release {log closing more : List (HostCall × HostAnswer)} {command : Command}
    {pipe : UInt64} (hlog : written log = [Request.new command])
    (hc : ∀ e ∈ closing, e.1 = .closeHandle pipe) (hm : Quiet more) :
    written (log ++ (closing ++ more)) = [Request.new command] := by
  have hq : Quiet (closing ++ more) := Quiet.append (fun e he => by rw [hc e he]; trivial) hm
  rw [written_append, hlog, hq.written]
  rfl

/-- A release sends its one request, and the pipe is closed whatever comes of it. -/
theorem Lease.release_guards (lease : Lease) :
    hostCustody.Guards (fun log _ rest => rest = base ∧
        written log = [Request.new .releaseLease]) lease.release (base + owned lease.pipe) := by
  refine .bind (exchange_guards (Multiset.le_add_left _ _)) fun log response rest h => ?_
  obtain ⟨rfl, hw⟩ := h
  refine .bind (dropHandle_guards lease.pipe) fun closing _ rest h => ?_
  obtain ⟨rfl, hc⟩ := h
  split
  · exact .pure ⟨rfl, written_release hw hc .nil⟩
  · refine .bind (releaseRecovery_guards lease _) fun more recovery rest h => ?_
    obtain ⟨rfl, hm⟩ := h
    exact .pure ⟨rfl, written_release hw hc (hm.append .nil)⟩

theorem PassThrough.release_guards (claim : PassThrough) :
    hostCustody.Guards (fun log _ rest => rest = base ∧
        written log = [Request.new .releasePassThrough]) claim.release
      (base + owned claim.pipe) := by
  refine .bind (exchange_guards (Multiset.le_add_left _ _)) fun log response rest h => ?_
  obtain ⟨rfl, hw⟩ := h
  refine .bind (dropHandle_guards claim.pipe) fun closing _ rest h => ?_
  obtain ⟨rfl, hc⟩ := h
  exact .pure ⟨rfl, written_release hw hc .nil⟩

theorem Claim.release_guards (claim : Claim) :
    hostCustody.Guards (fun log _ rest => rest = base ∧
        written log = [Request.new claim.releasing]) claim.release (base + owned claim.pipe) := by
  cases claim with
  | lease l => exact .bind l.release_guards fun log _ rest h => .pure (by rwa [List.append_nil])
  | passThrough p =>
    exact .bind p.release_guards fun log _ rest h => .pure (by rwa [List.append_nil])

/-! ## Sessions -/

theorem claimsHeld_append (claims : List Claim) (claim : Claim) :
    claimsHeld (claims ++ [claim]) = claimsHeld claims + owned claim.pipe := by
  rw [claimsHeld, List.map_append, List.sum_append, claimsHeld]
  simp

/-- A claim that is taken out. -/
theorem claimsHeld_eraseIdx {claims : List Claim} {index : Nat} {claim : Claim}
    (h : claims[index]? = some claim) :
    claimsHeld claims = claimsHeld (claims.eraseIdx index) + owned claim.pipe := by
  induction claims generalizing index with
  | nil => cases h
  | cons c claims ih =>
    cases index with
    | zero =>
      cases h
      exact add_comm _ _
    | succ index =>
      show owned c.pipe + claimsHeld claims = owned c.pipe + claimsHeld _ + owned claim.pipe
      rw [ih h, add_assoc]

theorem held_eraseIdx {claims : List Claim} {index : Nat} {claim : Claim} (command : Command)
    (h : claims[index]? = some claim) :
    held command claims = held command (claims.eraseIdx index) +
      if claim.acquiring == command then 1 else 0 := by
  induction claims generalizing index with
  | nil => cases h
  | cons c claims ih =>
    cases index with
    | zero =>
      cases h
      rw [held, List.countP_cons]
      rfl
    | succ index =>
      have hcons : ∀ claims, held command (c :: claims) =
          held command claims + if c.acquiring == command then 1 else 0 := fun claims =>
        List.countP_cons
      rw [List.eraseIdx_cons_succ, hcons, hcons, ih h, add_right_comm]

theorem held_append (command : Command) (claims : List Claim) (claim : Claim) :
    held command (claims ++ [claim]) = held command claims +
      if claim.acquiring == command then 1 else 0 := by
  rw [held, List.countP_append, List.countP_singleton, held]

theorem sent_append (command : Command) (log more : List (HostCall × HostAnswer)) :
    sent command (log ++ more) = sent command log + sent command more := by
  rw [sent, written_append, List.count_append, sent, sent]

/-- A part that sends nothing and keeps the claims, or drops some. -/
theorem Conforms.silent {log : List (HostCall × HostAnswer)} {before after : List Claim}
    (hw : written log = [])
    (h : ∀ command, held command after ≤ held command before) : Conforms log before after := by
  have hsent : ∀ command, sent command log = 0 := fun command => by rw [sent, hw]; rfl
  refine ⟨?_, ?_, ?_⟩
  · rw [hw]
    exact nofun
  · rw [hsent, hsent]
    have := h .acquireLease
    omega
  · rw [hsent, hsent]
    have := h .acquirePassThrough
    omega

theorem sent_one {log : List (HostCall × HostAnswer)} {command : Command}
    (hw : written log = [Request.new command]) (other : Command) :
    sent other log = if command = other then 1 else 0 := by
  rw [sent, hw]
  cases command <;> cases other <;> rfl

/-- A part that sends one request. -/
theorem Conforms.one {log : List (HostCall × HostAnswer)} {before after : List Claim}
    {command : Command} (hw : written log = [Request.new command])
    (hl : (if command = .releaseLease then 1 else 0) + held .acquireLease after ≤
      held .acquireLease before + if command = .acquireLease then 1 else 0)
    (hp : (if command = .releasePassThrough then 1 else 0) + held .acquirePassThrough after ≤
      held .acquirePassThrough before + if command = .acquirePassThrough then 1 else 0) :
    Conforms log before after := by
  refine ⟨?_, ?_, ?_⟩
  · rw [hw]
    exact List.forall_mem_singleton.mpr ⟨command, rfl⟩
  · rwa [sent_one hw, sent_one hw]
  · rwa [sent_one hw, sent_one hw]

/-- Nothing is sent, or one request that releases nothing. -/
theorem Conforms.keeping {log : List (HostCall × HostAnswer)} {claims : List Claim}
    {command : Command} (hw : written log = [Request.new command] ∨ written log = [])
    (hl : command ≠ .releaseLease) (hp : command ≠ .releasePassThrough) :
    Conforms log claims claims := by
  rcases hw with hw | hw
  · refine .one hw ?_ ?_
    · rw [if_neg hl]
      omega
    · rw [if_neg hp]
      omega
  · exact .silent hw fun _ => Nat.le_refl _

/-- A granted acquisition. -/
theorem Conforms.granted {log : List (HostCall × HostAnswer)} {claims : List Claim} {claim : Claim}
    (hw : written log = [Request.new claim.acquiring]) :
    Conforms log claims (claims ++ [claim]) := by
  refine .one hw ?_ ?_ <;> rw [held_append] <;> cases claim <;> simp [Claim.acquiring]

/-- A release. -/
theorem Conforms.released {log : List (HostCall × HostAnswer)} {claims : List Claim}
    {index : Nat} {claim : Claim} (h : claims[index]? = some claim)
    (hw : written log = [Request.new claim.releasing]) :
    Conforms log claims (claims.eraseIdx index) := by
  refine .one hw ?_ ?_ <;> rw [held_eraseIdx _ h] <;> cases claim <;>
    simp [Claim.acquiring, Claim.releasing, Nat.add_comm]

theorem Conforms.trans {log more : List (HostCall × HostAnswer)} {a b c : List Claim}
    (h : Conforms log a b) (h' : Conforms more b c) : Conforms (log ++ more) a c := by
  refine ⟨?_, ?_, ?_⟩
  · rw [written_append]
    exact fun request hr => (List.mem_append.mp hr).elim (h.requests request) (h'.requests request)
  · have h₁ := h.leases
    have h₂ := h'.leases
    rw [sent_append, sent_append]
    omega
  · have h₁ := h.passThroughs
    have h₂ := h'.passThroughs
    rw [sent_append, sent_append]
    omega

/-- What an operation does to what is in hand. -/
def Performs (options : ClientOptions) (base : Multiset HostHandle) (claims : List Claim)
    (log : List (HostCall × HostAnswer)) (r : Option (List Claim)) (rest : Multiset HostHandle) :
    Prop :=
  Leaves options.allowInjection (base + claimsHeld (r.getD claims)) rest ∧
    Conforms log claims (r.getD claims)

/-- A status query, however it ends. -/
theorem query_performs {claims : List Claim} {x : Hosting (Option (Except Error Launch.Status))}
    (hx : hostCustody.Guards (fun log _ rest => (written log = [Request.new .queryStatus] ∨
        written log = []) ∧ Leaves options.allowInjection (base + claimsHeld claims) rest) x
      (base + claimsHeld claims)) :
    hostCustody.Guards (Performs options base claims) (do
      let r ← x
      pure (r.map fun _ => claims)) (base + claimsHeld claims) := by
  refine .bind hx fun log r rest h => ?_
  obtain ⟨hw, hleft⟩ := h
  have hclaims : (r.map fun _ => claims).getD claims = claims := by cases r <;> rfl
  refine .pure ?_
  rw [List.append_nil, Performs, hclaims]
  exact ⟨hleft, .keeping hw nofun nofun⟩

/-- An acquisition, however it ends. -/
theorem acquisition_performs {α : Type} {claims : List Claim} {command : Command}
    {claim : α → Claim}
    {x : Hosting (Option (Except Error α))}
    (hx : hostCustody.Guards (Grants options.allowInjection (base + claimsHeld claims)
      (fun a => (claim a).pipe) command) x (base + claimsHeld claims))
    (hl : command ≠ .releaseLease) (hp : command ≠ .releasePassThrough)
    (hc : ∀ a, (claim a).acquiring = command) :
    hostCustody.Guards (Performs options base claims) (do
      let r ← x
      pure (addClaim claims claim r)) (base + claimsHeld claims) := by
  refine .bind hx fun log r rest h => .pure ?_
  obtain ⟨hw, hleft⟩ := h
  rw [List.append_nil]
  rcases r with _ | e | a
  · rw [show heldOf (fun a => (claim a).pipe) none = 0 from rfl, add_zero] at hleft
    exact ⟨hleft, .keeping (hw.imp_right And.left) hl hp⟩
  · rw [heldOf_error, add_zero] at hleft
    exact ⟨hleft, .keeping (hw.imp_right And.left) hl hp⟩
  · have hw : written log = [Request.new (claim a).acquiring] := by
      rw [hc]
      exact hw.resolve_right fun h => h.2 a rfl
    refine ⟨?_, .granted hw⟩
    show Leaves _ (base + claimsHeld (claims ++ [claim a])) rest
    rw [claimsHeld_append, ← add_assoc]
    exact hleft

/-- An operation gives back what it opened, but for the claim it makes, and keeps to the
    protocol. -/
theorem perform_guards (claims : List Claim) (operation : Operation) :
    hostCustody.Guards (Performs options base claims) (perform options rounds claims operation)
      (base + claimsHeld claims) := by
  cases operation with
  | ensurePayload =>
    exact query_performs (queryWith_guards fun processId _ =>
      connect_guards options rounds processId)
  | status =>
    refine query_performs (queryWith_guards fun processId _ => ?_)
    refine (connectPipe_guards processId _ rounds).imp fun log r rest h => ?_
    obtain ⟨rfl, hlog⟩ := h
    exact ⟨hlog.written, .refl⟩
  | rescan =>
    refine .bind (findProcess_guards options.targetName) fun log₁ found start h => ?_
    obtain ⟨rfl, hq₁⟩ := h
    split
    · refine .pure ⟨.refl, .silent ?_ fun _ => Nat.le_refl _⟩
      exact (hq₁.append .nil).written
    · refine .bind (rescanSteamControllers_guards _) fun log₂ r rest h => ?_
      obtain ⟨rfl, hq₂⟩ := h
      refine .pure ⟨.refl, .silent ?_ fun _ => Nat.le_refl _⟩
      exact (hq₁.append (hq₂.append .nil)).written
  | acquire =>
    exact acquisition_performs acquire_guards (fun h => by cases h) (fun h => by cases h)
      fun _ => rfl
  | acquirePassThrough =>
    exact acquisition_performs acquirePassThrough_guards (fun h => by cases h)
      (fun h => by cases h) fun _ => rfl
  | release index =>
    rw [perform]
    split
    · exact .pure ⟨.refl, .silent rfl fun _ => Nat.le_refl _⟩
    next claim hclaim =>
    rw [claimsHeld_eraseIdx hclaim, ← add_assoc]
    refine .bind claim.release_guards fun log _ rest h => ?_
    obtain ⟨rfl, hw⟩ := h
    refine .pure ⟨.refl, .released hclaim ?_⟩
    rwa [List.append_nil]
  | drop index =>
    rw [perform]
    split
    · exact .pure ⟨.refl, .silent rfl fun _ => Nat.le_refl _⟩
    next claim hclaim =>
    -- a dropped claim closes its pipe and says nothing
    rw [claimsHeld_eraseIdx hclaim, ← add_assoc]
    refine .bind (dropHandle_guards claim.pipe) fun log _ rest h => ?_
    obtain ⟨rfl, hc⟩ := h
    have hq : Quiet log := fun e he => by
      rw [hc e he]
      trivial
    refine .pure ⟨.refl, .silent (hq.append .nil).written fun command => ?_⟩
    rw [held_eraseIdx command hclaim]
    exact Nat.le_add_right _ _

theorem session_guards (operations : List Operation) (claims : List Claim) :
    hostCustody.Guards (fun log after rest =>
        Leaves options.allowInjection (base + claimsHeld after) rest ∧ Conforms log claims after)
      (session options rounds operations claims) (base + claimsHeld claims) := by
  induction operations generalizing claims base with
  | nil => exact .pure ⟨.refl, .silent rfl fun _ => Nat.le_refl _⟩
  | cons operation operations ih =>
    refine .bind (perform_guards claims operation) fun log r rest h => ?_
    obtain ⟨hleft, hconf⟩ := h
    cases r with
    | none =>
      refine .pure ⟨hleft, ?_⟩
      rw [List.append_nil]
      exact hconf
    | some after =>
      have hconf : Conforms log claims after := hconf
      have hleft : Leaves options.allowInjection (base + claimsHeld after) rest := hleft
      obtain ⟨left, hremote, hnone, rfl⟩ := hleft
      rw [add_right_comm]
      refine (ih after).imp fun more final rest h => ⟨?_, hconf.trans h.2⟩
      refine Leaves.trans ?_ h.1
      exact ⟨left, hremote, hnone, add_right_comm _ _ _⟩

end

section

variable (options : ClientOptions) (rounds : Nat) (operations : List Operation)
  (answers : Nat → HostAnswer)

theorem session_along :
    ∃ left : Multiset HostHandle,
      hostCustody.Along 0 ((session options rounds operations []).run answers).1
        (claimsHeld ((session options rounds operations []).run answers).2 + left) ∧
      (∀ x ∈ left, ∃ process address, x = .remote process address) ∧
      (options.allowInjection = false → left = 0) ∧
      Conforms ((session options rounds operations []).run answers).1 []
        ((session options rounds operations []).run answers).2 := by
  have h : hostCustody.Guards _ (session options rounds operations []) (0 + claimsHeld []) :=
    session_guards operations []
  rw [show claimsHeld [] = 0 from rfl, add_zero] at h
  obtain ⟨rest, halong, ⟨left, hremote, hnone, rfl⟩, hconf⟩ := h.along.run answers
  rw [zero_add] at halong
  exact ⟨left, halong, hremote, hnone, hconf⟩

/-- Whatever operations a caller performs and however Windows answers, the library names only
    handles it holds and closes each once: what is left is the pipes of the claims the caller
    still has. Only an injection leaves anything else, and only in the target. -/
theorem session_custody : ∃ left : Multiset HostHandle,
    hostCustody.Along 0 ((session options rounds operations []).run answers).1
      (claimsHeld ((session options rounds operations []).run answers).2 + left) ∧
    (∀ x ∈ left, ∃ process address, x = .remote process address) ∧
    (options.allowInjection = false → left = 0) := by
  obtain ⟨left, halong, hremote, hnone, -⟩ := session_along options rounds operations answers
  exact ⟨left, halong, hremote, hnone⟩

/-- Every request a caller sends through the library is one of the protocol's. Behind any
    operations, the leases it holds and those it asked to release are no more than those it asked
    for, and so are the pass-through claims. -/
theorem session_conforms :
    Conforms ((session options rounds operations []).run answers).1 []
      ((session options rounds operations []).run answers).2 := by
  obtain ⟨left, -, -, -, hconf⟩ := session_along options rounds operations answers
  exact hconf

end

end Host
end SteamInputLease
