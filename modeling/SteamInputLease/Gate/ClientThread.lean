import SteamInputLease.Core.Protocol
import SteamInputLease.Gate.RescanTimer

/-!
# `client_thread`: one pipe connection and the worker that serves it

A connection is the worker's program counter, the two directions of the message-mode pipe and
what the client end is: an arbitrary program that sends any messages, or the host library, whose
`acquire`, `Lease` and `Lease::release` are the transitions of `HostEnd`.

The worker's program counter names the next thing `client_thread` does. From `acquire` and
`release` to `unlock` the worker holds `OWNERSHIP_TRANSITION`; the counters are read and written
only there, except for the reads of a response.
-/

namespace SteamInputLease
namespace Gate

open Protocol Recovery

/-! ## The host's end of the pipe -/

/-- `RecoveryOutcome`, with `Completed` and `Unavailable` as the one branch in which the host
    runs `rescan_steam_controllers` itself. -/
inductive RecoveryOutcome
  | notRequired
  | scheduled
  | hostRescan
  deriving DecidableEq, Repr

/-- The recovery `Lease::release` chooses from the release response. -/
def recoveryOutcome (targetIsSteam : Bool) (r : Response) : RecoveryOutcome :=
  if !targetIsSteam || decide (0 < r.leaseCount) then .notRequired
  else if r.hasInternalRecovery then .scheduled
  else .hostRescan

/-- What the client end of a connection is. -/
inductive HostEnd
  /-- Some other program: it sends what it likes. -/
  | raw
  /-- The library has connected and not sent its acquire request yet. -/
  | idle (o : Owner) (targetIsSteam : Bool)
  /-- `exchange(Acquire…)` waits for the response. -/
  | acquiring (o : Owner) (targetIsSteam : Bool)
  /-- A live `Lease` or `PassThrough` object. -/
  | holding (o : Owner) (targetIsSteam : Bool)
  /-- `release` has consumed the object and waits for the response. -/
  | releasing (o : Owner) (targetIsSteam : Bool)
  /-- `Lease::release` returned `Ok` with this recovery. -/
  | released (recovery : RecoveryOutcome)
  /-- Dropped, crashed, or an exchange failed. -/
  | gone
  deriving DecidableEq, Repr

/-- The command that acquires. -/
def Owner.acquireCommand : Owner → Command
  | .lease => .acquireLease
  | .passThrough => .acquirePassThrough

/-- The command that releases explicitly. -/
def Owner.releaseCommand : Owner → Command
  | .lease => .releaseLease
  | .passThrough => .releasePassThrough

/-! ## The worker's program counter -/

/-- Which response is being built: the first one with what was granted, or the one an explicit
    release gets. -/
inductive Reply
  | initial (result : ResultCode) (granted : Option Owner)
  | released
  deriving DecidableEq, Repr

/-- What a section under `OWNERSHIP_TRANSITION` did: granted a unit, or gave one back. -/
inductive Section
  | granted (o : Owner)
  | gaveBack (explicit : Bool)
  deriving DecidableEq, Repr

inductive WorkerPc
  /-- The first `ReadFile`. -/
  | readRequest
  | ensureHooks
  | lockAcquire (o : Owner)
  -- from here to `unlock`, with `OWNERSHIP_TRANSITION` held
  | acquire (o : Owner)
  | leaseAdded (leases : Int)
  | passThroughRead (wasBlocking : Bool)
  | passThroughAdded (wasBlocking : Bool)
  | discover (sec : Section)
  | notify (n : NotifyPc) (sec : Section)
  | unlock (sec : Section)
  -- `response()` and `WriteFile`
  | capabilities (r : Reply)
  | spawnResolver (r : Reply)
  | passState (r : Reply) (recovery : Bool)
  | counts (r : Reply) (capabilities : UInt16)
  | write (r : Reply) (response : Response)
  /-- The second `ReadFile`. -/
  | readRelease (o : Owner)
  | lockRelease (o : Owner) (explicit : Bool)
  -- and again to `unlock`, with `OWNERSHIP_TRANSITION` held
  | release (o : Owner) (explicit : Bool)
  | releaseRead (o : Owner) (explicit wasBlocking : Bool)
  | released (o : Owner) (explicit wasBlocking : Bool)
  | disconnect
  | closed
  deriving DecidableEq, Repr

structure Connection where
  pc : WorkerPc
  /-- Client to server: messages not read yet. -/
  requests : List (List UInt8)
  /-- Server to client: responses not read yet. -/
  responses : List Response
  clientOpen : Bool
  host : HostEnd
  deriving DecidableEq, Repr

/-- A freshly accepted connection. -/
def Connection.accepted (h : HostEnd) : Connection :=
  { pc := .readRequest, requests := [], responses := [], clientOpen := true, host := h }

/-! ## Steps of the client end -/

inductive ClientAct
  /-- A raw client sends a message, or reads a response. -/
  | send (m : List UInt8)
  | receive
  /-- The library: `exchange` sends the acquire request, and reads its response. -/
  | acquire
  | acquired
  /-- The library: `release` sends its request, and reads the response and returns. -/
  | release
  | released
  /-- The client end closes: an object is dropped, the process dies, an exchange fails. -/
  | close
  deriving DecidableEq, Repr

def Connection.gone (c : Connection) : Connection :=
  { c with clientOpen := false, host := .gone }

def clientStep (c : Connection) : ClientAct → Option Connection := fun a =>
  if !c.clientOpen then none
  else match a, c.host, c.responses with
  | .send m, .raw, _ => some { c with requests := c.requests ++ [m] }
  | .receive, .raw, _ :: rest => some { c with responses := rest }
  | .acquire, .idle o st, _ =>
    some { c with requests := c.requests ++ [(Request.new o.acquireCommand).toBytes],
                  host := .acquiring o st }
  | .acquired, .acquiring o st, r :: rest =>
    if r.isValid then some { c with responses := rest, host := .holding o st } else some c.gone
  | .release, .holding o st, _ =>
    some { c with requests := c.requests ++ [(Request.new o.releaseCommand).toBytes],
                  host := .releasing o st }
  | .released, .releasing .lease st, r :: _ =>
    if r.isValid then
      some { c with clientOpen := false, host := .released (recoveryOutcome st r) }
    else some c.gone
  | .released, .releasing .passThrough _, _ :: _ => some c.gone
  | .close, _, _ => some c.gone
  | _, _, _ => none

/-! ## Steps of the worker -/

/-- A thread that runs `resolve_discovery_deadline(false)`: the capability resolver, which clears
    `CAPABILITY_RESOLUTION_RUNNING` afterwards, or the warm-up of `ensure_hooks_installed`. -/
structure Resolver where
  capability : Bool
  /-- `none` once the resolution is over. -/
  pc : Option ResolvePc
  ended : Bool
  deriving DecidableEq, Repr

/-- A thread just spawned. -/
def Resolver.start (capability : Bool) : Resolver :=
  { capability := capability, pc := some .layout, ended := false }

/-- The payload's process-global state. -/
structure Payload where
  counters : Counters
  /-- The connection whose worker holds `OWNERSHIP_TRANSITION`. -/
  ownershipTransition : Option Nat
  /-- The sticky `STATE` of `ensure_hooks_installed`. -/
  hooks : Option Bool
  caches : Caches
  capabilityResolutionRunning : Bool
  resolvers : List Resolver
  timer : RescanTimer
  clock : Nat
  deriving DecidableEq, Repr

/-- The `ReadFile` outcome a worker sees next; nothing while the pipe is open and empty. -/
def Connection.nextRead (c : Connection) : Option (ReadFile × Connection) :=
  match c.requests, c.clientOpen with
  | m :: rest, _ => some (readFile (some m), { c with requests := rest })
  | [], false => some (readFile none, c)
  | [], true => none

/-- The branch the first message takes. -/
def WorkerPc.dispatch (r : ReadFile) : WorkerPc :=
  if !r.valid then .capabilities (.initial .invalidRequest none)
  else if r.request.command == Command.acquireLease.code then .ensureHooks
  else if r.request.command == Command.acquirePassThrough.code then .lockAcquire .passThrough
  else if r.request.command == Command.queryStatus.code then .capabilities (.initial .ok none)
  else .capabilities (.initial .invalidRequest none)

/-- What follows a section: the initial response, the release response, or the disconnect. -/
def Section.next : Section → WorkerPc
  | .granted o => .capabilities (.initial .ok (some o))
  | .gaveBack true => .capabilities .released
  | .gaveBack false => .disconnect

/-- What follows a response. -/
def Reply.next : Reply → WorkerPc
  | .initial _ (some o) => .readRelease o
  | .initial _ none => .disconnect
  | .released => .disconnect

/-- `result as u32` of the reply. -/
def Reply.result : Reply → ResultCode
  | .initial r _ => r
  | .released => .ok

/-- `count.load().max(0) as u32`. -/
def countField (x : Int) : UInt32 := UInt32.ofNat x.toNat

/-- The capability word of a response. -/
def capabilityWord (recovery passActive : Bool) : UInt16 :=
  (if recovery then capabilityInternalRecovery else 0) ||| capabilityPassThrough
    ||| (if passActive then statePassThroughActive else 0)

/-- `response(result)`, from the capabilities read before and the counts read now. -/
def buildResponse (r : Reply) (capabilities : UInt16) (leases hid revoked : Int) : Response :=
  { magic := protocolMagic, version := protocolVersion, capabilities := capabilities
    result := r.result.code, leaseCount := countField leases, hidHandleCount := countField hid
    lastRevokedHandleCount := countField revoked }

def Connection.goto (c : Connection) (pc : WorkerPc) : Connection := { c with pc := pc }

@[simp] theorem Connection.goto_pc (c : Connection) (pc : WorkerPc) : (c.goto pc).pc = pc := rfl

/-- Before the section: the first read, the hooks, the lock; and before the second section. -/
def outsideStep (p : Payload) (i : Nat) (c : Connection) :
    WorkerPc → Choice → Option (Payload × Connection)
  | .readRequest, .go => c.nextRead.map fun (r, c') => (p, c'.goto (.dispatch r))
  | .ensureHooks, ch =>
    match p.hooks, ch with
    | some true, .go => some (p, c.goto (.lockAcquire .lease))
    | some false, .go => some (p, c.goto (.capabilities (.initial .hookInstallFailed none)))
    | none, .install true spawned =>
      let rs := if spawned then p.resolvers ++ [.start false] else p.resolvers
      some ({ p with hooks := some true, resolvers := rs }, c.goto (.lockAcquire .lease))
    | none, .install false _ =>
      some ({ p with hooks := some false },
        c.goto (.capabilities (.initial .hookInstallFailed none)))
    | _, _ => none
  | .lockAcquire o, .go =>
    if p.ownershipTransition = none then
      some ({ p with ownershipTransition := some i }, c.goto (.acquire o))
    else none
  | .readRelease o, .go =>
    c.nextRead.map fun (r, c') => (p, c'.goto (.lockRelease o (r.explicit o.releaseCommand)))
  | .lockRelease o e, .go =>
    if p.ownershipTransition = none then
      some ({ p with ownershipTransition := some i }, c.goto (.release o e))
    else none
  | .disconnect, .go => some (p, c.goto .closed)
  | _, _ => none

/-- Inside a section under `OWNERSHIP_TRANSITION`. -/
def sectionStep (p : Payload) (c : Connection) :
    WorkerPc → Choice → Option (Payload × Connection)
  | .acquire .lease, .go =>
    let k := p.counters.add 1 .lease
    some ({ p with counters := k }, c.goto (.leaseAdded k.leaseCount))
  | .leaseAdded leases, .go =>
    if leases = 1 ∧ p.counters.blocking then
      some ({ p with caches := p.caches.resetAttempts }, c.goto (.discover (.granted .lease)))
    else some (p, c.goto (.unlock (.granted .lease)))
  | .acquire .passThrough, .go => some (p, c.goto (.passThroughRead p.counters.blocking))
  | .passThroughRead was, .go =>
    some ({ p with counters := p.counters.add 1 .passThrough }, c.goto (.passThroughAdded was))
  | .passThroughAdded was, .go =>
    some (p, c.goto (if was then .notify .guard (.granted .passThrough)
      else .unlock (.granted .passThrough)))
  | .release o e, .go => some (p, c.goto (.releaseRead o e p.counters.blocking))
  | .releaseRead o e was, .go =>
    some ({ p with counters := p.counters.add (-1) o }, c.goto (.released o e was))
  | .released _ e was, .go =>
    if !was && p.counters.blocking then
      some ({ p with caches := p.caches.resetAttempts }, c.goto (.discover (.gaveBack e)))
    else if was && !p.counters.blocking then some (p, c.goto (.notify .guard (.gaveBack e)))
    else some (p, c.goto (.unlock (.gaveBack e)))
  | .discover sec, .go => some (p, c.goto (.unlock sec))
  | .notify n sec, ch =>
    match notifyStep p.counters p.clock p.caches p.timer n ch with
    | some (k, t, some n') => some ({ p with caches := k, timer := t }, c.goto (.notify n' sec))
    | some (k, t, none) => some ({ p with caches := k, timer := t }, c.goto (.unlock sec))
    | none => none
  | .unlock sec, .go => some ({ p with ownershipTransition := none }, c.goto sec.next)
  | _, _ => none

/-- Building and writing a response. -/
def respondStep (p : Payload) (c : Connection) :
    WorkerPc → Choice → Option (Payload × Connection)
  | .capabilities r, .flag valid =>
    if p.caches.cachedHidThreadIsValid valid then some (p, c.goto (.passState r true))
    else if p.capabilityResolutionRunning then some (p, c.goto (.passState r false))
    else some ({ p with capabilityResolutionRunning := true }, c.goto (.spawnResolver r))
  | .spawnResolver r, .flag true =>
    some ({ p with resolvers := p.resolvers ++ [.start true] }, c.goto (.passState r false))
  | .spawnResolver r, .flag false =>
    some ({ p with capabilityResolutionRunning := false }, c.goto (.passState r false))
  | .passState r recovery, .go =>
    let active := decide (0 < p.counters.passThroughCount)
    some (p, c.goto (.counts r (capabilityWord recovery active)))
  | .counts r caps, .counts hid revoked =>
    some (p, c.goto (.write r (buildResponse r caps p.counters.leaseCount hid revoked)))
  | .write r response, .flag ok =>
    -- `WriteFile`'s result is ignored; a closed client end cannot receive
    let sent := if ok && c.clientOpen then c.responses ++ [response] else c.responses
    some (p, { c with responses := sent, pc := r.next })
  | _, _ => none

/-- The three parts of `client_thread` in the order a worker meets them. -/
inductive Stage
  | outside
  | inSection
  | respond
  deriving DecidableEq, Repr

def WorkerPc.stage : WorkerPc → Stage
  | .acquire _ | .leaseAdded _ | .passThroughRead _ | .passThroughAdded _ | .discover _
  | .notify _ _ | .unlock _ | .release _ _ | .releaseRead _ _ _ | .released _ _ _ => .inSection
  | .capabilities _ | .spawnResolver _ | .passState _ _ | .counts _ _ | .write _ _ => .respond
  | _ => .outside

/-- One step of the worker of connection `i`. -/
def workerStep (p : Payload) (i : Nat) (c : Connection) (ch : Choice) :
    Option (Payload × Connection) :=
  match c.pc.stage with
  | .outside => outsideStep p i c c.pc ch
  | .inSection => sectionStep p c c.pc ch
  | .respond => respondStep p c c.pc ch

end Gate
end SteamInputLease
