import SteamInputLease.Gate.System

/-!
# The ledger of a run

What an observer who sees only counters and messages can write down about a run: how many units
each worker added to each counter and took off again, and what its first read returned.
`Standing` is the abstract life of one connection that the ledger is compared with.
-/

namespace SteamInputLease
namespace Gate

open Lib Protocol

/-! ## The abstract connection -/

/-- Where a connection stands with its unit. -/
inductive Standing
  /-- The first message has not been read. -/
  | fresh
  /-- It asked for a unit of `o`. -/
  | asking (o : Owner)
  /-- It gets an answer and no unit: a rejected or a status request. -/
  | answered (result : ResultCode)
  | owning (o : Owner)
  | returned
  | ended
  deriving DecidableEq, Repr

/-- The unit counted for a connection. -/
def Standing.owns : Standing → Option Owner
  | .owning o => some o
  | _ => none

def Section.standing : Section → Standing
  | .granted o => .owning o
  | .gaveBack _ => .returned

def Reply.standing : Reply → Standing
  | .initial _ (some o) => .owning o
  | .initial result none => .answered result
  | .released => .returned

def WorkerPc.standing : WorkerPc → Standing
  | .readRequest => .fresh
  | .ensureHooks => .asking .lease
  | .lockAcquire o | .acquire o => .asking o
  | .passThroughRead _ => .asking .passThrough
  | .leaseAdded _ => .owning .lease
  | .passThroughAdded _ => .owning .passThrough
  | .discover sec | .notify _ sec | .unlock sec => sec.standing
  | .capabilities r | .spawnResolver r | .passState r _ | .counts r _ | .write r _ => r.standing
  | .readRelease o | .lockRelease o _ | .release o _ | .releaseRead o _ _ => .owning o
  | .released _ _ _ => .returned
  | .disconnect | .closed => .ended

/-- The standing of connection `i`; one that does not exist yet is fresh. -/
def State.standing (s : State) (i : Nat) : Standing := (s.pc i).standing

/-- The worker has been granted a unit of `o` and has not given it back. -/
def Connection.owns (o : Owner) (c : Connection) : Bool := c.pc.standing.owns == some o

/-- A live `Lease` or `PassThrough` object of the host library, of kind `o`. -/
def Connection.holds (o : Owner) (c : Connection) : Bool :=
  match c.host with
  | .holding o' _ => o' == o
  | _ => false

/-! ## What the observer writes down -/

structure Ledger where
  /-- Units worker `i` added to a counter. -/
  taken : Nat → Owner → Nat
  /-- Units worker `i` took off it. -/
  given : Nat → Owner → Nat
  /-- What the first `ReadFile` of worker `i` returned. -/
  first : Nat → Option ReadFile

def Ledger.empty : Ledger :=
  { taken := fun _ _ => 0, given := fun _ _ => 0, first := fun _ => none }

/-- The first read of connection `i`, when this step is that read. -/
def firstRead (s : State) (i : Nat) : Option ReadFile :=
  (s.conns[i]?).bind fun c =>
    if c.pc = .readRequest then c.nextRead.map (·.1) else none

/-- The observer at one step. -/
def Ledger.observe (l : Ledger) (s : State) (e : Label) (s' : State) : Ledger :=
  match e with
  | .worker i _ =>
    let change := fun o => s'.payload.counters.count o - s.payload.counters.count o
    { taken := fun j o => l.taken j o + if j = i then (change o).toNat else 0
      given := fun j o => l.given j o + if j = i then (-change o).toNat else 0
      first := fun j => if j = i then (l.first i).or (firstRead s i) else l.first j }
  | _ => l

/-- The connection's first message was a well-formed request with command `c`. -/
def Ledger.requested (l : Ledger) (i : Nat) (c : Command) : Prop :=
  ∃ r, l.first i = some r ∧ r.valid = true ∧ r.request.command = c.code

/-- Exactly one unit, of kind `o`. -/
def oneUnit (o : Owner) : Owner → Nat := fun o' => if o' = o then 1 else 0

/-- No unit of either kind. -/
def noUnit : Owner → Nat := fun _ => 0

end Gate
end SteamInputLease
