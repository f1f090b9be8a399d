import SteamInputLease.Gate.System

/-!
# An audit of the sections under `OWNERSHIP_TRANSITION`

An observer that watches the predicate `blocking` and the two calls with side effects, and books
each change and each call to the section it happens in.
-/

namespace SteamInputLease
namespace Gate

/-- What happened in one section: changes of `blocking` to on and to off, and calls of
    `discover_and_revoke_hid_handles` and of `notify_controller_rescan`. -/
structure SectionRecord where
  turnedOn : Nat
  turnedOff : Nat
  sweeps : Nat
  notifies : Nat
  deriving DecidableEq, Repr

namespace SectionRecord

/-- Nothing happened. -/
def quiet : SectionRecord := { turnedOn := 0, turnedOff := 0, sweeps := 0, notifies := 0 }

/-- Blocking was turned on and one sweep was made. -/
def swept : SectionRecord := { quiet with turnedOn := 1, sweeps := 1 }

/-- Blocking was turned off and one notification was made. -/
def notified : SectionRecord := { quiet with turnedOff := 1, notifies := 1 }

end SectionRecord

/-- Inside `discover_and_revoke_hid_handles`. -/
def WorkerPc.sweeping : WorkerPc → Bool
  | .discover _ => true
  | _ => false

/-- Inside `notify_controller_rescan`. -/
def WorkerPc.notifying : WorkerPc → Bool
  | .notify _ _ => true
  | _ => false

/-- The record after a step from `pc` to `pc'` over which `blocking` went from `was` to `now`. -/
def SectionRecord.after (r : SectionRecord) (was now : Bool) (pc pc' : WorkerPc) :
    SectionRecord where
  turnedOn := r.turnedOn + if !was && now then 1 else 0
  turnedOff := r.turnedOff + if was && !now then 1 else 0
  sweeps := r.sweeps + if !pc.sweeping && pc'.sweeping then 1 else 0
  notifies := r.notifies + if !pc.notifying && pc'.notifying then 1 else 0

structure Audit where
  /-- The section worker `i` is in. -/
  current : Nat → SectionRecord
  /-- The sections that ended, latest first. -/
  closed : List SectionRecord
  /-- What happened in no section. -/
  outside : SectionRecord

def Audit.empty : Audit := { current := fun _ => .quiet, closed := [], outside := .quiet }

/-- The observer at one step. -/
def Audit.observe (a : Audit) (s : State) (e : Label) (s' : State) : Audit :=
  match e with
  | .worker i _ =>
    if (s.pc i).stage = .inSection then
      let r := (a.current i).after s.blocking s'.blocking (s.pc i) (s'.pc i)
      if (s'.pc i).stage = .inSection then
        { a with current := fun j => if j = i then r else a.current j }
      else
        { a with current := fun j => if j = i then .quiet else a.current j
                 closed := r :: a.closed }
    else { a with outside := a.outside.after s.blocking s'.blocking (s.pc i) (s'.pc i) }
  | _ => { a with outside := a.outside.after s.blocking s'.blocking .closed .closed }

/-- What the last section that changed `blocking` left it at. -/
def leftOn (closed : List SectionRecord) : Bool :=
  match closed.find? (· != .quiet) with
  | some r => r == .swept
  | none => false

end Gate
end SteamInputLease
