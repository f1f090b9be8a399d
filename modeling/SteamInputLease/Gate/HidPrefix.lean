import SteamInputLease.Gate.Sweep
import SteamInputLease.Lib.Checked
import SteamInputLease.Lib.Pattern

/-!
# Recognising the path of a HID device

`wide_has_hid_prefix`, `narrow_has_hid_prefix` and `native_has_hid_prefix`. A pointer to a string
is what can be read behind it, `none` where it is null; to read further crashes.
-/

namespace SteamInputLease
namespace Gate

open Lib

/-- `eq_ignore_ascii_case`. -/
def eqIgnoreAsciiCase (left right : UInt8) : Bool := toAsciiLowercase left == toAsciiLowercase right

/-- `expected`: `\\`, a place for `?` or `.`, and `\hid`. -/
def expectedPrefix : List UInt8 := [0x5c, 0x5c, 0, 0x5c, 0x68, 0x69, 0x64]

section

variable {α : Type} [DecidableEq α] (nul question dot : α) (toByte : α → UInt8)

/-- One round of the loop over `expected`, on a unit that is not the terminator. -/
def unitMatches (index : Nat) (unit : UInt8) (actual : α) : Bool :=
  if index = 2 then actual == question || actual == dot
  else eqIgnoreAsciiCase (toByte actual) unit

/-- The loop, from `index`. -/
def prefixLoop (path : List α) : List UInt8 → Nat → MayPanic Bool
  | [], _ => pure true
  | unit :: rest, index => do
    let actual ← MayPanic.index path index
    if actual = nul then pure false
    else if !unitMatches question dot toByte index unit actual then pure false
    else prefixLoop path rest (index + 1)

end

/-- `wide_has_hid_prefix`: a unit is compared `as u8`, but for the third. -/
def wideHasHidPrefix : Option (List UInt16) → MayPanic Bool
  | none => pure false
  | some path => prefixLoop 0 0x3f 0x2e UInt16.toUInt8 path expectedPrefix 0

/-- `narrow_has_hid_prefix`. -/
def narrowHasHidPrefix : Option (List UInt8) → MayPanic Bool
  | none => pure false
  | some path => prefixLoop 0 0x3f 0x2e id path expectedPrefix 0

/-- `UNICODE_STRING`, with its length in bytes. -/
structure UnicodeString where
  length : Nat
  buffer : Option (List UInt16)
  deriving DecidableEq, Repr

/-- `NATIVE`. -/
def nativeUnits : List UInt16 := [0x5c, 0x3f, 0x3f, 0x5c, 0x68, 0x69, 0x64]

/-- `DOS`. -/
def dosUnits : List UInt16 := [0x5c, 0x5c, 0x3f, 0x5c, 0x68, 0x69, 0x64]

/-- `units.len() >= expected.len() && wide_ascii_eq(&units[..expected.len()], &expected)`. -/
def unitsBeginWith (units expected : List UInt16) : MayPanic Bool :=
  if expected.length ≤ units.length then do
    let head ← MayPanic.slice units 0 expected.length
    pure (wideAsciiEq head expected)
  else pure false

/-- `native_has_hid_prefix`, of the name in the attributes. -/
def nativeHasHidPrefix : Option (Option UnicodeString) → MayPanic Bool
  | some (some ⟨length, some buffer⟩) => do
    let units ← MayPanic.slice buffer 0 (length / 2)
    let native ← unitsBeginWith units nativeUnits
    if native then pure true else unitsBeginWith units dosUnits
  | _ => pure false

/-! ## The grammar -/

/-- `\\?\hid` or `\\.\hid`, the letters in either case. -/
def dosDevicePattern : List (List Nat) :=
  [[0x5c], [0x5c], [0x3f, 0x2e], [0x5c], [0x68, 0x48], [0x69, 0x49], [0x64, 0x44]]

/-- `\??\hid`. -/
def nativePattern : List (List Nat) :=
  [[0x5c], [0x3f], [0x3f], [0x5c], [0x68, 0x48], [0x69, 0x49], [0x64, 0x44]]

/-- `\\?\hid`. -/
def dosPattern : List (List Nat) :=
  [[0x5c], [0x5c], [0x3f], [0x5c], [0x68, 0x48], [0x69, 0x49], [0x64, 0x44]]

/-- `as u8`, as a number. -/
def lowByte (unit : UInt16) : Nat := unit.toNat % 256

/-- A path that is none of a HID device until all units but the third are cut to their low
    byte. -/
structure WideAlias (path : List UInt16) : Prop where
  cut : StartsWith dosDevicePattern (path.map lowByte)
  third : path[2]? = some 0x3f ∨ path[2]? = some 0x2e
  wide : ∃ unit ∈ path.take 7, 256 ≤ unit.toNat

/-- A name that is none of a HID device until its units are cut to their low byte. -/
structure NativeAlias (units : List UInt16) : Prop where
  cut : StartsWith nativePattern (units.map lowByte) ∨ StartsWith dosPattern (units.map lowByte)
  wide : ∃ unit ∈ units.take 7, 256 ≤ unit.toNat

/-- The recognisers accept their grammar and agree, on a path of units and one of bytes before
    their terminators, and on a name of `length` bytes in its buffer. -/
structure RecognisersExact (path : List UInt16) (bytes : List UInt8) (buffer : List UInt16)
    (length : Nat) : Prop where
  wide : wideHasHidPrefix (some (path ++ [0])) =
    .ok (decide (StartsWith dosDevicePattern (path.map UInt16.toNat)))
  narrow : narrowHasHidPrefix (some (bytes ++ [0])) =
    .ok (decide (StartsWith dosDevicePattern (bytes.map UInt8.toNat)))
  agree : (∀ b ∈ bytes, b < 0x80) →
    wideHasHidPrefix (some (bytes.map UInt8.toUInt16 ++ [0])) =
      narrowHasHidPrefix (some (bytes ++ [0]))
  native : nativeHasHidPrefix (some (some ⟨length, some buffer⟩)) =
    .ok (decide (StartsWith nativePattern ((buffer.take (length / 2)).map UInt16.toNat) ∨
      StartsWith dosPattern ((buffer.take (length / 2)).map UInt16.toNat)))

end Gate
end SteamInputLease
