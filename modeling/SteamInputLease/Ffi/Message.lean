import SteamInputLease.Lib.Checked
import SteamInputLease.Lib.Utf8

/-!
# Messages in fixed buffers

`write_fixed_utf8`, which puts a text into the `recovery_message` of a release outcome. A `&str` is
the list of its characters, and its bytes are their UTF-8 encoding. A `c_char` is its bit pattern.
-/

namespace SteamInputLease
namespace Ffi

open Lib

/-- `text.replace('\0', " ")`. -/
def replaceNul (text : List Char) : List Char := text.map fun c => if c = '\x00' then ' ' else c

/-- `is_char_boundary`. -/
def isCharBoundary (bytes : List UInt8) (index : Nat) : Bool :=
  if index = 0 then true
  else if bytes.length ≤ index then index == bytes.length
  else (bytes[index]?).any fun byte => !decide (Utf8.Continues byte)

/-- `while end > 0 && !sanitized.is_char_boundary(end)`. -/
def boundaryFrom (bytes : List UInt8) : Nat → Nat
  | 0 => 0
  | stop + 1 => if isCharBoundary bytes (stop + 1) then stop + 1 else boundaryFrom bytes stop

/-- `text[..stop]`, which must not split a character. -/
def strSlice (bytes : List UInt8) (stop : Nat) : MayPanic (List UInt8) :=
  if isCharBoundary bytes stop then MayPanic.slice bytes 0 stop else .error .outOfRange

/-- `for (slot, byte) in buffer.iter_mut().zip(bytes)`. -/
def zipCopy : List UInt8 → List UInt8 → List UInt8
  | _ :: buffer, byte :: bytes => byte :: zipCopy buffer bytes
  | buffer, _ => buffer

/-- `write_fixed_utf8`: the buffer afterwards. -/
def writeFixedUtf8 (buffer : List UInt8) (text : List Char) : MayPanic (List UInt8) := do
  let sanitized := Utf8.encode (replaceNul text)
  let limit ← MayPanic.sub buffer.length 1
  let stop := boundaryFrom sanitized (min sanitized.length limit)
  let kept ← strSlice sanitized stop
  MayPanic.set (zipCopy buffer kept) stop 0

end Ffi
end SteamInputLease
