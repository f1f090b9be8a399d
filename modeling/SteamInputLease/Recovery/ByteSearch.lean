import Mathlib.Data.List.Basic
import SteamInputLease.Lib.Bytes

/-!
# Searching the image, a word at a time

`for_each_byte` and `find_unique`. The closure a caller passes to `for_each_byte` is a function
on the state it captures. Slices are byte lists, and a loop over a slice gets the rounds it can
take as its first argument.
-/

namespace SteamInputLease
namespace Recovery

open Lib

/-- `u64::from_le_bytes`. -/
def u64FromLe (bytes : List UInt8) : BitVec 64 := BitVec.ofNat 64 (leNat bytes)

/-- `word.wrapping_sub(0x0101..) & !word & 0x8080..`. -/
def zeroLanes (word : BitVec 64) : BitVec 64 :=
  (word - 0x0101010101010101#64) &&& ~~~word &&& 0x8080808080808080#64

section

variable {σ : Type} (needle : UInt8) (onHit : σ → Nat → σ)

/-- `while mask != 0`: the flagged lanes of one chunk. -/
def maskLoop (chunk : List UInt8) (base : Nat) : Nat → BitVec 64 → σ → σ
  | 0, _, s => s
  | n + 1, mask, s =>
    if mask = 0#64 then s
    else
      let lane := mask.ctz.toNat / 8
      -- a flagged lane need not match: the borrow of a match runs into the next lane
      let s := if chunk[lane]? = some needle then onHit s (base + lane) else s
      maskLoop chunk base n (mask &&& (mask - 1#64)) s

/-- One chunk of eight bytes. -/
def chunkHits (chunk : List UInt8) (base : Nat) (s : σ) : σ :=
  let word := u64FromLe chunk ^^^ u64FromLe (.replicate 8 needle)
  maskLoop needle onHit chunk base 64 (zeroLanes word) s

/-- `chunks.remainder()`. -/
def tailHits : List UInt8 → Nat → σ → σ
  | [], _, s => s
  | byte :: rest, index, s =>
    tailHits rest (index + 1) (if byte = needle then onHit s index else s)

/-- `n` chunks of `haystack`, and then its remainder. -/
def chunkLoop : Nat → List UInt8 → Nat → σ → σ
  | 0, haystack, base, s => tailHits needle onHit haystack base s
  | n + 1, haystack, base, s =>
    chunkLoop n (haystack.drop 8) (base + 8) (chunkHits needle onHit (haystack.take 8) base s)

/-- `for_each_byte`. -/
def forEachByte (haystack : List UInt8) (s : σ) : σ :=
  chunkLoop needle onHit (haystack.length / 8) haystack 0 s

end

/-- `bytes[start..start + length]`. -/
def slice (bytes : List UInt8) (start length : Nat) : List UInt8 := (bytes.drop start).take length

/-- The captured `count` and `found` of `find_unique`. -/
structure Occurrences where
  count : Nat
  found : Nat
  deriving DecidableEq, Repr

/-- The closure of `find_unique`. -/
def Occurrences.hit (haystack rest : List UInt8) (limit : Nat) (o : Occurrences) (offset : Nat) :
    Occurrences :=
  if offset ≤ limit ∧ slice haystack (offset + 1) rest.length = rest then
    { count := o.count + 1, found := if o.count = 0 then offset else o.found }
  else o

/-- `find_unique`. -/
def findUnique (haystack : List UInt8) : List UInt8 → Except Nat Nat
  | [] => .error 0
  | first :: rest =>
    if haystack.length < (first :: rest).length then .error 0
    else
      let limit := haystack.length - (first :: rest).length
      let o := forEachByte first (Occurrences.hit haystack rest limit) haystack ⟨0, 0⟩
      if o.count = 1 then .ok o.found else .error o.count

/-- `needle` occurs in `haystack` at offset `p`. -/
def OccursAt (haystack needle : List UInt8) (p : Nat) : Prop :=
  p + needle.length ≤ haystack.length ∧ slice haystack p needle.length = needle

instance (haystack needle : List UInt8) (p : Nat) : Decidable (OccursAt haystack needle p) :=
  inferInstanceAs (Decidable (_ ∧ _))

/-- The offsets at which `needle` occurs, in ascending order. -/
def occurrences (haystack needle : List UInt8) : List Nat :=
  (List.range haystack.length).filter fun p => decide (OccursAt haystack needle p)

/-- Overlapping occurrences count, and the lane behind a match that differs from the needle in
    its lowest bit is flagged but not reported. -/
example : (findUnique [1, 2, 1, 2, 1] [1, 2, 1]).toOption = none ∧
    (findUnique [7, 0, 1, 5, 0, 9, 9, 9, 9] [0, 9]).toOption = some 4 := by decide +kernel

end Recovery
end SteamInputLease
