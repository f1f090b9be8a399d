import Mathlib.Tactic.Common

/-!
# The environment of the leased program

`leased_environment_block`: the caller's environment block without the variable with which Steam
hides the controllers.
-/

namespace SteamInputLease
namespace Launch

/-- `b'='`. -/
def equalsSign : UInt16 := 0x3d

/-- `0xd800..=0xdbff`. -/
def isHighSurrogate (unit : UInt16) : Bool := 0xd800 ≤ unit && unit < 0xdc00

/-- `0xdc00..=0xdfff`. -/
def isLowSurrogate (unit : UInt16) : Bool := 0xdc00 ≤ unit && unit < 0xe000

/-- U+FFFD. -/
def replacementCharacter : Char := Char.ofNat 0xfffd

/-- The character of a surrogate pair. -/
def pairChar (high low : UInt16) : Char :=
  Char.ofNat (0x10000 + (high.toNat - 0xd800) * 0x400 + (low.toNat - 0xdc00))

/-- `String::from_utf16_lossy`. -/
def fromUtf16Lossy : List UInt16 → List Char
  | [] => []
  | [unit] =>
    if isHighSurrogate unit || isLowSurrogate unit then [replacementCharacter]
    else [Char.ofNat unit.toNat]
  | unit :: next :: rest =>
    if isHighSurrogate unit && isLowSurrogate next then pairChar unit next :: fromUtf16Lossy rest
    else if isHighSurrogate unit || isLowSurrogate unit then
      replacementCharacter :: fromUtf16Lossy (next :: rest)
    else Char.ofNat unit.toNat :: fromUtf16Lossy (next :: rest)

/-- `eq_ignore_ascii_case`. -/
def eqIgnoreAsciiCase (left right : List Char) : Bool :=
  left.map Char.toLower == right.map Char.toLower

/-- The variable Steam hides controllers with. -/
def ignoredVariable : List Char := "SDL_GAMECONTROLLER_IGNORE_DEVICES".toList

/-- The name in an entry: up to its first equals sign. -/
def entryName (entry : List UInt16) : List UInt16 := entry.takeWhile (· != equalsSign)

/-- The loop of `leased_environment_block` over the entries. -/
def keepEntries : List (List UInt16) → List UInt16 → List UInt16
  | [], result => result
  | entry :: entries, result =>
    if eqIgnoreAsciiCase (fromUtf16Lossy (entryName entry)) ignoredVariable then
      keepEntries entries result
    else keepEntries entries (result ++ entry ++ [0])

/-- `leased_environment_block`. -/
def leasedEnvironmentBlock (environment : List UInt16) : List UInt16 :=
  let entries := (environment.splitOnP (· == 0)).takeWhile (!·.isEmpty)
  let result := keepEntries entries []
  (if result.isEmpty then result ++ [0] else result) ++ [0]

/-- The loop of `leased_environment`: how far from the start of the block two zeros stand, if what
    can be read there holds them. -/
def environmentLength : List UInt16 → Option Nat
  | [] => none
  | [_] => none
  | first :: second :: rest =>
    if first ≠ 0 ∨ second ≠ 0 then (environmentLength (second :: rest)).map (· + 1) else some 0

/-! ## What is to be left out -/

/-- A code unit in lower case, if it is an ASCII letter. -/
def unitToLower (unit : UInt16) : UInt16 :=
  if 0x41 ≤ unit ∧ unit ≤ 0x5a then unit + 0x20 else unit

/-- The code units of an ASCII string. -/
def asciiUnits (text : List Char) : List UInt16 := text.map fun c => UInt16.ofNat c.toNat

/-- The name of the entry is the variable, in whatever case. -/
def NamesIgnored (entry : List UInt16) : Prop :=
  (entryName entry).map unitToLower = (asciiUnits ignoredVariable).map unitToLower

instance (entry : List UInt16) : Decidable (NamesIgnored entry) := inferInstanceAs (Decidable (_ = _))

end Launch
end SteamInputLease
