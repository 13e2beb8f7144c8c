import Reckoner.Text.CodePoint

/-!
# Encodings of JSON texts

A JSON text begins with a character of ASCII. The zero bytes among its first bytes therefore tell
what its characters are made of: single bytes of UTF-8, or units of two or of four bytes, with
either end of a unit first. A byte order mark in front of the text tells the same. A surrogate may be
encoded without its other half, in single bytes as a character is.
-/

set_option autoImplicit false

namespace Reckoner.Json

open Text

/-- The end of a unit that comes first. -/
inductive ByteOrder where
  | greatFirst
  | littleFirst
  deriving Repr, DecidableEq

inductive Encoding where
  | single
  | pairs (order : ByteOrder)
  | quadruples (order : ByteOrder)
  deriving Repr, DecidableEq

/-- The encoding that the byte order mark in front of a text tells of, and the bytes behind it. -/
def Encoding.marked? : List UInt8 → Option (Encoding × List UInt8)
  | 0x00 :: 0x00 :: 0xFE :: 0xFF :: rest => some (quadruples .greatFirst, rest)
  | 0xFF :: 0xFE :: 0x00 :: 0x00 :: rest => some (quadruples .littleFirst, rest)
  | 0xFE :: 0xFF :: rest => some (pairs .greatFirst, rest)
  | 0xFF :: 0xFE :: rest => some (pairs .littleFirst, rest)
  | 0xEF :: 0xBB :: 0xBF :: rest => some (single, rest)
  | _ => none

/-- The encoding that the first bytes of a JSON text without a mark tell of. -/
def Encoding.ofBytes : List UInt8 → Encoding
  | [first, second] =>
    if first = 0 then pairs .greatFirst
    else if second = 0 then pairs .littleFirst
    else single
  | first :: second :: third :: fourth :: _ =>
    if first = 0 then
      if second = 0 then quadruples .greatFirst else pairs .greatFirst
    else if second = 0 then
      if third = 0 && fourth = 0 then quadruples .littleFirst else pairs .littleFirst
    else single
  | _ => single

def unitOfBytes (order : ByteOrder) (bytes : List UInt8) : Nat :=
  match order with
  | .greatFirst => bytes.foldl (fun value byte => 256 * value + byte.toNat) 0
  | .littleFirst => bytes.foldr (fun byte value => 256 * value + byte.toNat) 0

/-- The units of two bytes; none if one byte is left over. -/
def pairUnits? (order : ByteOrder) : List UInt8 → Option (List Nat)
  | [] => some []
  | first :: second :: rest =>
    (pairUnits? order rest).map (unitOfBytes order [first, second] :: ·)
  | _ => none

/-- The units of four bytes; none if bytes are left over, or if a unit exceeds every character. -/
def quadrupleUnits? (order : ByteOrder) : List UInt8 → Option (List Nat)
  | [] => some []
  | first :: second :: third :: fourth :: rest =>
    let unit := unitOfBytes order [first, second, third, fourth]
    if 0x10FFFF < unit then none else (quadrupleUnits? order rest).map (unit :: ·)
  | _ => none

/-- The code points of units of two bytes, of which a surrogate pair makes one. -/
def pointsOfPairs : List Nat → CodePoints
  | high :: low :: rest =>
    if isHighSurrogate high && isLowSurrogate low then
      .char (pairedCharacter high low) :: pointsOfPairs rest
    else .ofNat high :: pointsOfPairs (low :: rest)
  | [unit] => [.ofNat unit]
  | [] => []

/-- The surrogate that three bytes encode as UTF-8 encodes a character. -/
def surrogate? (first second third : UInt8) : Option CodePoint :=
  if first = 0xED && 0xA0 ≤ second && second ≤ 0xBF && 0x80 ≤ third && third ≤ 0xBF then
    some (.ofNat (0xD000 + 64 * (second.toNat % 64) + third.toNat % 64))
  else none

def pointsOfUtf8? (bytes : List UInt8) : Option CodePoints :=
  (String.fromUTF8? ⟨bytes.toArray⟩).map CodePoints.ofString

/-- The code points of single bytes, after those read so far in reverse, among which there is no
surrogate. -/
def pointsOfSingles? (read : List UInt8) : List UInt8 → Option CodePoints
  | first :: second :: third :: rest =>
    match surrogate? first second third with
    | some point => do
      some ((← pointsOfUtf8? read.reverse) ++ point :: (← pointsOfSingles? [] rest))
    | none => pointsOfSingles? (first :: read) (second :: third :: rest)
  | bytes => pointsOfUtf8? (read.reverse ++ bytes)

/-- The text that bytes encode in an encoding, if they encode one. -/
def Encoding.decode? (encoding : Encoding) (bytes : List UInt8) : Option CodePoints :=
  match encoding with
  | single => pointsOfSingles? [] bytes
  | pairs order => (pairUnits? order bytes).map pointsOfPairs
  | quadruples order => (quadrupleUnits? order bytes).map fun units => units.map .ofNat

/-- The text that bytes encode, if they encode one. -/
def decode? (bytes : List UInt8) : Option CodePoints :=
  match Encoding.marked? bytes with
  | some (encoding, rest) => encoding.decode? rest
  | none => (Encoding.ofBytes bytes).decode? bytes

end Reckoner.Json
