import Overworld.Number.Reading

set_option autoImplicit false

/-!
Internet addresses: four bytes or eight 16-bit groups, their text, and the reading of it. Bytes are
decimal without leading zeros. Groups are hexadecimal; one run of zero groups may be written as a
double colon, and the last two groups as four bytes. The printed form shortens the first longest
run of at least two zero groups.
-/

namespace Overworld

inductive IpAddress
  | v4 (bytes : Vector UInt8 4)
  | v6 (groups : Vector UInt16 8)
deriving DecidableEq

namespace IpAddress

/-- One decimal byte. -/
def byte? (text : List Char) : Option UInt8 :=
  let value := Reading.digitsValue text
  if Reading.allDigits text ∧ text.length ≤ 3 ∧ (text.length = 1 ∨ text.head? ≠ some '0') ∧ value < 256
  then some value.toUInt8 else none

def bytes? (text : List Char) : Option (Vector UInt8 4) :=
  match (text.splitOn '.').mapM byte? with
  | some [a, b, c, d] => some #v[a, b, c, d]
  | _ => none

def hexDigit? (c : Char) : Option Nat :=
  if c.isDigit then some (c.toNat - '0'.toNat)
  else if 'a' ≤ c ∧ c ≤ 'f' then some (c.toNat - 'a'.toNat + 10)
  else if 'A' ≤ c ∧ c ≤ 'F' then some (c.toNat - 'A'.toNat + 10)
  else none

/-- One hexadecimal group of at most four digits. -/
def group? (text : List Char) : Option UInt16 :=
  if text.isEmpty ∨ 4 < text.length then none
  else (text.mapM hexDigit?).map fun digits =>
    (digits.foldl (fun total digit => 16 * total + digit) 0).toUInt16

def groupsOfBytes (bytes : Vector UInt8 4) : List UInt16 :=
  [bytes[0].toUInt16 <<< 8 ||| bytes[1].toUInt16, bytes[2].toUInt16 <<< 8 ||| bytes[3].toUInt16]

/-- Groups between colons; the last one may be written as four bytes where `tail` allows it. -/
def groups? (tail : Bool) : List (List Char) → Option (List UInt16)
  | [] => some []
  | [last] =>
    match group? last, tail with
    | some group, _ => some [group]
    | none, true => (bytes? last).map groupsOfBytes
    | none, false => none
  | first :: rest => do
    let group ← group? first
    let groups ← groups? tail rest
    return group :: groups

/-- The groups of a text without a double colon; none for the empty text. -/
def groupRun? (tail : Bool) (text : List Char) : Option (List UInt16) :=
  if text.isEmpty then some [] else groups? tail (text.splitOn ':')

/-- Cuts a text at its first double colon. -/
def cutDoubleColon? : List Char → Option (List Char × List Char)
  | [] => none
  | [_] => none
  | ':' :: ':' :: rest => some ([], rest)
  | c :: rest => (cutDoubleColon? rest).map fun (before, after) => (c :: before, after)

def exactlyEight? (groups : List UInt16) : Option (Vector UInt16 8) :=
  if exact : groups.toArray.size = 8 then some ⟨groups.toArray, exact⟩ else none

/-- The eight groups of a text; a double colon stands for at least one zero. -/
def eightGroups? (text : List Char) : Option (Vector UInt16 8) :=
  match cutDoubleColon? text with
  | none => (groupRun? true text).bind exactlyEight?
  | some (before, after) => do
    let head ← groupRun? false before
    let last ← groupRun? true after
    if head.length + last.length ≤ 7 then
      exactlyEight? (head ++ List.replicate (8 - head.length - last.length) 0 ++ last)
    else none

def ofText? (text : List Char) : Option IpAddress :=
  match bytes? text with
  | some bytes => some (.v4 bytes)
  | none => (eightGroups? text).map .v6

def bytesText (bytes : Vector UInt8 4) : String :=
  ".".intercalate (bytes.toList.map fun byte => toString byte.toNat)

def groupText (group : UInt16) : String := String.ofList (Nat.toDigits 16 group.toNat)

def groupsText (groups : List UInt16) : String := ":".intercalate (groups.map groupText)

/-- Where the first longest run of zeros starts, and its length. -/
def longestZeros : List UInt16 → Nat → Nat × Nat
  | [], _ => (0, 0)
  | group :: rest, start =>
    let here := ((group :: rest).takeWhile (· == 0)).length
    let later := longestZeros rest (start + 1)
    if later.2 ≤ here then (start, here) else later

def v6Text (groups : List UInt16) : String :=
  match groups with
  | [0, 0, 0, 0, 0, 0xffff, high, low] =>
    "::ffff:" ++ bytesText #v[(high >>> 8).toUInt8, high.toUInt8, (low >>> 8).toUInt8, low.toUInt8]
  | _ =>
    let (start, length) := longestZeros groups 0
    if 2 ≤ length then
      groupsText (groups.take start) ++ "::" ++ groupsText (groups.drop (start + length))
    else groupsText groups

def text : IpAddress → String
  | .v4 bytes => bytesText bytes
  | .v6 groups => v6Text groups.toList

end IpAddress

/-- A port at an address; groups may name the zone in which they hold, zero for none. -/
inductive Endpoint
  | v4 (bytes : Vector UInt8 4) (port : UInt16)
  | v6 (groups : Vector UInt16 8) (zone : UInt32) (port : UInt16)
deriving DecidableEq

namespace Endpoint

def text : Endpoint → String
  | .v4 bytes port => IpAddress.bytesText bytes ++ ":" ++ toString port.toNat
  | .v6 groups zone port =>
    let zoneText := if zone = 0 then "" else "%" ++ toString zone.toNat
    "[" ++ IpAddress.v6Text groups.toList ++ zoneText ++ "]:" ++ toString port.toNat

/-- Digits alone, up to `limit`. -/
def number? (limit : Nat) (text : List Char) : Option Nat :=
  if Reading.allDigits text then Reading.natural? limit text else none

/-- What stands in the brackets: groups, and after a percent sign their zone. -/
def ofBracketed? (inner : List Char) (port : UInt16) : Option Endpoint := do
  let groups ← IpAddress.eightGroups? (inner.takeWhile (· != '%'))
  let zone ← match inner.dropWhile (· != '%') with
    | _ :: digits => number? 4294967295 digits
    | [] => some 0
  return .v6 groups zone.toUInt32 port

/-- The port is what follows the last colon; an address of groups stands in brackets. -/
def ofText? (text : List Char) : Option Endpoint := do
  let reversed := text.reverse
  let digits := (reversed.takeWhile (· != ':')).reverse
  let host := (reversed.dropWhile (· != ':')).drop 1 |>.reverse
  let port ← number? 65535 digits
  match host with
  | '[' :: inner =>
    if inner.getLast? = some ']' then ofBracketed? inner.dropLast port.toUInt16 else none
  | _ =>
    let bytes ← IpAddress.bytes? host
    return .v4 bytes port.toUInt16

end Endpoint

end Overworld
