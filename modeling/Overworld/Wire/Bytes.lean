set_option autoImplicit false

/-!
The elements of the wire format: integers in a fixed count of bytes, low byte first; sequences and
texts behind their length. A reader takes what it needs from the front of its input and returns the
rest, or says what is wrong.
-/

namespace Overworld

abbrev Bytes := List UInt8

inductive DecodeError
  /-- An element needs this many bytes more than there are. -/
  | unexpectedEnd (additional : Nat)
  | unknownVariant (tag : Nat) (count : Nat)
  /-- A text is no UTF-8 beyond its first `validUpTo` bytes. The bad sequence has the given length,
  or the text ends inside it. -/
  | invalidText (validUpTo : Nat) (length : Option Nat)
deriving DecidableEq

def DecodeError.detail : DecodeError → String
  | .unexpectedEnd additional =>
    "UnexpectedEnd \x7b additional: " ++ toString additional ++ " \x7d"
  | .unknownVariant tag count =>
    "OtherString(\"invalid value: integer `" ++ toString tag ++
      "`, expected variant index 0 <= i < " ++ toString count ++ "\")"
  | .invalidText validUpTo length =>
    let shown := match length with
      | none => "None"
      | some count => "Some(" ++ toString count ++ ")"
    "Utf8 \x7b inner: Utf8Error \x7b valid_up_to: " ++ toString validUpTo ++ ", error_len: " ++
      shown ++ " \x7d \x7d"

def DecodeError.message (error : DecodeError) : String := "Decode error: " ++ error.detail

abbrev Reader (α : Type) := Bytes → Except DecodeError (α × Bytes)

namespace Wire

def littleEndian : Nat → Nat → Bytes
  | 0, _ => []
  | width + 1, value => value.toUInt8 :: littleEndian width (value / 256)

def ofLittleEndian (bytes : Bytes) : Nat :=
  bytes.foldr (fun byte rest => byte.toNat + 256 * rest) 0

/-- Takes exactly `count` bytes. -/
def take : Nat → Reader Bytes
  | 0, input => .ok ([], input)
  | count + 1, [] => .error (.unexpectedEnd (count + 1))
  | count + 1, byte :: input =>
    match take count input with
    | .error error => .error error
    | .ok (bytes, rest) => .ok (byte :: bytes, rest)

def natural (width : Nat) : Reader Nat := fun input =>
  match take width input with
  | .error error => .error error
  | .ok (bytes, rest) => .ok (ofLittleEndian bytes, rest)

def putByte (value : UInt8) : Bytes := [value]
def putWord16 (value : UInt16) : Bytes := littleEndian 2 value.toNat
def putWord32 (value : UInt32) : Bytes := littleEndian 4 value.toNat
def putWord64 (value : UInt64) : Bytes := littleEndian 8 value.toNat

def byte : Reader UInt8 := fun input => do
  let (value, rest) ← natural 1 input
  return (value.toUInt8, rest)

def word16 : Reader UInt16 := fun input => do
  let (value, rest) ← natural 2 input
  return (value.toUInt16, rest)

def word32 : Reader UInt32 := fun input => do
  let (value, rest) ← natural 4 input
  return (value.toUInt32, rest)

def word64 : Reader UInt64 := fun input => do
  let (value, rest) ← natural 8 input
  return (value.toUInt64, rest)

def putSequence {α : Type} (put : α → Bytes) (items : List α) : Bytes :=
  littleEndian 8 items.length ++ items.flatMap put

/-- Reads `count` items behind those already read, which stand newest first. -/
def items {α : Type} (read : Reader α) : Nat → List α → Reader (List α)
  | 0, done, input => .ok (done.reverse, input)
  | count + 1, done, input =>
    match read input with
    | .error error => .error error
    | .ok (item, rest) => items read count (item :: done) rest

def sequence {α : Type} (read : Reader α) : Reader (List α) := fun input => do
  let (count, rest) ← natural 8 input
  items read count [] rest

/-- What follows a leading byte: how many bytes, and the bounds of the first of them. -/
def continuation? (lead : UInt8) : Option (Nat × UInt8 × UInt8) :=
  if lead < 0x80 then some (0, 0, 0)
  else if lead < 0xc2 then none
  else if lead < 0xe0 then some (1, 0x80, 0xbf)
  else if lead = 0xe0 then some (2, 0xa0, 0xbf)
  else if lead = 0xed then some (2, 0x80, 0x9f)
  else if lead < 0xf0 then some (2, 0x80, 0xbf)
  else if lead = 0xf0 then some (3, 0x90, 0xbf)
  else if lead < 0xf4 then some (3, 0x80, 0xbf)
  else if lead = 0xf4 then some (3, 0x80, 0x8f)
  else none

/-- A character begun: bytes of it read, bytes still to come, and the bounds of the next one. -/
structure Begun where
  read : Nat
  missing : Nat
  low : UInt8
  high : UInt8

/-- The first fault of a text behind `valid` good bytes. -/
def textFault (valid : Nat) : Option Begun → Bytes → Option DecodeError
  | none, [] => none
  | some _, [] => some (.invalidText valid none)
  | none, lead :: rest =>
    match continuation? lead with
    | none => some (.invalidText valid (some 1))
    | some (0, _, _) => textFault (valid + 1) none rest
    | some (missing, low, high) => textFault valid (some ⟨1, missing, low, high⟩) rest
  | some begun, next :: rest =>
    if begun.low ≤ next ∧ next ≤ begun.high then
      if begun.missing ≤ 1 then textFault (valid + begun.read + 1) none rest
      else textFault valid (some ⟨begun.read + 1, begun.missing - 1, 0x80, 0xbf⟩) rest
    else some (.invalidText valid (some begun.read))

def putText (text : String) : Bytes :=
  let bytes := text.toUTF8.data.toList
  littleEndian 8 bytes.length ++ bytes

def text : Reader String := fun input => do
  let (count, rest) ← natural 8 input
  let (bytes, rest) ← take count rest
  match String.fromUTF8? bytes.toByteArray with
  | some text => return (text, rest)
  | none => .error ((textFault 0 none bytes).getD (.invalidText 0 none))

end Wire

end Overworld
