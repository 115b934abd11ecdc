import Overworld.Wire.Codec

set_option autoImplicit false

/-!
Payloads on a byte stream, each behind its length in four bytes. A stream delivers its bytes in
pieces and may fail between them; reading consumes what it read also where it does not succeed.
-/

namespace Overworld

inductive StreamPiece
  | bytes (content : Bytes)
  /-- A failure that one read meets. -/
  | failure (text : String)
deriving DecidableEq

/-- What a stream delivers until its end. -/
abbrev ByteStream := List StreamPiece

inductive FrameError
  | connectionClosed
  | messageTooLarge (size limit : Nat)
  | io (text : String)
  | decode (error : DecodeError)
deriving DecidableEq

def FrameError.message : FrameError → String
  | .connectionClosed => "Connection closed"
  | .messageTooLarge size limit =>
    "Message too large: " ++ toString size ++ " bytes (max " ++ toString limit ++ ")"
  | .io text => "IO error: " ++ text
  | .decode error => error.message

namespace Frame

/-- The most bytes a payload may have. -/
def maxPayload : Nat := 65536

/-- Takes exactly `count` bytes from a stream. -/
def take : ByteStream → Nat → Except FrameError Bytes × ByteStream
  | stream, 0 => (.ok [], stream)
  | [], _ + 1 => (.error .connectionClosed, [])
  | .failure text :: rest, _ + 1 => (.error (.io text), rest)
  | .bytes content :: rest, count + 1 =>
    if count + 1 ≤ content.length then
      (.ok (content.take (count + 1)), .bytes (content.drop (count + 1)) :: rest)
    else
      let (result, rest) := take rest (count + 1 - content.length)
      (result.map (content ++ ·), rest)

/-- The payload of the next frame. A length beyond the limit is refused before its payload is
touched. -/
def read (stream : ByteStream) : Except FrameError Bytes × ByteStream :=
  match take stream 4 with
  | (.error error, rest) => (.error error, rest)
  | (.ok header, rest) =>
    let size := Wire.ofLittleEndian header
    if maxPayload < size then (.error (.messageTooLarge size maxPayload), rest)
    else take rest size

/-- The frame of a payload, unless it is too large. -/
def write (payload : Bytes) : Except FrameError Bytes :=
  if maxPayload < payload.length then .error (.messageTooLarge payload.length maxPayload)
  else .ok (Wire.littleEndian 4 payload.length ++ payload)

/-- The message in the next frame, and the size of its payload. -/
def readMessage {α : Type} (decode : Bytes → Except DecodeError α) (stream : ByteStream) :
    Except FrameError (α × Nat) × ByteStream :=
  match read stream with
  | (.error error, rest) => (.error error, rest)
  | (.ok payload, rest) =>
    match decode payload with
    | .error error => (.error (.decode error), rest)
    | .ok message => (.ok (message, payload.length), rest)

end Frame

end Overworld
