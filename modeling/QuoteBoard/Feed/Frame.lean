/-
# Frames of the stream

The bytes of a stream are a sequence of frames. A message is one frame or several, of
which the later ones only go on; frames that control the stream stand alone and may
come between those of a message. Text is UTF-8. What breaks a rule ends the stream as
a failure, and so does the end of the bytes before the peer has closed the stream. What
is said of the failure of a stream is given with it: the rules do not word it.
-/

import QuoteBoard.Feed.Session

namespace QuoteBoard.Feed

/-- A frame. -/
structure Frame where
  /-- The last frame of its message. -/
  final : Bool
  /-- Three bits without a meaning. -/
  reserved : Nat := 0
  opcode : Nat
  payload : List UInt8
  deriving DecidableEq, Repr

namespace Frame

def continuation : Nat := 0
def text : Nat := 1
def binary : Nat := 2
def close : Nat := 8
def ping : Nat := 9
def pong : Nat := 10

/-- A number in so many bytes, the highest first. -/
def bigEndian (n : Nat) : Nat → List UInt8
  | 0 => []
  | width + 1 => UInt8.ofNat (n / Nat.pow 256 width) :: bigEndian n width

/-- The number that bytes are, the highest first. -/
def ofBigEndian (bytes : List UInt8) : Nat := bytes.foldl (fun n b => 256 * n + b.toNat) 0

/-- The length of a payload, in one, three or nine bytes. -/
def lengthBytes (n : Nat) : List UInt8 :=
  if n < 126 then [UInt8.ofNat n]
  else if n < UInt16.size then 126 :: bigEndian n 2
  else 127 :: bigEndian n 8

/-- The bytes of a frame. -/
def bytes (f : Frame) : List UInt8 :=
  UInt8.ofNat ((if f.final then 128 else 0) + 16 * f.reserved + f.opcode) ::
    lengthBytes f.payload.length ++ f.payload

/-- As many bytes as asked for, and the rest, if there are so many. -/
def splitBytes? (n : Nat) (bs : List UInt8) : Option (List UInt8 × List UInt8) :=
  let taken := bs.take n
  if taken.length = n then some (taken, bs.drop n) else none

/-- The frame in front of some bytes. A frame from a server is never masked, so the second byte
is a length below 128. -/
def ofBytes? : List UInt8 → Option (Frame × List UInt8)
  | first :: length :: rest => do
    let width := if length = 126 then 2 else if length = 127 then 8 else 0
    let (wide, rest) ← splitBytes? width rest
    let size := if width = 0 then length.toNat else ofBigEndian wide
    if 128 ≤ length then none
    else
      let (payload, rest) ← splitBytes? size rest
      return ({ final := 128 ≤ first, reserved := first.toNat / 16 % 8
                opcode := first.toNat % 16, payload }, rest)
  | _ => none

end Frame

/-- The text of bytes in UTF-8. -/
def textOfBytes? (bs : List UInt8) : Option String :=
  String.fromUTF8? ⟨bs.toArray⟩

/-- Bytes are the start of some text: at most three more bytes, all least or all greatest among
those that go on with a character, make them a text. -/
def startsText (bs : List UInt8) : Bool :=
  [0, 1, 2, 3].any fun n => [0x80, 0xBF].any fun b =>
    (textOfBytes? (bs ++ List.replicate n b)).isSome

/-- Codes with which a peer may close the stream. -/
def isCloseCode (code : Nat) : Bool :=
  (1000 ≤ code && code ≤ 1003) || (1007 ≤ code && code ≤ 1013) || (3000 ≤ code && code ≤ 4999)

/-- The closing of a stream by its payload: nothing, or a code and a reason. A code that a peer
may not use counts as a breach of the rules by the peer. -/
def closing (error : String) (payload : List UInt8) : Arrival :=
  match payload with
  | [] => .close none
  | [_] => .failure error
  | high :: low :: reason =>
    let code := Frame.ofBigEndian [high, low]
    match textOfBytes? reason with
    | none => .failure error
    | some reason =>
      .close (some (if isCloseCode code then (code, reason) else (1002, "Protocol violation")))

/-- A message that is not yet complete. -/
structure Unfinished where
  isText : Bool
  payload : List UInt8

/-- A message with a further frame, or with its only one: complete, not yet complete, or
against the rules. -/
def Unfinished.goOn (error : String) (u : Unfinished) (final : Bool) :
    Except Arrival Unfinished :=
  if u.isText then
    if final then .error (((textOfBytes? u.payload).map .text).getD (.failure error))
    else if startsText u.payload then .ok u
    else .error (.failure error)
  else if final then .error .binary
  else .ok u

/-- What a frame amounts to: an arrival, or nothing yet, and the message then unfinished. -/
def Frame.arrival (error : String) (f : Frame) (unfinished : Option Unfinished) :
    Option Arrival × Option Unfinished :=
  let message (u : Unfinished) : Option Arrival × Option Unfinished :=
    match u.goOn error f.final with
    | .error arrival => (some arrival, none)
    | .ok u => (none, some u)
  if f.reserved ≠ 0 then (some (.failure error), none)
  else if 8 ≤ f.opcode then
    if !f.final || 125 < f.payload.length then (some (.failure error), none)
    else if f.opcode = Frame.close then (some (closing error f.payload), none)
    else if f.opcode = Frame.ping then (some .ping, unfinished)
    else if f.opcode = Frame.pong then (some .pong, unfinished)
    else (some (.failure error), none)
  else
    match unfinished with
    | some u =>
      if f.opcode = Frame.continuation then message { u with payload := u.payload ++ f.payload }
      else (some (.failure error), none)
    | none =>
      if f.opcode = Frame.text then message ⟨true, f.payload⟩
      else if f.opcode = Frame.binary then message ⟨false, f.payload⟩
      else (some (.failure error), none)

/-- Nothing arrives after this. -/
def Arrival.isLast : Arrival → Bool
  | close _ | failure _ => true
  | _ => false

/-- What arrives with some bytes. A frame has two bytes or more, so fuel beyond the number of
bytes is never used up. -/
def arrivalsFrom (error : String) : Nat → Option Unfinished → List UInt8 → List Arrival
  | 0, _, _ => [.failure error]
  | fuel + 1, unfinished, bs =>
    match Frame.ofBytes? bs with
    | none => [.failure error]
    | some (f, rest) =>
      match f.arrival error unfinished with
      | (none, unfinished) => arrivalsFrom error fuel unfinished rest
      | (some a, unfinished) =>
        if a.isLast then [a] else a :: arrivalsFrom error fuel unfinished rest

/-- What arrives with the bytes of a stream. -/
def arrivals (error : String) (bs : List UInt8) : List Arrival :=
  arrivalsFrom error (bs.length + 1) none bs

end QuoteBoard.Feed
