import ApacheFuzz.Library.BigEndian
import ApacheFuzz.Library.Hpack

/-!
# Frames of HTTP/2

A frame is the length of its payload, a type, flags, a stream and the payload.  A byte stream of
HEADERS frames is read as the requests that it stands for.
-/

namespace Http2

structure Frame where
  type : UInt8
  flags : UInt8
  stream : Nat
  payload : List UInt8
  deriving DecidableEq, Repr

/-- The first frame of a byte stream; the reserved bit of the stream identifier is ignored. -/
def decodeFrame : List UInt8 → Option (Frame × List UInt8)
  | l₂ :: l₁ :: l₀ :: type :: flags :: s₃ :: s₂ :: s₁ :: s₀ :: rest =>
    let length := BigEndian.value [l₂, l₁, l₀]
    if rest.length < length then none
    else some (⟨type, flags, BigEndian.value [s₃, s₂, s₁, s₀] % 2 ^ 31, rest.take length⟩,
      rest.drop length)
  | _ => none

def decodeFramesFuel : Nat → List UInt8 → Option (List Frame)
  | _, [] => some []
  | 0, _ :: _ => none
  | fuel + 1, b :: rest => do
    let (frame, rest) ← decodeFrame (b :: rest)
    let frames ← decodeFramesFuel fuel rest
    return frame :: frames

/-- All frames of a byte stream. -/
def decodeFrames (bytes : List UInt8) : Option (List Frame) := decodeFramesFuel bytes.length bytes

def headersType : UInt8 := 0x01
def endStreamFlag : UInt8 := 0x01
def endHeadersFlag : UInt8 := 0x04
def paddedFlag : UInt8 := 0x08
def priorityFlag : UInt8 := 0x20

/-- The payload of a HEADERS frame without its padding. -/
def Frame.unpadded (frame : Frame) : Option (List UInt8) :=
  if frame.flags &&& paddedFlag = 0 then some frame.payload
  else match frame.payload with
    | [] => none
    | padding :: rest =>
      if rest.length < padding.toNat then none else some (rest.take (rest.length - padding.toNat))

/-- The part of the header block in a HEADERS frame. -/
def Frame.block (frame : Frame) : Option (List UInt8) :=
  frame.unpadded.bind fun rest =>
    if frame.flags &&& priorityFlag = 0 then some rest
    else if rest.length < 5 then none else some (rest.drop 5)

structure Headers where
  stream : Nat
  endStream : Bool
  endHeaders : Bool
  fields : List Hpack.Field
  deriving DecidableEq, Repr

def Frame.headers (frame : Frame) : Option Headers :=
  if frame.type ≠ headersType then none
  else do
    let block ← frame.block
    let fields ← Hpack.decodeBlock block
    return ⟨frame.stream, frame.flags &&& endStreamFlag ≠ 0, frame.flags &&& endHeadersFlag ≠ 0,
      fields⟩

/-- The HEADERS frames that a byte stream consists of. -/
def decodeRequests (bytes : List UInt8) : Option (List Headers) :=
  (decodeFrames bytes).bind fun frames => frames.mapM Frame.headers

/-- A frame as it is written. -/
def encodeFrame (frame : Frame) : List UInt8 :=
  BigEndian.digits 3 frame.payload.length ++ [frame.type, frame.flags] ++
    BigEndian.digits 4 frame.stream ++ frame.payload

variable {frame : Frame}

theorem decodeFrame_encodeFrame (hlength : frame.payload.length < 2 ^ 24)
    (hstream : frame.stream < 2 ^ 31) (rest : List UInt8) :
    decodeFrame (encodeFrame frame ++ rest) = some (frame, rest) := by
  have hvalue : BigEndian.value (BigEndian.digits 3 frame.payload.length) = frame.payload.length :=
    BigEndian.value_digits (by omega)
  have hidentifier : BigEndian.value (BigEndian.digits 4 frame.stream) = frame.stream :=
    BigEndian.value_digits (by omega)
  simp only [BigEndian.digits, List.nil_append, List.cons_append] at hvalue hidentifier
  rw [encodeFrame]
  simp only [BigEndian.digits, List.nil_append, List.cons_append, decodeFrame,
    hvalue, hidentifier]
  rw [if_neg (by simp), List.take_left, List.drop_left, Nat.mod_eq_of_lt hstream]

theorem decodeFrames_encodeFrame (hlength : frame.payload.length < 2 ^ 24)
    (hstream : frame.stream < 2 ^ 31) : decodeFrames (encodeFrame frame) = some [frame] := by
  have hframe := decodeFrame_encodeFrame hlength hstream []
  rw [List.append_nil] at hframe
  rw [decodeFrames]
  match hbytes : encodeFrame frame with
  | [] =>
    rw [hbytes] at hframe
    cases hframe
  | b :: bytes =>
    rw [hbytes] at hframe
    rw [List.length_cons, decodeFramesFuel, hframe]
    show (decodeFramesFuel bytes.length []).bind _ = _
    rw [decodeFramesFuel]
    rfl

theorem decodeRequests_encodeFrame (hlength : frame.payload.length < 2 ^ 24)
    (hstream : frame.stream < 2 ^ 31) :
    decodeRequests (encodeFrame frame) = frame.headers.map fun headers => [headers] := by
  rw [decodeRequests, decodeFrames_encodeFrame hlength hstream, Option.bind_some]
  simp [List.mapM_cons, Option.map_eq_bind]

/-- A HEADERS frame that is a whole request, without padding and priority. -/
theorem headers_of_complete (htype : frame.type = headersType)
    (hflags : frame.flags = endStreamFlag ||| endHeadersFlag) :
    frame.headers = (Hpack.decodeBlock frame.payload).map fun fields =>
      ⟨frame.stream, true, true, fields⟩ := by
  have hblock : frame.block = some frame.payload := by
    rw [Frame.block, Frame.unpadded, hflags, if_pos (by decide), Option.bind_some,
      if_pos (by decide)]
  have hstream : decide (frame.flags &&& endStreamFlag ≠ 0) = true := by
    rw [hflags]
    decide
  have hheaders : decide (frame.flags &&& endHeadersFlag ≠ 0) = true := by
    rw [hflags]
    decide
  rw [Frame.headers, if_neg (not_not.mpr htype), hblock, Option.map_eq_bind, hstream, hheaders]
  rfl

end Http2
