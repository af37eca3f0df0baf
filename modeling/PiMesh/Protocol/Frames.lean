/-
NDJSON framing.

`encodeFrame` counts the newline it appends; `FrameDecoder` counts a line without
it.  Both counts are UTF-8 bytes against the same `maxBytes`.
-/
import PiMesh.Protocol.Envelope
import PiMesh.Lib.Utf8

namespace PiMesh

open Js

variable {ν : Type} [Number ν]

/-- The line of one frame, newline included. -/
def encodeLine (ms : Members ν) : List Char := Json.stringify (.obj ms) ++ ['\n']

/-- `encodeFrame`: the line, or nothing where the source throws, a `RangeError` for a frame
nested too deep or a `FrameSizeError`. -/
def encodeFrame (ms : Members ν) (maxBytes : Nat) : Option (List Char) :=
  if Json.nesting (.obj ms) > (Number.limits ν).stringifyNesting then none
  else if byteLength (encodeLine ms) > maxBytes then none
  else some (encodeLine ms)

/-- The text a `FrameDecoder` has not cut into lines yet. -/
structure FrameDecoder where
  buf : List Char := []

/-- Cut complete lines off the front; `none` at the first one that is too long. -/
def takeLines (maxBytes : Nat) : List Char → List Char → Option (List (List Char) × List Char)
  | [], acc => some ([], acc.reverse)
  | c :: rest, acc =>
      if c = '\n' then
        let line := acc.reverse
        if byteLength line > maxBytes then none
        else
          match takeLines maxBytes rest [] with
          | none => none
          | some (lines, left) => some (if line.isEmpty then lines else line :: lines, left)
      else takeLines maxBytes rest (c :: acc)

/-- `FrameDecoder.push`: the complete lines of the buffer and the chunk, or nothing
where the source throws `FrameSizeError`. -/
def FrameDecoder.push (d : FrameDecoder) (maxBytes : Nat) (chunk : List Char) :
    Option (List (List Char) × FrameDecoder) :=
  match takeLines maxBytes (d.buf ++ chunk) [] with
  | none => none
  | some (lines, left) =>
      if byteLength left > maxBytes then none else some (lines, { buf := left })

/-- Pushes in a row: what they return up to the first that throws, and whether none does. -/
def FrameDecoder.pushAll (d : FrameDecoder) (maxBytes : Nat) :
    List (List Char) → List (List Char) × Bool
  | [] => ([], true)
  | chunk :: chunks =>
      match d.push maxBytes chunk with
      | none => ([], false)
      | some (lines, d) =>
          let r := d.pushAll maxBytes chunks
          (lines ++ r.1, r.2)

/-- A buffer is decoded by itself: `chunk.toString("utf8")`. -/
def FrameDecoder.pushBuffers (maxBytes : Nat) (chunks : List (List UInt8)) :
    List (List Char) × Bool :=
  FrameDecoder.pushAll {} maxBytes (chunks.map Utf8.decode)

end PiMesh
