/-
Tessivum.Llm.Sse — the decoder of server-sent events (`SseDecoder` of
`src/openai_responses.rs`).

A frame ends at a blank line. What comes behind the last one waits in the
buffer for the next piece of the stream.
-/
import Tessivum.Library.Bytes
import Tessivum.Protocol.Message

namespace Tessivum.Llm.Sse

open Library Protocol List

def adapterError (code message : String) (details : Value) : TessivumError :=
  { code, message, phase := "llm-adapter", details }

def maxSseEventBytes : Nat := 4 * 1024 * 1024

def eventTooLarge : TessivumError :=
  adapterError "OPENAI_SSE_EVENT_TOO_LARGE"
    "OpenAI Responses SSE event exceeded the byte limit"
    (.object [("limit", .ofNat maxSseEventBytes)])

/-- The first blank line: where it starts and how long it is. -/
def eventBoundary (buffer : Bytes) : Option (Nat × Nat) :=
  (List.range buffer.length).findSome? fun index =>
    if (buffer.drop index).take 2 = [10, 10] then some (index, 2)
    else if (buffer.drop index).take 4 = [13, 10, 13, 10] then some (index, 4)
    else none

section Decoder

-- what the standard library says of bytes that are no UTF-8
variable (utf8Error : Bytes → String)

def eventData (frame : Bytes) : Except TessivumError (Option String) :=
  match String.fromUTF8? frame.toByteArray with
  | none => .error (adapterError "OPENAI_PROTOCOL" "OpenAI Responses SSE event was not UTF-8"
      (.object [("error", .string (utf8Error frame))]))
  | some text =>
    let data := ((lines text.toList).filterMap fun line =>
      ((stripSuffix '\r' line).getD line).dropPrefix? "data:".toList).map fun line =>
        (line.dropPrefix? [' ']).getD line
    .ok (if data = [] then none else some (String.ofList (['\n'].intercalate data)))

theorem eventBoundary_bound {buffer : Bytes} {start delimiter : Nat}
    (h : eventBoundary buffer = some (start, delimiter)) :
    start + delimiter ≤ buffer.length ∧ 0 < delimiter := by
  obtain ⟨index, hindex, h⟩ := exists_of_findSome?_eq_some h
  rw [mem_range] at hindex
  have hlength : ∀ n, ((buffer.drop index).take n).length = min n (buffer.length - index) := by
    simp
  split at h
  · rename_i h2
    cases h
    have := hlength 2
    rw [h2, length_cons, length_singleton] at this
    omega
  split at h
  · rename_i h4
    cases h
    have := hlength 4
    rw [h4] at this
    simp only [length_cons, length_nil] at this
    omega
  · cases h

/-- The loop of `push`: the data of the frames and what is left. -/
def drainFrames (buffer : Bytes) : Except TessivumError (List String × Bytes) :=
  match _h : eventBoundary buffer with
  | none => .ok ([], buffer)
  | some (start, delimiter) => do
    if maxSseEventBytes < start then .error eventTooLarge
    else do
      let data ← eventData utf8Error (buffer.take start)
      let (events, rest) ← drainFrames (buffer.drop (start + delimiter))
      .ok (data.toList ++ events, rest)
termination_by buffer.length
decreasing_by
  have hbound := eventBoundary_bound _h
  rw [length_drop]
  omega

/-- `SseDecoder::push`: the events and the buffer. -/
def push (buffer bytes : Bytes) : Except TessivumError (List String × Bytes) := do
  let (events, rest) ← drainFrames utf8Error (buffer ++ bytes)
  if maxSseEventBytes < rest.length then .error eventTooLarge else .ok (events, rest)

/-- `u8::is_ascii_whitespace`. -/
def isAsciiWhitespace (b : UInt8) : Bool := b ∈ [32, 9, 10, 12, 13]

/-- `SseDecoder::finish`. -/
def finish (buffer : Bytes) : Except TessivumError Unit :=
  if buffer.all isAsciiWhitespace then .ok ()
  else .error (adapterError "TRANSPORT" "OpenAI Responses SSE stream ended inside an event" .null)

/-- The chunks of a stream, pushed one by one into a decoder. -/
def pushAll (buffer : Bytes) : List Bytes → Except TessivumError (List String × Bytes)
  | [] => .ok ([], buffer)
  | chunk :: rest => do
    let (events, buffer) ← push utf8Error buffer chunk
    let (more, buffer) ← pushAll buffer rest
    .ok (events ++ more, buffer)

/-- A whole stream, pushed into a fresh decoder and finished. -/
def decode (chunks : List Bytes) : Except TessivumError (List String) := do
  let (events, buffer) ← pushAll utf8Error [] chunks
  finish buffer
  .ok events

end Decoder

end Tessivum.Llm.Sse
