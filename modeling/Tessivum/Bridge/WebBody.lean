/-
Tessivum.Bridge.WebBody — the Base64 of Web route bodies (`encode_web_body`
and `decode_web_body` of `src/bridge.rs`).

A text is checked in one pass (`base64DecodedLen`) and decoded in a second,
where an `expect` that fails ends in `Halt.outOfBounds`.
-/
import Tessivum.Attachments.InlineImage

namespace Tessivum.Bridge

open Library List
open Attachments (Halt element table chunks3 chunks4 sextet)

/-- The details of these errors are null. -/
structure RemoteError where
  code : String
  message : String
  deriving DecidableEq, Repr

def remote (code message : String) : RemoteError := ⟨code, message⟩

def webResponseBodyLimit : Nat := 8 * 1024 * 1024

/-! ## Encoding -/

/-- One round of the loop of `encode_web_body`. -/
def encodeWebChunk (chunk : Bytes) : Except (Halt Empty) (List Char) := do
  let first ← element chunk 0
  let second := chunk[1]?.getD 0
  let third := chunk[2]?.getD 0
  let c0 ← element table (first >>> 2).toNat
  let c1 ← element table ((first &&& 3) <<< 4 ||| second >>> 4).toNat
  let c2 ← if 1 < chunk.length then element table ((second &&& 15) <<< 2 ||| third >>> 6).toNat
    else .ok '='
  let c3 ← if 2 < chunk.length then element table (third &&& 63).toNat else .ok '='
  .ok [c0, c1, c2, c3]

def encodeWebBody (bytes : Bytes) : Except (Halt Empty) String :=
  ((chunks3 bytes).mapM encodeWebChunk).map fun chunks => String.ofList chunks.flatten

/-! ## Decoding -/

/-- The body is that of `sextet`. -/
abbrev base64Value : UInt8 → Option UInt8 := sextet

def base64Padding (bytes : Bytes) : Nat :=
  if [61, 61] <:+ bytes then 2 else if [61] <:+ bytes then 1 else 0

/-- One round of the loop of `base64_decoded_len`: `plain` bytes stand before
the padding. -/
def checkByte (plain : Nat) : UInt8 × Nat → Except RemoteError Unit
  | (byte, index) =>
    if byte = 61 then
      if index < plain then .error (remote "INVALID_BASE64" "base64 padding is misplaced")
      else .ok ()
    else if (base64Value byte).isNone then
      .error (remote "INVALID_BASE64" "body is not base64")
    else .ok ()

def base64DecodedLen (encoded : String) (limit : Nat) : Except RemoteError Nat := do
  let bytes := utf8 encoded
  let padding := base64Padding bytes
  failIf (bytes.length % 4 ≠ 0) (remote "INVALID_BASE64" "base64 must use complete quartets")
  failIf (bytes.length / 4 * 3 < padding) (remote "INVALID_BASE64" "base64 padding is invalid")
  let length := bytes.length / 4 * 3 - padding
  failIf (limit < length) (remote "PAYLOAD_TOO_LARGE" "body exceeds its configured limit")
  forAllOk (checkByte (bytes.length - padding)) bytes.zipIdx
  failIf (padding ≠ 0 ∧ bytes.length < 4)
    (remote "INVALID_BASE64" "base64 padding is invalid")
  .ok length

/-- `expect`. -/
def expected {α ε : Type} (x : Option α) : Except (Halt ε) α := x.elim (.error .outOfBounds) .ok

/-- One round of the loop of `decode_base64`. -/
def decodeQuartet : Bytes → Except (Halt RemoteError) Bytes
  | [b0, b1, b2, b3] => do
    let first ← expected (base64Value b0)
    let second ← expected (base64Value b1)
    let third ← if b2 = 61 then .ok 0 else expected (base64Value b2)
    let fourth ← if b3 = 61 then .ok 0 else expected (base64Value b3)
    .ok ([first <<< 2 ||| second >>> 4] ++
      (if b2 = 61 then [] else [second <<< 4 ||| third >>> 2]) ++
      if b3 = 61 then [] else [third <<< 6 ||| fourth])
  | _ => .error .outOfBounds

def decodeBase64 (encoded : String) (limit : Nat) : Except (Halt RemoteError) Bytes := do
  let _ ← (base64DecodedLen encoded limit).mapError .error
  ((chunks4 (utf8 encoded)).mapM decodeQuartet).map flatten

def decodeWebBody (encoded : String) : Except (Halt RemoteError) Bytes :=
  decodeBase64 encoded webResponseBodyLimit

end Tessivum.Bridge
