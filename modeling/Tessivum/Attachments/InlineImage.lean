/-
Tessivum.Attachments.InlineImage — images that arrive inside the JSON of a
message (`decode_inline_image` of `src/attachments.rs`), and the Base64 that
adapters send (`base64_encode` of `src/openai_responses.rs`).

Each index of a slice goes through `element` or `store`, so a run out of
bounds would end in `Halt.outOfBounds`.
-/
import Tessivum.Attachments.Store

namespace Tessivum.Attachments

open Library Protocol List

/-- How a computation ends without a value. -/
inductive Halt (ε : Type) where
  | error (e : ε)
  | outOfBounds
  deriving DecidableEq, Repr

variable {ε ε' α β : Type}

/-- `map_err`. -/
def Halt.map (f : ε → ε') : Halt ε → Halt ε'
  | .error e => .error (f e)
  | .outOfBounds => .outOfBounds

/-- `ok_or`. -/
def required (x : Option α) (e : ε) : Except (Halt ε) α :=
  match x with
  | some a => .ok a
  | none => .error (.error e)

/-- `xs[index]`. -/
def element (xs : List α) (index : Nat) : Except (Halt ε) α :=
  match xs[index]? with
  | some x => .ok x
  | none => .error .outOfBounds

/-- `xs[index] = x`. -/
def store (xs : List α) (index : Nat) (x : α) : Except (Halt ε) (List α) :=
  if index < xs.length then .ok (xs.set index x) else .error .outOfBounds

/-! ## Encoding -/

/-- `TABLE`. -/
def table : List Char :=
  "ABCDEFGHIJKLMNOPQRSTUVWXYZabcdefghijklmnopqrstuvwxyz0123456789+/".toList

/-- `bytes.chunks(3)`. -/
def chunks3 : Bytes → List Bytes
  | [] => []
  | [a] => [[a]]
  | [a, b] => [[a, b]]
  | a :: b :: c :: rest => [a, b, c] :: chunks3 rest

/-- One round of the loop of `base64_encode`. -/
def encodeChunk (chunk : Bytes) : Except (Halt Empty) (List Char) := do
  let first ← element chunk 0
  let c0 ← element table (first >>> 2).toNat
  let second := chunk[1]?
  let c1 ← element table ((first &&& 3) <<< 4 ||| second.getD 0 >>> 4).toNat
  let c2 ← match second with
    | some second => element table ((second &&& 15) <<< 2 ||| chunk[2]?.getD 0 >>> 6).toNat
    | none => .ok '='
  let c3 ← match chunk[2]? with
    | some third => element table (third &&& 63).toNat
    | none => .ok '='
  .ok [c0, c1, c2, c3]

/-- `base64_encode`. -/
def base64Encode (bytes : Bytes) : Except (Halt Empty) String :=
  ((chunks3 bytes).mapM encodeChunk).map fun chunks => String.ofList chunks.flatten

/-! ## Decoding -/

/-- `bytes.chunks_exact(4)`. -/
def chunks4 : Bytes → List Bytes
  | a :: b :: c :: d :: rest => [a, b, c, d] :: chunks4 rest
  | _ => []

def sextet (byte : UInt8) : Option UInt8 :=
  if 65 ≤ byte ∧ byte ≤ 90 then some (byte - 65)
  else if 97 ≤ byte ∧ byte ≤ 122 then some (byte - 97 + 26)
  else if 48 ≤ byte ∧ byte ≤ 57 then some (byte - 48 + 52)
  else if byte = 43 then some 62
  else if byte = 47 then some 63
  else none

/-- One byte of a chunk: the padding and the values so far. -/
def decodeByte (last : Bool) : Nat × Bytes → UInt8 × Nat → Except (Halt Unit) (Nat × Bytes)
  | (padding, values), (byte, slot) =>
    if byte = 61 then
      if !last || slot < 2 then .error (.error ())
      else (store values slot 0).map (padding + 1, ·)
    else if padding ≠ 0 then .error (.error ())
    else
      match sextet byte with
      | none => .error (.error ())
      | some value => (store values slot value).map (padding, ·)

def checkPadding (chunk : Bytes) (padding : Nat) : Except (Halt Unit) Unit :=
  if 2 < padding then .error (.error ())
  else if padding = 1 then
    element chunk 3 >>= fun byte => if byte ≠ 61 then .error (.error ()) else .ok ()
  else if padding = 2 then
    element chunk 2 >>= fun byte => if byte ≠ 61 then .error (.error ()) else .ok ()
  else .ok ()

def chunkOutput (padding : Nat) (values : Bytes) : Except (Halt Unit) Bytes := do
  let v0 ← element values 0
  let v1 ← element values 1
  let v2 ← element values 2
  let v3 ← element values 3
  .ok ([v0 <<< 2 ||| v1 >>> 4] ++ (if padding < 2 then [v1 <<< 4 ||| v2 >>> 2] else []) ++
    if padding = 0 then [v2 <<< 6 ||| v3] else [])

/-- One round of the loop of `decode_base64`. -/
def decodeChunk (last : Bool) (chunk : Bytes) : Except (Halt Unit) Bytes := do
  let (padding, values) ← chunk.zipIdx.foldlM (decodeByte last) (0, [0, 0, 0, 0])
  checkPadding chunk padding
  chunkOutput padding values

/-- `decode_base64`. -/
def decodeBase64 (encoded : String) : Except (Halt Unit) Bytes :=
  let bytes := utf8 encoded
  if bytes = [] ∨ bytes.length % 4 ≠ 0 then .error (.error ())
  else
    ((chunks4 bytes).zipIdx.mapM fun (chunk, index) =>
      decodeChunk (index + 1 == bytes.length / 4) chunk).map List.flatten

/-! ## Inline images -/

def ImageMediaType.dataUrlPrefix : ImageMediaType → String
  | .png => "data:image/png;base64,"
  | .jpeg => "data:image/jpeg;base64,"
  | .webp => "data:image/webp;base64,"
  | .gif => "data:image/gif;base64,"

/-- The Base64 of the `data` field. What stands before a comma has to be the
prefix with `;base64` after it. -/
def encodedPart (mediaType : ImageMediaType) (encoded : String) : Option String :=
  match encoded.toList.dropWhile (· ≠ ',') with
  | [] => some encoded
  | _ :: data =>
    let kept := (mediaType.dataUrlPrefix.toList.reverse.dropWhile (· = ',')).reverse
    if encoded.toList.takeWhile (· ≠ ',') = kept ++ ";base64".toList then some (String.ofList data)
    else none

def asObject : Value → Option (List (String × Value))
  | .object fields => some fields
  | _ => none

def decodeInlineImage (value : Value) : Except (Halt AttachmentError) AttachmentInput := do
  let object ← required (asObject value) .invalidReference
  if object.any fun (key, _) => key ∉ ["mediaType", "data", "name"] then
    .error (.error .invalidReference)
  else do
    let mediaType ← required (object.lookup "mediaType") .invalidReference
    let mediaType ← required (mediaTypeFromValue mediaType) .unsupportedMediaType
    let encoded ← required ((object.lookup "data").bind Value.asStr) .invalidReference
    let encoded ← required (encodedPart mediaType encoded) .invalidReference
    let data ← (decodeBase64 encoded).mapError (.map fun _ => .invalidImage)
    .ok ⟨data, (object.lookup "name").bind Value.asStr⟩

end Tessivum.Attachments
