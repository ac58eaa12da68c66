/-
Tessivum.Attachments.Image — attachment references and the checks on the
bytes of an image (`src/attachments.rs`).

A reference names an image by the SHA-256 of its bytes and carries what the
header of the image says. It is read back from JSON only in the exact form
it is written in. `ValidatedImage` of the source has the fields of a
reference and is one here.

The digest is a parameter: 32 bytes for every byte string. What is assumed
of it is stated where it is used.
-/
import Tessivum.Library.Bytes
import Tessivum.Protocol.Wire

namespace Tessivum.Attachments

open Library Protocol List

/-- A storage failure names the operation. What the system says about it is
left out. -/
inductive AttachmentError where
  | invalidId
  | invalidReference
  | unsupportedMediaType
  | invalidImage
  | byteLimit
  | pixelLimit
  | batchCountLimit
  | batchByteLimit
  | storage (operation : String)
  | digestMismatch
  | metadataMismatch
  deriving DecidableEq, Repr

inductive ImageMediaType where
  | png | jpeg | webp | gif
  deriving DecidableEq, Repr

def ImageMediaType.asStr : ImageMediaType → String
  | .png => "image/png"
  | .jpeg => "image/jpeg"
  | .webp => "image/webp"
  | .gif => "image/gif"

def ImageMediaType.ofName : String → Option ImageMediaType
  | "image/png" => some .png
  | "image/jpeg" => some .jpeg
  | "image/webp" => some .webp
  | "image/gif" => some .gif
  | _ => none

/-- The `Deserialize` derive: the name of the variant, also in front of a
`null`. -/
def mediaTypeFromValue : Value → Option ImageMediaType
  | .string name => ImageMediaType.ofName name
  | .object [(name, .null)] => ImageMediaType.ofName name
  | _ => none

/-! ## Identities -/

/-- `is_ascii_hexdigit` without the uppercase letters. -/
def isLowerHex (c : Char) : Bool := ('0' ≤ c && c ≤ '9') || ('a' ≤ c && c ≤ 'f')

def digestHex (id : String) : Except AttachmentError (List Char) :=
  match "sha256:".toList.isPrefixOf id.toList, id.toList.drop 7 with
  | true, digest =>
    if digest.length = 64 ∧ digest.all isLowerHex then .ok digest else .error .invalidId
  | false, _ => .error .invalidId

/-- `AttachmentId::try_from`. An id is held in its generated form only. -/
def checkId (id : String) : Except AttachmentError String := (digestHex id).map fun _ => id

variable (digest : Digest)

/-- The name of the file with these bytes: `hex` of the digest. -/
def fileName : List Char := digest.1.flatMap hexDigits

def fromDigest : String :=
  String.ofList ("sha256:".toList ++ fileName digest)

theorem isLowerHex_hexDigit : ∀ n < 16, isLowerHex (hexDigit n) = true := by decide

theorem fileName_length : (fileName digest).length = 64 := by
  have hlength : ∀ bytes : Bytes, (bytes.flatMap hexDigits).length = 2 * bytes.length := by
    intro bytes
    induction bytes with
    | nil => rfl
    | cons b rest ih =>
      rw [flatMap_cons, length_append, ih, length_cons]
      simp only [hexDigits, length_cons, length_nil]
      omega
  rw [fileName, hlength, digest.2]

theorem fileName_hex : (fileName digest).all isLowerHex = true := by
  rw [all_eq_true]
  intro c hc
  obtain ⟨b, _, hc⟩ := mem_flatMap.mp hc
  have hb := b.toNat_lt
  simp only [hexDigits, mem_cons, not_mem_nil, or_false] at hc
  rcases hc with rfl | rfl
  · exact isLowerHex_hexDigit _ (by omega)
  · exact isLowerHex_hexDigit _ (by omega)

theorem fromDigest_toList : (fromDigest digest).toList = "sha256:".toList ++ fileName digest :=
  String.toList_ofList ..

theorem digestHex_fromDigest : digestHex (fromDigest digest) = .ok (fileName digest) := by
  rw [digestHex, fromDigest_toList]
  have hstart : "sha256:".toList.isPrefixOf ("sha256:".toList ++ fileName digest) = true :=
    isPrefixOf_iff_prefix.mpr (prefix_append _ _)
  have hdrop : ("sha256:".toList ++ fileName digest).drop 7 = fileName digest :=
    drop_left' rfl
  rw [hstart, hdrop]
  exact if_pos ⟨fileName_length digest, fileName_hex digest⟩

variable {a b : Digest}

theorem fileName_injective (h : fileName a = fileName b) : a = b :=
  Subtype.ext (hexBytes_injective h)

theorem fromDigest_injective (h : fromDigest a = fromDigest b) : a = b := by
  have hlist : (fromDigest a).toList = (fromDigest b).toList := by rw [h]
  rw [fromDigest_toList, fromDigest_toList] at hlist
  exact fileName_injective (append_cancel_left hlist)

/-! ## References -/

def isNameByte (c : Char) : Bool :=
  ('a' ≤ c && c ≤ 'z') || ('A' ≤ c && c ≤ 'Z') || ('0' ≤ c && c ≤ '9')
    || c == '.' || c == '-' || c == '_'

/-- `sanitize_name`. The length is in bytes, which are the characters once
all of them are ASCII. -/
def sanitizeName (name : Option String) : Option String :=
  name.bind fun name =>
    let chars := trimChars name.toList
    if chars.isEmpty ∨ 128 < chars.length ∨ chars.head? = some '.' ∨ !chars.all isNameByte then
      none
    else some (String.ofList chars)

/-- This serializable reference contains no filesystem path or encoded
bytes. -/
structure AttachmentRef where
  attachmentId : String
  mediaType : ImageMediaType
  bytes : Nat
  width : UInt32
  height : UInt32
  name : Option String
  deriving DecidableEq, Repr

def AttachmentRef.toValue (r : AttachmentRef) : Value :=
  .object ([("attachmentId", .string r.attachmentId), ("bytes", .ofNat r.bytes),
      ("height", .ofNat r.height.toNat), ("mediaType", .string r.mediaType.asStr)]
    ++ Wire.skipNone "name" .string r.name
    ++ [("width", .ofNat r.width.toNat)])

def u32FromValue (v : Value) : Option UInt32 :=
  v.asU64.bind fun n => if n < 2 ^ 32 then some (UInt32.ofNat n) else none

/-- What `serde` reads. -/
def AttachmentRef.decode : Value → Option AttachmentRef
  | .object fields => do
    Wire.onlyFields fields ["attachmentId", "mediaType", "bytes", "width", "height", "name"]
    return {
      attachmentId := ← Wire.field fields "attachmentId" fun v =>
        v.asStr.bind fun id => (checkId id).toOption
      mediaType := ← Wire.field fields "mediaType" mediaTypeFromValue
      bytes := ← Wire.field fields "bytes" Value.asU64
      width := ← Wire.field fields "width" u32FromValue
      height := ← Wire.field fields "height" u32FromValue
      name := ← Wire.optField fields "name" Value.asStr }
  | _ => none

def AttachmentRef.fromValue (v : Value) : Except AttachmentError AttachmentRef :=
  match AttachmentRef.decode v with
  | none => .error .invalidReference
  | some r =>
    if r.toValue ≠ v then .error .invalidReference
    else if r.name.isSome ∧ sanitizeName r.name ≠ r.name then .error .invalidReference
    else .ok r

/-! ## Images -/

def be16 : Bytes → Nat
  | a :: b :: _ => a.toNat * 2 ^ 8 + b.toNat
  | _ => 0

def le16 : Bytes → Nat
  | a :: b :: _ => a.toNat + b.toNat * 2 ^ 8
  | _ => 0

def le24 : Bytes → Nat
  | a :: b :: c :: _ => a.toNat + b.toNat * 2 ^ 8 + c.toNat * 2 ^ 16
  | _ => 0

def le32 : Bytes → Nat
  | a :: b :: c :: d :: _ =>
    a.toNat + b.toNat * 2 ^ 8 + c.toNat * 2 ^ 16 + d.toNat * 2 ^ 24
  | _ => 0

/-- `&data[start..start + text.len()] == text`. -/
def hasAt (data : Bytes) (start : Nat) (text : Bytes) : Bool :=
  (data.drop start).take text.length == text

def ascii (text : String) : Bytes := text.toList.map fun c => UInt8.ofNat c.toNat

def pngMagic : Bytes := [0x89, 0x50, 0x4e, 0x47, 0x0d, 0x0a, 0x1a, 0x0a]

/-- The dimensions an image header gives. -/
structure ImageHeader where
  mediaType : ImageMediaType
  width : UInt32
  height : UInt32
  deriving DecidableEq, Repr

def imageHeader (mediaType : ImageMediaType) (width height : Nat) : ImageHeader :=
  { mediaType, width := UInt32.ofNat width, height := UInt32.ofNat height }

/-- The markers of a frame header: `c0` to `cf` without `c4`, `c8` and
`cc`. -/
def isFrameMarker (marker : UInt8) : Bool :=
  0xc0 ≤ marker && marker ≤ 0xcf && marker != 0xc4 && marker != 0xc8 && marker != 0xcc

/-- The loop of `parse_jpeg`, at what is left from `offset` on. -/
def parseJpegFrom (rest : Bytes) : Except AttachmentError ImageHeader :=
  if rest.length < 4 then .error .invalidImage
  else if rest.head? ≠ some 0xff then .error .invalidImage
  else
    match _hmarker : rest.dropWhile (· == 0xff) with
    | [] => .error .invalidImage
    | marker :: segment =>
      if marker = 0xd8 ∨ marker = 0xd9 then parseJpegFrom segment
      else if segment.length < 2 then .error .invalidImage
      else if be16 segment < 2 ∨ segment.length < be16 segment then .error .invalidImage
      else if isFrameMarker marker then
        if be16 segment < 8 then .error .invalidImage
        else .ok (imageHeader .jpeg (be16 (segment.drop 5)) (be16 (segment.drop 3)))
      else parseJpegFrom (segment.drop (be16 segment))
termination_by rest.length
decreasing_by
  all_goals
    have hle := (dropWhile_suffix (l := rest) (· == 0xff)).length_le
    rw [_hmarker, length_cons] at hle
    try rw [length_drop]
    omega

def parseWebp (data : Bytes) : Except AttachmentError ImageHeader :=
  if data.length < 30 then .error .invalidImage
  else if hasAt data 12 (ascii "VP8X") then
    .ok (imageHeader .webp (le24 (data.drop 24) + 1) (le24 (data.drop 27) + 1))
  else if hasAt data 12 (ascii "VP8 ") && hasAt data 23 [0x9d, 0x01, 0x2a] then
    .ok (imageHeader .webp (le16 (data.drop 26) % 2 ^ 14) (le16 (data.drop 28) % 2 ^ 14))
  else if hasAt data 12 (ascii "VP8L") && hasAt data 20 [0x2f] then
    .ok (imageHeader .webp (le32 (data.drop 21) % 2 ^ 14 + 1)
      (le32 (data.drop 21) / 2 ^ 14 % 2 ^ 14 + 1))
  else .error .invalidImage

def parseImage (data : Bytes) : Except AttachmentError ImageHeader :=
  if hasAt data 0 pngMagic then
    if data.length < 24 ∨ !hasAt data 12 (ascii "IHDR") ∨ beWord (data.drop 8) ≠ 13 then
      .error .invalidImage
    else .ok (imageHeader .png (beWord (data.drop 16)) (beWord (data.drop 20)))
  else if hasAt data 0 (ascii "GIF87a") || hasAt data 0 (ascii "GIF89a") then
    if data.length < 10 then .error .invalidImage
    else .ok (imageHeader .gif (le16 (data.drop 6)) (le16 (data.drop 8)))
  else if hasAt data 0 (ascii "RIFF") && hasAt data 8 (ascii "WEBP") then parseWebp data
  else if hasAt data 0 [0xff, 0xd8] then parseJpegFrom (data.drop 2)
  else .error .unsupportedMediaType

structure AttachmentLimits where
  maxImageBytes : Nat
  maxImagesPerMessage : Nat
  maxMessageImageBytes : Nat
  maxImagePixels : Nat
  mediaTypes : List ImageMediaType
  deriving DecidableEq, Repr

def AttachmentLimits.standard : AttachmentLimits :=
  { maxImageBytes := 5 * 1024 * 1024
    maxImagesPerMessage := 20
    maxMessageImageBytes := 100 * 1024 * 1024
    maxImagePixels := 40000000
    mediaTypes := [.png, .jpeg, .webp, .gif] }

def validateBytes (sha256 : Bytes → Digest) (limits : AttachmentLimits) (data : Bytes)
    (name : Option String) : Except AttachmentError AttachmentRef := do
  failIf (limits.maxImageBytes < data.length) .byteLimit
  let header ← parseImage data
  failIf (header.mediaType ∉ limits.mediaTypes) .unsupportedMediaType
  failIf (header.width = 0 ∨ header.height = 0
      ∨ limits.maxImagePixels < header.width.toNat * header.height.toNat) .pixelLimit
  .ok { attachmentId := fromDigest (sha256 data)
        mediaType := header.mediaType
        bytes := data.length
        width := header.width
        height := header.height
        name := sanitizeName name }

/-! ## What is accepted again -/

theorem not_isWhitespace_of_isNameByte {c : Char} (h : isNameByte c = true) :
    isWhitespace c = false := by
  have hrange : c.toNat ≤ 127 ∧ 33 ≤ c.toNat := by
    simp only [isNameByte, or_eq_true, and_eq_true, decide_eq_true_eq, beq_iff_eq] at h
    rcases h with ((((⟨hl, hr⟩ | ⟨hl, hr⟩) | ⟨hl, hr⟩) | rfl) | rfl) | rfl
    iterate 3
      exact ⟨le_trans (UInt32.le_iff_toNat_le.mp hr) (by decide),
        le_trans (by decide) (UInt32.le_iff_toNat_le.mp hl)⟩
    all_goals decide
  simp only [isWhitespace, or_eq_false_iff, and_eq_false_iff, decide_eq_false_iff_not,
    beq_eq_false_iff_ne]
  omega

theorem trimChars_eq_self {chars : List Char} (h : ∀ c ∈ chars, isWhitespace c = false) :
    trimChars chars = chars := by
  have hkeep : ∀ {cs : List Char}, (∀ c ∈ cs, isWhitespace c = false) →
      cs.dropWhile isWhitespace = cs := by
    intro cs hcs
    cases cs with
    | nil => rfl
    | cons c rest => rw [dropWhile_cons, if_neg (by rw [hcs c mem_cons_self]; nofun)]
  rw [trimChars, hkeep h, hkeep fun c hc => h c (mem_reverse.mp hc), reverse_reverse]

theorem sanitizeName_idem {name : Option String} {clean : String}
    (h : sanitizeName name = some clean) : sanitizeName (some clean) = some clean := by
  obtain ⟨text, _, h⟩ := bind_eq_some_iff.mp h
  dsimp only at h
  split at h
  · cases h
  · rename_i hok
    cases h
    have hall : (trimChars text.toList).all isNameByte = true := by
      by_contra hbad
      exact hok (.inr (.inr (.inr (by simpa using hbad))))
    have htrim : trimChars (trimChars text.toList) = trimChars text.toList :=
      trimChars_eq_self fun c hc =>
        not_isWhitespace_of_isNameByte (all_eq_true.mp hall c hc)
    rw [sanitizeName, bind_some, String.toList_ofList]
    dsimp only
    rw [htrim, if_neg hok]

theorem mediaTypeFromValue_asStr (mediaType : ImageMediaType) :
    mediaTypeFromValue (.string mediaType.asStr) = some mediaType := by
  cases mediaType <;> rfl

theorem u32FromValue_ofNat (n : UInt32) : u32FromValue (.ofNat n.toNat) = some n := by
  rw [u32FromValue, Value.asU64_ofNat, bind_some, if_pos n.toNat_lt, UInt32.ofNat_toNat]

theorem AttachmentRef.fromValue_toValue {r : AttachmentRef} {digest : Digest}
    (hid : r.attachmentId = fromDigest digest)
    (hname : r.name = none ∨ sanitizeName r.name = r.name) :
    AttachmentRef.fromValue r.toValue = .ok r := by
  have hcheck : (checkId r.attachmentId).toOption = some r.attachmentId := by
    rw [checkId, hid, digestHex_fromDigest]
    rfl
  have hdecode : AttachmentRef.decode r.toValue = some r := by
    cases hn : r.name <;>
      simp [AttachmentRef.toValue, AttachmentRef.decode, Wire.onlyFields, Wire.field,
        Wire.optField, Wire.skipNone, List.lookup, hn, hcheck, mediaTypeFromValue_asStr,
        u32FromValue_ofNat] <;>
      rw [← hn]
  rw [AttachmentRef.fromValue, hdecode]
  dsimp only
  rw [if_neg (not_not.mpr rfl), if_neg]
  rintro ⟨hsome, hne⟩
  rcases hname with hnone | hsame
  · rw [hnone] at hsome
    cases hsome
  · exact hne hsame

section

variable {sha256 : Bytes → Digest} {limits : AttachmentLimits} {data : Bytes}
  {name : Option String} {r : AttachmentRef}

section

variable (h : validateBytes sha256 limits data name = .ok r)

include h

theorem validateBytes_name (other : Option String) :
    validateBytes sha256 limits data other = .ok { r with name := sanitizeName other } := by
  obtain ⟨hbytes, h⟩ := check_bind_eq_ok.mp h
  obtain ⟨_, hheader, h⟩ := bind_eq_ok.mp h
  obtain ⟨htype, h⟩ := check_bind_eq_ok.mp h
  obtain ⟨hpixels, h⟩ := check_bind_eq_ok.mp h
  cases h
  rw [validateBytes, hbytes, ok_bind, hheader, ok_bind, htype, ok_bind, hpixels, ok_bind]

theorem validateBytes_fields :
    r.attachmentId = fromDigest (sha256 data) ∧ r.bytes = data.length ∧
      r.name = sanitizeName name := by
  replace h := after_check h
  obtain ⟨_, _, h⟩ := bind_eq_ok.mp h
  replace h := after_check h
  replace h := after_check h
  cases h
  exact ⟨rfl, rfl, rfl⟩

theorem fromValue_of_validateBytes :
    AttachmentRef.fromValue r.toValue = .ok r := by
  obtain ⟨hid, _, hname⟩ := validateBytes_fields h
  refine AttachmentRef.fromValue_toValue hid ?_
  rw [hname]
  cases hclean : sanitizeName name with
  | none => exact .inl rfl
  | some clean => exact .inr (sanitizeName_idem hclean)

end

end

end Tessivum.Attachments
