/-
Tessivum.Attachments.ImageHeader — the header parsers of `src/attachments.rs`
at their offsets.

An index behind the end of a slice and a sum that does not fit its type both
end in `Halt.outOfBounds`.
-/
import Tessivum.Attachments.InlineImage

namespace Tessivum.Attachments

open Library List

/-- A slice. Rust keeps the length of one within `isize::MAX`. -/
abbrev Slice : Type := { data : Bytes // data.length < 2 ^ 63 }

abbrev Reading (α : Type) : Type := Except (Halt AttachmentError) α

/-- `&data[start..stop]`. -/
def sliceAt (data : Bytes) (start stop : Nat) : Reading Bytes :=
  if start ≤ stop ∧ stop ≤ data.length then .ok ((data.drop start).take (stop - start))
  else .error .outOfBounds

/-- `&data[start..start + text.len()] == text`; for one byte also `data[start]`. -/
def textAt (data : Bytes) (start : Nat) (text : Bytes) : Reading Bool :=
  (sliceAt data start (start + text.length)).map (· == text)

/-- A sum of a type of `bits` bits. -/
def sum (bits n : Nat) : Reading Nat := if n < 2 ^ bits then .ok n else .error .outOfBounds

/-- The inner loop of `parse_jpeg`, at the bytes from `offset` on. -/
def skipFill : Bytes → Nat → Nat
  | byte :: rest, offset => if byte = 0xff then skipFill rest (offset + 1) else offset
  | [], offset => offset

theorem le_skipFill : ∀ (rest : Bytes) (offset : Nat), offset ≤ skipFill rest offset
  | [], offset => le_refl offset
  | byte :: rest, offset => by
    rw [skipFill]
    split
    · exact Nat.le_of_succ_le (le_skipFill rest (offset + 1))
    · exact le_refl offset

/-- `parse_jpeg`, from the test of the outer loop on. -/
def parseJpegAt (data : Bytes) (offset : Nat) : Reading ImageHeader := do
  if data.length < (← sum 64 (offset + 4)) then .error (.error .invalidImage)
  else if (← element data offset) ≠ 0xff then .error (.error .invalidImage)
  else
    let past := skipFill (data.drop offset) offset
    if data.length ≤ past then .error (.error .invalidImage)
    else
      let marker ← element data past
      let start := past + 1
      if marker = 0xd8 ∨ marker = 0xd9 then parseJpegAt data start
      else if data.length < (← sum 64 (start + 2)) then .error (.error .invalidImage)
      else
        let length := be16 (← sliceAt data start (start + 2))
        if length < 2 ∨ data.length < (← sum 64 (start + length)) then
          .error (.error .invalidImage)
        else if isFrameMarker marker then
          if length < 8 then .error (.error .invalidImage)
          else
            let width := be16 (← sliceAt data (start + 5) (start + 7))
            let height := be16 (← sliceAt data (start + 3) (start + 5))
            .ok (imageHeader .jpeg width height)
        else parseJpegAt data (start + length)
termination_by data.length - offset
decreasing_by
  all_goals
    have hle := le_skipFill (data.drop offset) offset
    omega

/-- `parse_webp`. The lengths that its arms check again hold after the first
check. -/
def parseWebpAt (data : Bytes) : Reading ImageHeader := do
  if data.length < 30 then .error (.error .invalidImage)
  else if ← textAt data 12 (ascii "VP8X") then
    let width ← sum 32 (le24 (← sliceAt data 24 27) + 1)
    let height ← sum 32 (le24 (← sliceAt data 27 30) + 1)
    .ok (imageHeader .webp width height)
  else if (← textAt data 12 (ascii "VP8 ")) && (← textAt data 23 [0x9d, 0x01, 0x2a]) then
    let width := le16 (← sliceAt data 26 28) % 2 ^ 14
    let height := le16 (← sliceAt data 28 30) % 2 ^ 14
    .ok (imageHeader .webp width height)
  else if (← textAt data 12 (ascii "VP8L")) && (← textAt data 20 [0x2f]) then
    let bits := le32 (← sliceAt data 21 25)
    let width ← sum 32 (bits % 2 ^ 14 + 1)
    let height ← sum 32 (bits / 2 ^ 14 % 2 ^ 14 + 1)
    .ok (imageHeader .webp width height)
  else .error (.error .invalidImage)

/-- `data.len() >= 12 && &data[..4] == b"RIFF" && &data[8..12] == b"WEBP"`. -/
def isWebpAt (data : Bytes) : Reading Bool :=
  if data.length < 12 then .ok false
  else do return (← textAt data 0 (ascii "RIFF")) && (← textAt data 8 (ascii "WEBP"))

def parseImageAt (data : Bytes) : Reading ImageHeader := do
  if hasAt data 0 pngMagic then
    if data.length < 24 then .error (.error .invalidImage)
    else if !(← textAt data 12 (ascii "IHDR")) || beWord (← sliceAt data 8 12) != 13 then
      .error (.error .invalidImage)
    else .ok (imageHeader .png (beWord (← sliceAt data 16 20)) (beWord (← sliceAt data 20 24)))
  else if hasAt data 0 (ascii "GIF87a") || hasAt data 0 (ascii "GIF89a") then
    if data.length < 10 then .error (.error .invalidImage)
    else .ok (imageHeader .gif (le16 (← sliceAt data 6 8)) (le16 (← sliceAt data 8 10)))
  else if ← isWebpAt data then parseWebpAt data
  else if hasAt data 0 [0xff, 0xd8] then parseJpegAt data 2
  else .error (.error .unsupportedMediaType)

end Tessivum.Attachments
