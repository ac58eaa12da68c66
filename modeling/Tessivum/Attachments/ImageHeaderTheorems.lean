/-
Tessivum.Attachments.ImageHeaderTheorems — the header parsers stay in bounds
and read what a header states.

`parseImageAt` does what `parseImage` does on what is left of the bytes
(`parseImageAt_eq`), so it never ends out of bounds, and a well-formed header
gives the size that it states (`parseImage_header`).
-/
import Tessivum.Attachments.ImageHeader

namespace Tessivum.Attachments

open Library List

/-! ## No index is out of bounds -/

variable {data rest : Bytes} {start stop offset skip : Nat} {byte marker : UInt8}
  {segment : Bytes}

theorem sliceAt_ok {n : Nat} (hn : n ≤ data.length) (h : start ≤ stop ∧ stop ≤ n) :
    sliceAt data start stop = .ok ((data.drop start).take (stop - start)) :=
  if_pos ⟨h.1, h.2.trans hn⟩

theorem textAt_ok {n : Nat} {text : Bytes} (hn : n ≤ data.length)
    (h : start + text.length ≤ n) : textAt data start text = .ok (hasAt data start text) := by
  rw [textAt, sliceAt_ok hn ⟨Nat.le_add_right _ _, h⟩, Nat.add_sub_cancel_left]
  rfl

theorem le_of_hasAt {text : Bytes} (h : hasAt data start text = true) (hne : text ≠ []) :
    start + text.length ≤ data.length := by
  have hlength := congrArg length (beq_iff_eq.mp h)
  have hpos := length_pos_iff.mpr hne
  rw [length_take, length_drop] at hlength
  omega

theorem sum_ok {bits n : Nat} (h : n < 2 ^ bits) : sum bits n = .ok n := if_pos h

theorem element_of_drop (h : data.drop offset = byte :: rest) :
    (element data offset : Reading UInt8) = .ok byte := by
  have hget : data[offset]? = some byte := by
    rw [← Nat.add_zero offset, ← getElem?_drop, h]
    rfl
  rw [element, hget]

theorem drop_succ (h : data.drop offset = byte :: rest) : data.drop (offset + 1) = rest := by
  rw [← drop_drop, h]
  rfl

theorem drop_skipFill : ∀ {rest : Bytes} {offset : Nat}, data.drop offset = rest →
    data.drop (skipFill rest offset) = rest.dropWhile (· == 0xff)
  | [], _, h => h
  | byte :: rest, offset, h => by
    rw [skipFill, dropWhile_cons]
    by_cases hbyte : byte = 0xff
    · rw [if_pos hbyte, if_pos (beq_iff_eq.mpr hbyte)]
      exact drop_skipFill (drop_succ h)
    · rw [if_neg hbyte, if_neg (by simpa using hbyte)]
      exact h

theorem be16_take (bytes : Bytes) : be16 (bytes.take 2) = be16 bytes := by
  match bytes with
  | [] | [_] | _ :: _ :: _ => rfl

theorem be16_lt (bytes : Bytes) : be16 bytes < 2 ^ 16 := by
  match bytes with
  | [] | [_] => exact Nat.two_pow_pos 16
  | a :: b :: _ =>
    have ha := a.toNat_lt
    have hb := b.toNat_lt
    simp only [be16]
    omega

theorem sliceAt_two (h : data.drop start = rest) (hlen : skip + 2 ≤ rest.length) :
    sliceAt data (start + skip) (start + (skip + 2)) = .ok ((rest.drop skip).take 2) := by
  subst h
  rw [length_drop] at hlen
  have hwidth : start + (skip + 2) - (start + skip) = 2 := by omega
  rw [sliceAt_ok (le_refl _) (by omega), hwidth, drop_drop]

theorem parseJpegFrom_error (h : rest.head? ≠ some 0xff ∨ rest.dropWhile (· == 0xff) = []) :
    parseJpegFrom rest = .error .invalidImage := by
  rw [parseJpegFrom]
  split
  · rfl
  split
  · rfl
  split
  · rfl
  · rename_i hfill _ _ hmarker
    rw [hmarker] at h
    exact absurd h (by simpa using hfill)

/-- One round of `parse_jpeg` once its marker is found. -/
theorem parseJpegFrom_marker (hlong : 4 ≤ rest.length) (hfill : rest.head? = some 0xff)
    (hmarker : rest.dropWhile (· == 0xff) = marker :: segment) :
    parseJpegFrom rest =
      if marker = 0xd8 ∨ marker = 0xd9 then parseJpegFrom segment
      else if segment.length < 2 then .error .invalidImage
      else if be16 segment < 2 ∨ segment.length < be16 segment then .error .invalidImage
      else if isFrameMarker marker then
        if be16 segment < 8 then .error .invalidImage
        else .ok (imageHeader .jpeg (be16 (segment.drop 5)) (be16 (segment.drop 3)))
      else parseJpegFrom (segment.drop (be16 segment)) := by
  rw [parseJpegFrom, if_neg (Nat.not_lt.mpr hlong), if_neg (not_not.mpr hfill)]
  split
  · rename_i hnone
    rw [hmarker] at hnone
    cases hnone
  · rename_i hfound
    rw [hmarker] at hfound
    cases hfound
    rfl

/-- The segments read at offsets are those of the rest of the bytes. -/
theorem parseJpegAt_eq (hdata : data.length < 2 ^ 63) (offset : Nat)
    (hoffset : offset ≤ data.length) :
    parseJpegAt data offset = (parseJpegFrom (data.drop offset)).mapError .error := by
  have hsum : ∀ n ≤ data.length + 2 ^ 16, sum 64 n = .ok n := fun n hn => sum_ok (by omega)
  have hrest := length_drop (i := offset) (l := data)
  rw [parseJpegAt, hsum (offset + 4) (by omega), ok_bind]
  by_cases hshort : data.length < offset + 4
  · have hleft : (data.drop offset).length < 4 := by omega
    rw [if_pos hshort, parseJpegFrom, if_pos hleft]
    rfl
  rw [if_neg hshort]
  cases hbytes : data.drop offset with
  | nil =>
    rw [hbytes, length_nil] at hrest
    omega
  | cons byte rest =>
    rw [hbytes] at hrest
    rw [element_of_drop hbytes, ok_bind]
    by_cases hbyte : byte = 0xff
    · subst hbyte
      have hpast := drop_skipFill hbytes
      have hle := le_skipFill (0xff :: rest) offset
      rw [if_neg (not_not.mpr rfl)]
      generalize skipFill (0xff :: rest) offset = past at hpast hle
      dsimp only
      cases hmarker : (0xff :: rest).dropWhile (· == 0xff) with
      | nil =>
        rw [hmarker, drop_eq_nil_iff] at hpast
        rw [parseJpegFrom_error (.inr hmarker), if_pos hpast]
        rfl
      | cons marker segment =>
        rw [hmarker] at hpast
        have hsegment := drop_succ hpast
        have hlength := congrArg length hsegment
        rw [length_drop] at hlength
        have hin : ¬ data.length ≤ past := fun hle => by
          rw [drop_eq_nil_of_le hle] at hpast
          cases hpast
        have hbound := be16_lt segment
        rw [if_neg hin, element_of_drop hpast, ok_bind, parseJpegFrom_marker (by omega) rfl hmarker]
        simp only [apply_ite (Except.mapError Halt.error)]
        refine ite_congr rfl (fun _ => ?_) fun _ => ?_
        · rw [parseJpegAt_eq hdata (past + 1) (by omega), hsegment]
        rw [hsum (past + 1 + 2) (by omega), ok_bind]
        refine ite_congr (propext (by omega)) (fun _ => rfl) fun hleft => ?_
        have hread : sliceAt data (past + 1) (past + 1 + 2) = .ok (segment.take 2) :=
          @sliceAt_two data segment (past + 1) 0 hsegment (by omega)
        rw [hread, ok_bind, be16_take, hsum _ (by omega), ok_bind]
        refine ite_congr (propext (by omega)) (fun _ => rfl) fun hlong => ?_
        refine ite_congr rfl (fun _ => ite_congr rfl (fun _ => rfl) fun hlarge => ?_) fun _ => ?_
        · rw [@sliceAt_two data segment (past + 1) 5 hsegment (by omega), ok_bind,
            @sliceAt_two data segment (past + 1) 3 hsegment (by omega), ok_bind, be16_take,
            be16_take]
          rfl
        · rw [parseJpegAt_eq hdata _ (by omega), ← drop_drop, hsegment]
    · rw [if_pos hbyte, parseJpegFrom_error (.inl (by simpa using hbyte))]
      rfl
termination_by data.length - offset

theorem le_take (bytes : Bytes) : le16 (bytes.take 2) = le16 bytes ∧
    le24 (bytes.take 3) = le24 bytes ∧ le32 (bytes.take 4) = le32 bytes := by
  match bytes with
  | [] | [_] | [_, _] | [_, _, _] | _ :: _ :: _ :: _ :: _ => exact ⟨rfl, rfl, rfl⟩

theorem sum_le24 (bytes : Bytes) : sum 32 (le24 bytes + 1) = .ok (le24 bytes + 1) := by
  match bytes with
  | [] | [_] | [_, _] => rfl
  | a :: b :: c :: _ =>
    have ha := a.toNat_lt
    have hb := b.toNat_lt
    have hc := c.toNat_lt
    exact sum_ok (by simp only [le24]; omega)

theorem parseWebpAt_eq (data : Bytes) :
    parseWebpAt data = (parseWebp data).mapError .error := by
  unfold parseWebpAt parseWebp
  simp only [apply_ite (Except.mapError Halt.error)]
  refine ite_congr rfl (fun _ => rfl) fun hshort => ?_
  have hn := Nat.not_lt.mp hshort
  have hsum : ∀ n, sum 32 (n % 2 ^ 14 + 1) = .ok (n % 2 ^ 14 + 1) := fun n => sum_ok (by omega)
  simp (disch := decide) only [textAt_ok hn, sliceAt_ok hn, ok_bind, sum_le24, hsum, le_take,
    Nat.reduceSub]
  rfl

theorem isWebpAt_eq (data : Bytes) :
    isWebpAt data = .ok (hasAt data 0 (ascii "RIFF") && hasAt data 8 (ascii "WEBP")) := by
  unfold isWebpAt
  split
  · rename_i hshort
    cases hwebp : hasAt data 8 (ascii "WEBP") with
    | false => rw [Bool.and_false]
    | true => exact absurd (le_of_hasAt hwebp (by decide)) (Nat.not_le.mpr hshort)
  · rename_i hshort
    have hn := Nat.not_lt.mp hshort
    simp (disch := decide) only [textAt_ok hn, ok_bind, pure_eq_ok]

theorem parseImageAt_eq (hdata : data.length < 2 ^ 63) :
    parseImageAt data = (parseImage data).mapError .error := by
  unfold parseImageAt parseImage
  simp only [apply_ite (Except.mapError Halt.error)]
  refine ite_congr rfl (fun _ => ?_) fun _ => ite_congr rfl (fun _ => ?_) fun _ => ?_
  · by_cases hshort : data.length < 24
    · rw [if_pos hshort, if_pos (.inl hshort)]
      rfl
    have hn := Nat.not_lt.mp hshort
    simp (disch := decide) only [textAt_ok hn, sliceAt_ok hn, ok_bind, hshort, if_false, false_or,
      Nat.reduceSub, beWord_take _ (le_refl 4), or_eq_true, bne_iff_ne]
    rfl
  · refine ite_congr rfl (fun _ => rfl) fun hshort => ?_
    have hn := Nat.not_lt.mp hshort
    simp (disch := decide) only [sliceAt_ok hn, ok_bind, Nat.reduceSub, le_take]
    rfl
  · rw [isWebpAt_eq, ok_bind, parseWebpAt_eq]
    refine ite_congr rfl (fun _ => rfl) fun _ => ite_congr rfl (fun hjpeg => ?_) fun _ => rfl
    exact parseJpegAt_eq hdata 2 (le_of_hasAt hjpeg (by decide))

/-! ## Well-formed headers -/

/-- The low `count` bytes of a number, least significant first. -/
def leBytes : Nat → Nat → Bytes
  | 0, _ => []
  | count + 1, n => UInt8.ofNat n :: leBytes count (n / 2 ^ 8)

/-- A length-prefixed segment of a JPEG, with `fill` bytes before its marker. -/
structure Segment where
  fill : Nat
  marker : UInt8
  content : Bytes
  prefixed : marker ≠ 0xff ∧ marker ≠ 0xd8 ∧ marker ≠ 0xd9
  fits : content.length + 2 < 2 ^ 16

def Segment.bytes (s : Segment) : Bytes :=
  replicate (s.fill + 1) 0xff ++
    (s.marker :: ((leBytes 2 (s.content.length + 2)).reverse ++ s.content))

/-- The start of a WebP whose first chunk has this name. -/
def webpStart (name : String) (size chunk : Nat) : Bytes :=
  ascii "RIFF" ++ leBytes 4 size ++ ascii "WEBP" ++ ascii name ++ leBytes 4 chunk

/-- Images with the width and the height that their headers state. -/
inductive States : Bytes → ImageMediaType → Nat → Nat → Prop
  | png {w h : Nat} (rest : Bytes) (hw : w < 2 ^ 32) (hh : h < 2 ^ 32) :
      States (pngMagic ++ be32 13 ++ ascii "IHDR" ++ be32 w ++ be32 h ++ rest) .png w h
  | gif {w h : Nat} (version : String) (rest : Bytes) (hversion : version ∈ ["GIF87a", "GIF89a"])
      (hw : w < 2 ^ 16) (hh : h < 2 ^ 16) :
      States (ascii version ++ leBytes 2 w ++ leBytes 2 h ++ rest) .gif w h
  | vp8x {w h : Nat} (size chunk flags : Nat) (rest : Bytes) (hw : w < 2 ^ 24) (hh : h < 2 ^ 24) :
      States (webpStart "VP8X" size chunk ++ leBytes 4 flags ++ leBytes 3 w ++ leBytes 3 h ++ rest)
        .webp (w + 1) (h + 1)
  | vp8 {w h : Nat} (size chunk tag xScale yScale : Nat) (rest : Bytes) (hw : w < 2 ^ 14)
      (hh : h < 2 ^ 14) (hx : xScale < 4) (hy : yScale < 4) :
      States (webpStart "VP8 " size chunk ++ leBytes 3 tag ++ [0x9d, 0x01, 0x2a] ++
        leBytes 2 (w + 2 ^ 14 * xScale) ++ leBytes 2 (h + 2 ^ 14 * yScale) ++ rest) .webp w h
  | vp8l {w h : Nat} (size chunk flags : Nat) (rest : Bytes) (hw : w < 2 ^ 14) (hh : h < 2 ^ 14)
      (hflags : flags < 2 ^ 4) (hrest : 5 ≤ rest.length) :
      States (webpStart "VP8L" size chunk ++ [0x2f] ++
        leBytes 4 (w + 2 ^ 14 * h + 2 ^ 28 * flags) ++ rest) .webp (w + 1) (h + 1)
  | jpeg {w h : Nat} (segments : List Segment) (frame : Segment) (precision components : UInt8)
      (more rest : Bytes) (hw : w < 2 ^ 16) (hh : h < 2 ^ 16)
      (hplain : ∀ s ∈ segments, isFrameMarker s.marker = false)
      (hframe : isFrameMarker frame.marker = true)
      (hcontent : frame.content = precision ::
        ((leBytes 2 h).reverse ++ (leBytes 2 w).reverse ++ components :: more)) :
      States ([0xff, 0xd8] ++ segments.flatMap Segment.bytes ++ frame.bytes ++ rest) .jpeg w h

theorem be16_leBytes {n : Nat} (h : n < 2 ^ 16) : be16 ((leBytes 2 n).reverse ++ rest) = n := by
  simp only [leBytes, reverse_cons, reverse_nil, nil_append, cons_append, be16, UInt8.toNat_ofNat']
  omega

theorem le_leBytes {n : Nat} : (n < 2 ^ 16 → le16 (leBytes 2 n ++ rest) = n) ∧
    (n < 2 ^ 24 → le24 (leBytes 3 n ++ rest) = n) ∧
    (n < 2 ^ 32 → le32 (leBytes 4 n ++ rest) = n) := by
  simp only [leBytes, cons_append, nil_append, le16, le24, le32, UInt8.toNat_ofNat']
  omega

theorem States.lt {data : Bytes} {mediaType : ImageMediaType} {w h : Nat}
    (hs : States data mediaType w h) : w < 2 ^ 32 ∧ h < 2 ^ 32 := by
  cases hs <;> omega

theorem parseJpegFrom_segment (s : Segment) (rest : Bytes) :
    parseJpegFrom (s.bytes ++ rest) =
      if isFrameMarker s.marker then
        if s.content.length + 2 < 8 then .error .invalidImage
        else .ok (imageHeader .jpeg (be16 ((s.content ++ rest).drop 3))
          (be16 ((s.content ++ rest).drop 1)))
      else parseJpegFrom rest := by
  obtain ⟨hfill, halone⟩ := s.prefixed
  have hbe : be16 ((leBytes 2 (s.content.length + 2)).reverse ++ (s.content ++ rest)) =
      s.content.length + 2 := be16_leBytes s.fits
  have hmarker : (s.bytes ++ rest).dropWhile (· == 0xff) =
      s.marker :: ((leBytes 2 (s.content.length + 2)).reverse ++ (s.content ++ rest)) := by
    rw [Segment.bytes, append_assoc, dropWhile_append_of_pos (by simp)]
    simp [hfill]
  rw [parseJpegFrom_marker (by simp [Segment.bytes, leBytes]; omega) rfl hmarker,
    if_neg (not_or.mpr halone), if_neg (by simp [leBytes]), hbe,
    if_neg (by simp [leBytes])]
  have hdrop : ((leBytes 2 (s.content.length + 2)).reverse ++ (s.content ++ rest)).drop
      (s.content.length + 2) = rest := by
    rw [← append_assoc]
    exact drop_left' (by simp [leBytes])
  rw [hdrop]
  rfl

theorem parseJpegFrom_plain {segments : List Segment}
    (h : ∀ s ∈ segments, isFrameMarker s.marker = false) (rest : Bytes) :
    parseJpegFrom (segments.flatMap Segment.bytes ++ rest) = parseJpegFrom rest := by
  induction segments with
  | nil => rfl
  | cons s segments ih =>
    rw [flatMap_cons, append_assoc, parseJpegFrom_segment, h s mem_cons_self,
      if_neg (by decide), ih fun t ht => h t (mem_cons_of_mem s ht)]

/-- A well-formed header is read as what it states. -/
theorem parseImage_header {data : Bytes} {mediaType : ImageMediaType} {w h : Nat}
    (hs : States data mediaType w h) : parseImage data = .ok (imageHeader mediaType w h) := by
  cases hs with
  | png rest hw hh =>
    change Except.ok (imageHeader .png (beWord (be32 w ++ (be32 h ++ rest)))
      (beWord (be32 h ++ rest))) = _
    rw [beWord_be32 hw, beWord_be32 hh]
  | gif version rest hversion hw hh =>
    simp only [mem_cons, not_mem_nil, or_false] at hversion
    rcases hversion with rfl | rfl
    all_goals
      change Except.ok (imageHeader .gif (le16 (leBytes 2 w ++ (leBytes 2 h ++ rest)))
        (le16 (leBytes 2 h ++ rest))) = _
      rw [le_leBytes.1 hw, le_leBytes.1 hh]
  | @vp8x w h size chunk flags rest hw hh =>
    change Except.ok (imageHeader .webp (le24 (leBytes 3 w ++ (leBytes 3 h ++ rest)) + 1)
      (le24 (leBytes 3 h ++ rest) + 1)) = _
    rw [le_leBytes.2.1 hw, le_leBytes.2.1 hh]
  | vp8 size chunk tag xScale yScale rest hw hh =>
    change Except.ok (imageHeader .webp
      (le16 (leBytes 2 (w + 2 ^ 14 * xScale) ++ (leBytes 2 (h + 2 ^ 14 * yScale) ++ rest)) % 2 ^ 14)
      (le16 (leBytes 2 (h + 2 ^ 14 * yScale) ++ rest) % 2 ^ 14)) = _
    rw [le_leBytes.1 (by omega), le_leBytes.1 (by omega), Nat.add_mul_mod_self_left,
      Nat.add_mul_mod_self_left, Nat.mod_eq_of_lt hw, Nat.mod_eq_of_lt hh]
  | @vp8l w h size chunk flags rest hw hh hflags hrest =>
    rcases rest with _ | ⟨a, _ | ⟨b, _ | ⟨c, _ | ⟨d, _ | ⟨e, rest⟩⟩⟩⟩⟩
    iterate 5 exact absurd hrest (by simp)
    generalize hbits : w + 2 ^ 14 * h + 2 ^ 28 * flags = bits
    have hle : ∀ rest, le32 (leBytes 4 bits ++ rest) = bits := fun rest =>
      le_leBytes.2.2 (by omega)
    change Except.ok (imageHeader .webp (le32 (leBytes 4 bits ++ _) % 2 ^ 14 + 1)
      (le32 (leBytes 4 bits ++ _) / 2 ^ 14 % 2 ^ 14 + 1)) = _
    rw [hle]
    have hwidth : bits % 2 ^ 14 = w := by omega
    have hheight : bits / 2 ^ 14 % 2 ^ 14 = h := by omega
    rw [hwidth, hheight]
  | jpeg segments frame precision components more rest hw hh hplain hframe hcontent =>
    rw [append_assoc, append_assoc]
    change parseJpegFrom (segments.flatMap Segment.bytes ++ (frame.bytes ++ rest)) = _
    rw [parseJpegFrom_plain hplain, parseJpegFrom_segment, if_pos hframe, hcontent,
      if_neg (by simp [leBytes])]
    change Except.ok (imageHeader .jpeg (be16 ((leBytes 2 w).reverse ++ _))
      (be16 ((leBytes 2 h).reverse ++ _))) = _
    rw [be16_leBytes hw, be16_leBytes hh]

/-- For every slice, no index and no sum is out of bounds, and a well-formed
header gives exactly the size that it states. -/
theorem image_headers_exact (data : Slice) :
    parseImageAt data ≠ .error .outOfBounds ∧
      ∀ mediaType w h, States data mediaType w h → ∃ header, parseImageAt data = .ok header ∧
        header.mediaType = mediaType ∧ header.width.toNat = w ∧ header.height.toNat = h := by
  obtain ⟨data, hdata⟩ := data
  rw [parseImageAt_eq hdata]
  refine ⟨fun h => ?_, fun mediaType w h hs => ?_⟩
  · cases hparse : parseImage data <;> rw [hparse] at h <;> cases h
  · obtain ⟨hw, hh⟩ := hs.lt
    rw [parseImage_header hs]
    exact ⟨_, rfl, rfl, Nat.mod_eq_of_lt hw, Nat.mod_eq_of_lt hh⟩

end Tessivum.Attachments
