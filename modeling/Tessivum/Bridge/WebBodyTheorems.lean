/-
Tessivum.Bridge.WebBodyTheorems — Web bodies come back as they were sent, and
only what was encoded so is accepted.

The two passes of the decoder take the same texts: `Quartets`.
-/
import Tessivum.Attachments.InlineImageTheorems
import Tessivum.Bridge.WebBody

namespace Tessivum.Bridge

open Library List
open Attachments (Halt Quartets element table chunks3 chunks4 sextet encodeChunk exists_quartets
  letter)

/-! ## Both passes -/

variable {bytes text : Bytes} {padding : Nat} {unused : UInt8}

theorem encodeWebChunk_eq : ∀ bytes : Bytes,
    (chunks3 bytes).mapM encodeWebChunk = (chunks3 bytes).mapM encodeChunk
  | [] | [_] | [_, _] => rfl
  | a :: b :: c :: rest => by
    rw [chunks3, mapM_cons, mapM_cons, encodeWebChunk_eq rest]
    rfl

theorem expected_some {α ε : Type} (x : α) : (expected (some x) : Except (Halt ε) α) = .ok x := rfl

/-- No `expect` fails on quartets. -/
theorem mapM_decodeQuartet (h : Quartets bytes text padding unused) :
    ∃ chunks, (chunks4 text).mapM decodeQuartet = .ok chunks ∧ chunks.flatten = bytes := by
  induction h with
  | nil => exact ⟨[], rfl, rfl⟩
  | one h0 h1 =>
    refine ⟨[[_]], ?_, rfl⟩
    simp only [chunks4, mapM_cons, mapM_nil, decodeQuartet, base64Value, h0, h1, expected_some,
      ok_bind, if_pos, append_nil, pure_eq_ok]
  | two h0 h1 h2 =>
    refine ⟨[[_, _]], ?_, rfl⟩
    simp only [chunks4, mapM_cons, mapM_nil, decodeQuartet, base64Value, h0, h1, h2,
      if_neg (letter h2).2.1, expected_some, ok_bind, if_pos, append_nil, cons_append,
      nil_append, pure_eq_ok]
  | cons h0 h1 h2 h3 _ ih =>
    obtain ⟨chunks, hdecodes, hflatten⟩ := ih
    refine ⟨[_, _, _] :: chunks, ?_, by rw [← hflatten]; rfl⟩
    simp only [chunks4, mapM_cons, decodeQuartet, base64Value, h0, h1, h2, h3, hdecodes,
      if_neg (letter h2).2.1, if_neg (letter h3).2.1, expected_some, ok_bind, cons_append,
      nil_append, pure_eq_ok]

/-! ## What is accepted -/

/-- The padding is at most two signs at the end of the text. -/
theorem base64Padding_spec (text : Bytes) : base64Padding text ≤ 2 ∧
    ∃ front, text = front ++ replicate (base64Padding text) 61 := by
  unfold base64Padding
  split
  · rename_i h
    exact ⟨Nat.le_refl 2, h.choose, h.choose_spec.symm⟩
  split
  · rename_i h
    exact ⟨by decide, h.choose, h.choose_spec.symm⟩
  · exact ⟨by decide, text, (append_nil text).symm⟩

theorem base64Padding_eq (h : Quartets bytes text padding unused) :
    base64Padding text = padding := by
  induction h with
  | nil => rfl
  | one => simp [base64Padding, suffix_cons_iff]
  | two _ _ h2 => simp [base64Padding, suffix_cons_iff, (letter h2).2.1.symm]
  | cons _ _ _ h3 _ ih =>
    rw [← ih]
    simp [base64Padding, suffix_cons_iff, (letter h3).2.1.symm]

def Letters (front : Bytes) : Prop := ∀ b ∈ front, ∃ v, base64Value b = some v

/-- Letters and padding in fours are the text of some bytes. -/
theorem exists_quartets_of_letters : ∀ {front : Bytes}, Letters front → padding ≤ 2 →
    (front.length + padding) % 4 = 0 →
    ∃ bytes unused, Quartets bytes (front ++ replicate padding 61) padding unused
  | [], _, htwo, hmod => by
    obtain rfl : padding = 0 := by simp at hmod; omega
    exact ⟨[], 0, .nil⟩
  | [_], _, htwo, hmod => by
    rw [length_singleton] at hmod
    omega
  | [t0, t1], h, htwo, hmod => by
    obtain rfl : padding = 2 := by simp at hmod; omega
    obtain ⟨_, h0⟩ := h t0 (by simp)
    obtain ⟨_, h1⟩ := h t1 (by simp)
    exact ⟨_, _, .one h0 h1⟩
  | [t0, t1, t2], h, htwo, hmod => by
    obtain rfl : padding = 1 := by simp at hmod; omega
    obtain ⟨_, h0⟩ := h t0 (by simp)
    obtain ⟨_, h1⟩ := h t1 (by simp)
    obtain ⟨_, h2⟩ := h t2 (by simp)
    exact ⟨_, _, .two h0 h1 h2⟩
  | t0 :: t1 :: t2 :: t3 :: front, h, htwo, hmod => by
    obtain ⟨v0, h0⟩ := h t0 (by simp)
    obtain ⟨v1, h1⟩ := h t1 (by simp)
    obtain ⟨v2, h2⟩ := h t2 (by simp)
    obtain ⟨v3, h3⟩ := h t3 (by simp)
    simp only [length_cons] at hmod
    have hfront : Letters front := fun b hb => h b (by simp [hb])
    obtain ⟨bytes, unused, hq⟩ := exists_quartets_of_letters hfront htwo (by omega)
    exact ⟨_, _, .cons h0 h1 h2 h3 hq⟩

theorem letters_of_quartets (h : Quartets bytes text padding unused) :
    ∃ front, text = front ++ replicate padding 61 ∧ Letters front := by
  induction h with
  | nil => exact ⟨[], rfl, by simp [Letters]⟩
  | one h0 h1 => exact ⟨[_, _], rfl, by simp [Letters, h0, h1]⟩
  | two h0 h1 h2 => exact ⟨[_, _, _], rfl, by simp [Letters, h0, h1, h2]⟩
  | cons h0 h1 h2 h3 _ ih =>
    obtain ⟨front, rfl, hfront⟩ := ih
    exact ⟨_ :: _ :: _ :: _ :: front, rfl, by simpa [Letters, h0, h1, h2, h3] using hfront⟩

theorem checkByte_eq_ok {front : Bytes} (htext : text = front ++ replicate padding 61) :
    forAllOk (checkByte (text.length - padding)) text.zipIdx = .ok () ↔ Letters front := by
  have hplain : text.length - padding = front.length := by simp [htext]
  rw [hplain, htext, forAllOk_eq_ok, zipIdx_append]
  simp only [mem_append]
  constructor
  · intro h b hb
    obtain ⟨⟨b, index⟩, hmem, rfl⟩ := mem_map.mp ((zipIdx_map_fst 0 front).symm ▸ hb)
    have hcheck := h _ (.inl hmem)
    have hindex : index < front.length := by simpa using (mem_zipIdx hmem).2.1
    simp only [checkByte, hindex, if_true] at hcheck
    split at hcheck
    · cases hcheck
    split at hcheck
    · cases hcheck
    · rename_i hvalue
      exact Option.ne_none_iff_exists'.mp fun hnone => hvalue (by rw [hnone]; rfl)
  · rintro h ⟨b, index⟩ (hmem | hmem)
    · obtain ⟨v, hv⟩ := h b (fst_mem_of_mem_zipIdx hmem)
      simp [checkByte, (letter hv).2.1, hv]
    · have hindex : front.length ≤ index := by simpa using (mem_zipIdx hmem).1
      have hpad : b = 61 := eq_of_mem_replicate (fst_mem_of_mem_zipIdx hmem)
      rw [checkByte, if_pos hpad, if_neg (Nat.not_lt.mpr hindex)]

theorem base64DecodedLen_eq_ok (s : String) (limit n : Nat) : base64DecodedLen s limit = .ok n ↔
    n ≤ limit ∧ ∃ bytes padding unused,
      Quartets bytes (utf8 s) padding unused ∧ bytes.length = n := by
  simp only [base64DecodedLen, bind_eq_ok, failIf_eq_ok, exists_unit, ok.injEq]
  constructor
  · rintro ⟨hmod, -, hlimit, hcheck, -, rfl⟩
    obtain ⟨htwo, front, htext⟩ := base64Padding_spec (utf8 s)
    have hletters := (checkByte_eq_ok htext).mp hcheck
    have hlength := congrArg length htext
    rw [length_append, length_replicate] at hlength
    obtain ⟨bytes, unused, hq⟩ := exists_quartets_of_letters hletters htwo (by omega)
    rw [← htext] at hq
    have hbytes := hq.length_text.2
    exact ⟨by omega, bytes, _, unused, hq, by omega⟩
  · rintro ⟨hlimit, bytes, padding, unused, hq, rfl⟩
    obtain ⟨front, htext, hletters⟩ := letters_of_quartets hq
    obtain ⟨hmod, hlength⟩ := hq.length_text
    rw [base64Padding_eq hq]
    refine ⟨by omega, by omega, by omega, (checkByte_eq_ok htext).mpr hletters, ?_, by omega⟩
    rintro ⟨hpadding, hshort⟩
    omega

/-- Web bodies come back from their text, and a text is decoded exactly when
it is made of quartets. -/
theorem web_bodies_round_trip :
    (∀ bytes, bytes.length ≤ webResponseBodyLimit → ∃ text, encodeWebBody bytes = .ok text ∧
        decodeWebBody text = .ok bytes) ∧
      ∀ s limit, decodeBase64 s limit ≠ .error .outOfBounds ∧ ∀ n,
        (base64DecodedLen s limit = .ok n ↔ n ≤ limit ∧ ∃ bytes padding unused,
          Quartets bytes (utf8 s) padding unused ∧ bytes.length = n) ∧
        (base64DecodedLen s limit = .ok n → ∃ bytes padding unused,
          Quartets bytes (utf8 s) padding unused ∧ decodeBase64 s limit = .ok bytes ∧
            bytes.length = n ∧ (unused = 0 → encodeWebBody bytes = .ok s)) := by
  have hdecodes : ∀ {s limit bytes padding unused}, Quartets bytes (utf8 s) padding unused →
      bytes.length ≤ limit → decodeBase64 s limit = .ok bytes := by
    intro s limit bytes padding unused hq hlimit
    obtain ⟨_, hchunks, hflatten⟩ := mapM_decodeQuartet hq
    rw [decodeBase64, (base64DecodedLen_eq_ok s limit _).mpr ⟨hlimit, bytes, _, _, hq, rfl⟩,
      mapError_ok, ok_bind, hchunks]
    exact congrArg Except.ok hflatten
  have hencodes : ∀ {s bytes padding}, Quartets bytes (utf8 s) padding 0 →
      encodeWebBody bytes = .ok s := by
    intro s bytes padding hq
    obtain ⟨_, hchunks, htext⟩ := hq.encodes rfl
    rw [encodeWebBody, encodeWebChunk_eq, hchunks]
    exact congrArg Except.ok (utf8_injective (by rw [← htext, utf8, String.toList_ofList]))
  refine ⟨fun bytes hlimit => ?_, fun s limit => ⟨?_, fun n =>
    ⟨base64DecodedLen_eq_ok s limit n, fun h => ?_⟩⟩⟩
  · obtain ⟨chars, _, -, hq⟩ := exists_quartets bytes
    have hutf8 : utf8 (String.ofList chars) = chars.flatMap String.utf8EncodeChar := by
      rw [utf8, String.toList_ofList]
    rw [← hutf8] at hq
    exact ⟨_, hencodes hq, hdecodes hq hlimit⟩
  · cases h : base64DecodedLen s limit with
    | error e =>
      rw [decodeBase64, h]
      intro hbounds
      cases hbounds
    | ok n =>
      obtain ⟨hlimit, _, _, _, hq, rfl⟩ := (base64DecodedLen_eq_ok s limit n).mp h
      rw [hdecodes hq hlimit]
      intro hbounds
      cases hbounds
  · obtain ⟨hlimit, bytes, _, _, hq, rfl⟩ := (base64DecodedLen_eq_ok s limit n).mp h
    exact ⟨bytes, _, _, hq, hdecodes hq hlimit, rfl, fun hunused => hencodes (hunused ▸ hq)⟩

end Tessivum.Bridge
