/-
Tessivum.Attachments.InlineImageTheorems — no index of the Base64 is out of
bounds (`decodeInlineImage_bounded`), and what adapters send is decoded.

Decoding is proved along `Quartets`, which relates bytes to their text four
letters at a time; encoding gives such a text and decoding takes it back.

Plain Base64 is decoded. A data URL never is: the prefix that the code
compares with has `;base64` twice, since `data_url_prefix` ends in it already.
-/
import Tessivum.Attachments.InlineImage

namespace Tessivum.Attachments

open Library Protocol List

variable {ε ε' α β : Type}

/-! ## No index is out of bounds -/

/-- A computation stays in bounds, and what it returns satisfies `P`. -/
def Bounded (x : Except (Halt ε) α) (P : α → Prop) : Prop :=
  x ≠ .error .outOfBounds ∧ ∀ a, x = .ok a → P a

variable {P : α → Prop} {Q : β → Prop} {x : Except (Halt ε) α} {last : Bool}

theorem Bounded.ok {a : α} (h : P a) : Bounded (.ok a : Except (Halt ε) α) P :=
  ⟨nofun, fun b heq => (by cases heq; exact h)⟩

theorem Bounded.error (e : ε) (P : α → Prop) : Bounded (.error (.error e)) P :=
  ⟨nofun, nofun⟩

variable {f : α → Except (Halt ε) β} {index slot : Nat} {xs : List α} {chunk values : Bytes}
  {v : UInt8}

theorem Bounded.bind (hx : Bounded x P) (hf : ∀ a, P a → Bounded (f a) Q) :
    Bounded (x >>= f) Q := by
  cases x with
  | ok a => exact hf a (hx.2 a rfl)
  | error halt =>
    refine ⟨fun heq => hx.1 ?_, fun b heq => ?_⟩
    · cases heq
      rfl
    · cases heq

theorem Bounded.map (hx : Bounded x P) {f : α → β} (hf : ∀ a, P a → Q (f a)) :
    Bounded (x.map f) Q := by
  cases x with
  | ok a => exact .ok (hf a (hx.2 a rfl))
  | error halt =>
    refine ⟨fun heq => hx.1 ?_, fun b heq => ?_⟩
    · cases heq
      rfl
    · cases heq

theorem Bounded.mapM : ∀ {xs : List α},
    (∀ a ∈ xs, Bounded (f a) fun _ => True) → Bounded (xs.mapM f) fun _ => True
  | [], _ => by
    rw [mapM_nil]
    exact .ok trivial
  | a :: rest, h => by
    rw [mapM_cons]
    refine (h a mem_cons_self).bind fun b _ => ?_
    have hrest := Bounded.mapM fun a' ha' => h a' (mem_cons_of_mem a ha')
    exact hrest.bind fun bs _ => .ok trivial

theorem element_bounded (h : index < xs.length) :
    Bounded (element xs index : Except (Halt ε) α) fun _ => True := by
  rw [element, getElem?_eq_getElem h]
  exact .ok trivial

theorem store_bounded (h : index < xs.length) (a : α) :
    Bounded (store xs index a : Except (Halt ε) (List α)) fun ys => ys.length = xs.length := by
  rw [store, if_pos h]
  exact .ok (length_set ..)

/-- A letter is stored in one of the four slots. -/
theorem decodeByte_bounded : ∀ {state : Nat × Bytes} (_ : state.2.length = 4) {byte : UInt8}
    {slot : Nat} (_ : slot < 4),
    Bounded (decodeByte last state (byte, slot)) fun next => next.2.length = 4 := by
  rintro ⟨padding, values⟩ hstate byte slot hslot
  have hstore : ∀ padding value, Bounded ((store values slot value : Except (Halt Unit) Bytes).map
      (padding, ·)) fun next : Nat × Bytes => next.2.length = 4 := fun padding value =>
    (store_bounded (hstate ▸ hslot) value).map fun ys h => h.trans hstate
  rw [decodeByte]
  split
  · split
    · exact .error () _
    · exact hstore _ _
  split
  · exact .error () _
  cases sextet byte with
  | none => exact .error () _
  | some value => exact hstore padding value

theorem foldlM_bounded : ∀ {slots : List (UInt8 × Nat)} {state : Nat × Bytes},
    state.2.length = 4 → (∀ s ∈ slots, s.2 < 4) →
    Bounded (slots.foldlM (decodeByte last) state) fun next => next.2.length = 4
  | [], _, hstate, _ => .ok hstate
  | (byte, slot) :: rest, _, hstate, hslots => by
    rw [foldlM_cons]
    exact (decodeByte_bounded hstate (hslots _ mem_cons_self)).bind fun next hnext =>
      foldlM_bounded hnext fun s hs => hslots s (mem_cons_of_mem _ hs)

/-- The padding is read within the chunk. -/
theorem checkPadding_bounded (h : chunk.length = 4) (padding : Nat) :
    Bounded (checkPadding chunk padding) fun _ => True := by
  have hcheck : ∀ index < 4, Bounded (element chunk index >>= fun byte =>
      if byte ≠ 61 then .error (.error ()) else .ok () : Except (Halt Unit) Unit)
      fun _ => True := fun index hindex =>
    (element_bounded (h ▸ hindex)).bind fun byte _ => by
      split
      · exact .error () _
      · exact .ok trivial
  unfold checkPadding
  split
  · exact .error () _
  split
  · exact hcheck 3 (by omega)
  split
  · exact hcheck 2 (by omega)
  · exact .ok trivial

theorem chunkOutput_bounded (h : values.length = 4) (padding : Nat) :
    Bounded (chunkOutput padding values) fun _ => True := by
  have hvalue : ∀ index < 4, Bounded (element values index : Except (Halt Unit) UInt8)
      fun _ => True := fun index hindex => element_bounded (h ▸ hindex)
  exact (hvalue 0 (by omega)).bind fun _ _ => (hvalue 1 (by omega)).bind fun _ _ =>
    (hvalue 2 (by omega)).bind fun _ _ => (hvalue 3 (by omega)).bind fun _ _ => .ok trivial

theorem decodeChunk_bounded (h : chunk.length = 4) :
    Bounded (decodeChunk last chunk) fun _ => True := by
  have hslots : ∀ s ∈ chunk.zipIdx, s.2 < 4 := fun s hs => by
    have := (mem_zipIdx hs).2.1
    omega
  exact (foldlM_bounded rfl hslots).bind fun state hvalues =>
    (checkPadding_bounded h state.1).bind fun _ _ => chunkOutput_bounded hvalues state.1

theorem chunks4_length : ∀ {bytes chunk : Bytes}, chunk ∈ chunks4 bytes → chunk.length = 4
  | a :: b :: c :: d :: rest, chunk, h => by
    rcases mem_cons.mp h with rfl | h
    · rfl
    · exact chunks4_length h
  | [], _, h | [_], _, h | [_, _], _, h | [_, _, _], _, h => by cases h

/-- No index of the decoder is out of bounds. -/
theorem decodeBase64_bounded (encoded : String) :
    Bounded (decodeBase64 encoded) fun _ => True := by
  unfold decodeBase64
  dsimp only
  split
  · exact .error () _
  · refine Bounded.map (P := fun _ => True) (Bounded.mapM fun ⟨chunk, index⟩ h => ?_)
      fun _ _ => trivial
    exact decodeChunk_bounded (chunks4_length (fst_mem_of_mem_zipIdx h))

theorem required_bounded (x : Option α) (e : ε) : Bounded (required x e) fun _ => True := by
  cases x with
  | none => exact .error e _
  | some a => exact .ok trivial

theorem Bounded.mapError (hx : Bounded x P) (f : ε → ε') : Bounded (x.mapError (.map f)) P := by
  cases x with
  | ok a => exact .ok (hx.2 a rfl)
  | error halt =>
    cases halt with
    | error e => exact .error (f e) P
    | outOfBounds => exact absurd rfl hx.1

/-- No index on the way to an input is out of bounds. -/
theorem decodeInlineImage_bounded (value : Value) :
    Bounded (decodeInlineImage value) fun _ => True := by
  refine (required_bounded _ _).bind fun object _ => ?_
  split
  · exact .error _ _
  refine (required_bounded _ _).bind fun mediaType _ => ?_
  refine (required_bounded _ _).bind fun mediaType _ => ?_
  refine (required_bounded _ _).bind fun encoded _ => ?_
  refine (required_bounded _ _).bind fun encoded _ => ?_
  exact ((decodeBase64_bounded encoded).mapError _).bind fun data _ => .ok trivial

/-! ## Encoded bytes -/

def Six (v : UInt8) : Prop := v &&& 63 = v

theorem table_letter : ∀ n < 64,
    ((table[n]?.filter (· ≠ ',')).bind fun c => match String.utf8EncodeChar c with
      | [byte] => if byte = 61 then none else sextet byte
      | _ => none) = some (UInt8.ofNat n) := by decide

theorem letter_table : ∀ n < 256, (sextet (UInt8.ofNat n)).all (fun v =>
    v &&& 63 = v ∧ table[v.toNat]?.map String.utf8EncodeChar = some [UInt8.ofNat n]) = true := by
  decide +kernel

theorem element_table (h : Six v) : ∃ c byte, c ≠ ',' ∧
    String.utf8EncodeChar c = [byte] ∧ sextet byte = some v := by
  have hlt : v.toNat < 64 := by
    rw [← h, UInt8.toNat_and]
    exact Nat.lt_succ_of_le Nat.and_le_right
  obtain ⟨c, hc, hbyte⟩ := bind_eq_some_iff.mp (table_letter v.toNat hlt)
  obtain ⟨_, hcomma⟩ := Option.filter_eq_some_iff.mp hc
  split at hbyte
  · rename_i byte hutf8
    split at hbyte
    · cases hbyte
    · refine ⟨c, byte, by simpa using hcomma, hutf8, ?_⟩
      rw [hbyte, UInt8.ofNat_toNat]
  · cases hbyte

variable {t : UInt8}

theorem letter (h : sextet t = some v) : Six v ∧ t ≠ 61 ∧ ∃ c,
    (element table v.toNat : Except (Halt Empty) Char) = .ok c ∧ String.utf8EncodeChar c = [t] := by
  have hletter := letter_table t.toNat t.toNat_lt
  rw [UInt8.ofNat_toNat, h] at hletter
  obtain ⟨hsix, hchar⟩ := of_decide_eq_true hletter
  obtain ⟨c, hc, hutf8⟩ := map_eq_some_iff.mp hchar
  refine ⟨hsix, ?_, c, by rw [element, hc], hutf8⟩
  rintro rfl
  cases h

theorem eq_of_bits {v w : UInt8}
    (h : ∀ i, i < 8 → v.toBitVec.getLsbD i = w.toBitVec.getLsbD i) : v = w :=
  UInt8.toBitVec_inj.mp (BitVec.eq_of_getLsbD_eq h)

section Bits

variable (a b c : UInt8)

theorem six_first : Six (a >>> 2) :=
  eq_of_bits fun i hi => by interval_cases i <;> simp

theorem six_second : Six ((a &&& 3) <<< 4 ||| b >>> 4) :=
  eq_of_bits fun i hi => by interval_cases i <;> simp

theorem six_third : Six ((b &&& 15) <<< 2 ||| c >>> 6) :=
  eq_of_bits fun i hi => by interval_cases i <;> simp

theorem six_fourth : Six (c &&& 63) := by
  rw [Six, UInt8.and_assoc, UInt8.and_self]

theorem first_byte : (a >>> 2) <<< 2 ||| ((a &&& 3) <<< 4 ||| b >>> 4) >>> 4 = a :=
  eq_of_bits fun i hi => by interval_cases i <;> simp

theorem second_byte :
    ((a &&& 3) <<< 4 ||| b >>> 4) <<< 4 ||| ((b &&& 15) <<< 2 ||| c >>> 6) >>> 2 = b :=
  eq_of_bits fun i hi => by interval_cases i <;> simp

theorem third_byte : ((b &&& 15) <<< 2 ||| c >>> 6) <<< 6 ||| (c &&& 63) = c :=
  eq_of_bits fun i hi => by interval_cases i <;> simp

theorem second_unused : ((a &&& 3) <<< 4 ||| (0 : UInt8) >>> 4) &&& 15 = 0 :=
  eq_of_bits fun i hi => by interval_cases i <;> simp

theorem third_unused : ((b &&& 15) <<< 2 ||| (0 : UInt8) >>> 6) &&& 3 = 0 :=
  eq_of_bits fun i hi => by interval_cases i <;> simp

variable {a b c}

theorem Six.high (h : Six a) : a.toBitVec[6] = false ∧ a.toBitVec[7] = false := by
  constructor <;> rw [← h] <;> simp

/-- The values come back from the bytes that they make. -/
theorem sextets {v0 v1 v2 v3 : UInt8} (h0 : Six v0) (h1 : Six v1) (h2 : Six v2) (h3 : Six v3) :
    (v0 <<< 2 ||| v1 >>> 4) >>> 2 = v0 ∧
      ((v0 <<< 2 ||| v1 >>> 4) &&& 3) <<< 4 ||| (v1 <<< 4 ||| v2 >>> 2) >>> 4 = v1 ∧
      ((v1 <<< 4 ||| v2 >>> 2) &&& 15) <<< 2 ||| (v2 <<< 6 ||| v3) >>> 6 = v2 ∧
      (v2 <<< 6 ||| v3) &&& 63 = v3 := by
  refine ⟨?_, ?_, ?_, ?_⟩
  all_goals
    refine eq_of_bits fun i hi => ?_
    interval_cases i <;> simp [h0.high, h1.high, h2.high, h3.high]

theorem shift_four (h : a &&& 15 = 0) : a <<< 4 = 0 := by
  have heq : a <<< 4 = (a &&& 15) <<< 4 := eq_of_bits fun i hi => by interval_cases i <;> simp
  rw [heq, h]
  rfl

theorem shift_six (h : a &&& 3 = 0) : a <<< 6 = 0 := by
  have heq : a <<< 6 = (a &&& 3) <<< 6 := eq_of_bits fun i hi => by interval_cases i <;> simp
  rw [heq, h]
  rfl

end Bits

/-- Bytes and their Base64: quartets of letters, the last one with up to two
bytes of padding. `unused` is what the last letter has in bits that stand for
nothing. -/
inductive Quartets : Bytes → Bytes → Nat → UInt8 → Prop
  | nil : Quartets [] [] 0 0
  | one {t0 t1 v0 v1 : UInt8} (h0 : sextet t0 = some v0) (h1 : sextet t1 = some v1) :
      Quartets [v0 <<< 2 ||| v1 >>> 4] [t0, t1, 61, 61] 2 (v1 &&& 15)
  | two {t0 t1 t2 v0 v1 v2 : UInt8} (h0 : sextet t0 = some v0) (h1 : sextet t1 = some v1)
      (h2 : sextet t2 = some v2) :
      Quartets [v0 <<< 2 ||| v1 >>> 4, v1 <<< 4 ||| v2 >>> 2] [t0, t1, t2, 61] 1 (v2 &&& 3)
  | cons {t0 t1 t2 t3 v0 v1 v2 v3 : UInt8} {bytes text : Bytes} {padding : Nat} {unused : UInt8}
      (h0 : sextet t0 = some v0) (h1 : sextet t1 = some v1) (h2 : sextet t2 = some v2)
      (h3 : sextet t3 = some v3) (rest : Quartets bytes text padding unused) :
      Quartets ((v0 <<< 2 ||| v1 >>> 4) :: (v1 <<< 4 ||| v2 >>> 2) :: (v2 <<< 6 ||| v3) :: bytes)
        (t0 :: t1 :: t2 :: t3 :: text) padding unused

variable {bytes text : Bytes} {padding : Nat} {unused : UInt8}

theorem utf8_pad : String.utf8EncodeChar '=' = [61] := by decide

theorem exists_quartets : ∀ bytes : Bytes, ∃ (chars : List Char) (padding : Nat),
    ',' ∉ chars ∧ Quartets bytes (chars.flatMap String.utf8EncodeChar) padding 0
  | [] => ⟨[], 0, not_mem_nil, .nil⟩
  | [a] => by
    obtain ⟨c0, _, p0, u0, h0⟩ := element_table (six_first a)
    obtain ⟨c1, _, p1, u1, h1⟩ := element_table (six_second a 0)
    have hq := Quartets.one h0 h1
    rw [first_byte, second_unused] at hq
    exact ⟨[c0, c1, '=', '='], 2, by simp [p0.symm, p1.symm], by simpa [u0, u1, utf8_pad] using hq⟩
  | [a, b] => by
    obtain ⟨c0, _, p0, u0, h0⟩ := element_table (six_first a)
    obtain ⟨c1, _, p1, u1, h1⟩ := element_table (six_second a b)
    obtain ⟨c2, _, p2, u2, h2⟩ := element_table (six_third b 0)
    have hq := Quartets.two h0 h1 h2
    rw [first_byte, second_byte, third_unused] at hq
    exact ⟨[c0, c1, c2, '='], 1, by simp [p0.symm, p1.symm, p2.symm],
      by simpa [u0, u1, u2, utf8_pad] using hq⟩
  | a :: b :: c :: rest => by
    obtain ⟨c0, _, p0, u0, h0⟩ := element_table (six_first a)
    obtain ⟨c1, _, p1, u1, h1⟩ := element_table (six_second a b)
    obtain ⟨c2, _, p2, u2, h2⟩ := element_table (six_third b c)
    obtain ⟨c3, _, p3, u3, h3⟩ := element_table (six_fourth c)
    obtain ⟨chars, padding, hplain, hrest⟩ := exists_quartets rest
    have hq := Quartets.cons h0 h1 h2 h3 hrest
    rw [first_byte, second_byte, third_byte] at hq
    exact ⟨c0 :: c1 :: c2 :: c3 :: chars, padding,
      by simp [p0.symm, p1.symm, p2.symm, p3.symm, hplain], by simpa [u0, u1, u2, u3] using hq⟩

theorem element_zero (x : α) (xs : List α) :
    (element (x :: xs) 0 : Except (Halt ε) α) = .ok x := rfl

/-- Encoding the bytes gives the text, unless its last letter has bits that
stand for nothing. -/
theorem Quartets.encodes (h : Quartets bytes text padding unused) (hunused : unused = 0) :
    ∃ chars, (chunks3 bytes).mapM encodeChunk = .ok chars ∧
      chars.flatten.flatMap String.utf8EncodeChar = text := by
  induction h with
  | nil => exact ⟨[], rfl, rfl⟩
  | one h0 h1 =>
    obtain ⟨s0, _, c0, e0, u0⟩ := letter h0
    obtain ⟨s1, _, c1, e1, u1⟩ := letter h1
    obtain ⟨hfirst, hsecond, _⟩ := sextets s0 s1 (rfl : Six 0) (rfl : Six 0)
    rw [shift_four hunused] at hsecond
    change _ ||| (0 : UInt8) >>> 4 = _ at hsecond
    refine ⟨[[c0, c1, '=', '=']], ?_, by simp [u0, u1, utf8_pad]⟩
    simp only [chunks3, mapM_cons, mapM_nil, encodeChunk, element_zero, ok_bind, pure_eq_ok,
      getElem?_cons_succ, getElem?_nil, getD_none, hfirst, hsecond, e0, e1]
  | two h0 h1 h2 =>
    obtain ⟨s0, _, c0, e0, u0⟩ := letter h0
    obtain ⟨s1, _, c1, e1, u1⟩ := letter h1
    obtain ⟨s2, _, c2, e2, u2⟩ := letter h2
    obtain ⟨hfirst, hsecond, hthird, _⟩ := sextets s0 s1 s2 (rfl : Six 0)
    rw [shift_six hunused] at hthird
    change _ ||| (0 : UInt8) >>> 6 = _ at hthird
    refine ⟨[[c0, c1, c2, '=']], ?_, by simp [u0, u1, u2, utf8_pad]⟩
    simp only [chunks3, mapM_cons, mapM_nil, encodeChunk, element_zero, ok_bind, pure_eq_ok,
      getElem?_cons_succ, getElem?_cons_zero, getElem?_nil, getD_none, getD_some, hfirst, hsecond,
      hthird, e0, e1, e2]
  | cons h0 h1 h2 h3 _ ih =>
    obtain ⟨s0, _, c0, e0, u0⟩ := letter h0
    obtain ⟨s1, _, c1, e1, u1⟩ := letter h1
    obtain ⟨s2, _, c2, e2, u2⟩ := letter h2
    obtain ⟨s3, _, c3, e3, u3⟩ := letter h3
    obtain ⟨hfirst, hsecond, hthird, hfourth⟩ := sextets s0 s1 s2 s3
    obtain ⟨chars, hchars, htext⟩ := ih hunused
    refine ⟨[c0, c1, c2, c3] :: chars, ?_, by simp [u0, u1, u2, u3, ← htext]⟩
    simp only [chunks3, mapM_cons, encodeChunk, element_zero, ok_bind, pure_eq_ok,
      getElem?_cons_succ, getElem?_cons_zero, getD_some, hfirst, hsecond, hthird, hfourth, e0, e1,
      e2, e3, hchars]

theorem Quartets.length_text (h : Quartets bytes text padding unused) :
    text.length % 4 = 0 ∧ bytes.length + padding = text.length / 4 * 3 := by
  induction h with
  | nil | one | two => simp
  | cons =>
    simp only [length_cons]
    omega

theorem decodeByte_letter {byte : UInt8} (hv : sextet byte = some v)
    (hslot : slot < values.length) :
    decodeByte last (0, values) (byte, slot) = .ok (0, values.set slot v) := by
  rw [decodeByte, if_neg (letter hv).2.1, hv]
  simp [store, hslot, Except.map]

theorem decodeByte_pad {padding : Nat} (htwo : 2 ≤ slot) (hslot : slot < values.length) :
    decodeByte true (padding, values) (61, slot) = .ok (padding + 1, values.set slot 0) := by
  simp [decodeByte, store, hslot, Except.map, Nat.not_lt.mpr htwo]

theorem decodeChunk_four {t0 t1 t2 t3 : UInt8} {s0 s1 s2 s3 : Nat × Bytes}
    (h0 : decodeByte last (0, [0, 0, 0, 0]) (t0, 0) = .ok s0)
    (h1 : decodeByte last s0 (t1, 1) = .ok s1) (h2 : decodeByte last s1 (t2, 2) = .ok s2)
    (h3 : decodeByte last s2 (t3, 3) = .ok s3) :
    decodeChunk last [t0, t1, t2, t3] =
      (checkPadding [t0, t1, t2, t3] s3.1 >>= fun _ => chunkOutput s3.1 s3.2) := by
  simp only [decodeChunk, zipIdx_cons, zipIdx_nil, foldlM_cons, foldlM_nil,
    Nat.zero_add, h0, h1, h2, h3, ok_bind, pure_eq_ok]

/-- The chunks from `index` on are decoded, the last of `total` with its
padding. -/
theorem Quartets.decodes (h : Quartets bytes text padding unused) (total : Nat) :
    ∀ index, index + text.length / 4 = total → ∃ chunks,
      ((chunks4 text).zipIdx index).mapM
        (fun (chunk, index) => decodeChunk (index + 1 == total) chunk) = .ok chunks ∧
      chunks.flatten = bytes := by
  induction h with
  | nil => exact fun _ _ => ⟨[], rfl, rfl⟩
  | one h0 h1 =>
    intro index htotal
    have hlast : (index + 1 == total) = true := beq_iff_eq.mpr (by simpa using htotal)
    refine ⟨[[_]], ?_, rfl⟩
    rw [chunks4, zipIdx_cons, mapM_cons]
    dsimp only
    rw [hlast, decodeChunk_four (decodeByte_letter h0 (by simp))
      (decodeByte_letter h1 (by simp)) (decodeByte_pad (by simp) (by simp))
      (decodeByte_pad (by simp) (by simp))]
    rfl
  | two h0 h1 h2 =>
    intro index htotal
    have hlast : (index + 1 == total) = true := beq_iff_eq.mpr (by simpa using htotal)
    refine ⟨[[_, _]], ?_, rfl⟩
    rw [chunks4, zipIdx_cons, mapM_cons]
    dsimp only
    rw [hlast, decodeChunk_four (decodeByte_letter h0 (by simp))
      (decodeByte_letter h1 (by simp)) (decodeByte_letter h2 (by simp))
      (decodeByte_pad (by simp) (by simp))]
    rfl
  | cons h0 h1 h2 h3 _ ih =>
    intro index htotal
    simp only [length_cons] at htotal
    obtain ⟨chunks, hdecodes, hflatten⟩ := ih (index + 1) (by omega)
    refine ⟨[_, _, _] :: chunks, ?_, by rw [← hflatten]; rfl⟩
    rw [chunks4, zipIdx_cons, mapM_cons]
    dsimp only
    rw [decodeChunk_four (decodeByte_letter h0 (by simp)) (decodeByte_letter h1 (by simp))
      (decodeByte_letter h2 (by simp)) (decodeByte_letter h3 (by simp)), hdecodes]
    rfl

theorem decodeBase64_base64Encode {bytes : Bytes} (h : bytes ≠ []) : ∃ text,
    base64Encode bytes = .ok text ∧ ',' ∉ text.toList ∧ decodeBase64 text = .ok bytes := by
  obtain ⟨chars, padding, hplain, hq⟩ := exists_quartets bytes
  obtain ⟨chunks, hencodes, htext⟩ := hq.encodes rfl
  obtain ⟨hmod, hlength⟩ := hq.length_text
  obtain ⟨decoded, hdecodes, hbytes⟩ := hq.decodes _ 0 (Nat.zero_add _)
  have hutf8 : utf8 (String.ofList chars) = chars.flatMap String.utf8EncodeChar := by
    rw [utf8, String.toList_ofList]
  have hsame : String.ofList chunks.flatten = String.ofList chars :=
    utf8_injective (by rw [hutf8, ← htext, utf8, String.toList_ofList])
  have hpos := length_pos_iff.mpr h
  refine ⟨String.ofList chars, by rw [base64Encode, hencodes, ← hsame]; rfl,
    by rwa [String.toList_ofList], ?_⟩
  rw [decodeBase64]
  dsimp only
  rw [hutf8, if_neg, hdecodes]
  · exact congrArg Except.ok hbytes
  · rintro (hnil | hmod')
    · rw [hnil, length_nil] at hlength
      omega
    · exact hmod' hmod

/-! ## Inline images -/

/-- The two ways to write the Base64 of an image. -/
inductive Spelling where
  | plain
  | dataUrl
  deriving DecidableEq, Repr

/-- The `data` field of an image. -/
def Spelling.data (spelling : Spelling) (mediaType : ImageMediaType) (text : String) : String :=
  match spelling with
  | .plain => text
  | .dataUrl => mediaType.dataUrlPrefix ++ text

def inlineImage (mediaType : ImageMediaType) (data : String) : Value :=
  .object [("data", .string data), ("mediaType", .string mediaType.asStr)]

theorem encodedPart_plain (mediaType : ImageMediaType) {text : String} (h : ',' ∉ text.toList) :
    encodedPart mediaType text = some text := by
  have hall : ∀ c ∈ text.toList, decide (c ≠ ',') = true := fun c hc =>
    decide_eq_true fun heq => h (heq ▸ hc)
  rw [encodedPart, dropWhile_eq_nil_iff.mpr hall]

theorem encodedPart_dataUrl (mediaType other : ImageMediaType) (text : String) :
    encodedPart mediaType (other.dataUrlPrefix ++ text) = none := by
  rw [encodedPart, String.toList_append]
  cases other <;> cases mediaType <;> simp [ImageMediaType.dataUrlPrefix]

theorem decodeInlineImage_inlineImage (mediaType : ImageMediaType) (data : String) :
    decodeInlineImage (inlineImage mediaType data) =
      (required (encodedPart mediaType data) .invalidReference >>= fun encoded =>
        (decodeBase64 encoded).mapError (.map fun _ => .invalidImage) >>= fun bytes =>
          .ok ⟨bytes, none⟩) := by
  cases mediaType <;> rfl

/-- For every image and both spellings, the bytes come back exactly from the
plain Base64. -/
theorem inline_images_decode_plain (mediaType : ImageMediaType) {bytes : Bytes}
    (h : bytes ≠ []) :
    (∃ text, base64Encode bytes = .ok text ∧ ∀ spelling : Spelling,
        decodeInlineImage (inlineImage mediaType (spelling.data mediaType text)) =
          .ok ⟨bytes, none⟩ ↔ spelling = .plain) ∧
      (∀ value, decodeInlineImage value ≠ .error .outOfBounds) ∧
      ∀ other, other ≠ mediaType → ∀ text, decodeInlineImage
        (inlineImage mediaType (Spelling.dataUrl.data other text)) =
          .error (.error .invalidReference) := by
  obtain ⟨text, hencodes, hplain, hdecodes⟩ := decodeBase64_base64Encode h
  have hurl : ∀ other text, decodeInlineImage
      (inlineImage mediaType (Spelling.dataUrl.data other text)) =
        .error (.error .invalidReference) := fun other text => by
    rw [decodeInlineImage_inlineImage, Spelling.data, encodedPart_dataUrl]
    rfl
  refine ⟨⟨text, hencodes, fun spelling => ?_⟩,
    fun value => (decodeInlineImage_bounded value).1, fun other _ text => hurl other text⟩
  cases spelling with
  | plain =>
    rw [decodeInlineImage_inlineImage, Spelling.data, encodedPart_plain mediaType hplain, required,
      ok_bind, hdecodes]
    exact iff_of_true rfl rfl
  | dataUrl =>
    rw [hurl]
    exact iff_of_false nofun nofun

/-- The byte 77 as PNG. -/
theorem inline_images_decode_plain_png :
    decodeInlineImage (inlineImage .png "TQ==") = .ok ⟨[77], none⟩ := by
  obtain ⟨⟨text, hencodes, hspelling⟩, _, _⟩ :=
    inline_images_decode_plain .png (cons_ne_nil (77 : UInt8) [])
  obtain rfl : text = "TQ==" := by
    have htext : base64Encode [77] = .ok "TQ==" := by decide
    rw [htext] at hencodes
    cases hencodes
    rfl
  exact (hspelling .plain).mpr rfl

/-- The data URL of one byte is refused. -/
theorem png_data_url_refused :
    base64Encode [77] = .ok "TQ==" ∧
      decodeInlineImage (inlineImage .png ("data:image/png;base64," ++ "TQ==")) =
        .error (.error .invalidReference) := by
  decide

end Tessivum.Attachments
