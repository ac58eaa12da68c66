/-
Tessivum.Library.Bytes — byte strings: big-endian words, hexadecimal
digits, UTF-8, lines and JSON text.

`be32` and `beWord` are `u32::to_be_bytes` and `u32::from_be_bytes`, with
their round trip. `hexDigits` writes a byte as two lowercase digits;
writing a string's UTF-8 bytes this way is injective
(`hexUtf8_injective`), so hexadecimal names never collide. `jsonString` and
its neighbours write compact JSON, as `serde_json` does. `ByteText` cuts
texts at byte offsets.

The module names nothing of the repository.
-/
import Mathlib

namespace Tessivum.Library

/-- A byte string. -/
abbrev Bytes : Type := List UInt8

/-! ## Big-endian words -/

/-- The four bytes of a word, most significant first. -/
def be32 (n : Nat) : Bytes :=
  [UInt8.ofNat (n / 2 ^ 24), UInt8.ofNat (n / 2 ^ 16), UInt8.ofNat (n / 2 ^ 8), UInt8.ofNat n]

/-- The word of the first four bytes, most significant first. -/
def beWord : Bytes → Nat
  | a :: b :: c :: d :: _ => a.toNat * 2 ^ 24 + b.toNat * 2 ^ 16 + c.toNat * 2 ^ 8 + d.toNat
  | _ => 0

@[simp] theorem be32_length (n : Nat) : (be32 n).length = 4 := rfl

theorem beWord_be32 {n : Nat} (h : n < 2 ^ 32) (rest : Bytes) : beWord (be32 n ++ rest) = n := by
  simp only [be32, List.cons_append, beWord, UInt8.toNat_ofNat']
  omega

/-- Only the first four bytes count. -/
theorem beWord_take (bytes : Bytes) {k : Nat} (h : 4 ≤ k) : beWord (bytes.take k) = beWord bytes := by
  obtain ⟨k, rfl⟩ := Nat.exists_eq_add_of_le' h
  match bytes with
  | [] | [_] | [_, _] | [_, _, _] | _ :: _ :: _ :: _ :: _ => rfl

/-! ## Hexadecimal -/

/-- One lowercase hexadecimal digit. -/
def hexDigit (n : Nat) : Char :=
  if n < 10 then Char.ofNat (48 + n) else Char.ofNat (87 + n)

/-- A byte as two lowercase hexadecimal digits. -/
def hexDigits (b : UInt8) : List Char := [hexDigit (b.toNat / 16), hexDigit (b.toNat % 16)]

theorem hexDigit_injective : ∀ m < 16, ∀ n < 16, hexDigit m = hexDigit n → m = n := by decide

theorem hexDigits_injective {a b : UInt8} (h : hexDigits a = hexDigits b) : a = b := by
  have ha := a.toNat_lt
  have hb := b.toNat_lt
  simp only [hexDigits, List.cons.injEq, and_true] at h
  have hhigh := hexDigit_injective _ (by omega) _ (by omega) h.1
  have hlow := hexDigit_injective _ (by omega) _ (by omega) h.2
  apply UInt8.toNat_inj.mp
  omega

theorem hexBytes_injective : ∀ {xs ys : Bytes},
    xs.flatMap hexDigits = ys.flatMap hexDigits → xs = ys
  | [], [], _ => rfl
  | [], y :: ys, h | x :: xs, [], h => by simp [hexDigits] at h
  | x :: xs, y :: ys, h => by
    rw [List.flatMap_cons, List.flatMap_cons] at h
    obtain ⟨hx, hrest⟩ := List.append_inj h rfl
    rw [hexDigits_injective hx, hexBytes_injective hrest]

/-- The last `width` hexadecimal digits of a number. -/
def hexNat : Nat → Nat → List Char
  | 0, _ => []
  | width + 1, n => hexNat width (n / 16) ++ [hexDigit (n % 16)]

@[simp] theorem hexNat_length (width n : Nat) : (hexNat width n).length = width := by
  induction width generalizing n with
  | zero => rfl
  | succ width ih => simp [hexNat, ih]

/-- A hash of 32 bytes. -/
abbrev Digest : Type := { bytes : Bytes // bytes.length = 32 }

/-! ## UTF-8 -/

/-- The UTF-8 bytes of a string. -/
def utf8 (s : String) : Bytes := s.toList.flatMap String.utf8EncodeChar

variable {s t : String}

theorem utf8_injective (h : utf8 s = utf8 t) : s = t := by
  have hbytes : s.toByteArray = t.toByteArray := by
    rw [← String.utf8Encode_toList, ← String.utf8Encode_toList]
    exact congrArg List.toByteArray h
  exact String.toByteArray_inj.mp hbytes

/-- The hexadecimal text of a string's UTF-8 bytes. -/
def hexUtf8 (s : String) : List Char := (utf8 s).flatMap hexDigits

theorem hexUtf8_injective (h : hexUtf8 s = hexUtf8 t) : s = t :=
  utf8_injective (hexBytes_injective h)

/-! ## Lines -/

/-- The lines of a text, each with the newline behind it. -/
def splitInclusive : List Char → List (List Char)
  | [] => []
  | c :: rest =>
    if c = '\n' then [c] :: splitInclusive rest
    else
      match splitInclusive rest with
      | [] => [[c]]
      | line :: lines => (c :: line) :: lines

def stripSuffix (c : Char) (line : List Char) : Option (List Char) :=
  if line.getLast? = some c then some line.dropLast else none

/-- The lines of a text without the `\n` or `\r\n` behind them, as Rust's `str::lines`. -/
def lines (text : List Char) : List (List Char) :=
  (splitInclusive text).map fun line =>
    match stripSuffix '\n' line with
    | none => line
    | some line => (stripSuffix '\r' line).getD line

/-! ## JSON text -/

/-- One character inside a string, escaped. -/
def jsonChar (c : Char) : List Char :=
  if c = '"' then ['\\', '"']
  else if c = '\\' then ['\\', '\\']
  else if c.toNat = 8 then ['\\', 'b']
  else if c.toNat = 9 then ['\\', 't']
  else if c.toNat = 10 then ['\\', 'n']
  else if c.toNat = 12 then ['\\', 'f']
  else if c.toNat = 13 then ['\\', 'r']
  else if c.toNat < 0x20 then ['\\', 'u', '0', '0'] ++ hexNat 2 c.toNat
  else [c]

def jsonString (cs : List Char) : List Char := '"' :: (cs.flatMap jsonChar ++ ['"'])

def jsonNumber (n : Nat) : List Char := Nat.toDigits 10 n

def jsonOption : Option Nat → List Char
  | none => "null".toList
  | some n => jsonNumber n

/-- A field of an object, after an opening brace or a comma. -/
def jsonField (before : Char) (key : String) (value : List Char) : List Char :=
  before :: '"' :: (key.toList ++ '"' :: ':' :: value)

/-! # Texts of characters, cut at byte offsets

A text whose characters take one to four bytes is cut at an offset counted in
bytes. Between two characters the cut gives the characters on either side
(`dropBytes_size`, `takeBytes_size`); inside a character, or behind the text,
there is nothing to give, and a program that slices there panics (`none`). -/

namespace ByteText

/-- The bytes of a text. -/
def size : List Char → Nat
  | [] => 0
  | c :: rest => c.utf8Size + size rest

@[simp] theorem size_nil : size [] = 0 := rfl

@[simp] theorem size_cons (c : Char) (rest : List Char) :
    size (c :: rest) = c.utf8Size + size rest := rfl

@[simp] theorem size_append (front rest : List Char) :
    size (front ++ rest) = size front + size rest := by
  induction front with
  | nil => simp
  | cons c front ih => simp [ih, Nat.add_assoc]

/-- The text from an offset on. -/
def dropBytes : Nat → List Char → Option (List Char)
  | 0, text => some text
  | _ + 1, [] => none
  | offset + 1, c :: rest =>
    if c.utf8Size ≤ offset + 1 then dropBytes (offset + 1 - c.utf8Size) rest else none

/-- The text up to an offset. -/
def takeBytes : Nat → List Char → Option (List Char)
  | 0, _ => some []
  | _ + 1, [] => none
  | offset + 1, c :: rest =>
    if c.utf8Size ≤ offset + 1 then
      (takeBytes (offset + 1 - c.utf8Size) rest).map fun front => c :: front
    else none

/-- The text between two offsets. -/
def slice (start stop : Nat) (text : List Char) : Option (List Char) :=
  if start ≤ stop then (dropBytes start text).bind (takeBytes (stop - start)) else none

theorem dropBytes_cons (c : Char) (rest : List Char) (offset : Nat) :
    dropBytes (c.utf8Size + offset) (c :: rest) = dropBytes offset rest := by
  obtain ⟨n, hn⟩ : ∃ n, c.utf8Size + offset = n + 1 :=
    ⟨c.utf8Size + offset - 1, by have := c.utf8Size_pos; omega⟩
  rw [hn, dropBytes, if_pos (by omega), show n + 1 - c.utf8Size = offset by omega]

theorem takeBytes_cons (c : Char) (rest : List Char) (offset : Nat) :
    takeBytes (c.utf8Size + offset) (c :: rest)
      = (takeBytes offset rest).map fun front => c :: front := by
  obtain ⟨n, hn⟩ : ∃ n, c.utf8Size + offset = n + 1 :=
    ⟨c.utf8Size + offset - 1, by have := c.utf8Size_pos; omega⟩
  rw [hn, takeBytes, if_pos (by omega), show n + 1 - c.utf8Size = offset by omega]

/-- A cut behind some characters gives those after them. -/
theorem dropBytes_size (front rest : List Char) :
    dropBytes (size front) (front ++ rest) = some rest := by
  induction front with
  | nil => cases rest <;> rfl
  | cons c front ih => rw [size_cons, List.cons_append, dropBytes_cons, ih]

/-- A cut behind some characters gives them. -/
theorem takeBytes_size (front rest : List Char) :
    takeBytes (size front) (front ++ rest) = some front := by
  induction front with
  | nil => cases rest <;> rfl
  | cons c front ih => rw [size_cons, List.cons_append, takeBytes_cons, ih, Option.map_some]

/-- The slice between two characters. -/
theorem slice_size (front middle rest : List Char) :
    slice (size front) (size front + size middle) (front ++ (middle ++ rest)) = some middle := by
  rw [slice, if_pos (Nat.le_add_right _ _), dropBytes_size, Option.bind_some,
    Nat.add_sub_cancel_left, takeBytes_size]

end ByteText

end Tessivum.Library
