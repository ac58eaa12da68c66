/-
Tessivum.Library.Decimal — numbers written with a fixed count of decimal
digits, and read back.

`padded` writes a number as `{:04}` and the like do: with leading zeros up
to a width, and in full when it is wider. `readDigits` reads digits the way
a fold over bytes does, and refuses any other character.
`readDigits_padded` is the round trip, and `padded_lt` says that numbers of one
width are ordered as their texts are.

The module names nothing of the repository.
-/
import Mathlib

namespace Tessivum.Library

open List

/-- A number padded with zeros to a width. -/
def padded (width n : Nat) : List Char :=
  List.replicate (width - (Nat.toDigits 10 n).length) '0' ++ Nat.toDigits 10 n

/-- The number a list of decimal digits spells, after the digits in
`acc`. -/
def readDigitsFrom (acc : Nat) : List Char → Option Nat
  | [] => some acc
  | c :: rest =>
    if c.isDigit then readDigitsFrom (acc * 10 + (c.toNat - '0'.toNat)) rest else none

/-- The number a list of decimal digits spells. -/
def readDigits (cs : List Char) : Option Nat := readDigitsFrom 0 cs

variable {n width : Nat} {cs : List Char}

theorem isDigit_of_mem_padded {c : Char} (h : c ∈ padded width n) : c.isDigit = true := by
  rcases mem_append.mp h with h | h
  · rw [eq_of_mem_replicate h]
    rfl
  · exact Nat.isDigit_of_mem_toDigits (by decide) (by decide) h

theorem length_padded (hw : 0 < width) (h : n < 10 ^ width) : (padded width n).length = width := by
  have hle : (Nat.toDigits 10 n).length ≤ width :=
    (Nat.length_toDigits_le_iff (by decide) hw).mpr h
  simp only [padded, length_append, length_replicate]
  omega

/-- On digits alone the reader is the fold of the core library. -/
theorem readDigitsFrom_eq : ∀ {cs : List Char} (acc : Nat), (∀ c ∈ cs, c.isDigit = true) →
    readDigitsFrom acc cs = some (Nat.ofDigitChars 10 cs acc)
  | [], acc, _ => by simp [readDigitsFrom]
  | c :: rest, acc, h => by
    rw [readDigitsFrom, if_pos (h c mem_cons_self),
      readDigitsFrom_eq _ fun d hd => h d (mem_cons_of_mem c hd), Nat.ofDigitChars_cons,
      Nat.mul_comm]

/-- A padded number reads back. -/
theorem readDigits_padded (width n : Nat) : readDigits (padded width n) = some n := by
  rw [readDigits, readDigitsFrom_eq 0 fun _ hc => isDigit_of_mem_padded hc, padded,
    Nat.ofDigitChars_append, Nat.ofDigitChars_replicate_zero, Nat.mul_zero,
    Nat.ofDigitChars_ten_toDigits]

/-! ## Order -/

/-- After digits of the same count, the larger number stays larger. -/
theorem readDigitsFrom_lt : ∀ {xs ys : List Char} {acc acc' a b : Nat}, xs.length = ys.length →
    acc < acc' → readDigitsFrom acc xs = some a → readDigitsFrom acc' ys = some b → a < b
  | [], [], _, _, _, _, _, hacc, ha, hb => by
    cases ha
    cases hb
    exact hacc
  | x :: xs, y :: ys, acc, acc', a, b, hlen, hacc, ha, hb => by
    rw [readDigitsFrom] at ha hb
    split at ha
    next hx =>
      split at hb
      next hy =>
        have hx9 : x.toNat ≤ 57 := by
          simp only [Char.isDigit, Bool.and_eq_true, decide_eq_true_eq] at hx
          exact hx.2
        refine readDigitsFrom_lt (Nat.succ_injective hlen) ?_ ha hb
        have hzero : '0'.toNat = 48 := rfl
        omega
      next => cases hb
    next => cases ha
  | [], _ :: _, _, _, _, _, hlen, _, _, _ => by cases hlen
  | _ :: _, [], _, _, _, _, hlen, _, _, _ => by cases hlen

/-- Of two numbers written with the same count of digits, the text of the
smaller one comes first. -/
theorem lt_of_readDigitsFrom_lt : ∀ {xs ys : List Char} {acc a b : Nat}, xs.length = ys.length →
    readDigitsFrom acc xs = some a → readDigitsFrom acc ys = some b → a < b → xs < ys
  | [], [], _, _, _, _, ha, hb, hlt => by
    rw [ha] at hb
    cases hb
    exact absurd hlt (lt_irrefl _)
  | x :: xs, y :: ys, acc, a, b, hlen, ha, hb, hlt => by
    rw [cons_lt_cons_iff]
    have hlen' := Nat.succ_injective hlen
    rw [readDigitsFrom] at ha hb
    split at ha
    next hx =>
      split at hb
      next hy =>
        rcases lt_trichotomy x y with hxy | rfl | hyx
        · exact .inl hxy
        · exact .inr ⟨rfl, lt_of_readDigitsFrom_lt hlen' ha hb hlt⟩
        · have hy48 : 48 ≤ y.toNat := by
            simp only [Char.isDigit, Bool.and_eq_true, decide_eq_true_eq] at hy
            exact hy.1
          have hgt : y.toNat < x.toNat := hyx
          have hzero : '0'.toNat = 48 := rfl
          exact absurd (readDigitsFrom_lt hlen'.symm (by omega) hb ha) (Nat.lt_asymm hlt)
      next => cases hb
    next => cases ha
  | [], _ :: _, _, _, _, hlen, _, _, _ => by cases hlen
  | _ :: _, [], _, _, _, hlen, _, _, _ => by cases hlen

/-- Of one count of digits, a number has one text. -/
theorem eq_of_readDigitsFrom_eq : ∀ {xs ys : List Char} {acc a : Nat}, xs.length = ys.length →
    readDigitsFrom acc xs = some a → readDigitsFrom acc ys = some a → xs = ys
  | [], [], _, _, _, _, _ => rfl
  | x :: xs, y :: ys, acc, a, hlen, ha, hb => by
    have hlen' := Nat.succ_injective hlen
    rw [readDigitsFrom] at ha hb
    split at ha
    next hx =>
      split at hb
      next hy =>
        simp only [Char.isDigit, Bool.and_eq_true, decide_eq_true_eq] at hx hy
        have hx48 : 48 ≤ x.toNat := hx.1
        have hy48 : 48 ≤ y.toNat := hy.1
        have hzero : '0'.toNat = 48 := rfl
        rcases lt_trichotomy x y with hxy | rfl | hyx
        · have hlt : x.toNat < y.toNat := hxy
          exact absurd (readDigitsFrom_lt hlen' (by omega) ha hb) (lt_irrefl _)
        · rw [eq_of_readDigitsFrom_eq hlen' ha hb]
        · have hgt : y.toNat < x.toNat := hyx
          exact absurd (readDigitsFrom_lt hlen'.symm (by omega) hb ha) (lt_irrefl _)
      next => cases hb
    next => cases ha
  | [], _ :: _, _, _, hlen, _, _ => by cases hlen
  | _ :: _, [], _, _, hlen, _, _ => by cases hlen

/-- Digits are those of the number they spell. -/
theorem eq_padded (hne : cs ≠ []) (h : readDigits cs = some n) (hn : n < 10 ^ cs.length) :
    cs = padded cs.length n :=
  eq_of_readDigitsFrom_eq (length_padded (length_pos_iff.mpr hne) hn).symm h
    (readDigits_padded _ n)

/-- What digits spell after a number is bounded by their count. -/
theorem readDigitsFrom_bound : ∀ {cs : List Char} {acc n : Nat}, readDigitsFrom acc cs = some n →
    n < (acc + 1) * 10 ^ cs.length
  | [], acc, n, h => by
    cases h
    simp
  | c :: rest, acc, n, h => by
    rw [readDigitsFrom] at h
    split at h
    next hc =>
      simp only [Char.isDigit, Bool.and_eq_true, decide_eq_true_eq] at hc
      have hc57 : c.toNat ≤ 57 := hc.2
      have hzero : '0'.toNat = 48 := rfl
      have hih := readDigitsFrom_bound h
      calc n < (acc * 10 + (c.toNat - '0'.toNat) + 1) * 10 ^ rest.length := hih
        _ ≤ (acc + 1) * 10 * 10 ^ rest.length := Nat.mul_le_mul_right _ (by omega)
        _ = (acc + 1) * 10 ^ (c :: rest).length := by
          rw [length_cons, Nat.pow_succ', Nat.mul_assoc]
    next => cases h

theorem readDigits_bound (h : readDigits cs = some n) : n < 10 ^ cs.length := by
  have hbound := readDigitsFrom_bound h
  omega

/-- Padded numbers stand in their order. -/
theorem padded_lt {a b : Nat} (hw : 0 < width) (hb : b < 10 ^ width) (h : a < b) :
    padded width a < padded width b := by
  have hlen : (padded width a).length = (padded width b).length := by
    rw [length_padded hw (h.trans hb), length_padded hw hb]
  exact lt_of_readDigitsFrom_lt hlen (readDigits_padded width a) (readDigits_padded width b) h

/-- A text that comes first does so whatever follows, if both are as long. -/
theorem append_lt_append : ∀ {xs ys : List Char}, xs.length = ys.length → xs < ys →
    ∀ s t : List Char, xs ++ s < ys ++ t
  | [], [], _, h, _, _ => absurd h (not_lt_nil [])
  | x :: xs, y :: ys, hlen, h, s, t => by
    rw [cons_lt_cons_iff] at h
    rw [cons_append, cons_append, cons_lt_cons_iff]
    exact h.imp_right fun ⟨hxy, hrest⟩ =>
      ⟨hxy, append_lt_append (Nat.succ_injective hlen) hrest s t⟩
  | [], _ :: _, hlen, _, _, _ => by cases hlen
  | _ :: _, [], hlen, _, _, _ => by cases hlen

end Tessivum.Library
