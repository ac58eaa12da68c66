/-
Tessivum.Library.Positions — the elements between two positions of a list, and
the positions of those a filter keeps.

The module names nothing of the repository.
-/
import Mathlib

namespace Tessivum.Library

/-! # Stretches of a list

`stretch xs a b` has the elements at the positions from `a` up to `b`. A
reader of a growing list that has gone from `a` to `b` has read it: an
element more extends it at the end, what is appended later leaves it
alone, and two stretches that meet are one. -/

section

open List

/-- The elements at the positions from `a` up to `b`. -/
def stretch {α : Type} (xs : List α) (a b : Nat) : List α := (xs.take b).drop a

variable {α : Type} {a b i : Nat} {x : α} {xs : List α}

@[simp] theorem stretch_self (xs : List α) (a : Nat) : stretch xs a a = [] := by
  rw [stretch, drop_eq_nil_of_le (length_take_le _ _)]

theorem stretch_succ (hle : a ≤ b) (hget : xs[b]? = some x) :
    stretch xs a (b + 1) = stretch xs a b ++ [x] := by
  obtain ⟨hlt, rfl⟩ := List.getElem?_eq_some_iff.mp hget
  have hlen : a ≤ (xs.take b).length := by
    rw [length_take]
    omega
  rw [stretch, take_add_one, List.getElem?_eq_getElem hlt, Option.toList_some,
    drop_append_of_le_length hlen, stretch]

theorem mem_stretch (hget : xs[i]? = some x) (hge : a ≤ i) (hlt : i < b) : x ∈ stretch xs a b := by
  refine mem_of_getElem? (i := i - a) ?_
  rw [stretch, getElem?_drop, Nat.add_sub_cancel' hge, getElem?_take_of_lt hlt]
  exact hget

theorem length_stretch (hb : b ≤ xs.length) : (stretch xs a b).length = b - a := by
  rw [stretch, length_drop, length_take]
  omega

theorem getElem?_stretch (xs : List α) (h : a + i < b) : (stretch xs a b)[i]? = xs[a + i]? := by
  rw [stretch, getElem?_drop, getElem?_take_of_lt h]

theorem exists_of_mem_stretch (h : x ∈ stretch xs a b) : ∃ i, a ≤ i ∧ i < b ∧ xs[i]? = some x := by
  obtain ⟨i, hi⟩ := mem_iff_getElem?.mp h
  have hlt := (List.getElem?_eq_some_iff.mp hi).1
  rw [stretch, length_drop, length_take] at hlt
  rw [getElem?_stretch xs (by omega)] at hi
  exact ⟨a + i, by omega, by omega, hi⟩

theorem stretch_append_stretch {c : Nat} (hab : a ≤ b) (hbc : b ≤ c) :
    stretch xs a b ++ stretch xs b c = stretch xs a c := by
  have htake : xs.take b = (xs.take c).take b := by
    rw [take_take, Nat.min_eq_left hbc]
  rw [stretch, stretch, stretch, htake]
  by_cases hlen : a ≤ ((xs.take c).take b).length
  · rw [← drop_append_of_le_length hlen, take_append_drop]
  · -- Past the end of the list there is nothing.
    rw [length_take, length_take] at hlen
    rw [drop_eq_nil_of_le (by rw [length_take, length_take]; omega),
      drop_eq_nil_of_le (by rw [length_take]; omega),
      drop_eq_nil_of_le (by rw [length_take]; omega)]
    rfl

theorem take_append_stretch (h : a ≤ b) : xs.take a ++ stretch xs a b = xs.take b := by
  have hjoin : stretch xs 0 a ++ stretch xs a b = stretch xs 0 b :=
    stretch_append_stretch (Nat.zero_le a) h
  rwa [stretch.eq_1 xs 0 a, stretch.eq_1 xs 0 b, drop_zero, drop_zero] at hjoin

theorem stretch_map {β : Type} (f : α → β) (xs : List α) (a b : Nat) :
    stretch (xs.map f) a b = (stretch xs a b).map f := by
  rw [stretch, stretch, map_drop, map_take]

theorem split_stretch (xs : List α) (h : a ≤ b) :
    xs.take a ++ stretch xs a b ++ xs.drop b = xs := by
  rw [take_append_stretch h, take_append_drop]

end

/-! # Where the elements a filter keeps come to stand

`rank p xs k` counts the kept elements among the first `k`. It is the
position a kept element has in the filtered list (`getElem?_filter_rank`),
so numbers that follow it name the elements of the filtered list as the
old positions name those of the list. It rises with `k`, and strictly
past a kept element. -/

section

open List

variable {α : Type}

/-- How many of the first elements are kept. -/
def rank (p : α → Bool) (xs : List α) (k : Nat) : Nat := (xs.take k).countP p

variable {p : α → Bool} {xs ys : List α} {j k : Nat} {x : α}

theorem rank_le (p : α → Bool) (xs : List α) (k : Nat) : rank p xs k ≤ k :=
  Nat.le_trans countP_le_length (length_take_le k xs)

theorem rank_length (p : α → Bool) (xs : List α) :
    rank p xs xs.length = (xs.filter p).length := by
  rw [rank, take_length, countP_eq_length_filter]

/-- What comes later does not matter. -/
theorem rank_append (h : k ≤ xs.length) : rank p (xs ++ ys) k = rank p xs k := by
  rw [rank, take_append_of_le_length h, rank]

theorem rank_succ (hx : xs[k]? = some x) :
    rank p xs (k + 1) = rank p xs k + if p x then 1 else 0 := by
  rw [rank, take_add_one, hx, Option.toList_some, countP_append,
    countP_singleton, rank]

theorem rank_mono (h : j ≤ k) : rank p xs j ≤ rank p xs k := by
  have htake : xs.take j = (xs.take k).take j := by
    rw [take_take, Nat.min_eq_left h]
  rw [rank, htake]
  exact List.Sublist.countP_le (take_sublist j (xs.take k))

/-- Past a kept element the rank is higher. -/
theorem rank_lt (hx : xs[j]? = some x) (hp : p x = true) (h : j < k) :
    rank p xs j < rank p xs k := by
  have hsucc : rank p xs (j + 1) = rank p xs j + 1 := by
    rw [rank_succ hx, if_pos hp]
  have hmono : rank p xs (j + 1) ≤ rank p xs k := rank_mono h
  omega

/-- A kept element stands at its rank in the filtered list. -/
theorem getElem?_filter_rank (hx : xs[k]? = some x) (hp : p x = true) :
    (xs.filter p)[rank p xs k]? = some x := by
  obtain ⟨_, rfl⟩ := List.getElem?_eq_some_iff.mp hx
  have hsplit : xs = xs.take k ++ xs[k] :: xs.drop (k + 1) := by
    rw [getElem_cons_drop, take_append_drop]
  have hrank : rank p xs k = ((xs.take k).filter p).length := by
    rw [rank, countP_eq_length_filter]
  have hfilter : xs.filter p
      = (xs.take k).filter p ++ xs[k] :: (xs.drop (k + 1)).filter p := by
    conv_lhs => rw [hsplit]
    rw [filter_append, filter_cons_of_pos hp]
  rw [hfilter, hrank, getElem?_append_right (Nat.le_refl _), Nat.sub_self]
  rfl

end

end Tessivum.Library
