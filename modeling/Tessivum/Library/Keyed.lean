/-
Tessivum.Library.Keyed — lists of pairs as maps: at most one pair a key.

A map of the source that is counted, or walked, is a list of pairs whose
keys are distinct (`Distinct`). A key is looked up with `List.lookup`, put
in by an append when it is not there, and taken out with `without`. What is
taken out is one pair (`perm_cons_without`), so counts change by that pair
(`countP_without`). `OrderedMap` keeps the pairs in the order of their keys.

The module names nothing of the repository.
-/
import Mathlib

namespace Tessivum.Library

namespace Keyed

open List

variable {κ α : Type}

/-- No two pairs share a key. -/
def Distinct (xs : List (κ × α)) : Prop := (xs.map Prod.fst).Nodup

variable {key : κ} {xs : List (κ × α)} {value b : α} {i : Nat}

theorem Distinct.append (h : Distinct xs) (value : α) (hnew : key ∉ xs.map Prod.fst) :
    Distinct (xs ++ [(key, value)]) := by
  rw [Distinct, map_append, map_singleton, nodup_append]
  refine ⟨h, nodup_singleton _, fun a ha b hb heq => hnew ?_⟩
  have hb : b = key := mem_singleton.mp hb
  rw [← hb, ← heq]
  exact ha

theorem mem_of_lookup [BEq κ] [LawfulBEq κ] : ∀ {xs : List (κ × α)},
    xs.lookup key = some value → (key, value) ∈ xs
  | [], h => by cases h
  | (k, v) :: rest, h => by
    rw [lookup_cons] at h
    split at h
    · rename_i heq
      cases h
      rw [beq_iff_eq] at heq
      exact heq ▸ mem_cons_self
    · exact mem_cons_of_mem _ (mem_of_lookup h)

theorem lookup_eq_none [BEq κ] [LawfulBEq κ] : xs.lookup key = none ↔ key ∉ xs.map Prod.fst := by
  rw [lookup_eq_none_iff, mem_map]
  constructor
  · rintro h ⟨x, hx, rfl⟩
    simpa using h x hx
  · intro h x hx
    rw [bne_iff_ne]
    exact fun heq => h ⟨x, hx, heq.symm⟩

theorem lookup_of_mem [BEq κ] [LawfulBEq κ] (hd : Distinct xs) (h : (key, value) ∈ xs) :
    xs.lookup key = some value := by
  induction xs with
  | nil => cases h
  | cons x rest ih =>
    obtain ⟨hnotin, hrest⟩ := nodup_cons.mp hd
    rw [lookup_cons]
    rcases mem_cons.mp h with rfl | h
    · rw [beq_self_eq_true]
    · have hne : key ≠ x.1 := fun heq =>
        hnotin (heq ▸ mem_map_of_mem (f := Prod.fst) h)
      rw [beq_eq_false_iff_ne.mpr hne]
      exact ih hrest h

variable [DecidableEq κ]

/-- The list without the pair of a key. -/
def without (key : κ) (xs : List (κ × α)) : List (κ × α) := xs.filter fun x => x.1 ≠ key

theorem mem_without {x : κ × α} : x ∈ without key xs ↔ x ∈ xs ∧ x.1 ≠ key := by
  rw [without, mem_filter, decide_eq_true_eq]

theorem Distinct.without (h : Distinct xs) (key : κ) : Distinct (Keyed.without key xs) :=
  h.sublist (filter_sublist.map Prod.fst)

theorem without_of_not_mem (h : key ∉ xs.map Prod.fst) : without key xs = xs := by
  rw [without, filter_eq_self]
  intro x hx
  rw [decide_eq_true_eq]
  exact fun heq => h (mem_map.mpr ⟨x, hx, heq⟩)

/-- What is taken out is exactly one pair. -/
theorem perm_cons_without (hd : Distinct xs) (h : (key, value) ∈ xs) :
    xs.Perm ((key, value) :: without key xs) := by
  induction xs with
  | nil => cases h
  | cons x rest ih =>
    obtain ⟨hnotin, hrest⟩ := nodup_cons.mp hd
    rcases mem_cons.mp h with rfl | h
    · have hkeep : without key ((key, value) :: rest) = rest := by
        rw [without, filter_cons_of_neg (by simp), ← without, without_of_not_mem hnotin]
      rw [hkeep]
    · have hne : x.1 ≠ key := fun heq =>
        hnotin (heq ▸ mem_map_of_mem (f := Prod.fst) h)
      have hkeep : without key (x :: rest) = x :: without key rest := by
        rw [without, filter_cons_of_pos (by simpa using hne), ← without]
      rw [hkeep]
      exact ((ih hrest h).cons x).trans (List.Perm.swap _ _ _)

theorem countP_without (f : κ × α → Bool) (hd : Distinct xs) (h : (key, value) ∈ xs) :
    xs.countP f = (without key xs).countP f + if f (key, value) then 1 else 0 := by
  rw [(perm_cons_without hd h).countP_eq, countP_cons]

/-! ## Writing a key -/

/-- The list with the value of a key written, in its place if it has
one. -/
def set (key : κ) (value : α) : List (κ × α) → List (κ × α)
  | [] => [(key, value)]
  | (k, v) :: rest => if k = key then (key, value) :: rest else (k, v) :: set key value rest

theorem lookup_cons [BEq κ] [LawfulBEq κ] (key other : κ) (value : α) (rest : List (κ × α)) :
    ((key, value) :: rest).lookup other
      = if other = key then some value else rest.lookup other := by
  rw [List.lookup_cons]
  by_cases h : other = key
  · rw [if_pos h, h, beq_self_eq_true]
  · rw [if_neg h, beq_eq_false_iff_ne.mpr h]

theorem lookup_set [BEq κ] [LawfulBEq κ] (key other : κ) (value : α) : ∀ xs : List (κ × α),
    (set key value xs).lookup other = if other = key then some value else xs.lookup other
  | [] => lookup_cons key other value []
  | (k, v) :: rest => by
    have ih := lookup_set key other value rest
    rw [set]
    by_cases hk : k = key
    · rw [if_pos hk, lookup_cons, lookup_cons, hk]
      by_cases h : other = key
      · rw [if_pos h, if_pos h]
      · rw [if_neg h, if_neg h, if_neg h]
    · rw [if_neg hk, lookup_cons, lookup_cons, ih]
      by_cases h : other = k
      · have hother : other ≠ key := fun heq => hk (h.symm.trans heq)
        rw [if_pos h, if_pos h, if_neg hother]
      · rw [if_neg h, if_neg h]

theorem length_set (value : α) (hnew : key ∉ xs.map Prod.fst) :
    (set key value xs).length = xs.length + 1 := by
  induction xs with
  | nil => rfl
  | cons x rest ih =>
    rw [map_cons, mem_cons, not_or] at hnew
    rw [set, if_neg fun heq => hnew.1 heq.symm, length_cons, ih hnew.2, length_cons]

theorem lookup_without [BEq κ] [LawfulBEq κ] (key other : κ) : ∀ xs : List (κ × α),
    (without key xs).lookup other = if other = key then none else xs.lookup other
  | [] => by split <;> rfl
  | (k, v) :: rest => by
    have ih := lookup_without key other rest
    rw [without, filter_cons, ← without]
    by_cases hk : k = key
    · rw [if_neg (by simpa using hk), ih, lookup_cons, hk]
      by_cases h : other = key
      · rw [if_pos h, if_pos h]
      · rw [if_neg h, if_neg h, if_neg h]
    · rw [if_pos (by simpa using hk), lookup_cons, lookup_cons, ih]
      by_cases h : other = k
      · have hother : other ≠ key := fun heq => hk (h.symm.trans heq)
        rw [if_pos h, if_pos h, if_neg hother]
      · rw [if_neg h, if_neg h]

/-! ## Lists that grow at the end

An object that is never freed is an index of a list that only grows. -/

theorem getElem?_append_one {xs : List α} {a : α} :
    (xs ++ [a])[i]? = some b ↔ xs[i]? = some b ∨ i = xs.length ∧ a = b := by
  rcases Nat.lt_trichotomy i xs.length with hi | rfl | hi
  · rw [getElem?_append_left hi]
    constructor
    · exact .inl
    · rintro (h | ⟨rfl, _⟩)
      · exact h
      · exact absurd hi (Nat.lt_irrefl _)
  · rw [getElem?_concat_length, getElem?_eq_none (Nat.le_refl _)]
    simp
  · rw [getElem?_eq_none (by rw [length_append, length_singleton]; omega),
      getElem?_eq_none (Nat.le_of_lt hi)]
    constructor
    · nofun
    · rintro (h | ⟨rfl, _⟩)
      · cases h
      · exact absurd hi (Nat.lt_irrefl _)

theorem getElem?_modify_eq_some {xs : List α} {f : α → α} {j : Nat} :
    (xs.modify i f)[j]? = some b ↔ ∃ a, xs[j]? = some a ∧ (if i = j then f a else a) = b := by
  rw [getElem?_modify, Option.map_eq_map, Option.map_eq_some_iff]

end Keyed

/-! # Maps kept as lists in the order of their keys

`Ascending` is the order; with it a map is what it answers to `lookup`
(`Ascending.ext`), so that an operation on maps is described by one lemma about
lookups. `insert` keeps the order and needs none for its lookups. -/

namespace OrderedMap

open List

variable {κ α : Type} [LinearOrder κ]

/-- The keys ascend. -/
def Ascending (xs : List (κ × α)) : Prop := xs.Pairwise fun x y => x.1 < y.1

/-- Write a value at its place in the order. -/
def insert (key : κ) (value : α) : List (κ × α) → List (κ × α)
  | [] => [(key, value)]
  | (k, v) :: rest =>
    if key = k then (key, value) :: rest
    else if key < k then (key, value) :: (k, v) :: rest
    else (k, v) :: insert key value rest

theorem lookup_insert (key other : κ) (value : α) (xs : List (κ × α)) :
    (insert key value xs).lookup other = if other = key then some value else xs.lookup other := by
  induction xs with
  | nil =>
    rw [insert, Keyed.lookup_cons]
  | cons x rest ih =>
    obtain ⟨k, v⟩ := x
    rw [insert]
    split
    next hk =>
      subst hk
      rw [Keyed.lookup_cons, Keyed.lookup_cons]
      split <;> rfl
    next hk =>
      split
      · rw [Keyed.lookup_cons]
      · rw [Keyed.lookup_cons, Keyed.lookup_cons, ih]
        grind

variable {key : κ} {xs : List (κ × α)}

theorem mem_insert {value : α} {x : κ × α} (h : x ∈ insert key value xs) :
    x = (key, value) ∨ x ∈ xs := by
  induction xs with
  | nil => exact .inl (mem_singleton.mp h)
  | cons y rest ih =>
    rw [insert] at h
    split at h
    · rcases mem_cons.mp h with h | h
      · exact .inl h
      · exact .inr (mem_cons_of_mem _ h)
    · split at h
      · exact mem_cons.mp h
      · rcases mem_cons.mp h with h | h
        · exact .inr (h ▸ mem_cons_self)
        · exact (ih h).imp_right (mem_cons_of_mem _)

theorem Ascending.insert (h : Ascending xs) (key : κ) (value : α) :
    Ascending (insert key value xs) := by
  induction xs with
  | nil => exact pairwise_singleton _ _
  | cons x rest ih =>
    obtain ⟨hfirst, hrest⟩ := pairwise_cons.mp h
    rw [OrderedMap.insert]
    split
    next hk =>
      refine pairwise_cons.mpr ⟨fun y hy => ?_, hrest⟩
      rw [hk]
      exact hfirst y hy
    next hk =>
      split
      next hlt =>
        refine pairwise_cons.mpr ⟨fun y hy => ?_, h⟩
        rcases mem_cons.mp hy with rfl | hy
        · exact hlt
        · exact hlt.trans (hfirst y hy)
      next hlt =>
        refine pairwise_cons.mpr ⟨fun y hy => ?_, ih hrest⟩
        rcases mem_insert hy with rfl | hy
        · exact lt_of_le_of_ne (not_lt.mp hlt) (Ne.symm hk)
        · exact hfirst y hy

theorem Ascending.without (h : Ascending xs) (key : κ) : Ascending (Keyed.without key xs) :=
  List.Pairwise.filter _ h

theorem Ascending.distinct (h : Ascending xs) : Keyed.Distinct xs := by
  rw [Keyed.Distinct, List.Nodup, pairwise_map]
  exact h.imp fun hlt => hlt.ne

theorem lookup_eq_none_of_lt (h : ∀ x ∈ xs, key < x.1) : xs.lookup key = none := by
  rw [Keyed.lookup_eq_none]
  intro hmem
  obtain ⟨x, hx, hkey⟩ := mem_map.mp hmem
  exact (h x hx).ne hkey.symm

/-- Two maps that answer every lookup alike are the same. -/
theorem Ascending.ext {ys : List (κ × α)} (hx : Ascending xs) (hy : Ascending ys)
    (h : ∀ key, xs.lookup key = ys.lookup key) : xs = ys := by
  induction xs generalizing ys with
  | nil =>
    cases ys with
    | nil => rfl
    | cons y ys =>
      have hy := h y.1
      rw [Keyed.lookup_cons, if_pos rfl] at hy
      cases hy
  | cons x xs ih =>
    obtain ⟨hxfirst, hxrest⟩ := pairwise_cons.mp hx
    cases ys with
    | nil =>
      have hx := h x.1
      rw [Keyed.lookup_cons, if_pos rfl] at hx
      cases hx
    | cons y ys =>
      obtain ⟨hyfirst, hyrest⟩ := pairwise_cons.mp hy
      -- the first keys agree: the smaller one is found in both maps
      have hkey : x.1 = y.1 := by
        rcases lt_trichotomy x.1 y.1 with hlt | heq | hgt
        · have hlook := h x.1
          rw [Keyed.lookup_cons, if_pos rfl, lookup_eq_none_of_lt] at hlook
          · cases hlook
          · intro z hz
            rcases mem_cons.mp hz with rfl | hz
            · exact hlt
            · exact hlt.trans (hyfirst z hz)
        · exact heq
        · have hlook := h y.1
          rw [Keyed.lookup_cons y.1, if_pos rfl, lookup_eq_none_of_lt] at hlook
          · cases hlook
          · intro z hz
            rcases mem_cons.mp hz with rfl | hz
            · exact hgt
            · exact hgt.trans (hxfirst z hz)
      have hvalue : x.2 = y.2 := by
        have hlook := h x.1
        rw [Keyed.lookup_cons, if_pos rfl, Keyed.lookup_cons, if_pos hkey] at hlook
        exact Option.some.inj hlook
      have hrest : xs = ys := by
        refine ih hxrest hyrest fun key => ?_
        have hlook := h key
        rw [Keyed.lookup_cons, Keyed.lookup_cons, ← hkey] at hlook
        by_cases hk : key = x.1
        · subst hk
          rw [lookup_eq_none_of_lt hxfirst, lookup_eq_none_of_lt]
          intro z hz
          rw [hkey]
          exact hyfirst z hz
        · rwa [if_neg hk, if_neg hk] at hlook
      rw [hrest, Prod.ext hkey hvalue]

end OrderedMap

end Tessivum.Library
