/-
Tessivum.Library.FirstOfKeys — a list sorted by a key, of which the first entry
of each key is kept.

The sort is stable (`filter_sortByKey`), so which entry of a key comes first is
decided by the list that was sorted: looking a key up gives the same entry in the
list and in what is kept of it (`find?_firstOfKeys`). What is kept has strictly
increasing keys (`firstOfKeys_increasing`), and that and its lookups determine it.

The module names nothing of the repository.
-/
import Mathlib

namespace Tessivum.Library

open List

variable {α κ : Type} [LinearOrder κ] (key : α → κ)

/-! ## Runs of one key -/

/-- What is kept after an entry: of a run of one key, its first entry. -/
def dedupAfter : α → List α → List α
  | kept, [] => [kept]
  | kept, b :: rest =>
    if key b = key kept then dedupAfter kept rest else kept :: dedupAfter b rest

/-- Of every run of one key, its first entry. -/
def dedupByKey : List α → List α
  | [] => []
  | a :: rest => dedupAfter key a rest

theorem find?_dedupAfter (k : κ) : ∀ (kept : α) (rest : List α),
    (dedupAfter key kept rest).find? (fun a => key a = k) =
      (kept :: rest).find? fun a => key a = k
  | kept, [] => rfl
  | kept, b :: rest => by
    rw [dedupAfter]
    split
    next hsame =>
      rw [find?_dedupAfter k kept rest]
      by_cases hk : key kept = k
      · simp [hk]
      · simp [hk, hsame]
    next =>
      rw [find?_cons, find?_cons, find?_dedupAfter k b rest]

/-- An entry that is dropped is never the first of its key. -/
theorem find?_dedupByKey (k : κ) (l : List α) :
    (dedupByKey key l).find? (fun a => key a = k) = l.find? fun a => key a = k := by
  cases l with
  | nil => rfl
  | cons a rest => exact find?_dedupAfter key k a rest

theorem mem_dedupAfter {a : α} : ∀ {kept : α} {rest : List α},
    a ∈ dedupAfter key kept rest → a ∈ kept :: rest
  | kept, [], h => h
  | kept, b :: rest, h => by
    rw [dedupAfter] at h
    split at h
    next =>
      rcases mem_cons.mp (mem_dedupAfter h) with rfl | hmem
      · exact mem_cons_self
      · exact mem_cons_of_mem _ (mem_cons_of_mem _ hmem)
    next =>
      rcases mem_cons.mp h with rfl | hmem
      · exact mem_cons_self
      · exact mem_cons_of_mem _ (mem_dedupAfter hmem)

theorem dedupAfter_increasing : ∀ {kept : α} {rest : List α},
    (kept :: rest).Pairwise (fun a b => key a ≤ key b) →
      (dedupAfter key kept rest).Pairwise fun a b => key a < key b
  | kept, [], _ => pairwise_singleton _ _
  | kept, b :: rest, h => by
    obtain ⟨hkept, hrest⟩ := pairwise_cons.mp h
    rw [dedupAfter]
    split
    next =>
      refine dedupAfter_increasing (pairwise_cons.mpr ⟨fun c hc => ?_, ?_⟩)
      · exact hkept c (mem_cons_of_mem _ hc)
      · exact (pairwise_cons.mp hrest).2
    next hne =>
      refine pairwise_cons.mpr ⟨fun c hc => ?_, dedupAfter_increasing hrest⟩
      have hfirst : key kept < key b :=
        lt_of_le_of_ne (hkept b mem_cons_self) (Ne.symm hne)
      rcases mem_cons.mp (mem_dedupAfter key hc) with rfl | hmem
      · exact hfirst
      · exact lt_of_lt_of_le hfirst ((pairwise_cons.mp hrest).1 c hmem)

/-! ## The sort -/

/-- A stable sort by the key. -/
def sortByKey (l : List α) : List α := l.mergeSort fun a b => decide (key a ≤ key b)

theorem keyLe_trans (a b c : α) (hab : decide (key a ≤ key b) = true)
    (hbc : decide (key b ≤ key c) = true) : decide (key a ≤ key c) = true :=
  decide_eq_true (le_trans (of_decide_eq_true hab) (of_decide_eq_true hbc))

theorem keyLe_total (a b : α) : (decide (key a ≤ key b) || decide (key b ≤ key a)) = true := by
  rw [Bool.or_eq_true, decide_eq_true_eq, decide_eq_true_eq]
  exact le_total (key a) (key b)

theorem sortByKey_sorted (l : List α) :
    (sortByKey key l).Pairwise fun a b => key a ≤ key b := by
  have hsorted : (sortByKey key l).Pairwise fun a b => decide (key a ≤ key b) = true :=
    pairwise_mergeSort (keyLe_trans key) (keyLe_total key) l
  exact hsorted.imp of_decide_eq_true

/-- The entries of one key keep their order. -/
theorem filter_sortByKey (k : κ) (l : List α) :
    (sortByKey key l).filter (fun a => key a = k) = l.filter fun a => key a = k := by
  have hsame : (l.filter fun a => key a = k).Pairwise
      fun a b => decide (key a ≤ key b) = true := by
    refine pairwise_of_forall_mem_list fun a ha b hb => ?_
    have hka : key a = k := by simpa using (mem_filter.mp ha).2
    have hkb : key b = k := by simpa using (mem_filter.mp hb).2
    rw [hka, hkb]
    exact decide_eq_true (le_refl k)
  have hsub : List.Sublist (l.filter fun a => key a = k) (sortByKey key l) :=
    sublist_mergeSort (keyLe_trans key) (keyLe_total key) hsame filter_sublist
  have hkept := hsub.filter fun a => key a = k
  rw [filter_filter] at hkept
  simp only [Bool.and_self] at hkept
  have hlen : ((sortByKey key l).filter fun a => key a = k).length
      = (l.filter fun a => key a = k).length :=
    ((mergeSort_perm l _).filter _).length_eq
  exact (hkept.eq_of_length hlen.symm).symm

/-! ## Both -/

/-- The first entry of every key, in the order of the keys. -/
def firstOfKeys (l : List α) : List α := dedupByKey key (sortByKey key l)

@[simp] theorem firstOfKeys_nil : firstOfKeys key [] = [] := by
  rw [firstOfKeys, sortByKey, mergeSort_nil, dedupByKey]

theorem firstOfKeys_increasing (l : List α) :
    (firstOfKeys key l).Pairwise fun a b => key a < key b := by
  have hsorted := sortByKey_sorted key l
  unfold firstOfKeys
  cases h : sortByKey key l with
  | nil => exact List.Pairwise.nil
  | cons a rest => exact dedupAfter_increasing key (h ▸ hsorted)

/-- A key is looked up in what is kept as in the list itself. -/
theorem find?_firstOfKeys (k : κ) (l : List α) :
    (firstOfKeys key l).find? (fun a => key a = k) = l.find? fun a => key a = k := by
  rw [firstOfKeys, find?_dedupByKey, ← head?_filter, ← head?_filter, filter_sortByKey]

end Tessivum.Library
