/-
Tessivum.Library.EditHistory — lists grown by a history of edits.

An edit appends one element, or replaces a half-open range of positions by one
element. A history is a list of entries, each an edit or nothing; `current` is
the list after the whole history and `before h i` the list its `i`-th entry
meets.

The bookkeeping is one permutation (`current_removals_perm`): what is on the
list, together with what every entry removed, is exactly what was ever put in.
-/
import Mathlib

namespace Tessivum.Library

open List

variable {α : Type}

/-! ## Edits -/

/-- An edit of a list. -/
inductive Edit (α : Type) where
  | append (x : α)
  | replace (start stop : Nat) (x : α)

/-- The elements at the positions `start ≤ p < stop`. -/
def slice (xs : List α) (start stop : Nat) : List α := (xs.take stop).drop start

variable {start stop i : Nat} {xs : List α} {h : List (Option (Edit α))}

theorem mem_slice {x : α} :
    x ∈ slice xs start stop ↔ ∃ p, start ≤ p ∧ p < stop ∧ xs[p]? = some x := by
  unfold slice
  rw [mem_iff_getElem?]
  simp only [getElem?_drop, getElem?_take]
  constructor
  · rintro ⟨i, hi⟩
    by_cases h : start + i < stop
    · rw [if_pos h] at hi
      exact ⟨start + i, by omega, h, hi⟩
    · rw [if_neg h] at hi
      cases hi
  · rintro ⟨p, hstart, hstop, hp⟩
    refine ⟨p - start, ?_⟩
    have hp' : start + (p - start) = p := by omega
    rw [hp', if_pos hstop]
    exact hp

theorem slice_append_drop (h : start ≤ stop) :
    slice xs start stop ++ xs.drop stop = xs.drop start := by
  have hdrop : xs.drop stop = (xs.drop start).drop (stop - start) := by
    rw [drop_drop]
    congr 1
    omega
  rw [slice, drop_take, hdrop, take_append_drop]

namespace Edit

/-- The element an edit puts in. -/
def item : Edit α → α
  | append x => x
  | replace _ _ x => x

/-- The list after an edit. -/
def apply (xs : List α) : Edit α → List α
  | append x => xs ++ [x]
  | replace start stop x => xs.take start ++ x :: xs.drop stop

/-- The elements an edit takes out. -/
def removed (xs : List α) : Edit α → List α
  | append _ => []
  | replace start stop _ => slice xs start stop

/-- An edit's range lies on the list. -/
def Fits (xs : List α) : Edit α → Prop
  | append _ => True
  | replace start stop _ => start ≤ stop ∧ stop ≤ xs.length

/-- How much longer an edit makes the list. -/
def growth : Edit α → Int
  | append _ => 1
  | replace start stop _ => 1 - ((stop - start : Nat) : Int)

variable {xs : List α}

/-- Nothing is lost and nothing is made: the list after an edit and what
the edit took out are the list before it and what it put in. -/
theorem apply_removed_perm : ∀ {e : Edit α}, e.Fits xs →
    (e.apply xs ++ e.removed xs).Perm (e.item :: xs)
  | append x, _ => by
    simp only [apply, removed, item, append_nil]
    exact perm_append_singleton x xs
  | replace start stop x, h => by
    obtain ⟨hle, _⟩ := h
    have hsplit : xs.take start ++ (slice xs start stop ++ xs.drop stop) = xs := by
      rw [slice_append_drop hle, take_append_drop]
    have hmid : (xs.take start ++ x :: xs.drop stop ++ slice xs start stop).Perm
        (xs.take start ++ x :: (slice xs start stop ++ xs.drop stop)) := by
      rw [append_assoc]
      refine List.Perm.append_left _ ?_
      rw [cons_append]
      exact List.Perm.cons x perm_append_comm
    refine hmid.trans ?_
    refine perm_middle.trans ?_
    rw [hsplit]
    rfl

theorem length_apply : ∀ {e : Edit α}, e.Fits xs →
    ((e.apply xs).length : Int) = xs.length + e.growth
  | append x, _ => by simp [apply, growth]
  | replace start stop x, h => by
    obtain ⟨hle, hlen⟩ := h
    have hstart : min start xs.length = start := by omega
    simp only [apply, growth, length_append, length_take, length_cons,
      length_drop, hstart]
    omega

end Edit

/-! ## Histories -/

/-- One entry of a history: an edit, or nothing. -/
def editStep (xs : List α) : Option (Edit α) → List α
  | none => xs
  | some e => e.apply xs

/-- The list after a whole history. -/
def current (h : List (Option (Edit α))) : List α := h.foldl editStep []

/-- The list the `i`-th entry meets. -/
def before (h : List (Option (Edit α))) (i : Nat) : List α := current (h.take i)

/-- What the `i`-th entry takes out. -/
def removedAt (h : List (Option (Edit α))) (i : Nat) : List α :=
  match h[i]? with
  | some (some e) => e.removed (before h i)
  | _ => []

/-- What every entry takes out, entry by entry. -/
def removals (h : List (Option (Edit α))) : List (List α) :=
  (List.range h.length).map (removedAt h)

/-- Every element a history puts in, in order. -/
def items (h : List (Option (Edit α))) : List α := h.filterMap (Option.map Edit.item)

/-- Every edit's range lies on the list it meets. -/
def Fitting (h : List (Option (Edit α))) : Prop :=
  ∀ (i : Nat) (e : Edit α), h[i]? = some (some e) → e.Fits (before h i)

@[simp] theorem current_snoc (h : List (Option (Edit α))) (e : Option (Edit α)) :
    current (h ++ [e]) = editStep (current h) e := by
  simp [current]

theorem before_append (hi : i ≤ h.length) (more : List (Option (Edit α))) :
    before (h ++ more) i = before h i := by
  unfold before
  rw [take_append_of_le_length hi]

@[simp] theorem before_length (h : List (Option (Edit α))) : before h h.length = current h := by
  rw [before, take_length]

theorem removedAt_append (hi : i < h.length) (more : List (Option (Edit α))) :
    removedAt (h ++ more) i = removedAt h i := by
  unfold removedAt
  rw [getElem?_append_left hi, before_append (Nat.le_of_lt hi)]

theorem removedAt_take {k : Nat} (hik : i < k) (hk : k ≤ h.length) :
    removedAt (h.take k) i = removedAt h i := by
  have hlen : i < (h.take k).length := by
    rw [length_take]
    omega
  have happend := removedAt_append hlen (h.drop k)
  rw [take_append_drop] at happend
  exact happend.symm

theorem removals_snoc (h : List (Option (Edit α))) (e : Option (Edit α)) :
    removals (h ++ [e]) = removals h ++ [match e with
      | none => []
      | some e => e.removed (current h)] := by
  have hlast : removedAt (h ++ [e]) h.length = match e with
    | none => []
    | some e => e.removed (current h) := by
    unfold removedAt
    rw [getElem?_append_right (Nat.le_refl _), Nat.sub_self, before_append (Nat.le_refl _),
      before_length]
    cases e <;> rfl
  have hinit : (List.range h.length).map (removedAt (h ++ [e])) = removals h := by
    refine map_congr_left fun i hi => ?_
    exact removedAt_append (mem_range.mp hi) [e]
  rw [removals, length_append, length_singleton, range_succ, map_append,
    hinit, map_singleton, hlast]

theorem items_append (h more : List (Option (Edit α))) :
    items (h ++ more) = items h ++ items more := filterMap_append

theorem Fitting.append_left {more : List (Option (Edit α))} (hf : Fitting (h ++ more)) :
    Fitting h := by
  intro i e hi
  have hlt : i < h.length := (List.getElem?_eq_some_iff.mp hi).1
  have hfits := hf i e (by rw [getElem?_append_left hlt]; exact hi)
  rwa [before_append (Nat.le_of_lt hlt)] at hfits

theorem Fitting.take (hf : Fitting h) (k : Nat) : Fitting (h.take k) := by
  have hsplit := hf
  rw [← take_append_drop k h] at hsplit
  exact hsplit.append_left

theorem Fitting.last {h : List (Option (Edit α))} {e : Edit α} (hf : Fitting (h ++ [some e])) :
    e.Fits (current h) := by
  have hfits := hf h.length e (by simp)
  rwa [before_append (Nat.le_refl _), before_length] at hfits

/-! ## Conservation -/

/-- What is on the list and what was removed are what was put in. -/
theorem current_removals_perm (h : List (Option (Edit α))) (hf : Fitting h) :
    (current h ++ (removals h).flatten).Perm (items h) := by
  induction h using reverseRecOn with
  | nil => exact List.Perm.refl _
  | append_singleton h e ih =>
    have hprior := ih hf.append_left
    cases e with
    | none =>
      rw [current_snoc, removals_snoc, items_append]
      simpa [editStep, items] using hprior
    | some e =>
      have hedit := Edit.apply_removed_perm hf.last
      rw [current_snoc, removals_snoc, items_append]
      simp only [flatten_append, flatten_singleton, editStep]
      have hswap : (e.apply (current h) ++ ((removals h).flatten ++ e.removed (current h))).Perm
          ((e.apply (current h) ++ e.removed (current h)) ++ (removals h).flatten) := by
        rw [append_assoc]
        exact List.Perm.append_left _ perm_append_comm
      refine hswap.trans ((List.Perm.append_right _ hedit).trans ?_)
      refine (List.Perm.cons e.item hprior).trans ?_
      exact (perm_append_singleton e.item (items h)).symm

theorem length_current (h : List (Option (Edit α))) (hf : Fitting h) :
    ((current h).length : Int) = (h.map fun e => (e.map Edit.growth).getD 0).sum := by
  induction h using reverseRecOn with
  | nil => rfl
  | append_singleton h e ih =>
    have hprior := ih hf.append_left
    rw [current_snoc, map_append, sum_append, ← hprior]
    cases e with
    | none => simp [editStep]
    | some e =>
      have hlen := Edit.length_apply hf.last
      simp [editStep, hlen]

/-! ## Distinct elements -/

section Distinct

variable {h : List (Option (Edit α))}

theorem nodup_split (hf : Fitting h) (hd : (items h).Nodup) :
    (current h).Nodup ∧ (removals h).flatten.Nodup
      ∧ List.Disjoint (current h) (removals h).flatten := by
  have hperm := (current_removals_perm h hf).nodup_iff.mpr hd
  exact ⟨hperm.of_append_left, hperm.of_append_right, disjoint_of_nodup_append hperm⟩

theorem nodup_current (hf : Fitting h) (hd : (items h).Nodup) : (current h).Nodup :=
  (nodup_split hf hd).1

variable {x : α} {i j : Nat}

theorem mem_removals_flatten :
    x ∈ (removals h).flatten ↔ ∃ i, i < h.length ∧ x ∈ removedAt h i := by
  simp [removals, mem_flatten, mem_map, mem_range]

theorem lt_length_of_mem_removedAt (hx : x ∈ removedAt h i) : i < h.length := by
  unfold removedAt at hx
  by_contra hi
  rw [getElem?_eq_none (Nat.le_of_not_lt hi)] at hx
  cases hx

theorem mem_before_of_mem_removedAt (hx : x ∈ removedAt h i) : x ∈ before h i := by
  unfold removedAt at hx
  split at hx
  · rename_i e _
    cases e with
    | append y => cases hx
    | replace => exact mem_of_mem_take (mem_of_mem_drop hx)
  · cases hx

theorem mem_items_of_mem_current (hf : Fitting h) (hx : x ∈ current h) : x ∈ items h :=
  (current_removals_perm h hf).subset (mem_append_left _ hx)

/-- An element is on the list or was removed. -/
theorem mem_current_or_removed (hf : Fitting h) (hx : x ∈ items h) :
    x ∈ current h ∨ ∃ i, x ∈ removedAt h i := by
  have hmem := (current_removals_perm h hf).symm.subset hx
  rcases mem_append.mp hmem with hcur | hrem
  · exact .inl hcur
  · obtain ⟨i, _, hi⟩ := mem_removals_flatten.mp hrem
    exact .inr ⟨i, hi⟩

/-- What has been removed is not on the list. -/
theorem not_mem_current_of_removed (hf : Fitting h) (hd : (items h).Nodup) {x : α} {i : Nat}
    (hx : x ∈ removedAt h i) : x ∉ current h := by
  intro hcur
  have hrem := mem_removals_flatten.mpr ⟨i, lt_length_of_mem_removedAt hx, hx⟩
  exact (nodup_split hf hd).2.2 hcur hrem

theorem removedAt_unique (hf : Fitting h) (hd : (items h).Nodup) (hi : x ∈ removedAt h i)
    (hj : x ∈ removedAt h j) : i = j := by
  -- the removals of two entries are two disjoint pieces of one distinct list
  have hpair := (nodup_flatten.mp (nodup_split hf hd).2.1).2
  by_contra hne
  have hpos : ∀ {a b : Nat}, a < b → x ∈ removedAt h a → x ∈ removedAt h b → False := by
    intro a b hab ha hb
    have hbl : b < (removals h).length := by
      simpa [removals] using lt_length_of_mem_removedAt hb
    have hdis := pairwise_iff_getElem.mp hpair a b (Nat.lt_trans hab hbl) hbl hab
    simp only [removals, getElem_map, getElem_range] at hdis
    exact hdis ha hb
  rcases Nat.lt_or_gt_of_ne hne with hlt | hgt
  · exact hpos hlt hi hj
  · exact hpos hgt hj hi

/-- An element is removed after it came in. -/
theorem lt_of_mem_removedAt (hf : Fitting h) (hd : (items h).Nodup) {e : Edit α}
    (hi : h[i]? = some (some e)) (hj : e.item ∈ removedAt h j) : i < j := by
  have hmem : e.item ∈ items (h.take j) :=
    mem_items_of_mem_current (hf.take j) (mem_before_of_mem_removedAt hj)
  by_contra hle
  -- otherwise it comes in twice, before entry `j` and at entry `i`
  have hlater : e.item ∈ items (h.drop j) := by
    refine mem_filterMap.mpr ⟨some e, ?_, rfl⟩
    refine mem_iff_getElem?.mpr ⟨i - j, ?_⟩
    rw [getElem?_drop]
    have hij : j + (i - j) = i := by omega
    rw [hij]
    exact hi
  have hsplit : items h = items (h.take j) ++ items (h.drop j) := by
    rw [← items_append, take_append_drop]
  rw [hsplit] at hd
  exact disjoint_of_nodup_append hd hmem hlater

/-- What has been removed never comes back. -/
theorem not_mem_before_of_removed (hf : Fitting h) (hd : (items h).Nodup) {x : α} {j k : Nat}
    (hj : x ∈ removedAt h j) (hjk : j < k) : x ∉ before h k := by
  have hjlen := lt_length_of_mem_removedAt hj
  by_cases hk : k ≤ h.length
  · have hd' : (items (h.take k)).Nodup := by
      rw [← take_append_drop k h, items_append] at hd
      exact hd.of_append_left
    have hx : x ∈ removedAt (h.take k) j := by
      rw [removedAt_take hjk hk]
      exact hj
    exact not_mem_current_of_removed (hf.take k) hd' hx
  · have htake : h.take k = h := take_of_length_le (by omega)
    rw [before, htake]
    exact not_mem_current_of_removed hf hd hj

end Distinct

end Tessivum.Library
