/-
Tessivum.Library.Cuts — where a list can be cut, and what of it can be replaced:
by a budget, between its records, where no key is open, and around the elements
that have to stay.

The module names nothing of the repository.
-/
import Mathlib

namespace Tessivum.Library

/-! # Spending a budget along a list

`takeWithin` takes elements in order as long as the budget lasts, and stops at
the first element that does not fit. What it takes is the longest prefix of the
list whose cost is within the budget. -/

section

open List

variable {α : Type}

/-- The elements in order, while the budget lasts. -/
def takeWithin (cost : α → Nat) : Nat → List α → List α
  | _, [] => []
  | budget, x :: rest =>
    if cost x > budget then [] else x :: takeWithin cost (budget - cost x) rest

variable (cost : α → Nat)

/-- The cost of a list. -/
def totalCost (xs : List α) : Nat := (xs.map cost).sum

@[simp] theorem totalCost_nil : totalCost cost [] = 0 := rfl

@[simp] theorem totalCost_cons (x : α) (xs : List α) :
    totalCost cost (x :: xs) = cost x + totalCost cost xs := by
  simp [totalCost]

@[simp] theorem totalCost_append (xs ys : List α) :
    totalCost cost (xs ++ ys) = totalCost cost xs + totalCost cost ys := by
  simp [totalCost]

theorem takeWithin_isFront (budget : Nat) (xs : List α) : takeWithin cost budget xs <+: xs := by
  induction xs generalizing budget with
  | nil => exact nil_prefix
  | cons x rest ih =>
    rw [takeWithin]
    split
    · exact nil_prefix
    · exact prefix_cons_inj x |>.mpr (ih (budget - cost x))

theorem totalCost_takeWithin_le (budget : Nat) (xs : List α) :
    totalCost cost (takeWithin cost budget xs) ≤ budget := by
  induction xs generalizing budget with
  | nil => simp [takeWithin]
  | cons x rest ih =>
    rw [takeWithin]
    split
    · simp
    · have hrest := ih (budget - cost x)
      rw [totalCost_cons]
      omega

/-- A longer prefix costs more than the budget. -/
theorem lt_totalCost_of_longer (budget : Nat) (xs : List α) {ys : List α} (hys : ys <+: xs)
    (hlonger : (takeWithin cost budget xs).length < ys.length) : budget < totalCost cost ys := by
  induction xs generalizing budget ys with
  | nil =>
    obtain rfl := prefix_nil.mp hys
    simp at hlonger
  | cons x rest ih =>
    cases ys with
    | nil => simp at hlonger
    | cons y ys =>
      obtain ⟨rfl, hrest⟩ := cons_prefix_cons.mp hys
      rw [takeWithin] at hlonger
      rw [totalCost_cons]
      split at hlonger
      · omega
      · have hmore := ih (budget - cost y) hrest (by simpa using hlonger)
        omega

end

/-! # Cutting a file of records

A file is the encodings of its records, one after the other. Wherever it is
cut, what is left is a number of whole records and a proper part of the next
one (`cut_records`), and a part that holds the first `m` records whole keeps at
least `m` of them (`le_of_whole`). -/

section

open List

variable {α β : Type}

/-- A part of `encode x` that is not all of it. -/
def ProperPart (encode : α → List β) (x : α) (part : List β) : Prop :=
  part <+: encode x ∧ part ≠ encode x

variable {encode : α → List β} {part : List β} {m : Nat}

theorem ProperPart.length_lt {x : α} (h : ProperPart encode x part) :
    part.length < (encode x).length := by
  obtain ⟨hpart, hne⟩ := h
  exact Nat.lt_of_le_of_ne hpart.length_le fun hlength => hne (hpart.eq_of_length hlength)

/-- What a cut leaves: the first `k` records, and nothing or a proper part of
the next one. -/
def CutAt (encode : α → List β) (records : List α) (k : Nat) (part : List β) : Prop :=
  (part = [] ∧ k = records.length) ∨ ∃ x, records[k]? = some x ∧ ProperPart encode x part

theorem cut_records (encode : α → List β) : ∀ (records : List α) {file : List β},
    file <+: records.flatMap encode →
      ∃ k part, file = (records.take k).flatMap encode ++ part ∧ CutAt encode records k part
  | [], file, h => ⟨0, [], prefix_nil.mp h, .inl ⟨rfl, rfl⟩⟩
  | x :: rest, file, h => by
    rw [flatMap_cons] at h
    by_cases hwhole : encode x <+: file
    · obtain ⟨_, rfl⟩ := hwhole
      rw [prefix_append_right_inj] at h
      obtain ⟨k, part, rfl, hcut⟩ := cut_records encode rest h
      refine ⟨k + 1, part, ?_, ?_⟩
      · rw [take_succ_cons, flatMap_cons, append_assoc]
      · rcases hcut with ⟨hpart, hk⟩ | ⟨y, hy, hpart⟩
        · exact .inl ⟨hpart, by rw [hk, length_cons]⟩
        · exact .inr ⟨y, hy, hpart⟩
    · have hpart : file <+: encode x :=
        (List.prefix_or_prefix_of_prefix h (prefix_append _ _)).resolve_right hwhole
      refine ⟨0, file, rfl, .inr ⟨x, rfl, hpart, ?_⟩⟩
      rintro rfl
      exact hwhole (prefix_refl _)

theorem length_flatMap_take_le (encode : α → List β) (records : List α) {n : Nat} (h : m ≤ n) :
    ((records.take m).flatMap encode).length ≤ ((records.take n).flatMap encode).length := by
  have htake : records.take m <+: records.take n := take_prefix_take_left h
  obtain ⟨_, hmore⟩ := htake
  rw [← hmore, flatMap_append, length_append]
  exact Nat.le_add_right _ _

/-- A cut that holds the first `m` records whole is not before them. -/
theorem le_of_whole {records : List α} {k : Nat} (hcut : CutAt encode records k part)
    (hm : m ≤ records.length)
    (hwhole : (records.take m).flatMap encode <+: (records.take k).flatMap encode ++ part) :
    m ≤ k := by
  rcases hcut with ⟨_, rfl⟩ | ⟨x, hx, hpart⟩
  · exact hm
  · by_contra hlt
    have hnext := length_flatMap_take_le encode records (Nat.lt_of_not_le hlt)
    have htake : records.take (k + 1) = records.take k ++ [x] := by
      rw [take_add_one, hx, Option.toList_some]
    rw [htake, flatMap_append, flatMap_singleton, length_append] at hnext
    have hlength := hwhole.length_le
    rw [length_append] at hlength
    have hshort := hpart.length_lt
    omega

end

/-! # Keys opened and closed along a history

A step opens keys and then closes keys; what is pending after a history was
opened and not closed since. `Along` is a condition on every step and the keys
pending before it. Where nothing is pending a history can be cut: the part
between two such places can be replaced by a step that leaves nothing pending,
and every condition along the rest still holds (`Along.replace`). -/

section

open List

/-- The keys a step opens, and the keys it then closes. -/
structure Bracket (κ : Type) where
  opens : List κ
  closes : List κ

variable {κ : Type} [DecidableEq κ]

/-- What is pending after some keys are closed. -/
def closeAll (pending closes : List κ) : List κ :=
  closes.foldl (fun pending key => pending.filter fun other => other ≠ key) pending

variable (pending : List κ)

/-- What is pending after one step. -/
def Bracket.after (b : Bracket κ) : List κ :=
  closeAll (pending ++ b.opens) b.closes

/-- What is pending after a history. -/
def pendingOf (history : List (Bracket κ)) : List κ :=
  history.foldl Bracket.after pending

@[simp] theorem pendingOf_cons (b : Bracket κ) (rest : List (Bracket κ)) :
    pendingOf pending (b :: rest) = pendingOf (b.after pending) rest := rfl

theorem pendingOf_append (before after : List (Bracket κ)) :
    pendingOf pending (before ++ after) = pendingOf (pendingOf pending before) after :=
  foldl_append

/-! ## Conditions along a history -/

/-- Every step meets a condition with the keys pending before it. -/
def Along (ok : List κ → Bracket κ → Prop) : List κ → List (Bracket κ) → Prop
  | _, [] => True
  | pending, b :: rest => ok pending b ∧ Along ok (b.after pending) rest

variable {after before : List (Bracket κ)}

theorem along_append (ok : List κ → Bracket κ → Prop) :
    ∀ {pending : List κ}, Along ok pending (before ++ after) ↔
      Along ok pending before ∧ Along ok (pendingOf pending before) after := by
  induction before with
  | nil => intro pending; exact ⟨fun h => ⟨trivial, h⟩, fun h => h.2⟩
  | cons b rest ih =>
    intro pending
    rw [cons_append, Along, Along, ih, pendingOf_cons, and_assoc]

/-- Between two places where nothing is pending, a history can be replaced
by one step that leaves nothing pending. -/
theorem Along.replace {ok : List κ → Bracket κ → Prop} {middle : List (Bracket κ)} {b : Bracket κ}
    (h : Along ok [] (before ++ middle ++ after)) (hbefore : pendingOf [] before = [])
    (hmiddle : pendingOf [] (before ++ middle) = []) (hok : ok [] b) (hquiet : b.after [] = []) :
    Along ok [] (before ++ b :: after) := by
  obtain ⟨hfront, hafter⟩ := (along_append ok).mp h
  obtain ⟨hbeforeOk, _⟩ := (along_append ok).mp hfront
  rw [hmiddle] at hafter
  refine (along_append ok).mpr ⟨hbeforeOk, ?_⟩
  rw [hbefore]
  exact ⟨hok, by rwa [hquiet]⟩

/-! ## Closings that answer, openings that are new -/

/-- Each key is pending when it is closed. -/
def ClosesPending : List κ → List κ → Prop
  | _, [] => True
  | pending, key :: rest =>
    key ∈ pending ∧ ClosesPending (pending.filter fun other => other ≠ key) rest

/-- No key is pending when it is opened. -/
def OpensFresh : List κ → List κ → Prop
  | _, [] => True
  | pending, key :: rest => key ∉ pending ∧ OpensFresh (pending ++ [key]) rest

/-- Every closing of a step answers an opening. -/
def Bracket.Answers (b : Bracket κ) : Prop :=
  ClosesPending (pending ++ b.opens) b.closes

/-- Every closing answers an opening, and no key is pending twice. -/
def Bracket.Pairs (b : Bracket κ) : Prop :=
  OpensFresh pending b.opens ∧ b.Answers pending

theorem ClosesPending.subset {closes : List κ} : ∀ {pending : List κ},
    ClosesPending pending closes → closes ⊆ pending := by
  induction closes with
  | nil => intro pending _; exact nil_subset pending
  | cons key rest ih =>
    intro pending h
    refine cons_subset.mpr ⟨h.1, fun other hother => ?_⟩
    exact (mem_filter.mp (ih h.2 hother)).1

theorem closeAll_subset (closes : List κ) : ∀ pending : List κ, closeAll pending closes ⊆ pending := by
  induction closes with
  | nil => intro pending; exact List.Subset.refl pending
  | cons key rest ih =>
    intro pending other hother
    exact (mem_filter.mp (ih _ hother)).1

/-- What is pending after a step was pending before or opened by it. -/
theorem Bracket.after_subset (b : Bracket κ) (pending : List κ) :
    b.after pending ⊆ pending ++ b.opens := closeAll_subset b.closes _

instance decidableClosesPending : ∀ pending closes : List κ,
    Decidable (ClosesPending pending closes)
  | _, [] => .isTrue trivial
  | pending, key :: rest =>
    have := decidableClosesPending (pending.filter fun other => other ≠ key) rest
    inferInstanceAs (Decidable (key ∈ pending ∧ ClosesPending _ rest))

instance decidableOpensFresh : ∀ pending opens : List κ, Decidable (OpensFresh pending opens)
  | _, [] => .isTrue trivial
  | pending, key :: rest =>
    have := decidableOpensFresh (pending ++ [key]) rest
    inferInstanceAs (Decidable (key ∉ pending ∧ OpensFresh _ rest))

instance (pending : List κ) (b : Bracket κ) : Decidable (b.Answers pending) :=
  inferInstanceAs (Decidable (ClosesPending _ _))

instance (pending : List κ) (b : Bracket κ) : Decidable (b.Pairs pending) :=
  inferInstanceAs (Decidable (OpensFresh _ _ ∧ b.Answers pending))

instance decidableAlong (ok : List κ → Bracket κ → Prop) [∀ p b, Decidable (ok p b)] :
    ∀ (pending : List κ) (history : List (Bracket κ)), Decidable (Along ok pending history)
  | _, [] => .isTrue trivial
  | pending, b :: rest =>
    have := decidableAlong ok (b.after pending) rest
    inferInstanceAs (Decidable (ok pending b ∧ Along ok _ rest))

end

/-! # The elements of a list that have to stay

An element stays always, or because it is the last one of a kind. A part of
the list that holds nothing of the first sort, and of each kind only elements
with a later one behind the part, can be replaced by an element of no kind:
what had to stay before has to stay afterwards, in the same order
(`retained_replace`). So the elements that had to stay at first are still there
after any number of such replacements. -/

section

open List

variable {α : Type} {always : α → Bool} {kinds : List (α → Bool)}

/-- An element has to stay, given what comes behind it. -/
def stays (always : α → Bool) (kinds : List (α → Bool)) (x : α) (later : List α) : Bool :=
  always x || kinds.any fun kind => kind x && !later.any kind

/-- The elements that have to stay. -/
def retained (always : α → Bool) (kinds : List (α → Bool)) : List α → List α
  | [] => []
  | x :: later =>
    if stays always kinds x later then x :: retained always kinds later
    else retained always kinds later

theorem retained_sublist (always : α → Bool) (kinds : List (α → Bool)) (xs : List α) :
    (retained always kinds xs).Sublist xs := by
  induction xs with
  | nil => exact List.Sublist.slnil
  | cons x later ih =>
    rw [retained]
    split
    · exact ih.cons_cons x
    · exact ih.cons x

theorem stays_eq_true {x : α} {later : List α} : stays always kinds x later = true ↔
    always x = true ∨ ∃ kind ∈ kinds, kind x = true ∧ later.any kind = false := by
  simp only [stays, Bool.or_eq_true, any_eq_true (l := kinds), Bool.and_eq_true,
    Bool.not_eq_true']

variable {back : List α}

/-- Behind a common front nothing that had to stay is lost, if no kind comes
behind it that was not there. -/
theorem retained_append {back' : List α}
    (hkinds : ∀ kind ∈ kinds, back.any kind = false → back'.any kind = false)
    (hback : (retained always kinds back).Sublist (retained always kinds back')) :
    ∀ front : List α,
      (retained always kinds (front ++ back)).Sublist (retained always kinds (front ++ back'))
  | [] => hback
  | x :: front => by
    have hrest := retained_append hkinds hback front
    rw [cons_append, cons_append, retained, retained]
    by_cases hstays : stays always kinds x (front ++ back) = true
    · have hstays' : stays always kinds x (front ++ back') = true := by
        rw [stays_eq_true] at hstays ⊢
        refine hstays.imp_right fun ⟨kind, hmem, hx, hnone⟩ => ⟨kind, hmem, hx, ?_⟩
        rw [any_append, Bool.or_eq_false_iff] at hnone ⊢
        exact ⟨hnone.1, hkinds kind hmem hnone.2⟩
      rw [if_pos hstays, if_pos hstays']
      exact hrest.cons_cons x
    · rw [if_neg hstays]
      split
      · exact hrest.cons x
      · exact hrest

/-- Nothing has to stay of a part whose kinds all come again behind it. -/
theorem retained_drop : ∀ {middle : List α},
    (∀ x ∈ middle, always x = false) →
    (∀ kind ∈ kinds, ∀ x ∈ middle, kind x = true → back.any kind = true) →
      retained always kinds (middle ++ back) = retained always kinds back
  | [], _, _ => rfl
  | x :: middle, halways, hkinds => by
    have hgoes : ¬ stays always kinds x (middle ++ back) = true := by
      rw [stays_eq_true]
      rintro (hx | ⟨kind, hmem, hx, hnone⟩)
      · rw [halways x mem_cons_self] at hx
        cases hx
      · rw [any_append, hkinds kind hmem x mem_cons_self hx, Bool.or_true] at hnone
        cases hnone
    rw [cons_append, retained, if_neg hgoes]
    exact retained_drop (fun y hy => halways y (mem_cons_of_mem x hy))
      fun kind hmem y hy => hkinds kind hmem y (mem_cons_of_mem x hy)

/-- Such a part replaced by an element of no kind. -/
theorem retained_replace (front middle back : List α) (x : α)
    (halways : ∀ y ∈ middle, always y = false)
    (hkinds : ∀ kind ∈ kinds, ∀ y ∈ middle, kind y = true → back.any kind = true)
    (hx : ∀ kind ∈ kinds, kind x = false) :
    (retained always kinds (front ++ middle ++ back)).Sublist
      (retained always kinds (front ++ x :: back)) := by
  rw [append_assoc]
  refine retained_append (fun kind hmem hnone => ?_) ?_ front
  · rw [any_append, Bool.or_eq_false_iff] at hnone
    rw [any_cons, hx kind hmem, hnone.2]
    rfl
  · rw [retained_drop halways hkinds, retained]
    split
    · exact (List.Sublist.refl _).cons x
    · exact List.Sublist.refl _

end

end Tessivum.Library
