/-
Tessivum.Library.Result — the fallible-computation library: how a sequence of
checks in `Except` succeeds, and what a loop of checks says.

A checker in the source is a chain of `?` operators. `bind_eq_ok` takes one
link of such a chain apart, `forAllOk_eq_ok` says that a loop of checks
succeeds exactly when each check does, and `foldlM_append_one` is the step rule
of every replay: folding one more entry is folding the log and then applying
the entry.
-/
import Mathlib

namespace Tessivum.Library

export Option (all_some bind_eq_bind bind_eq_some_iff bind_some filter_some getD_none getD_some
  isNone_iff_eq_none isSome_eq_false_iff isSome_iff_exists ite_none_right_eq_some map_eq_none_iff
  map_eq_some_iff map_none map_some mem_toList not_isSome_iff_eq_none some.inj some.injEq
  toList_none toList_some)
export List (append_assoc append_nil cons.inj cons.injEq cons_append find?_some flatMap_cons
  foldlM_cons getElem?_append_left getElem?_append_right getElem?_eq_getElem getElem?_eq_none
  getElem?_set_ne length_append length_cons length_drop mem_append mem_append_left mem_cons
  mem_cons_of_mem mem_cons_self mem_filter mem_map mem_singleton nil_append pairwise_cons
  take_append_of_le_length)
export Bool (and_eq_false_iff and_eq_true false_eq_true not_eq_false not_eq_true not_eq_true'
  or_eq_false_iff or_eq_true)
export Function (update_of_ne update_self)
export Except (ok.inj ok.injEq)
export Nat (le_succ le_succ_of_le lt_succ_of_lt lt_succ_self)

variable {ε α β : Type}
variable {b : β} {x : Except ε α} {ε' : Type}

/-- A chain of two fallible steps succeeds when both do. -/
theorem bind_eq_ok {f : α → Except ε β} : (x >>= f) = .ok b ↔ ∃ a, x = .ok a ∧ f a = .ok b := by
  cases x with
  | error e =>
    constructor
    · intro h; cases h
    · rintro ⟨a, h, _⟩; cases h
  | ok a =>
    constructor
    · intro h; exact ⟨a, rfl, h⟩
    · rintro ⟨_, h, hf⟩; cases h; exact hf

@[simp] theorem ok_bind (a : α) (f : α → Except ε β) :
    ((Except.ok a : Except ε α) >>= f) = f a := rfl

@[simp] theorem error_bind (e : ε) (f : α → Except ε β) :
    ((Except.error e : Except ε α) >>= f) = .error e := rfl

theorem map_bind {γ : Type} (f : β → γ) (x : Except ε α) (k : α → Except ε β) :
    (x >>= k).map f = x >>= fun a => (k a).map f := by
  cases x <;> rfl

@[simp] theorem pure_eq_ok (a : α) : (pure a : Except ε α) = .ok a := rfl

@[simp] theorem mapError_ok (f : ε → ε') (a : α) :
    (Except.ok a : Except ε α).mapError f = .ok a := rfl

@[simp] theorem mapError_eq_ok {f : ε → ε'} {a : α} : x.mapError f = .ok a ↔ x = .ok a := by
  cases x <;> simp [Except.mapError]

/-- A check followed by the rest of a chain. -/
theorem check_bind_eq_ok {x : Except ε Unit} {rest : Unit → Except ε β} :
    (x >>= rest) = .ok b ↔ x = .ok () ∧ rest () = .ok b := by
  rw [bind_eq_ok]
  exact ⟨fun ⟨_, hx, hr⟩ => ⟨hx, hr⟩, fun ⟨hx, hr⟩ => ⟨(), hx, hr⟩⟩

theorem after_check {x : Except ε Unit} {rest : Unit → Except ε β} (h : (x >>= rest) = .ok b) :
    rest () = .ok b :=
  (check_bind_eq_ok.mp h).2

theorem exists_unit {p : Unit → Prop} : (∃ u, p u) ↔ p () :=
  ⟨fun ⟨_, h⟩ => h, fun h => ⟨(), h⟩⟩

/-- One guard of a chain: fail with `err` when `c` holds. -/
def failIf (c : Prop) [Decidable c] (err : ε) : Except ε Unit :=
  if c then .error err else .ok ()

/-- A guard passes exactly when its condition is false. -/
theorem failIf_eq_ok {c : Prop} [Decidable c] {err : ε} :
    failIf c err = .ok () ↔ ¬ c := by
  unfold failIf
  by_cases h : c <;> simp [h]

/-- A loop of checks: every element passes, in order. -/
def forAllOk (check : α → Except ε Unit) : List α → Except ε Unit
  | [] => .ok ()
  | x :: rest => do
    check x
    forAllOk check rest

/-- A loop of checks succeeds exactly when each check does. -/
theorem forAllOk_eq_ok (check : α → Except ε Unit) :
    ∀ xs : List α, forAllOk check xs = .ok () ↔ ∀ x ∈ xs, check x = .ok ()
  | [] => by simp [forAllOk]
  | x :: rest => by
    simp only [forAllOk, bind_eq_ok, mem_cons, forall_eq_or_imp,
      forAllOk_eq_ok check rest]
    refine ⟨fun ⟨_, hx, hrest⟩ => ⟨hx, hrest⟩, fun ⟨hx, hrest⟩ => ⟨(), hx, hrest⟩⟩

/-- Folding a log with one entry more is folding the log, then applying
the entry. -/
theorem foldlM_append_one (f : β → α → Except ε β) (b : β) (xs : List α) (x : α) :
    (xs ++ [x]).foldlM f b = (xs.foldlM f b >>= fun s => f s x) := by
  rw [List.foldlM_append]
  congr 1
  funext s
  cases h : f s x <;> simp [List.foldlM, h]

/-- What every accepted entry keeps, a fold over a whole log keeps. -/
theorem foldlM_invariant (inv : β → Prop) {f : β → α → Except ε β}
    (hstep : ∀ b a b', inv b → f b a = .ok b' → inv b') :
    ∀ (xs : List α) {b b' : β}, inv b → xs.foldlM f b = .ok b' → inv b'
  | [], b, b', hb, h => by
    rw [List.foldlM_nil] at h
    cases h
    exact hb
  | x :: rest, b, b', hb, h => by
    rw [foldlM_cons] at h
    obtain ⟨mid, hmid, hrest⟩ := bind_eq_ok.mp h
    exact foldlM_invariant inv hstep rest (hstep b x mid hb hmid) hrest

theorem exists_of_mem_mapM {f : α → Except ε β} : ∀ {xs : List α} {ys : List β},
    xs.mapM f = .ok ys → ∀ y ∈ ys, ∃ x ∈ xs, f x = .ok y
  | [], _, h, y, hy => by
    cases h
    cases hy
  | x :: rest, _, h, y, hy => by
    simp only [List.mapM_cons, bind_eq_ok] at h
    obtain ⟨_, hfirst, _, hothers, hys⟩ := h
    cases hys
    rcases mem_cons.mp hy with rfl | hmem
    · exact ⟨x, mem_cons_self, hfirst⟩
    · obtain ⟨z, hz, heq⟩ := exists_of_mem_mapM hothers y hmem
      exact ⟨z, mem_cons_of_mem x hz, heq⟩

/-! ## Agreement of two computations -/

/-- Two fallible computations agree: the same failure, or related
results. -/
inductive Agree (rel : α → β → Prop) : Except ε α → Except ε β → Prop
  | ok {a : α} {b : β} (h : rel a b) : Agree rel (.ok a) (.ok b)
  | error (e : ε) : Agree rel (.error e) (.error e)

theorem Agree.check {rel : α → β → Prop} (x : Except ε Unit) {f : Unit → Except ε α}
    {g : Unit → Except ε β} (h : x = .ok () → Agree rel (f ()) (g ())) :
    Agree rel (x >>= f) (x >>= g) := by
  cases x with
  | error e => exact .error e
  | ok u => exact h rfl

/-- Two checks that pass and fail alike. -/
theorem Agree.checks {rel : α → β → Prop} {x y : Except ε Unit} (hxy : x = y)
    {f : Unit → Except ε α} {g : Unit → Except ε β}
    (h : x = .ok () → Agree rel (f ()) (g ())) : Agree rel (x >>= f) (y >>= g) := by
  subst hxy
  exact Agree.check x h

end Tessivum.Library
