/-
Tessivum.Library.Levels — recursion over a measure, one level at a time.

A function that calls itself on smaller arguments is given by the body of one
level, in which the recursive call is an argument. `tied` closes the body with
as many levels as the measure of its argument asks for, so it evaluates by
structural recursion on a number. Where the body consults its recursive call on
smaller arguments only (`Descends`), `tied` is the function the body describes
(`tied_eq`).
-/
import Mathlib

namespace Tessivum.Library

universe u

variable {σ : Type} {β : Sort u}

/-- `n` levels of a recursion over its bottom. -/
def levels (bottom : σ → β) (body : (σ → β) → σ → β) : Nat → σ → β
  | 0 => bottom
  | n + 1 => body (levels bottom body n)

/-- The recursion with enough levels for its argument. -/
def tied (measure : σ → Nat) (bottom : σ → β) (body : (σ → β) → σ → β) (s : σ) : β :=
  levels bottom body (measure s + 1) s

/-- The body consults its recursive call on smaller arguments only. -/
def Descends (measure : σ → Nat) (body : (σ → β) → σ → β) : Prop :=
  ∀ (f g : σ → β) (s : σ), (∀ t, measure t < measure s → f t = g t) → body f s = body g s

variable {measure : σ → Nat} {bottom : σ → β} {body : (σ → β) → σ → β}

/-- Levels beyond the measure of the argument change nothing. -/
theorem levels_agree (h : Descends measure body) :
    ∀ {n m : Nat} (s : σ), measure s < n → measure s < m →
      levels bottom body n s = levels bottom body m s
  | 0, _, _, hn, _ => absurd hn (Nat.not_lt_zero _)
  | _, 0, _, _, hm => absurd hm (Nat.not_lt_zero _)
  | _ + 1, _ + 1, s, hn, hm =>
    h _ _ s fun t ht => levels_agree h t (Nat.lt_of_lt_of_le ht (Nat.le_of_lt_succ hn))
      (Nat.lt_of_lt_of_le ht (Nat.le_of_lt_succ hm))

/-- The tied recursion is one level of its body over itself. -/
theorem tied_eq (h : Descends measure body) (s : σ) :
    tied measure bottom body s = body (tied measure bottom body) s := by
  show body (levels bottom body (measure s)) s = body (tied measure bottom body) s
  exact h _ _ s fun t ht => levels_agree h t ht (Nat.lt_succ_self _)

end Tessivum.Library
