/-
Tessivum.Library.Timeline — a value that changes along a line of positions,
kept by the frames at which it changed.

Each frame stands at a position (`pos`). What the value was at a position is
told by the last frame that stands no later (`frameAt`), where there is one.
`Recorded` says that the frames tell the truth up to a position, the truth
being a relation between positions and frames; it is kept when the value stays
and when a frame is added for a change.
-/
import Mathlib

namespace Tessivum.Library

open List

section
variable {φ : Type} (pos : φ → Nat)

/-- The last frame that stands at the position or before it. -/
def frameAt (frames : List φ) (n : Nat) : Option φ :=
  frames.reverse.find? fun f => pos f ≤ n

/-- The frames are right up to a position: none stands after it, each is
right where it stands, and so is the one found for any position. -/
structure Recorded (R : Nat → φ → Prop) (frames : List φ) (n : Nat) : Prop where
  within : ∀ f ∈ frames, pos f ≤ n
  standing : ∀ f ∈ frames, R (pos f) f
  found : ∀ m ≤ n, ∀ f, frameAt pos frames m = some f → R m f
  kept : frames ≠ []

end

section
variable {φ : Type} {pos : φ → Nat} {R : Nat → φ → Prop} {frames : List φ} {m n : Nat} {f : φ}

theorem frameAt_append_singleton (frames : List φ) (f : φ) (n : Nat) :
    frameAt pos (frames ++ [f]) n = if pos f ≤ n then some f else frameAt pos frames n := by
  unfold frameAt
  rw [reverse_append, reverse_singleton, singleton_append, find?_cons]
  by_cases h : pos f ≤ n <;> simp [h]

/-- After all frames nothing changes any more. -/
theorem frameAt_of_within (hwithin : ∀ f ∈ frames, pos f ≤ n) (hle : n ≤ m) :
    frameAt pos frames m = frameAt pos frames n := by
  induction frames using reverseRecOn with
  | nil => rfl
  | append_singleton frames f =>
    have hf : pos f ≤ n := hwithin f (by simp)
    rw [frameAt_append_singleton, frameAt_append_singleton, if_pos hf, if_pos (by omega)]

/-- The last frame is the one found after all of them. -/
theorem frameAt_getLast (hwithin : ∀ f ∈ frames, pos f ≤ n) :
    frameAt pos frames n = frames.getLast? := by
  induction frames using reverseRecOn with
  | nil => rfl
  | append_singleton frames f =>
    rw [frameAt_append_singleton, if_pos (hwithin f (by simp)), getLast?_append,
      getLast?_singleton, Option.some_or]

theorem Recorded.single (h : R (pos f) f) : Recorded pos R [f] (pos f) where
  within g hg := Nat.le_of_eq (by rw [mem_singleton.mp hg])
  standing g hg := by rw [mem_singleton.mp hg]; exact h
  found m hm g hg := by
    have hsplit : frameAt pos ([] ++ [f]) m = _ := frameAt_append_singleton [] f m
    rw [nil_append] at hsplit
    rw [hsplit] at hg
    split at hg
    · rename_i hle
      cases hg
      rw [Nat.le_antisymm hm hle]
      exact h
    · cases hg
  kept := cons_ne_nil f []

theorem Recorded.stay (h : Recorded pos R frames n)
    (hstay : ∀ f, frames.getLast? = some f → R (n + 1) f) : Recorded pos R frames (n + 1) where
  within g hg := Nat.le_succ_of_le (h.within g hg)
  standing := h.standing
  found m hm g hg := by
    by_cases hle : m ≤ n
    · exact h.found m hle g hg
    · obtain rfl : m = n + 1 := by omega
      rw [frameAt_of_within h.within (Nat.le_succ n), frameAt_getLast h.within] at hg
      exact hstay g hg
  kept := h.kept

theorem Recorded.change (h : Recorded pos R frames n) (hpos : pos f = n + 1)
    (hright : R (n + 1) f) : Recorded pos R (frames ++ [f]) (n + 1) where
  within g hg := by
    rcases mem_append.mp hg with hg | hg
    · exact Nat.le_succ_of_le (h.within g hg)
    · exact Nat.le_of_eq (by rw [mem_singleton.mp hg, hpos])
  standing g hg := by
    rcases mem_append.mp hg with hg | hg
    · exact h.standing g hg
    · rw [mem_singleton.mp hg, hpos]
      exact hright
  found m hm g hg := by
    rw [frameAt_append_singleton, hpos] at hg
    split at hg
    · rename_i hle
      cases hg
      rw [Nat.le_antisymm hm hle]
      exact hright
    · exact h.found m (by omega) g hg
  kept := by simp

theorem Recorded.imp {R' : Nat → φ → Prop} (h : Recorded pos R frames n)
    (himp : ∀ m ≤ n, ∀ f, R m f → R' m f) : Recorded pos R' frames n where
  within := h.within
  standing f hf := himp (pos f) (h.within f hf) f (h.standing f hf)
  found m hm f hf := himp m hm f (h.found m hm f hf)
  kept := h.kept

theorem Recorded.last (h : Recorded pos R frames n) (hlast : frames.getLast? = some f) :
    R n f :=
  h.found n (Nat.le_refl n) f (by rw [frameAt_getLast h.within, hlast])

end

end Tessivum.Library
