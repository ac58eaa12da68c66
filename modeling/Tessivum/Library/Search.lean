/-
Tessivum.Library.Search — where a pattern stands in a text, and what a search
from left to right makes of it.

`Occurs` says that the pattern stands at a position; occurrences may overlap. A
scan that goes on behind each match it finds sees only some of them: `Leftmost`
describes the list it finds, and `scan_leftmost` that the scan finds it.
`splice` puts a replacement in the place of the matches of a list; over the
list of a scan it is the replacement from left to right (`Replaced`), which is
unique.
-/
import Mathlib

namespace Tessivum.Library.Search

open List

variable {α : Type}

/-! ## Occurrences -/

/-- The pattern stands at position `n` of the text. -/
def Occurs (pattern text : List α) (n : Nat) : Prop :=
  ∃ before after, text = before ++ pattern ++ after ∧ before.length = n

theorem occurs_zero (pattern text : List α) : Occurs pattern text 0 ↔ pattern <+: text := by
  constructor
  · rintro ⟨_, after, htext, hlen⟩
    rw [length_eq_zero_iff] at hlen
    subst hlen
    exact ⟨after, htext.symm⟩
  · rintro ⟨after, htext⟩
    exact ⟨[], after, htext.symm, rfl⟩

theorem occurs_succ (pattern : List α) (c : α) (text : List α) (n : Nat) :
    Occurs pattern (c :: text) (n + 1) ↔ Occurs pattern text n := by
  constructor
  · rintro ⟨before, after, htext, hlen⟩
    cases before with
    | nil => cases hlen
    | cons d before =>
      simp only [cons_append, cons.injEq] at htext
      exact ⟨before, after, htext.2, by simpa using hlen⟩
  · rintro ⟨before, after, htext, hlen⟩
    exact ⟨c :: before, after, by simp [htext], by simp [hlen]⟩

variable {n m start : Nat} {pattern text new result : List α} {found : List Nat}

theorem Occurs.le (h : Occurs pattern text n) : n + pattern.length ≤ text.length := by
  obtain ⟨_, _, rfl, rfl⟩ := h
  simp

/-- Positions behind a front of the text. -/
theorem occurs_append (pattern front rest : List α) (n : Nat) :
    Occurs pattern (front ++ rest) (front.length + n) ↔ Occurs pattern rest n := by
  induction front with
  | nil => simp
  | cons c front ih =>
    rw [cons_append, length_cons, Nat.add_right_comm, occurs_succ]
    exact ih

theorem occurs_drop (hm : m ≤ text.length) (n : Nat) :
    Occurs pattern (text.drop m) n ↔ Occurs pattern text (m + n) := by
  have h := occurs_append pattern (text.take m) (text.drop m) n
  rw [take_append_drop, length_take_of_le hm] at h
  exact h.symm

/-- The text around an occurrence. -/
theorem Occurs.split (h : Occurs pattern text n) :
    text = text.take n ++ pattern ++ text.drop (n + pattern.length) := by
  obtain ⟨_, _, rfl, rfl⟩ := h
  simp

/-! ## The scan -/

/-- The matches found from left to right, by their positions. `n` is the
position reached; the next `skip` symbols belong to the last match. -/
def scan [DecidableEq α] (pattern : List α) : Nat → Nat → List α → List Nat
  | 0, n, [] => if pattern = [] then [n] else []
  | 0, n, c :: rest =>
    if pattern.isPrefixOf (c :: rest) then n :: scan pattern (pattern.length - 1) (n + 1) rest
    else scan pattern 0 (n + 1) rest
  | _ + 1, _, [] => []
  | skip + 1, n, _ :: rest => scan pattern skip (n + 1) rest

/-- The list of matches from `start` on in which each match is the first
occurrence behind the one before it. -/
inductive Leftmost (pattern text : List α) : Nat → List Nat → Prop
  | done {start : Nat} (none : ∀ n, start ≤ n → ¬ Occurs pattern text n) :
      Leftmost pattern text start []
  | next {start m : Nat} {rest : List Nat} (le : start ≤ m) (occurs : Occurs pattern text m)
      (first : ∀ n, start ≤ n → n < m → ¬ Occurs pattern text n)
      (later : Leftmost pattern text (m + pattern.length) rest) :
      Leftmost pattern text start (m :: rest)

/-- A position without an occurrence may be passed. -/
theorem Leftmost.pass (hnot : ¬ Occurs pattern text start)
    (h : Leftmost pattern text (start + 1) found) : Leftmost pattern text start found := by
  have hpass : ∀ n, start ≤ n → Occurs pattern text n → start + 1 ≤ n := by
    intro n hle hn
    rcases Nat.lt_or_eq_of_le hle with hlt | rfl
    · exact hlt
    · exact absurd hn hnot
  cases h with
  | done none => exact .done fun n hle hn => none n (hpass n hle hn) hn
  | next le occurs first later =>
    exact .next (Nat.le_of_succ_le le) occurs
      (fun n hle hlt hn => first n (hpass n hle hn) hlt hn) later

/-- Behind `front` the scan finds the leftmost matches. -/
theorem scan_leftmost_from [DecidableEq α] (hne : pattern ≠ []) :
    ∀ (rest front : List α) (skip : Nat),
      Leftmost pattern (front ++ rest) (front.length + skip)
        (scan pattern skip front.length rest) := by
  intro rest
  have hpos : 0 < pattern.length := length_pos_iff.mpr hne
  induction rest with
  | nil =>
    intro front skip
    have hnone : ∀ n, front.length + skip ≤ n → ¬ Occurs pattern (front ++ []) n := by
      intro n hle hn
      have hfit := hn.le
      simp only [append_nil] at hfit
      omega
    cases skip with
    | zero => rw [scan, if_neg hne]; exact .done hnone
    | succ skip => exact .done hnone
  | cons c rest ih =>
    intro front skip
    have hih := ih (front ++ [c])
    simp only [append_assoc, singleton_append, length_append,
      length_singleton] at hih
    cases skip with
    | zero =>
      have hhere := occurs_append pattern front (c :: rest) 0
      rw [occurs_zero, ← isPrefixOf_iff_prefix] at hhere
      rw [scan]
      split
      next hmatch =>
        refine .next (le_refl _) (hhere.mpr hmatch) (by omega) ?_
        have hlater := hih (pattern.length - 1)
        rwa [show front.length + 1 + (pattern.length - 1)
          = front.length + 0 + pattern.length by omega] at hlater
      next hmatch => exact .pass (fun hn => hmatch (hhere.mp hn)) (hih 0)
    | succ skip =>
      have hlater := hih skip
      rwa [Nat.add_right_comm] at hlater

/-- The scan of a text finds the leftmost matches. -/
theorem scan_leftmost [DecidableEq α] (hne : pattern ≠ []) (text : List α) :
    Leftmost pattern text 0 (scan pattern 0 0 text) :=
  scan_leftmost_from hne text [] 0

/-- Nothing is found exactly where nothing occurs. -/
theorem Leftmost.eq_nil_iff (h : Leftmost pattern text start found) :
    found = [] ↔ ∀ n, start ≤ n → ¬ Occurs pattern text n := by
  cases h with
  | done none => exact ⟨fun _ => none, fun _ => rfl⟩
  | next le occurs =>
    exact ⟨fun hnil => absurd hnil (cons_ne_nil _ _),
      fun hnone => absurd occurs (hnone _ le)⟩

/-- A single match is found exactly where the first occurrence overlaps
every other. -/
theorem Leftmost.eq_singleton_iff (h : Leftmost pattern text start found) :
    found = [m] ↔ start ≤ m ∧ Occurs pattern text m ∧
      (∀ n, start ≤ n → n < m → ¬ Occurs pattern text n) ∧
      ∀ n, m + pattern.length ≤ n → ¬ Occurs pattern text n := by
  cases h with
  | done none =>
    constructor
    · intro hnil
      cases hnil
    · rintro ⟨hle, hm, -, -⟩
      exact absurd hm (none m hle)
  | @next _ m' rest le occurs first later =>
    constructor
    · intro hfound
      simp only [cons.injEq] at hfound
      obtain ⟨rfl, hrest⟩ := hfound
      exact ⟨le, occurs, first, later.eq_nil_iff.mp hrest⟩
    · rintro ⟨hle, hm, hfirst, hlast⟩
      have hm' : m' = m := by
        rcases Nat.lt_trichotomy m' m with hlt | heq | hgt
        · exact absurd occurs (hfirst m' le hlt)
        · exact heq
        · exact absurd hm (first m hle hgt)
      subst hm'
      rw [later.eq_nil_iff.mpr hlast]

/-! ## Replacing matches -/

/-- The text from `last` on with `new` in the place of the matches, each
`width` long. -/
def splice (text new : List α) (width : Nat) : Nat → List Nat → List α
  | last, [] => text.drop last
  | last, start :: rest =>
    (text.drop last).take (start - last) ++ new ++ splice text new width (start + width) rest

/-- A text and the text with every leftmost match replaced. -/
inductive Replaced (pattern new : List α) : List α → List α → Prop
  | none {text : List α} (none : ∀ n, ¬ Occurs pattern text n) : Replaced pattern new text text
  | first {before after after' : List α}
      (first : ∀ n < before.length, ¬ Occurs pattern (before ++ pattern ++ after) n)
      (later : Replaced pattern new after after') :
      Replaced pattern new (before ++ pattern ++ after) (before ++ new ++ after')

/-- A symbol at which the pattern does not stand is kept. -/
theorem Replaced.keep {c : α} (hnot : ¬ pattern <+: c :: text)
    (h : Replaced pattern new text result) : Replaced pattern new (c :: text) (c :: result) := by
  cases h with
  | none none =>
    refine .none fun n hn => ?_
    cases n with
    | zero => exact hnot ((occurs_zero _ _).mp hn)
    | succ n => exact none n ((occurs_succ _ _ _ _).mp hn)
  | @first before after after' first later =>
    show Replaced pattern new ((c :: before) ++ pattern ++ after) ((c :: before) ++ new ++ after')
    refine .first ?_ later
    intro n hn hat
    cases n with
    | zero => exact hnot ((occurs_zero _ _).mp hat)
    | succ n => exact first n (by simpa using hn) ((occurs_succ _ _ _ _).mp hat)

/-- The pattern at the front is replaced. -/
theorem Replaced.swap (h : Replaced pattern new text result) :
    Replaced pattern new (pattern ++ text) (new ++ result) := by
  show Replaced pattern new ([] ++ pattern ++ text) ([] ++ new ++ result)
  exact .first (fun _ hn => absurd hn (Nat.not_lt_zero _)) h

/-- Splicing at the leftmost matches replaces them from left to right. -/
theorem Leftmost.replaced (h : Leftmost pattern text start found) (hstart : start ≤ text.length) :
    Replaced pattern new (text.drop start) (splice text new pattern.length start found) := by
  induction h with
  | done none =>
    refine .none fun n hn => ?_
    rw [occurs_drop hstart] at hn
    exact none _ (Nat.le_add_right _ _) hn
  | @next start m rest le occurs first later ih =>
    have hfit := occurs.le
    have hsplit : text.drop start = (text.drop start).take (m - start) ++ pattern ++
        text.drop (m + pattern.length) := by
      have hhere : Occurs pattern (text.drop start) (m - start) := by
        rw [occurs_drop hstart, Nat.add_sub_cancel' le]
        exact occurs
      have hcut := hhere.split
      rwa [drop_drop, show start + (m - start + pattern.length) = m + pattern.length by
        omega] at hcut
    have hlen : ((text.drop start).take (m - start)).length = m - start := by
      rw [length_take_of_le]
      rw [length_drop]
      omega
    rw [splice]
    conv => arg 3; rw [hsplit]
    refine .first ?_ (ih (by omega))
    intro n hn
    rw [← hsplit, occurs_drop hstart]
    rw [hlen] at hn
    exact first _ (Nat.le_add_right _ _) (by omega)

/-- There is one replacement from left to right. -/
theorem Replaced.unique {result' : List α} (h : Replaced pattern new text result)
    (h' : Replaced pattern new text result') : result = result' := by
  induction h generalizing result' with
  | none none =>
    cases h' with
    | none => rfl
    | first => exact absurd ⟨_, _, rfl, rfl⟩ (none _)
  | @first before after after' first later ih =>
    generalize htext : before ++ pattern ++ after = text at h'
    cases h' with
    | none none => exact absurd ⟨before, after, htext.symm, rfl⟩ (none before.length)
    | @first front rest rest' first' later' =>
      have hlen : before.length = front.length := by
        rcases Nat.lt_trichotomy before.length front.length with hlt | heq | hgt
        · exact absurd ⟨before, after, htext.symm, rfl⟩ (first' _ hlt)
        · exact heq
        · rw [htext] at first
          exact absurd ⟨front, rest, rfl, rfl⟩ (first _ hgt)
      simp only [append_assoc] at htext
      obtain ⟨rfl, htail⟩ := append_inj htext hlen
      obtain rfl := append_cancel_left htail
      rw [ih later']

/-- Over the scan of a text, splicing is the replacement from left to right. -/
theorem splice_scan_iff [DecidableEq α] (hne : pattern ≠ []) (new text result : List α) :
    Replaced pattern new text result ↔
      result = splice text new pattern.length 0 (scan pattern 0 0 text) := by
  have h : Replaced pattern new text (splice text new pattern.length 0 (scan pattern 0 0 text)) :=
    (scan_leftmost hne text).replaced (Nat.zero_le _)
  constructor
  · intro hresult
    exact hresult.unique h
  · rintro rfl
    exact h

theorem splice_single (text new : List α) (width m : Nat) :
    splice text new width 0 [m] = text.take m ++ new ++ text.drop (m + width) := by
  simp [splice]

end Tessivum.Library.Search
