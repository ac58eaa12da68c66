/-
Tessivum.Filesystem.ReadTheorems — what a caller sees who follows the footers
of the read tool.

It is the whole file exactly when every line of it, cut to its limit of
characters, fits a page (`read_walk_iff`): a page whose first line does not fit
shows nothing and names its own offset again. `Shows` is what one page shows,
`Walked` what the pages of a walk have shown so far.
-/
import Tessivum.Filesystem.Read

namespace Tessivum.Filesystem

open Library Protocol List

/-! ## What a page shows -/

/-- The lines of a file as pages show them, numbered from `index` on. -/
def shownFrom (index : Nat) : List String → List ReadLine
  | [] => []
  | line :: rest => ⟨index + 1, truncateChars line readMaxLineLength⟩ :: shownFrom (index + 1) rest

def shownBytes (line : String) : Nat := (truncateChars line readMaxLineLength).utf8ByteSize

variable {maxOutputBytes limit index shown returnedBytes start : Nat} {all rest : List String}

theorem length_shownFrom : ∀ {index : Nat} {rest : List String},
    (shownFrom index rest).length = rest.length
  | _, [] => rfl
  | _, _ :: _ => congrArg (· + 1) length_shownFrom

theorem shownFrom_append : ∀ {index : Nat} {front rest : List String},
    shownFrom index (front ++ rest) =
      shownFrom index front ++ shownFrom (index + front.length) rest
  | _, [], _ => rfl
  | index, line :: front, rest => by
    rw [cons_append, shownFrom, shownFrom, shownFrom_append, length_cons, Nat.add_assoc index,
      Nat.add_comm 1, cons_append]

theorem shownFrom_take (h : start ≤ all.length) (k : Nat) :
    shownFrom 0 (all.take start) ++ shownFrom start ((all.drop start).take k) =
      shownFrom 0 (all.take (start + k)) := by
  have hlength : (all.take start).length = start := length_take_of_le h
  rw [take_add, shownFrom_append, hlength, Nat.zero_add]

theorem endLine_shownFrom : ∀ {index : Nat} {rest : List String},
    ((shownFrom index rest).getLast?.map ReadLine.number).getD index = index + rest.length
  | _, [] => rfl
  | index, [line] => rfl
  | index, line :: next :: rest => by
    have ih := @endLine_shownFrom (index + 1) (next :: rest)
    rw [shownFrom, shownFrom, getLast?_cons_cons]
    rw [shownFrom] at ih
    rw [length_cons, Nat.add_comm (next :: rest).length, ← Nat.add_assoc, ← ih]
    cases hlast : (⟨index + 1 + 1, truncateChars next readMaxLineLength⟩
      :: shownFrom (index + 1 + 1) rest).getLast? with
    | none => exact absurd (getLast?_eq_none_iff.mp hlast) (cons_ne_nil _ _)
    | some last => rfl

/-- What the loop does with the lines before it: it shows the first `k`, each of which fits, and
stops before the end only at a limit. -/
structure Fills (maxOutputBytes limit index shown : Nat) (rest : List String) (filled : Filled)
    (k : Nat) : Prop where
  le : k ≤ rest.length
  lines : filled.lines = shownFrom index (rest.take k)
  fits : ∀ line ∈ rest.take k, shownBytes line ≤ maxOutputBytes
  truncated : filled.truncated = true ↔ k < rest.length
  byBytes : filled.truncatedByBytes = true → k < rest.length
  stops : k < rest.length → shown + k = limit ∨ filled.truncatedByBytes = true

/-- The loop shows some number of lines and stops for a reason. -/
theorem fill_fills (maxOutputBytes limit : Nat) :
    ∀ (rest : List String) (index shown returnedBytes : Nat), ∃ k,
      Fills maxOutputBytes limit index shown rest
        (fill maxOutputBytes limit index shown returnedBytes rest) k := by
  intro rest
  induction rest with
  | nil =>
    intro index shown returnedBytes
    exact ⟨0, le_refl _, rfl, by simp, by simp [fill], by simp [fill], by simp⟩
  | cons line rest ih =>
    intro index shown returnedBytes
    rw [fill]
    split
    · rename_i hfull
      exact ⟨0, Nat.zero_le _, rfl, by simp, by simp, by simp, fun _ => .inl hfull⟩
    · dsimp only
      split
      · exact ⟨0, Nat.zero_le _, rfl, by simp, by simp, by simp, fun _ => .inr rfl⟩
      · rename_i hfits
        obtain ⟨k, h⟩ := ih (index + 1) (shown + 1)
          (returnedBytes + addedBytes shown (truncateChars line readMaxLineLength))
        have hline : shownBytes line ≤ maxOutputBytes := by
          rw [shownBytes]
          rw [addedBytes] at hfits
          omega
        refine ⟨k + 1, Nat.succ_le_succ h.le, ?_, ?_, ?_, ?_, ?_⟩
        · rw [take_succ_cons, shownFrom, ← h.lines]
        · rw [take_succ_cons]
          exact forall_mem_cons.mpr ⟨hline, h.fits⟩
        · exact h.truncated.trans Nat.succ_lt_succ_iff.symm
        · exact fun hby => Nat.succ_lt_succ (h.byBytes hby)
        · intro hlt
          rcases h.stops (Nat.lt_of_succ_lt_succ hlt) with hlimit | hby
          · exact .inl (by omega)
          · exact .inr hby

theorem fill_shows (hlimit : 0 < limit) (hrest : rest ≠ [])
    (hfits : ∀ line ∈ rest, shownBytes line ≤ maxOutputBytes) :
    (fill maxOutputBytes limit index 0 0 rest).lines ≠ [] := by
  cases rest with
  | nil => exact absurd rfl hrest
  | cons line rest =>
    have hline := hfits line mem_cons_self
    rw [shownBytes] at hline
    rw [fill, if_neg (by omega)]
    dsimp only
    rw [if_neg (by rw [addedBytes]; simpa using hline)]
    exact cons_ne_nil _ _

/-- A page at offset `start + 1`: it shows `k` lines behind the first `start`. -/
structure Shows (maxOutputBytes start : Nat) (all : List String) (page : ReadPage) (k : Nat) :
    Prop where
  le : start + k ≤ all.length
  offset : page.offset = start + 1
  lines : page.lines = shownFrom start ((all.drop start).take k)
  fits : ∀ line ∈ (all.drop start).take k, shownBytes line ≤ maxOutputBytes
  truncated : page.truncated = true ↔ start + k < all.length
  next : page.footer.next = if start + k < all.length then some (start + k + 1) else none

/-- What one page shows, and that it shows something where every line fits. -/
theorem readFile_shows {text : String} (hlimit : limit ≤ readLimit)
    (hstart : start ≤ (lines text).length) :
    ∃ page k, readFile maxOutputBytes text (start + 1) limit = .ok page
      ∧ Shows maxOutputBytes start (lines text) page k
      ∧ (start < (lines text).length → 0 < limit →
        (∀ line ∈ lines text, shownBytes line ≤ maxOutputBytes) → 0 < k) := by
  obtain ⟨k, h⟩ := fill_fills maxOutputBytes limit ((lines text).drop start) start 0 0
  have hlength : ((lines text).drop start).length = (lines text).length - start := length_drop
  have hk := h.le
  rw [hlength] at hk
  have hcount : (fill maxOutputBytes limit start 0 0 ((lines text).drop start)).lines.length =
      k := by
    rw [h.lines, length_shownFrom, length_take_of_le h.le]
  have hend : ((fill maxOutputBytes limit start 0 0
      ((lines text).drop start)).lines.getLast?.map ReadLine.number).getD start = start + k := by
    rw [h.lines, endLine_shownFrom, length_take_of_le h.le]
  have htruncated := h.truncated
  have hby := h.byBytes
  rw [hlength] at htruncated hby
  refine ⟨_, k, bind_eq_ok.mpr ⟨(), failIf_eq_ok.mpr (Nat.not_lt.mpr hlimit), rfl⟩,
    ⟨by omega, rfl, h.lines, h.fits, ?_, ?_⟩, ?_⟩
  · simp only [Nat.add_sub_cancel, hcount, or_eq_true, htruncated, decide_eq_true_eq]
    omega
  · simp only [Nat.add_sub_cancel, hend]
    split
    · rename_i hbytes
      rw [if_pos (by have := hby hbytes; omega)]
      rfl
    · split <;> rfl
  · intro hlt hpos hfits
    have hshows := @fill_shows _ _ start _ hpos
      (mt drop_eq_nil_iff.mp (Nat.not_le.mpr hlt))
      (fun line hmem => hfits line (mem_of_mem_drop hmem))
    have hne := length_pos_iff.mpr hshows
    rwa [hcount] at hne

/-! ## The walk -/

variable {text : String} {limits : Nat → Nat}

/-- What following the footers shows: every page that asks to go on asks for a later offset, and
is truncated when lines are left behind it; and the walk ends, with every line shown once. -/
structure ShowsAll (maxOutputBytes : Nat) (text : String) (limits : Nat → Nat) : Prop where
  progress : ∀ n, ∀ page ∈ (readWalk maxOutputBytes text limits n).1, ∀ next ∈ page.footer.next,
    page.offset < next
  truncated : ∀ n, ∀ page ∈ (readWalk maxOutputBytes text limits n).1,
    (page.truncated = true ↔ page.offset - 1 + page.lines.length < (lines text).length)
  ends : ∃ n, (readWalk maxOutputBytes text limits n).2 = none
    ∧ (readWalk maxOutputBytes text limits n).1.flatMap ReadPage.lines = shownFrom 0 (lines text)

/-- After some calls the first `k` lines are shown, and the last footer asks for the next one. -/
structure Walked (maxOutputBytes : Nat) (text : String) (n k : Nat)
    (walk : List ReadPage × Option Nat) : Prop where
  le : k ≤ (lines text).length
  shown : walk.1.flatMap ReadPage.lines = shownFrom 0 ((lines text).take k)
  fits : ∀ line ∈ (lines text).take k, shownBytes line ≤ maxOutputBytes
  next : walk.2 = some (k + 1) ∨ walk.2 = none ∧ k = (lines text).length
  page : ∀ page ∈ walk.1, ∃ start k, Shows maxOutputBytes start (lines text) page k
    ∧ ((∀ line ∈ lines text, shownBytes line ≤ maxOutputBytes) → start < (lines text).length →
      0 < k)
  calls : (∀ line ∈ lines text, shownBytes line ≤ maxOutputBytes) → walk.2 = none ∨ n ≤ k

theorem walked_zero : Walked maxOutputBytes text 0 0 (readWalk maxOutputBytes text limits 0) :=
  ⟨Nat.zero_le _, rfl, by simp, .inl rfl, nofun, fun _ => .inr (le_refl _)⟩

/-- One page more of a walk. -/
theorem Walked.step {n k : Nat} (hlimit : 1 ≤ limits n ∧ limits n ≤ readLimit)
    (h : Walked maxOutputBytes text n k (readWalk maxOutputBytes text limits n)) :
    ∃ k', Walked maxOutputBytes text (n + 1) k' (readWalk maxOutputBytes text limits (n + 1)) := by
  rw [readWalk]
  rcases hwalk : readWalk maxOutputBytes text limits n with ⟨pages, next⟩
  rw [hwalk] at h
  cases next with
  | none => exact ⟨k, h.le, h.shown, h.fits, h.next, h.page, fun _ => .inl rfl⟩
  | some offset =>
    obtain rfl : offset = k + 1 := by
      rcases h.next with hnext | ⟨hnone, -⟩
      · exact some.inj hnext
      · cases hnone
    obtain ⟨page, count, hread, hpage, hpos⟩ :=
      @readFile_shows maxOutputBytes _ _ _ hlimit.2 h.le
    have hpositive := fun hfits hlt => hpos hlt hlimit.1 hfits
    simp only [hread]
    refine ⟨k + count, hpage.le, ?_, ?_, ?_, ?_, ?_⟩
    · rw [flatMap_append, h.shown, flatMap_cons, flatMap_nil, append_nil, hpage.lines,
        shownFrom_take h.le]
    · rw [take_add]
      exact forall_mem_append.mpr ⟨h.fits, hpage.fits⟩
    · dsimp only
      rw [hpage.next]
      split
      · exact .inl rfl
      · exact .inr ⟨rfl, by have := hpage.le; omega⟩
    · intro other hother
      rcases mem_append.mp hother with hmem | hmem
      · exact h.page other hmem
      · rw [mem_singleton.mp hmem]
        exact ⟨k, count, hpage, hpositive⟩
    · intro hfits
      dsimp only
      rw [hpage.next]
      -- a page that asks to go on has shown at least one line
      split
      · rename_i hmore
        have hshown := hpositive hfits (by omega)
        rcases h.calls hfits with hnone | hle
        · cases hnone
        · exact .inr (by omega)
      · exact .inl rfl

theorem readWalk_walked (hlimits : ∀ i, 1 ≤ limits i ∧ limits i ≤ readLimit) (n : Nat) :
    ∃ k, Walked maxOutputBytes text n k (readWalk maxOutputBytes text limits n) := by
  induction n with
  | zero => exact ⟨0, walked_zero⟩
  | succ n ih =>
    obtain ⟨k, h⟩ := ih
    exact h.step (hlimits n)

/-- Following the footers shows the whole file, whatever limits the calls choose, exactly when
every line fits a page. -/
theorem read_walk_iff (maxOutputBytes : Nat) (text : String) (limits : Nat → Nat)
    (hlimits : ∀ i, 1 ≤ limits i ∧ limits i ≤ readLimit) :
    ShowsAll maxOutputBytes text limits ↔
      ∀ line ∈ lines text, shownBytes line ≤ maxOutputBytes := by
  have hwalk := @readWalk_walked maxOutputBytes text _ hlimits
  constructor
  · intro h
    obtain ⟨n, hends, -⟩ := h.ends
    obtain ⟨k, hwalked⟩ := hwalk n
    rcases hwalked.next with hsome | ⟨-, hk⟩
    · rw [hends] at hsome
      cases hsome
    · have hfits := hwalked.fits
      rwa [hk, take_length] at hfits
  · intro hfits
    refine ⟨fun n page hpage next hnext => ?_, fun n page hpage => ?_, ?_⟩
    · obtain ⟨k, h⟩ := hwalk n
      obtain ⟨start, count, hshows, hpositive⟩ := h.page page hpage
      rw [hshows.next] at hnext
      split at hnext
      · rename_i hmore
        have hcount := hpositive hfits (by omega)
        rw [← some.inj hnext, hshows.offset]
        omega
      · cases hnext
    · obtain ⟨k, h⟩ := hwalk n
      obtain ⟨start, count, hshows, -⟩ := h.page page hpage
      have hle := hshows.le
      have hlength : page.lines.length = count := by
        rw [hshows.lines, length_shownFrom, length_take_of_le (by rw [length_drop]; omega)]
      rw [hshows.truncated, hshows.offset, hlength, Nat.add_sub_cancel]
    · obtain ⟨k, h⟩ := hwalk ((lines text).length + 1)
      have hle := h.le
      have hnone : (readWalk maxOutputBytes text limits ((lines text).length + 1)).2 = none :=
        (h.calls hfits).resolve_right (by omega)
      have hall : k = (lines text).length := by
        rcases h.next with hsome | ⟨-, hk⟩
        · rw [hnone] at hsome
          cases hsome
        · exact hk
      have hshown := h.shown
      rw [hall, take_length] at hshown
      exact ⟨_, hnone, hshown⟩

theorem read_walk_two_pages : ShowsAll 5 "a\nbcd" fun _ => 1 :=
  (read_walk_iff 5 "a\nbcd" (fun _ => 1) fun _ => by decide).mpr (by decide +kernel)

theorem readFile_stuck : readFile 1 "ab" 1 1 =
    .ok { offset := 1, lines := [], totalLines := 1, truncated := true
          footer := .capped 1 0 } := by
  decide +kernel

/-- A line of two bytes does not fit a page of one: the page is empty and names its own offset. -/
theorem read_walk_stuck : ¬ ShowsAll 1 "ab" fun _ => 1 := by
  intro h
  obtain ⟨n, hends, -⟩ := h.ends
  have hstuck : ∀ n, (readWalk 1 "ab" (fun _ => 1) n).2 = some 1 := by
    intro n
    induction n with
    | zero => rfl
    | succ n ih =>
      rw [readWalk]
      rcases hwalk : readWalk 1 "ab" (fun _ => 1) n with ⟨_, next⟩
      rw [hwalk] at ih
      cases ih
      simp only [readFile_stuck, Footer.next]
  rw [hstuck n] at hends
  cases hends

end Tessivum.Filesystem
