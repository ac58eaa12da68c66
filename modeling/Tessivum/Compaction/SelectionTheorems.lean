/-
Tessivum.Compaction.SelectionTheorems — what the recovery loop selects.

The calls and results of a surface are a bracket history, and the boundaries of
the source are the positions with no pending call (`mem_completeBoundaries`).
The invariant of
the batch loop (`BatchAt`) is that the batch is the stretch from its first
boundary to the current one, that its two counters are the sums over that
stretch and within their limits, and that nothing in it is protected; a range
is selected only from such a batch (`Selected`).
-/
import Tessivum.Compaction.Recover
import Tessivum.Library.Positions

namespace Tessivum.Compaction

open Library Protocol Session List

/-! ## Boundaries -/

def bracketOf (entry : SurfaceMessage) : Bracket String where
  opens := toolCalls entry.message
  closes := toolResults entry.message

def brackets (surface : List SurfaceMessage) : List (Bracket String) := surface.map bracketOf

theorem pendingAfter_eq (pending : List String) (entry : SurfaceMessage) :
    pendingAfter pending entry.message = (bracketOf entry).after pending := rfl

theorem brackets_append (xs ys : List SurfaceMessage) :
    brackets (xs ++ ys) = brackets xs ++ brackets ys := map_append

variable {i : Nat} {surface : List SurfaceMessage}

/-- A boundary is a position with no pending call. -/
theorem mem_boundariesFrom : ∀ {index : Nat}
    {pending : List String}, i ∈ boundariesFrom index pending surface ↔
      ∃ k, k < surface.length ∧ i = index + k + 1
        ∧ pendingOf pending (brackets (surface.take (k + 1))) = [] := by
  induction surface with
  | nil => intro index pending; simp [boundariesFrom]
  | cons entry rest ih =>
    intro index pending
    -- the first entry decides about the boundary behind it, the rest about the others
    have hrest : (∃ k, k < rest.length ∧ i = index + 1 + k + 1
          ∧ pendingOf ((bracketOf entry).after pending) (brackets (rest.take (k + 1))) = [])
        ↔ ∃ k, 0 < k ∧ k < (entry :: rest).length ∧ i = index + k + 1
          ∧ pendingOf pending (brackets ((entry :: rest).take (k + 1))) = [] := by
      constructor
      · rintro ⟨k, hk, rfl, hpending⟩
        exact ⟨k + 1, by omega, by simpa using hk, by omega, hpending⟩
      · rintro ⟨k, hpos, hk, rfl, hpending⟩
        obtain ⟨j, rfl⟩ : ∃ j, k = j + 1 := ⟨k - 1, by omega⟩
        exact ⟨j, by simpa using hk, by omega, hpending⟩
    rw [boundariesFrom]
    simp only [pendingAfter_eq, List.isEmpty_iff]
    by_cases hempty : (bracketOf entry).after pending = []
    · rw [if_pos hempty, mem_cons, ih, hrest]
      constructor
      · rintro (rfl | ⟨k, _, hk, hi, hpending⟩)
        · exact ⟨0, by simp, by omega, hempty⟩
        · exact ⟨k, hk, hi, hpending⟩
      · rintro ⟨k, hk, hi, hpending⟩
        rcases Nat.eq_zero_or_pos k with rfl | hpos
        · exact .inl (by omega)
        · exact .inr ⟨k, hpos, hk, hi, hpending⟩
    · rw [if_neg hempty, ih, hrest]
      constructor
      · rintro ⟨k, _, hk, hi, hpending⟩
        exact ⟨k, hk, hi, hpending⟩
      · rintro ⟨k, hk, hi, hpending⟩
        rcases Nat.eq_zero_or_pos k with rfl | hpos
        · exact absurd hpending hempty
        · exact ⟨k, hpos, hk, hi, hpending⟩

theorem mem_completeBoundaries :
    i ∈ completeBoundaries surface ↔
      i ≤ surface.length ∧ pendingOf [] (brackets (surface.take i)) = [] := by
  rw [completeBoundaries, mem_cons, mem_boundariesFrom]
  constructor
  · rintro (rfl | ⟨k, hk, rfl, hpending⟩)
    · exact ⟨Nat.zero_le _, rfl⟩
    · rw [Nat.zero_add]
      exact ⟨hk, hpending⟩
  · rintro ⟨hle, hpending⟩
    cases i with
    | zero => exact .inl rfl
    | succ k => exact .inr ⟨k, hle, by omega, hpending⟩

theorem boundariesFrom_pairwise (surface : List SurfaceMessage) : ∀ (index : Nat)
    (pending : List String), (boundariesFrom index pending surface).Pairwise (· < ·) := by
  induction surface with
  | nil => intro index pending; exact List.Pairwise.nil
  | cons entry rest ih =>
    intro index pending
    have hrest := ih (index + 1) (pendingAfter pending entry.message)
    rw [boundariesFrom]
    split
    · refine pairwise_cons.mpr ⟨fun i hi => ?_, hrest⟩
      obtain ⟨k, _, rfl, _⟩ := mem_boundariesFrom.mp hi
      omega
    · exact hrest

theorem completeBoundaries_pairwise (surface : List SurfaceMessage) :
    (completeBoundaries surface).Pairwise (· < ·) := by
  refine pairwise_cons.mpr ⟨fun i hi => ?_, boundariesFrom_pairwise surface 0 []⟩
  obtain ⟨k, _, rfl, _⟩ := mem_boundariesFrom.mp hi
  omega

/-! ## Sums over stretches -/

theorem sliceSum_eq (xs : List Nat) (start stop : Nat) :
    sliceSum xs start stop = (stretch xs start stop).sum := by
  rw [sliceSum, stretch, drop_take]

theorem sliceSum_self (xs : List Nat) (start : Nat) : sliceSum xs start start = 0 := by
  rw [sliceSum_eq, stretch_self, sum_nil]

theorem sliceSum_add (xs : List Nat) {start mid stop : Nat} (hstart : start ≤ mid)
    (hstop : mid ≤ stop) : sliceSum xs start mid + sliceSum xs mid stop = sliceSum xs start stop := by
  rw [sliceSum_eq, sliceSum_eq, sliceSum_eq, ← sum_append,
    stretch_append_stretch hstart hstop]

theorem drop_take_eq {α : Type} (xs : List α) (start stop : Nat) :
    (xs.drop start).take (stop - start) = stretch xs start stop := by
  rw [stretch, drop_take]

/-! ## The batch -/

section Batches

variable {service : RecoveryService} {recovery : Recovery} {surface : List SurfaceMessage}
  {recentStart : Nat}

/-- What is true of a selected range. -/
structure Selected (service : RecoveryService) (recovery : Recovery)
    (surface : List SurfaceMessage) (recentStart : Nat) (range : CompactionRange) : Prop where
  start_mem : range.start ∈ completeBoundaries surface
  stop_mem : range.last + 1 ∈ completeBoundaries surface
  ordered : range.start ≤ range.last
  messages : range.last + 1 - range.start ≤ service.config.maxSurfaceMessages
  cp : sliceSum (surfaceSizes service surface) range.start (range.last + 1)
    ≤ recovery.inputCodepointLimit
  tokens : ∀ limit ∈ recovery.summaryLimit,
    sliceSum (surfaceEstimates service surface) range.start (range.last + 1) ≤ limit
  fresh : ∃ entry ∈ stretch surface range.start (range.last + 1), isSummary entry.message = false
  unprotected : ∀ i, range.start ≤ i → i ≤ range.last →
    protectedAt recovery surface recentStart i = false

/-- The invariant of the batch loop at a boundary. -/
structure BatchAt (service : RecoveryService) (recovery : Recovery)
    (surface : List SurfaceMessage) (recentStart here : Nat) (batch : Batch) : Prop where
  start_mem : batch.start.getD here ∈ completeBoundaries surface
  start_le : batch.start.getD here ≤ here
  cp : batch.cp = sliceSum (surfaceSizes service surface) (batch.start.getD here) here
  tokens : batch.tokens = sliceSum (surfaceEstimates service surface) (batch.start.getD here) here
  fresh : batch.fresh
    = (stretch surface (batch.start.getD here) here).any fun entry => !isSummary entry.message
  unprotected : ∀ i, batch.start.getD here ≤ i → i < here →
    protectedAt recovery surface recentStart i = false
  selected : ∀ range, batch.selected = some range →
    Selected service recovery surface recentStart range

variable {here : Nat}

theorem BatchAt.empty (hmem : here ∈ completeBoundaries surface) :
    BatchAt service recovery surface recentStart here Batch.empty where
  start_mem := hmem
  start_le := le_refl here
  cp := (sliceSum_self _ here).symm
  tokens := (sliceSum_self _ here).symm
  fresh := by
    rw [show Batch.empty.start.getD here = here from rfl, stretch_self]
    rfl
  unprotected i hle hlt := absurd hle (Nat.not_le.mpr hlt)
  selected range h := nomatch h

/-- A group that fits extends the batch. -/
theorem BatchAt.extend {stop : Nat} {batch : Batch}
    (h : BatchAt service recovery surface recentStart here batch) (hlt : here < stop)
    (hstop : stop ∈ completeBoundaries surface)
    (hfits : ¬ exceeds service recovery (batch.start.getD here) stop
      (batch.cp + sliceSum (surfaceSizes service surface) here stop)
      (batch.tokens + sliceSum (surfaceEstimates service surface) here stop))
    (hgroup : ∀ i, here ≤ i → i < stop → protectedAt recovery surface recentStart i = false) :
    BatchAt service recovery surface recentStart stop
      (batch.extend service recovery surface here stop) := by
  have hle := h.start_le
  have hcp := sliceSum_add (surfaceSizes service surface) hle hlt.le
  have htokens := sliceSum_add (surfaceEstimates service surface) hle hlt.le
  rw [← h.cp] at hcp
  rw [← h.tokens] at htokens
  rw [exceeds, not_or, not_or, hcp, htokens] at hfits
  obtain ⟨hmessages, hlimit, hsummary⟩ := hfits
  have hunprotected : ∀ i, batch.start.getD here ≤ i → i < stop →
      protectedAt recovery surface recentStart i = false := by
    intro i hi histop
    rcases Nat.lt_or_ge i here with hbefore | hafter
    · exact h.unprotected i hi hbefore
    · exact hgroup i hafter histop
  have hfresh : (batch.fresh || ((surface.drop here).take (stop - here)).any fun entry =>
    !isSummary entry.message)
    = (stretch surface (batch.start.getD here) stop).any fun entry =>
      !isSummary entry.message := by
    rw [h.fresh, drop_take_eq, ← any_append, stretch_append_stretch hle hlt.le]
  refine ⟨h.start_mem, le_trans hle hlt.le, hcp, htokens, hfresh, hunprotected, ?_⟩
  intro range hrange
  rw [Batch.extend] at hrange
  dsimp only at hrange
  rw [hfresh, hcp] at hrange
  split at hrange
  · rename_i hselected
    obtain rfl := some.inj hrange
    have hlast : stop - 1 + 1 = stop := by omega
    refine ⟨h.start_mem, ?_, ?_, ?_, ?_, ?_, ?_, ?_⟩
    · rw [hlast]
      exact hstop
    · show batch.start.getD here ≤ stop - 1
      omega
    · rw [hlast]
      exact Nat.not_lt.mp hmessages
    · rw [hlast]
      exact Nat.not_lt.mp hlimit
    · intro limit hmem
      rw [hlast]
      exact Nat.not_lt.mp fun hlarge => hsummary ⟨limit, hmem, hlarge⟩
    · rw [hlast]
      obtain ⟨entry, hentry, hnot⟩ := any_eq_true.mp hselected.1
      exact ⟨entry, hentry, by simpa using hnot⟩
    · intro i hi hile
      have hlt : i < stop := by
        have : i ≤ stop - 1 := hile
        omega
      exact hunprotected i hi hlt
  · exact h.selected range hrange

def Oversized (recovery : Recovery) (surface : List SurfaceMessage) (recentStart : Nat)
    (group : Nat × Nat) : Prop :=
  ∀ i, group.1 ≤ i → i < group.2 → protectedAt recovery surface recentStart i = false

/-- What the greedy selection picks, or the group that is too large. -/
theorem selectBatch_spec : ∀ (boundaries : List Nat) (batch : Batch),
    boundaries.Pairwise (· < ·) → (∀ b ∈ boundaries, b ∈ completeBoundaries surface) →
    (∀ here ∈ boundaries.head?, BatchAt service recovery surface recentStart here batch) →
    (∀ range, batch.selected = some range →
      Selected service recovery surface recentStart range) →
    (∀ range, (selectBatch service recovery surface recentStart boundaries batch).1 = some range →
        Selected service recovery surface recentStart range)
      ∧ ∀ group, (selectBatch service recovery surface recentStart boundaries batch).2
          = some group → Oversized recovery surface recentStart group
  | [], batch, _, _, _, hselected | [_], batch, _, _, _, hselected =>
    ⟨hselected, nofun⟩
  | here :: stop :: rest, batch, hsorted, hmem, hat, hselected => by
    have hbatch := hat here rfl
    obtain ⟨hlt, hrest⟩ := pairwise_cons.mp hsorted
    have hlt := hlt stop mem_cons_self
    have hmemRest : ∀ b ∈ stop :: rest, b ∈ completeBoundaries surface :=
      fun b hb => hmem b (mem_cons_of_mem here hb)
    have hstop := hmemRest stop mem_cons_self
    rw [selectBatch]
    split
    · -- a protected group ends the batch
      split
      · exact ⟨hselected, nofun⟩
      · refine selectBatch_spec (stop :: rest) Batch.empty hrest hmemRest ?_
          nofun
        intro next hnext
        obtain rfl := some.inj hnext
        exact BatchAt.empty hstop
    · rename_i hopen
      have hgroup : ∀ i, here ≤ i → i < stop →
          protectedAt recovery surface recentStart i = false := by
        intro i hle hlt
        have hall := any_eq_false.mp (not_eq_true _ ▸ hopen) i
          (mem_range'_1.mpr ⟨hle, by omega⟩)
        simpa using hall
      split
      · split
        · exact ⟨hselected, nofun⟩
        · refine ⟨nofun, fun group h => ?_⟩
          obtain rfl := some.inj h
          exact hgroup
      · rename_i hfits
        have hextended := hbatch.extend hlt hstop hfits hgroup
        refine selectBatch_spec (stop :: rest) _ hrest hmemRest ?_ hextended.selected
        intro next hnext
        obtain rfl := some.inj hnext
        exact hextended

/-- What one turn selects. -/
theorem selection_spec (service : RecoveryService) (recovery : Recovery)
    (surface : List SurfaceMessage) :
    (∀ range, (selection service recovery surface).1 = some range →
        Selected service recovery surface (recentStartOf service recovery surface) range)
      ∧ ∀ group, (selection service recovery surface).2 = some group →
          Oversized recovery surface (recentStartOf service recovery surface) group := by
  refine selectBatch_spec (completeBoundaries surface) Batch.empty
    (completeBoundaries_pairwise surface) (fun b hb => hb) ?_ nofun
  intro here hhere
  obtain rfl := some.inj hhere
  exact BatchAt.empty (mem_completeBoundaries.mpr ⟨Nat.zero_le _, rfl⟩)

end Batches

end Tessivum.Compaction
