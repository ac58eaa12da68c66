/-
Tessivum.Goal.ServiceTheorems — views track the log, and a committed change
replays.

A view's cache is the ledger of the log up to the event it has observed
(`Tracks`). A change is appended under the number of the first event its view
has not observed, so it commits only at the end of the log, and there replaying
it gives exactly the cache its writer moved to (`GoalWrite.commit_tracks`).
-/
import Tessivum.Goal.LedgerTheorems
import Tessivum.Goal.Service
import Tessivum.Session.ReplayTheorems

namespace Tessivum.Goal

open Library Protocol Session

variable {S : Serde}

/-! ## Views and the log -/

/-- The cached ledger is the fold of the observed part of the log. -/
def Tracks (S : Serde) (log : List SessionEvent) (state : GoalState) : Prop :=
  state.observedEvents ≤ log.length
    ∧ ∃ folded, foldGoals S (log.take state.observedEvents) = .ok folded
        ∧ SameLedger folded state

variable {state : GoalState} {log : List SessionEvent} {reason : Option GoalBlockReason}
  {request : GoalRequest} {call : GoalCall} {write : GoalWrite} {goals : GoalMap GoalSnapshot}
  {clock : Nat}

theorem foldGoals_append {xs ys : List SessionEvent} :
    foldGoals S (xs ++ ys) = .ok state ↔
      ∃ mid, foldGoals S xs = .ok mid ∧ ys.foldlM (applyGoalEvent S) mid = .ok state := by
  unfold foldGoals
  rw [List.foldlM_append, bind_eq_ok]

theorem Tracks.append (h : Tracks S log state) (more : List SessionEvent) :
    Tracks S (log ++ more) state := by
  obtain ⟨hle, hfold⟩ := h
  refine ⟨by rw [length_append]; omega, ?_⟩
  rw [take_append_of_le_length hle]
  exact hfold

theorem Tracks.of_same {a b : GoalState} (h : Tracks S log a) (hsame : SameLedger a b)
    (hobserved : b.observedEvents = a.observedEvents) : Tracks S log b := by
  obtain ⟨hle, folded, hfold, hledger⟩ := h
  rw [← hobserved] at hle hfold
  exact ⟨hle, folded, hfold, hledger.trans hsame⟩

theorem Tracks.at_end (h : Tracks S log state) (hend : state.observedEvents = log.length) :
    ∃ folded, foldGoals S log = .ok folded ∧ SameLedger folded state := by
  obtain ⟨_, hfold⟩ := h
  rw [hend, List.take_length] at hfold
  exact hfold

theorem tracks_of_fold {folded : GoalState} (hfold : foldGoals S log = .ok folded)
    (hsame : SameLedger folded state) (hend : state.observedEvents = log.length) :
    Tracks S log state := by
  refine ⟨by omega, folded, ?_, hsame⟩
  rw [hend, List.take_length]
  exact hfold

theorem syncLocked_tracks {state' : GoalState} (h : Tracks S log state)
    (hsync : syncLocked S state log = .ok state') :
    Tracks S log state' ∧ state'.observedEvents = log.length := by
  have htracks := h
  obtain ⟨hle, folded, hfold, hsame⟩ := h
  unfold syncLocked at hsync
  rw [if_neg (by omega)] at hsync
  by_cases hend : state.observedEvents = log.length
  · rw [if_pos hend] at hsync
    cases hsync
    exact ⟨htracks, hend⟩
  · rw [if_neg hend] at hsync
    obtain ⟨_, hcandidate, hsync⟩ := bind_eq_ok.mp hsync
    cases hsync
    have hagree := foldGoals_agree (S := S) (log.drop state.observedEvents) hsame
    rw [hcandidate] at hagree
    cases hrest : (log.drop state.observedEvents).foldlM (applyGoalEvent S) folded with
    | error err => rw [hrest] at hagree; cases hagree
    | ok whole =>
      rw [hrest] at hagree
      cases hagree with
      | ok hledger =>
        have hwhole : foldGoals S log = .ok whole := by
          rw [← List.take_append_drop state.observedEvents log]
          exact foldGoals_append.mpr ⟨folded, hfold, hrest⟩
        exact ⟨tracks_of_fold hwhole hledger rfl, rfl⟩

theorem syncLocked_ok {whole : GoalState} (h : Tracks S log state)
    (hlog : foldGoals S log = .ok whole) : ∃ state', syncLocked S state log = .ok state' := by
  obtain ⟨hle, folded, hfold, hsame⟩ := h
  unfold syncLocked
  rw [if_neg (by omega)]
  by_cases hend : state.observedEvents = log.length
  · exact ⟨state, by rw [if_pos hend]⟩
  · rw [if_neg hend]
    rw [← List.take_append_drop state.observedEvents log] at hlog
    obtain ⟨mid, hmid, hrest⟩ := foldGoals_append.mp hlog
    obtain rfl : mid = folded := ok.inj (hmid.symm.trans hfold)
    have hagree := foldGoals_agree (S := S) (log.drop state.observedEvents) hsame
    rw [hrest] at hagree
    cases hcandidate : (log.drop state.observedEvents).foldlM (applyGoalEvent S) state with
    | error err => rw [hcandidate] at hagree; cases hagree
    | ok candidate => exact ⟨_, rfl⟩

theorem openView_tracks (h : openView S log = .ok state) : Tracks S log state := by
  unfold openView at h
  obtain ⟨_, hfold, h⟩ := bind_eq_ok.mp h
  dsimp only at h
  split at h <;> cases h <;> exact tracks_of_fold hfold rfl rfl

/-! ## Writes -/

def GoalWrite.Prepared (write : GoalWrite) : Prop :=
  checkBlockedReason write.snapshot.phase write.blockedReason = .ok ()

theorem GoalBlockReason.normalized_valid {reason normalized : GoalBlockReason}
    (h : reason.normalized = .ok normalized) : normalized.validate = .ok () := by
  unfold GoalBlockReason.normalized at h
  obtain ⟨hvalid, h⟩ := check_bind_eq_ok.mp h
  cases h
  exact hvalid

theorem blockedReasonFor_checked (h : blockedReasonFor state request = .ok reason) :
    checkBlockedReason request.snapshot.phase reason = .ok () := by
  unfold blockedReasonFor at h
  by_cases hphase : request.snapshot.phase = .blocked
  · rw [if_pos hphase] at h
    split at h
    · cases h
    · obtain ⟨_, hnormalized, h⟩ := bind_eq_ok.mp h
      cases h
      rw [hphase]
      exact GoalBlockReason.normalized_valid hnormalized
  · rw [if_neg hphase] at h
    cases h
    cases hp : request.snapshot.phase with
    | blocked => exact absurd hp hphase
    | _ => rfl

theorem transitionRequest_operation {reference : GoalRef} {allowed : List GoalPhase}
    {phase : GoalPhase} {operation : GoalOperation}
    (h : transitionRequest state reference allowed phase operation reason = .ok request) :
    request.operation = operation := by
  unfold transitionRequest at h
  simp only [bind_eq_ok] at h
  obtain ⟨_, _, _, _, _, _, h⟩ := h
  cases h
  rfl

theorem GoalCall.request_create (h : call.request state = .ok request)
    (hop : request.operation = .create) : state.anyOpen = false := by
  cases call with
  | create =>
    simp only [GoalCall.request, bind_eq_ok, exists_unit, failIf_eq_ok] at h
    obtain ⟨_, _, hopen, h⟩ := h
    cases h
    simpa using hopen
  | edit | resume reference =>
    simp only [GoalCall.request, bind_eq_ok] at h
    obtain ⟨_, _, _, _, _, _, h⟩ := h
    cases h
    cases hop
  | clear reference =>
    simp only [GoalCall.request, bind_eq_ok] at h
    obtain ⟨_, _, _, _, h⟩ := h
    cases h
    cases hop
  | pause reference | block reference reason | complete reference =>
    rw [transitionRequest_operation h] at hop; cases hop

theorem GoalCall.prepared {token : Cancellation}
    (h : (call.request state >>= fun request => request.prepare state token) = .ok write) :
    write.Prepared ∧ (write.operation = .create → state.anyOpen = false) := by
  obtain ⟨_, hrequest, h⟩ := bind_eq_ok.mp h
  unfold GoalRequest.prepare at h
  simp only [bind_eq_ok, exists_unit] at h
  obtain ⟨_, _, _, hreason, h⟩ := h
  cases h
  exact ⟨blockedReasonFor_checked hreason, GoalCall.request_create hrequest⟩

theorem GoalState.openIn_iff_anyOpen : state.anyOpen = false ↔ ∀ id, ¬ state.OpenIn id := by
  unfold GoalState.anyOpen GoalState.OpenIn
  rw [List.any_eq_false]
  constructor
  · rintro h id ⟨goal, hgoal, hopen⟩
    exact h ⟨id, goal⟩ (AList.mem_lookup_iff.mp hgoal) hopen
  · rintro h ⟨id, goal⟩ hmem hopen
    exact h id ⟨goal, AList.mem_lookup_iff.mpr hmem, hopen⟩

/-! ## A committed change replays -/

theorem applySnapshot_replay {goals' : GoalMap GoalSnapshot} {expected : Option GoalRef}
    {snapshot : GoalSnapshot} (h : applySnapshot goals expected snapshot false = .ok goals') :
    applySnapshot goals none snapshot true = .ok goals' := by
  unfold applySnapshot at h ⊢
  obtain ⟨hvalid, h⟩ := check_bind_eq_ok.mp h
  rw [hvalid, ok_bind]
  cases hlookup : goals.lookup snapshot.reference.id with
  | none =>
    rw [hlookup] at h
    obtain ⟨hfresh, h⟩ := check_bind_eq_ok.mp h
    rw [failIf_eq_ok, not_or] at hfresh
    refine check_bind_eq_ok.mpr ⟨failIf_eq_ok.mpr ?_, h⟩
    rw [not_or]
    exact ⟨by simp, hfresh.2⟩
  | some current =>
    rw [hlookup] at h
    obtain ⟨hstep, h⟩ := check_bind_eq_ok.mp h
    refine check_bind_eq_ok.mpr ⟨?_, h⟩
    unfold checkSuccessor at hstep ⊢
    obtain ⟨htomb, hstep⟩ := check_bind_eq_ok.mp hstep
    refine check_bind_eq_ok.mpr ⟨htomb, ?_⟩
    cases expected with
    | none => cases hstep
    | some expected =>
      obtain ⟨hexpected, hphase⟩ := check_bind_eq_ok.mp hstep
      rw [failIf_eq_ok, not_or] at hexpected
      exact check_bind_eq_ok.mpr ⟨failIf_eq_ok.mpr (by simpa using hexpected.2), hphase⟩

theorem now_le (clock : Nat) : now clock ≤ maxSafeInteger := Nat.min_le_right _ _

theorem GoalWrite.times_valid (hstate : state.Valid) (write : GoalWrite) (clock : Nat) :
    (write.times state clock).Valid := by
  unfold GoalWrite.times
  cases hold : state.times.lookup write.snapshot.reference.id with
  | none => exact ⟨le_refl _, now_le clock, Nat.zero_le _⟩
  | some old =>
    obtain ⟨goal, hgoal, hlive⟩ := hstate.untimed _ old hold
    obtain ⟨times, htimes, hvalid⟩ := hstate.timed _ goal hgoal hlive
    obtain rfl : old = times := some.inj (hold.symm.trans htimes)
    obtain ⟨hcreated, hupdated, hrounds⟩ := hvalid
    exact ⟨hcreated.trans (Nat.le_max_right _ _), Nat.max_le.mpr ⟨now_le clock, hupdated⟩,
      hrounds⟩

theorem clear_snapshot_eq {current next : GoalSnapshot}
    (hop : operationValid .clear current next = true) :
    next = { reference := next.reference, phase := current.phase, title := current.title
             maxGoalRounds := current.maxGoalRounds, tombstone := true } := by
  obtain ⟨_, _, _, _, _⟩ := next
  simp [operationValid] at hop
  simp [hop]

theorem applyGoalChange_clear (hstate : state.Valid) (hop : write.operation = .clear)
    (hplan : write.plan state = .ok goals) :
    applyGoalChange state (Wire.changeToValue (write.change (write.times state clock)))
      = .ok { state.forget goals write.snapshot.reference.id with activation := none } := by
  obtain ⟨hvalid, happly⟩ := check_bind_eq_ok.mp hplan
  rw [hop] at hvalid
  obtain ⟨current, hlookup, _, _, hstep⟩ := validateGoalOperation_revise (by decide) hvalid
  have hsnapshot := clear_snapshot_eq hstep
  have hreference : write.snapshot.reference.validate = .ok () :=
    (check_bind_eq_ok.mp (applySnapshot_eq_ok happly).1).1
  have hbound := (write.times_valid hstate clock).2.1
  rw [GoalWrite.change, if_pos hop, applyGoalChange, Wire.changeFromValue_clear]
  dsimp only
  have hshape : (GoalChange.clear write.snapshot.reference
      (write.times state clock).updatedAt).validateShape = .ok () := by
    simp only [GoalChange.validateShape, GoalChange.clear, GoalChange.validateClearShape]
    simp [check_bind_eq_ok, failIf_eq_ok, hreference, hbound]
  have hoperation : (GoalChange.clear write.snapshot.reference
      (write.times state clock).updatedAt).operation = .clear := rfl
  rw [hshape, ok_bind, if_pos hoperation]
  simp only [applyClear, GoalChange.clear, hlookup]
  rw [← hsnapshot, hvalid, ok_bind, applySnapshot_replay happly]
  rfl

/-- The times a call writes pass the check of the fold. -/
theorem validateGoalTimes_write (hstate : state.Valid) (hplan : write.plan state = .ok goals)
    (clock : Nat) :
    validateGoalTimes state.times write.operation write.snapshot (write.times state clock)
      = .ok () := by
  obtain ⟨hvalid, happly⟩ := check_bind_eq_ok.mp hplan
  unfold validateGoalTimes
  by_cases hop : write.operation = .create
  · -- a created goal is new, so it has no times yet
    rw [if_pos hop, failIf_eq_ok, not_not]
    have hnew : state.goals.lookup write.snapshot.reference.id = none := by
      rw [hop] at hvalid
      have hone := (validateGoalOperation_create hvalid).2.1
      rcases applySnapshot_step happly with ⟨hnone, _⟩ | ⟨current, hcurrent, _, _, hnext, _⟩
      · exact hnone
      · -- the successor of a snapshot has a revision above one
        have hpos := hstate.revised _ current hcurrent
        unfold u64Bound at hnext
        omega
    have htimes : state.times.lookup write.snapshot.reference.id = none := by
      cases hold : state.times.lookup write.snapshot.reference.id with
      | none => rfl
      | some old =>
        obtain ⟨_, hgoal, _⟩ := hstate.untimed _ old hold
        rw [hnew] at hgoal
        cases hgoal
    simp [GoalWrite.times, htimes]
  · rw [if_neg hop]
    obtain ⟨current, hlookup, hlive, _⟩ := validateGoalOperation_revise hop hvalid
    obtain ⟨_, hold, _⟩ := hstate.timed _ current hlookup hlive
    rw [hold]
    refine failIf_eq_ok.mpr (not_not.mpr ?_)
    rw [GoalWrite.times, hold]
    exact ⟨rfl, Nat.le_max_right _ _, rfl⟩

theorem GoalWrite.snapshot_live (hop : write.operation ≠ .clear)
    (hplan : write.plan state = .ok goals) : write.snapshot.tombstone = false := by
  obtain ⟨hvalid, _⟩ := check_bind_eq_ok.mp hplan
  by_cases hcreate : write.operation = .create
  · rw [hcreate] at hvalid
    exact (validateGoalOperation_create hvalid).1
  · obtain ⟨_, _, _, _, hstep⟩ := validateGoalOperation_revise hcreate hvalid
    rw [operationValid_tombstone hstep]
    simpa using hop

/-- A planned change is applied as it was planned. -/
theorem applyGoalChange_revise (hstate : state.Valid) (hprepared : write.Prepared)
    (hop : write.operation ≠ .clear) (hplan : write.plan state = .ok goals) :
    ∃ activation,
      applyGoalChange state (Wire.changeToValue (write.change (write.times state clock)))
        = .ok { state.remember goals write.snapshot.reference.id (write.times state clock)
                  write.blockedReason with activation } := by
  have hkept := validateGoalTimes_write hstate hplan clock
  have hlive := write.snapshot_live hop hplan
  obtain ⟨hvalid, happly⟩ := check_bind_eq_ok.mp hplan
  obtain ⟨hcreated, hupdated, hrounds⟩ := write.times_valid hstate clock
  have hchecked := hprepared
  have hvalidate := (applySnapshot_eq_ok happly).1
  generalize write.times state clock = times at hkept hcreated hupdated hrounds
  have hoperation : (GoalChange.snapshot write.operation write.snapshot times
      write.blockedReason).operation ≠ .clear := hop
  have hshape : (GoalChange.snapshot write.operation write.snapshot times
      write.blockedReason).validateShape = .ok () := by
    refine check_bind_eq_ok.mpr ⟨failIf_eq_ok.mpr (by simp [GoalChange.snapshot]), ?_⟩
    rw [if_neg hoperation]
    refine check_bind_eq_ok.mpr ⟨failIf_eq_ok.mpr ?_, hchecked⟩
    simp only [GoalChange.snapshot, Option.isNone_some, Option.isSome_none, false_eq_true,
      false_or]
    omega
  have hwire : (GoalSnapshotWire.fromSnapshot write.snapshot write.blockedReason).snapshot
      = .ok (write.snapshot, write.blockedReason) := by
    have hsame : write.snapshot = { write.snapshot with tombstone := false } := by
      rw [← hlive]
    simp only [GoalSnapshotWire.snapshot, GoalSnapshotWire.fromSnapshot]
    rw [hchecked, ok_bind]
    rw [hsame] at hvalidate
    rw [hvalidate, ok_bind]
    exact congrArg Except.ok (Prod.ext hsame.symm rfl)
  rw [GoalWrite.change, if_neg hop, applyGoalChange, Wire.changeFromValue_snapshot]
  dsimp only
  rw [hshape, ok_bind]
  rw [if_neg hoperation]
  simp only [applyRevision, GoalChange.snapshot, hwire, ok_bind, GoalChange.times]
  rw [hvalid, ok_bind, hkept, ok_bind, applySnapshot_replay happly, ok_bind]
  exact ⟨_, rfl⟩

/-- At the end of the log, replaying a change gives the cache its writer
moved to. -/
theorem GoalWrite.commit_tracks (htracks : Tracks S log state)
    (hend : state.observedEvents = log.length) (hprepared : write.Prepared)
    (hplan : write.plan state = .ok goals) (clock time : Nat) :
    Tracks S (log ++ [write.event state clock time]) (write.commit state goals clock) := by
  obtain ⟨folded, hfold, hsame⟩ := htracks.at_end hend
  have hstate : state.Valid := (foldGoals_valid hfold).of_same hsame
  -- replay from the view's own state first, then from the fold
  have hagree := applyGoalEvent_agree (S := S) hsame (write.event state clock time)
  have hown : ∃ after, applyGoalEvent S state (write.event state clock time) = .ok after
      ∧ SameLedger after (write.commit state goals clock) := by
    rw [applyGoalEvent_change rfl]
    by_cases hop : write.operation = .clear
    · refine ⟨_, applyGoalChange_clear hstate hop hplan, ?_⟩
      simp [SameLedger, GoalState.ledger, GoalWrite.commit, hop, GoalState.forget]
    · obtain ⟨_, happly⟩ := applyGoalChange_revise hstate hprepared hop hplan
      refine ⟨_, happly, ?_⟩
      simp [SameLedger, GoalState.ledger, GoalWrite.commit, hop, GoalState.remember]
  obtain ⟨_, hafter, hcommit⟩ := hown
  rw [hafter] at hagree
  cases hnext : applyGoalEvent S folded (write.event state clock time) with
  | error err => rw [hnext] at hagree; cases hagree
  | ok next =>
    rw [hnext] at hagree
    cases hagree with
    | ok hledger =>
      have hwhole : foldGoals S (log ++ [write.event state clock time]) = .ok next :=
        foldGoals_append.mpr ⟨folded, hfold, by simp [hnext]⟩
      refine tracks_of_fold hwhole (hledger.trans hcommit) ?_
      simp [GoalWrite.commit, hend]

end Tessivum.Goal
