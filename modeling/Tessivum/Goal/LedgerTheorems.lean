/-
Tessivum.Goal.LedgerTheorems — what replaying the goal ledger keeps.

`Replayed` says once what an accepted event can do to the ledger: leave it
alone, revise a goal, clear a goal, or count a round. Everything else is read
off it: the ledger stays well formed (`GoalState.Valid`), and a goal that is
open after an event was open before it or was created by it
(`Replayed.open_before`).

Two states with one ledger replay an event alike (`applyGoalEvent_agree`), so a
view can be compared with the fold of the log through its ledger only.
-/
import Tessivum.Goal.Ledger

namespace Tessivum.Goal

open Library Protocol Session

variable {S : Serde}

/-! ## The durable part of a state -/

def GoalState.ledger (state : GoalState) : GoalState :=
  { state with activation := none, nextActivation := 0, observedEvents := 0 }

def SameLedger (a b : GoalState) : Prop := a.ledger = b.ledger

variable {a b state state' : GoalState} {change : GoalChange} {e : SessionEvent}
  {snapshot goal next : GoalSnapshot} {expected : Option GoalRef} {goals' : GoalMap GoalSnapshot}
  {replay : Bool} {α : Type} {id : String} {operation : GoalOperation}

section

variable (h : SameLedger a b)

include h

theorem SameLedger.goals : a.goals = b.goals :=
  show a.ledger.goals = b.ledger.goals from congrArg GoalState.goals h

theorem SameLedger.times : a.times = b.times :=
  show a.ledger.times = b.ledger.times from congrArg GoalState.times h

theorem SameLedger.blockedReasons : a.blockedReasons = b.blockedReasons :=
  show a.ledger.blockedReasons = b.ledger.blockedReasons from
    congrArg GoalState.blockedReasons h

theorem SameLedger.current : a.current = b.current :=
  show a.ledger.current = b.ledger.current from congrArg GoalState.current h

theorem SameLedger.trans {c : GoalState} (h' : SameLedger b c) :
    SameLedger a c := Eq.trans h h'

theorem SameLedger.forget (goals : GoalMap GoalSnapshot) (id : String) :
    SameLedger (a.forget goals id) (b.forget goals id) := by
  simp [SameLedger, GoalState.ledger, GoalState.forget, h.times, h.blockedReasons]

theorem SameLedger.remember (goals : GoalMap GoalSnapshot) (id : String)
    (times : GoalTimes) (reason : Option GoalBlockReason) :
    SameLedger (a.remember goals id times reason) (b.remember goals id times reason) := by
  simp [SameLedger, GoalState.ledger, GoalState.remember, h.times, h.blockedReasons]

end

theorem observeRound_ledger (state : GoalState) (goal : GoalSnapshot) (round seq : Nat) :
    (state.observeRound goal round seq).ledger = state.ledger := by
  unfold GoalState.observeRound
  split
  · split <;> rfl
  · rfl

/-! ## Replay reads the ledger only -/

section

variable (h : SameLedger a b)

include h

/-- Clearing a goal does the same to equal ledgers. -/
theorem applyClear_agree (change : GoalChange) :
    Agree SameLedger (applyClear a change) (applyClear b change) := by
  unfold applyClear
  rw [h.goals]
  split
  · exact .error _
  · split
    · exact .error _
    · refine Agree.check _ fun _ => ?_
      cases happly : applySnapshot b.goals none _ true with
      | error err => exact .error err
      | ok goals => exact .ok (h.forget goals _)

/-- A revision does the same to equal ledgers. -/
theorem applyRevision_agree (change : GoalChange) :
    Agree SameLedger (applyRevision a change) (applyRevision b change) := by
  unfold applyRevision
  rw [h.goals, h.times]
  split
  · exact .error _
  · rename_i wire _
    cases hwire : wire.snapshot with
    | error err => exact .error err
    | ok pair =>
      obtain ⟨snapshot, reason⟩ := pair
      cases htimes : change.times with
      | error err => exact .error err
      | ok times =>
        refine Agree.check _ fun _ => Agree.check _ fun _ => ?_
        cases happly : applySnapshot b.goals none snapshot true with
        | error err => exact .error err
        | ok goals => exact .ok (h.remember goals _ times reason)

/-- A change does the same to equal ledgers. -/
theorem applyGoalChange_agree (data : Value) :
    Agree SameLedger (applyGoalChange a data) (applyGoalChange b data) := by
  unfold applyGoalChange
  split
  · exact .error _
  · refine Agree.check _ fun _ => ?_
    split
    · exact applyClear_agree h _
    · exact applyRevision_agree h _

/-- A round does the same to equal ledgers. -/
theorem applyRound_agree (goalId : String) (revision round seq : Nat) :
    Agree SameLedger (applyRound a goalId revision round seq)
      (applyRound b goalId revision round seq) := by
  unfold applyRound
  rw [h.goals, h.times]
  split
  · exact .error _
  · refine Agree.check _ fun _ => ?_
    split
    · exact .error _
    · refine Agree.check _ fun _ => .ok ?_
      unfold SameLedger
      rw [observeRound_ledger, observeRound_ledger]
      simp [GoalState.ledger, h.blockedReasons, h.current]

/-- The event of a round does the same to equal ledgers. -/
theorem applyGoalRound_agree (e : SessionEvent) :
    Agree SameLedger (applyGoalRound S a e) (applyGoalRound S b e) := by
  unfold applyGoalRound
  split
  · exact .ok h
  · split
    · exact .error _
    · split
      · exact Agree.check _ fun _ => applyRound_agree h _ _ _ _
      · exact .ok h

/-- An event does the same to equal ledgers. -/
theorem applyGoalEvent_agree (e : SessionEvent) :
    Agree SameLedger (applyGoalEvent S a e) (applyGoalEvent S b e) := by
  unfold applyGoalEvent
  split
  · have hchange := applyGoalChange_agree h e.data
    generalize applyGoalChange a e.data = x at hchange
    generalize applyGoalChange b e.data = y at hchange
    cases hchange with
    | error err => exact .error err
    | ok h' => exact applyGoalRound_agree h' e
  · exact applyGoalRound_agree h e

end

/-- A log does the same to equal ledgers. -/
theorem foldGoals_agree : ∀ (events : List SessionEvent) {a b : GoalState}, SameLedger a b →
    Agree SameLedger (events.foldlM (applyGoalEvent S) a) (events.foldlM (applyGoalEvent S) b) := by
  intro events
  induction events with
  | nil => intro a b h; exact .ok h
  | cons e rest ih =>
    intro a b h
    rw [foldlM_cons, foldlM_cons]
    have hstep := applyGoalEvent_agree (S := S) h e
    generalize applyGoalEvent S a e = x at hstep
    generalize applyGoalEvent S b e = y at hstep
    cases hstep with
    | error err => exact .error err
    | ok h' => exact ih h'

/-! ## What an accepted event does -/

/-- The round a `user/message` event starts, if its source is a goal. -/
def roundOf (S : Serde) (e : SessionEvent) : Option (String × Nat × Nat) :=
  if e.eventType ≠ "user/message" then none
  else
    match S.messageFromValue e.data with
    | some message =>
      match message.source with
      | .goal goalId revision round => some (goalId, revision, round)
      | _ => none
    | none => none

/-- The effect of an accepted event on a state. -/
inductive Replayed (S : Serde) (state : GoalState) (e : SessionEvent) : GoalState → Prop
  | quiet (htype : e.eventType ≠ "goal/change") (hround : roundOf S e = none) :
      Replayed S state e state
  | cleared (change : GoalChange) (snapshot : GoalSnapshot) (goals : GoalMap GoalSnapshot)
      (htype : e.eventType = "goal/change")
      (hchange : Wire.changeFromValue e.data = some change)
      (hop : change.operation = .clear) (href : change.cleared = some snapshot.reference)
      (hvalid : validateGoalOperation state.goals .clear snapshot = .ok ())
      (happly : applySnapshot state.goals none snapshot true = .ok goals) :
      Replayed S state e
        { state.forget goals snapshot.reference.id with activation := none }
  | revised (change : GoalChange) (wire : GoalSnapshotWire) (snapshot : GoalSnapshot)
      (times : GoalTimes) (reason : Option GoalBlockReason) (goals : GoalMap GoalSnapshot)
      (activation : Option Activation) (htype : e.eventType = "goal/change")
      (hchange : Wire.changeFromValue e.data = some change)
      (hshape : change.validateSnapshotShape = .ok ()) (hop : change.operation ≠ .clear)
      (hgoal : change.goal = some wire) (hwire : wire.snapshot = .ok (snapshot, reason))
      (htimes : change.times = .ok times)
      (hvalid : validateGoalOperation state.goals change.operation snapshot = .ok ())
      (hkept : validateGoalTimes state.times change.operation snapshot times = .ok ())
      (happly : applySnapshot state.goals none snapshot true = .ok goals) :
      Replayed S state e
        { state.remember goals snapshot.reference.id times reason with activation }
  | counted (goalId : String) (revision round : Nat) (goal : GoalSnapshot) (times : GoalTimes)
      (htype : e.eventType = "user/message")
      (hround : roundOf S e = some (goalId, revision, round))
      (hgoal : activeGoal state.goals goalId = some goal)
      (hrevision : goal.reference.revision = revision)
      (htimes : state.times.lookup goalId = some times)
      (hnext : round = min (times.roundsStarted + 1) (u64Bound - 1))
      (hcap : round ≤ goal.maxGoalRounds) :
      Replayed S state e
        (GoalState.observeRound
          { state with times := state.times.insert goalId { times with roundsStarted := round } }
          goal round e.seq)

theorem applyClear_eq_ok (h : applyClear state change = .ok state') :
    ∃ snapshot goals, change.cleared = some snapshot.reference
      ∧ validateGoalOperation state.goals .clear snapshot = .ok ()
      ∧ applySnapshot state.goals none snapshot true = .ok goals
      ∧ state' = { state.forget goals snapshot.reference.id with activation := none } := by
  unfold applyClear at h
  split at h
  · cases h
  · split at h
    · cases h
    · obtain ⟨hvalid, h⟩ := check_bind_eq_ok.mp h
      obtain ⟨goals, happly, h⟩ := bind_eq_ok.mp h
      cases h
      exact ⟨_, goals, by assumption, hvalid, happly, rfl⟩

theorem applyRevision_eq_ok (h : applyRevision state change = .ok state') :
    ∃ wire snapshot times reason goals activation, change.goal = some wire
      ∧ wire.snapshot = .ok (snapshot, reason) ∧ change.times = .ok times
      ∧ validateGoalOperation state.goals change.operation snapshot = .ok ()
      ∧ validateGoalTimes state.times change.operation snapshot times = .ok ()
      ∧ applySnapshot state.goals none snapshot true = .ok goals
      ∧ state' = { state.remember goals snapshot.reference.id times reason with activation } := by
  unfold applyRevision at h
  split at h
  · cases h
  · obtain ⟨⟨snapshot, reason⟩, hwire, h⟩ := bind_eq_ok.mp h
    obtain ⟨times, htimes, h⟩ := bind_eq_ok.mp h
    obtain ⟨hvalid, h⟩ := check_bind_eq_ok.mp h
    obtain ⟨hkept, h⟩ := check_bind_eq_ok.mp h
    obtain ⟨goals, happly, h⟩ := bind_eq_ok.mp h
    cases h
    exact ⟨_, snapshot, times, reason, goals, _, by assumption, hwire, htimes, hvalid, hkept,
      happly, rfl⟩

theorem applyGoalChange_replayed (htype : e.eventType = "goal/change")
    (h : applyGoalChange state e.data = .ok state') : Replayed S state e state' := by
  unfold applyGoalChange at h
  cases hchange : Wire.changeFromValue e.data with
  | none => rw [hchange] at h; cases h
  | some change =>
    rw [hchange] at h
    obtain ⟨hshape, h⟩ := check_bind_eq_ok.mp h
    replace hshape := after_check hshape
    by_cases hop : change.operation = .clear
    · rw [if_pos hop] at h
      obtain ⟨snapshot, goals, href, hvalid, happly, rfl⟩ := applyClear_eq_ok h
      exact .cleared change snapshot goals htype hchange hop href hvalid happly
    · rw [if_neg hop] at h hshape
      obtain ⟨wire, snapshot, times, reason, goals, activation, hgoal, hwire, htimes, hvalid,
        hkept, happly, rfl⟩ := applyRevision_eq_ok h
      exact .revised change wire snapshot times reason goals activation htype hchange hshape hop
        hgoal hwire htimes hvalid hkept happly

theorem applyRound_replayed {goalId : String} {revision round : Nat}
    (htype : e.eventType = "user/message") (hround : roundOf S e = some (goalId, revision, round))
    (h : applyRound state goalId revision round e.seq = .ok state') :
    Replayed S state e state' := by
  unfold applyRound at h
  cases hgoal : activeGoal state.goals goalId with
  | none => rw [hgoal] at h; cases h
  | some goal =>
    rw [hgoal] at h
    obtain ⟨hrevision, h⟩ := check_bind_eq_ok.mp h
    rw [failIf_eq_ok, not_not] at hrevision
    cases htimes : state.times.lookup goalId with
    | none => rw [htimes] at h; cases h
    | some times =>
      rw [htimes] at h
      obtain ⟨hnext, h⟩ := check_bind_eq_ok.mp h
      rw [failIf_eq_ok, not_or, not_not, not_lt] at hnext
      cases h
      exact .counted goalId revision round goal times htype hround hgoal hrevision htimes
        hnext.1 hnext.2

theorem applyGoalRound_replayed (htype : e.eventType ≠ "goal/change")
    (h : applyGoalRound S state e = .ok state') : Replayed S state e state' := by
  unfold applyGoalRound at h
  by_cases huser : e.eventType = "user/message"
  · rw [if_neg (not_not.mpr huser)] at h
    cases hmessage : S.messageFromValue e.data with
    | none => rw [hmessage] at h; cases h
    | some message =>
      rw [hmessage] at h
      dsimp only at h
      cases hsource : message.source with
      | goal =>
        rw [hsource] at h
        replace h := after_check h
        exact applyRound_replayed huser (by simp [roundOf, huser, hmessage, hsource]) h
      | _ =>
        rw [hsource] at h
        cases h
        exact .quiet htype (by simp [roundOf, huser, hmessage, hsource])
  · rw [if_pos huser] at h
    cases h
    exact .quiet htype (by simp [roundOf, huser])

theorem applyGoalEvent_change (htype : e.eventType = "goal/change") (state : GoalState) :
    applyGoalEvent S state e = applyGoalChange state e.data := by
  unfold applyGoalEvent
  rw [if_pos htype]
  cases applyGoalChange state e.data with
  | error err => rfl
  | ok mid => simp [applyGoalRound, htype]

theorem applyGoalEvent_other (htype : e.eventType ≠ "goal/change") (state : GoalState) :
    applyGoalEvent S state e = applyGoalRound S state e := by
  unfold applyGoalEvent
  rw [if_neg htype]
  rfl

theorem applyGoalEvent_replayed (h : applyGoalEvent S state e = .ok state') :
    Replayed S state e state' := by
  by_cases htype : e.eventType = "goal/change"
  · rw [applyGoalEvent_change htype] at h
    exact applyGoalChange_replayed htype h
  · rw [applyGoalEvent_other htype] at h
    exact applyGoalRound_replayed htype h

/-! ## Well-formed ledgers -/

def GoalTimes.Valid (times : GoalTimes) : Prop :=
  times.createdAt ≤ times.updatedAt ∧ times.updatedAt ≤ maxSafeInteger
    ∧ times.roundsStarted ≤ maxSafeInteger

/-- A well-formed ledger: a goal is filed under its own id and has a
positive revision, a goal that is not tombstoned has times, and no other
id has. -/
structure GoalState.Valid (state : GoalState) : Prop where
  keyed : ∀ id goal, state.goals.lookup id = some goal →
    goal.reference.id = id ∧ goal.maxGoalRounds ≤ maxSafeInteger
  revised : ∀ id goal, state.goals.lookup id = some goal → 0 < goal.reference.revision
  timed : ∀ id goal, state.goals.lookup id = some goal → goal.tombstone = false →
    ∃ times, state.times.lookup id = some times ∧ times.Valid
  untimed : ∀ id times, state.times.lookup id = some times →
    ∃ goal, state.goals.lookup id = some goal ∧ goal.tombstone = false

theorem GoalState.valid_empty : GoalState.empty.Valid where
  keyed := by simp [GoalState.empty]
  revised := by simp [GoalState.empty]
  timed := by simp [GoalState.empty]
  untimed := by simp [GoalState.empty]

theorem GoalState.Valid.of_same (h : SameLedger a b) (ha : a.Valid) : b.Valid := by
  obtain ⟨hkeyed, hrevised, htimed, huntimed⟩ := ha
  rw [h.goals] at hkeyed hrevised htimed huntimed
  rw [h.times] at htimed huntimed
  exact ⟨hkeyed, hrevised, htimed, huntimed⟩

theorem GoalSnapshot.validate_cap (h : snapshot.validate = .ok ()) :
    1 ≤ snapshot.maxGoalRounds ∧ snapshot.maxGoalRounds ≤ maxSafeInteger := by
  unfold GoalSnapshot.validate at h
  simp only [check_bind_eq_ok, failIf_eq_ok] at h
  omega

theorem GoalSnapshot.validate_revision (h : snapshot.validate = .ok ()) :
    0 < snapshot.reference.revision := by
  unfold GoalSnapshot.validate GoalRef.validate at h
  simp only [check_bind_eq_ok, failIf_eq_ok] at h
  omega

variable {goals : GoalMap GoalSnapshot}

theorem applySnapshot_eq_ok
    (h : applySnapshot goals expected snapshot replay = .ok goals') :
    snapshot.validate = .ok () ∧ goals' = goals.insert snapshot.reference.id snapshot := by
  unfold applySnapshot at h
  obtain ⟨hvalid, h⟩ := check_bind_eq_ok.mp h
  split at h
  all_goals
    replace h := after_check h
    cases h
    exact ⟨hvalid, rfl⟩

/-- The step `apply_snapshot` takes: a new goal at revision one, or the
successor of a live snapshot the writer expects. -/
theorem applySnapshot_step
    (h : applySnapshot goals expected snapshot replay = .ok goals') :
    (goals.lookup snapshot.reference.id = none ∧ expected = none
        ∧ snapshot.reference.revision = 1 ∧ snapshot.tombstone = false)
      ∨ ∃ current, goals.lookup snapshot.reference.id = some current
          ∧ current.tombstone = false
          ∧ expected.or (if replay then some current.reference else none)
              = some current.reference
          ∧ snapshot.reference.revision = min (current.reference.revision + 1) (u64Bound - 1)
          ∧ current.phase.permits snapshot.phase = true := by
  unfold applySnapshot at h
  replace h := after_check h
  cases hlookup : goals.lookup snapshot.reference.id with
  | none =>
    rw [hlookup] at h
    obtain ⟨hfresh, _⟩ := check_bind_eq_ok.mp h
    rw [failIf_eq_ok] at hfresh
    simp only [not_or, not_not, not_isSome_iff_eq_none] at hfresh
    exact .inl ⟨rfl, hfresh.1, hfresh.2.1, by simpa using hfresh.2.2⟩
  | some current =>
    rw [hlookup] at h
    obtain ⟨hstep, _⟩ := check_bind_eq_ok.mp h
    unfold checkSuccessor at hstep
    obtain ⟨htomb, hstep⟩ := check_bind_eq_ok.mp hstep
    rw [failIf_eq_ok] at htomb
    refine .inr ⟨current, rfl, by simpa using htomb, ?_⟩
    split at hstep
    · cases hstep
    · rename_i hnamed
      obtain ⟨hstale, hphase⟩ := check_bind_eq_ok.mp hstep
      rw [failIf_eq_ok, not_or, not_not, not_not] at hstale
      rw [failIf_eq_ok] at hphase
      rw [hnamed, hstale.1]
      exact ⟨rfl, hstale.2, by simpa using hphase⟩

theorem lookup_insert_eq (map : GoalMap α) (id : String) (value : α) (k : String) :
    (map.insert id value).lookup k = if k = id then some value else map.lookup k := by
  by_cases hk : k = id
  · subst hk
    rw [if_pos rfl, AList.lookup_insert]
  · rw [if_neg hk, AList.lookup_insert_ne hk]

theorem lookup_erase_eq (map : GoalMap α) (id k : String) :
    (map.erase id).lookup k = if k = id then none else map.lookup k := by
  by_cases hk : k = id
  · subst hk
    rw [if_pos rfl, AList.lookup_erase]
  · rw [if_neg hk, AList.lookup_erase_ne hk]

/-- Writing one goal keeps the state valid. -/
theorem GoalState.Valid.update {next : GoalState} (h : state.Valid) (entry : Option GoalTimes)
    (hkey : goal.reference.id = id) (hrevision : 0 < goal.reference.revision)
    (hcap : goal.maxGoalRounds ≤ maxSafeInteger)
    (hlive : goal.tombstone = false → ∃ times, entry = some times ∧ times.Valid)
    (hdead : goal.tombstone = true → entry = none)
    (hgoals : ∀ k, next.goals.lookup k = if k = id then some goal else state.goals.lookup k)
    (htimes : ∀ k, next.times.lookup k = if k = id then entry else state.times.lookup k) :
    next.Valid where
  keyed k found hfound := by
    rw [hgoals] at hfound
    by_cases hk : k = id
    · rw [if_pos hk] at hfound
      cases hfound
      exact ⟨hkey.trans hk.symm, hcap⟩
    · rw [if_neg hk] at hfound
      exact h.keyed k found hfound
  revised k found hfound := by
    rw [hgoals] at hfound
    by_cases hk : k = id
    · rw [if_pos hk] at hfound
      cases hfound
      exact hrevision
    · rw [if_neg hk] at hfound
      exact h.revised k found hfound
  timed k found hfound hopen := by
    rw [hgoals] at hfound
    rw [htimes]
    by_cases hk : k = id
    · rw [if_pos hk] at hfound ⊢
      cases hfound
      exact hlive hopen
    · rw [if_neg hk] at hfound ⊢
      exact h.timed k found hfound hopen
  untimed k times hfound := by
    rw [htimes] at hfound
    rw [hgoals]
    by_cases hk : k = id
    · rw [if_pos hk] at hfound ⊢
      refine ⟨goal, rfl, ?_⟩
      cases htomb : goal.tombstone with
      | false => rfl
      | true => rw [hdead htomb] at hfound; cases hfound
    · rw [if_neg hk] at hfound ⊢
      exact h.untimed k times hfound

theorem validateGoalOperation_create
    (h : validateGoalOperation goals .create next = .ok ()) :
    next.tombstone = false ∧ next.reference.revision = 1 ∧ next.phase = .active := by
  rw [validateGoalOperation, if_pos rfl, failIf_eq_ok] at h
  simpa [and_assoc] using h

theorem validateGoalOperation_revise (hop : operation ≠ .create)
    (h : validateGoalOperation goals operation next = .ok ()) :
    ∃ current, goals.lookup next.reference.id = some current ∧ current.tombstone = false
      ∧ nextRef current.reference = .ok next.reference
      ∧ operationValid operation current next = true := by
  rw [validateGoalOperation, if_neg hop] at h
  unfold validateRevision at h
  cases hlookup : goals.lookup next.reference.id with
  | none => rw [hlookup] at h; cases h
  | some current =>
    rw [hlookup] at h
    obtain ⟨htomb, h⟩ := check_bind_eq_ok.mp h
    obtain ⟨_, hexpected, h⟩ := bind_eq_ok.mp h
    obtain ⟨hstale, h⟩ := check_bind_eq_ok.mp h
    rw [failIf_eq_ok] at htomb hstale h
    rw [not_not] at hstale
    refine ⟨current, rfl, by simpa using htomb, ?_, by simpa using h⟩
    rw [hexpected, hstale]

theorem operationValid_tombstone {current : GoalSnapshot}
    (h : operationValid operation current next = true) :
    next.tombstone = decide (operation = .clear) := by
  cases operation <;> simp_all [operationValid]

theorem operationValid_open {current : GoalSnapshot}
    (h : operationValid operation current next = true) (hlive : current.tombstone = false)
    (hopen : next.isOpen = true) : current.isOpen = true := by
  simp only [GoalSnapshot.isOpen, and_eq_true, not_eq_true', bne_iff_ne, ne_eq]
    at hopen ⊢
  refine ⟨hlive, ?_⟩
  cases operation <;> grind [operationValid]

theorem GoalSnapshotWire.snapshot_eq_ok {wire : GoalSnapshotWire} {reason : Option GoalBlockReason}
    (h : wire.snapshot = .ok (snapshot, reason)) :
    snapshot.reference.id = wire.id ∧ snapshot.tombstone = false := by
  unfold GoalSnapshotWire.snapshot at h
  replace h := after_check h
  replace h := after_check h
  cases h
  exact ⟨rfl, rfl⟩

theorem GoalChange.times_valid {times : GoalTimes} (hshape : change.validateSnapshotShape = .ok ())
    (h : change.times = .ok times) : times.Valid := by
  unfold GoalChange.times at h
  unfold GoalChange.validateSnapshotShape at hshape
  split at h
  · cases h
  · cases h
  · cases h
  · rename_i hcreated hupdated hrounds
    cases h
    rw [hcreated, hupdated, hrounds] at hshape
    obtain ⟨hbounds, _⟩ := check_bind_eq_ok.mp hshape
    rw [failIf_eq_ok] at hbounds
    simp only [not_or, not_lt] at hbounds
    exact ⟨hbounds.2.2.2.2.2.2, hbounds.2.2.2.2.2.1, hbounds.2.2.2.1⟩

theorem observeRound_goals (state : GoalState) (goal : GoalSnapshot) (round seq : Nat) :
    (state.observeRound goal round seq).goals = state.goals :=
  SameLedger.goals (observeRound_ledger state goal round seq)

theorem observeRound_times (state : GoalState) (goal : GoalSnapshot) (round seq : Nat) :
    (state.observeRound goal round seq).times = state.times :=
  SameLedger.times (observeRound_ledger state goal round seq)

theorem activeGoal_eq_some :
    activeGoal goals id = some goal ↔
      goals.lookup id = some goal ∧ goal.tombstone = false ∧ goal.phase = .active := by
  simp [activeGoal, Option.filter_eq_some_iff]

/-- What is replayed stays valid. -/
theorem Replayed.valid (h : Replayed S state e state') (hstate : state.Valid) : state'.Valid := by
  cases h with
  | quiet => exact hstate
  | cleared change snapshot goals _ _ _ _ hvalid happly =>
    obtain ⟨hsnapshot, rfl⟩ := applySnapshot_eq_ok happly
    obtain ⟨current, _, _, _, hop⟩ := validateGoalOperation_revise (by decide) hvalid
    have htomb : snapshot.tombstone = true := operationValid_tombstone hop
    refine hstate.update none rfl (GoalSnapshot.validate_revision hsnapshot)
      (GoalSnapshot.validate_cap hsnapshot).2 ?_ ?_
      (lookup_insert_eq _ _ _) (lookup_erase_eq _ _)
    · intro hlive
      rw [htomb] at hlive
      cases hlive
    · intro _
      rfl
  | revised change wire snapshot times reason goals _ _ _ hshape _ _ hwire htimes _ _ happly =>
    obtain ⟨hsnapshot, rfl⟩ := applySnapshot_eq_ok happly
    have hlive := (GoalSnapshotWire.snapshot_eq_ok hwire).2
    refine hstate.update (some times) rfl (GoalSnapshot.validate_revision hsnapshot)
      (GoalSnapshot.validate_cap hsnapshot).2 ?_ ?_
      (lookup_insert_eq _ _ _) (lookup_insert_eq _ _ _)
    · intro _
      exact ⟨times, rfl, GoalChange.times_valid hshape htimes⟩
    · intro hdead
      rw [hlive] at hdead
      cases hdead
  | counted goalId revision round goal times _ _ hgoal _ htimes _ hcap =>
    obtain ⟨hlookup, hlive, _⟩ := activeGoal_eq_some.mp hgoal
    obtain ⟨hkey, hmax⟩ := hstate.keyed goalId goal hlookup
    obtain ⟨known, hknown, hvalid⟩ := hstate.timed goalId goal hlookup hlive
    obtain rfl : times = known := some.inj (htimes.symm.trans hknown)
    refine hstate.update (some { times with roundsStarted := round }) hkey
      (hstate.revised goalId goal hlookup) hmax ?_ ?_ ?_ ?_
    · intro _
      exact ⟨_, rfl, hvalid.1, hvalid.2.1, hcap.trans hmax⟩
    · intro hdead
      rw [hlive] at hdead
      cases hdead
    · intro k
      rw [observeRound_goals]
      by_cases hk : k = goalId
      · rw [if_pos hk, hk]
        exact hlookup
      · rw [if_neg hk]
    · intro k
      rw [observeRound_times]
      exact lookup_insert_eq _ _ _ k

theorem foldGoals_valid {log : List SessionEvent} (h : foldGoals S log = .ok state) : state.Valid :=
  foldlM_invariant GoalState.Valid
    (fun _ _ _ hvalid hstep => (applyGoalEvent_replayed hstep).valid hvalid) log
    GoalState.valid_empty h

/-! ## Open goals -/

def GoalState.OpenIn (state : GoalState) (id : String) : Prop :=
  ∃ goal, state.goals.lookup id = some goal ∧ goal.isOpen = true

def GoalState.AtMostOneOpen (state : GoalState) : Prop :=
  ∀ a b, state.OpenIn a → state.OpenIn b → a = b

theorem GoalState.openIn_of_same (h : SameLedger a b) (hopen : a.OpenIn id) : b.OpenIn id := by
  obtain ⟨goal, hgoal, hlive⟩ := hopen
  exact ⟨goal, by rw [← h.goals]; exact hgoal, hlive⟩

def createdBy (e : SessionEvent) : Option String :=
  if e.eventType = "goal/change" then
    ((Wire.changeFromValue e.data).filter fun change => change.operation = .create).bind
      fun change => change.goal.map GoalSnapshotWire.id
  else none

theorem openIn_insert
    (hvalid : validateGoalOperation state.goals operation snapshot = .ok ())
    (happly : goals = state.goals.insert snapshot.reference.id snapshot)
    (hgoal : goals.lookup id = some goal) (hopen : goal.isOpen = true) :
    state.OpenIn id ∨ (operation = .create ∧ snapshot.reference.id = id) := by
  rw [happly, lookup_insert_eq] at hgoal
  by_cases hid : id = snapshot.reference.id
  · rw [if_pos hid] at hgoal
    cases hgoal
    by_cases hop : operation = .create
    · exact .inr ⟨hop, hid.symm⟩
    · obtain ⟨current, hlookup, hlive, _, hstep⟩ := validateGoalOperation_revise hop hvalid
      refine .inl ⟨current, ?_, operationValid_open hstep hlive hopen⟩
      rw [hid]
      exact hlookup
  · rw [if_neg hid] at hgoal
    exact .inl ⟨goal, hgoal, hopen⟩

/-- A goal that is open after an event was open before it or was created
by it. -/
theorem Replayed.open_before (h : Replayed S state e state') (hopen : state'.OpenIn id) :
    state.OpenIn id ∨ createdBy e = some id := by
  cases h with
  | quiet => exact .inl hopen
  | cleared change snapshot goals _ _ _ _ hvalid happly =>
    obtain ⟨_, hgoal, hlive⟩ := hopen
    rcases openIn_insert hvalid (applySnapshot_eq_ok happly).2 hgoal hlive with h | ⟨hop, _⟩
    · exact .inl h
    · cases hop
  | revised change wire snapshot times reason goals _ htype hchange _ _ hwire hsnapshot _ hvalid _
      happly =>
      obtain ⟨_, hgoal, hlive⟩ := hopen
      rcases openIn_insert hvalid (applySnapshot_eq_ok happly).2 hgoal hlive with h | ⟨hop, hid⟩
      · exact .inl h
      · refine .inr ?_
        rw [(GoalSnapshotWire.snapshot_eq_ok hsnapshot).1] at hid
        simp [createdBy, htype, hchange, filter_some, hop, hwire, hid]
  | counted =>
    obtain ⟨found, hfound, hlive⟩ := hopen
    rw [observeRound_goals] at hfound
    exact .inl ⟨found, hfound, hlive⟩

theorem open_before_of_foldlM : ∀ {events : List SessionEvent} {state state' : GoalState},
    events.foldlM (applyGoalEvent S) state = .ok state' → ∀ {id : String}, state'.OpenIn id →
      state.OpenIn id ∨ ∃ e ∈ events, createdBy e = some id := by
  intro events
  induction events with
  | nil =>
    intro state state' h id hopen
    cases h
    exact .inl hopen
  | cons e rest ih =>
    intro state state' h id hopen
    rw [foldlM_cons] at h
    obtain ⟨_, hmid, hrest⟩ := bind_eq_ok.mp h
    rcases ih hrest hopen with h | ⟨e', he', hcreated⟩
    · rcases (applyGoalEvent_replayed hmid).open_before h with h | h
      · exact .inl h
      · exact .inr ⟨e, mem_cons_self, h⟩
    · exact .inr ⟨e', mem_cons_of_mem e he', hcreated⟩

end Tessivum.Goal
