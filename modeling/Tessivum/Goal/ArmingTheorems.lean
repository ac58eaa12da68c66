/-
Tessivum.Goal.ArmingTheorems — an armed goal is runnable.

An activation is good for something while it names the current revision of an
active goal (`GoalState.Armed`): `drive` then queues the next round, and where
there is no activation `resume` arms one. Replay and every operation of the
service move the activation along or drop it, with three exceptions: a `write`
on the armed goal, the replay of a resume of the armed goal that another view
has made, and a resume that cannot read the next sequence number after its
commit.
-/
import Tessivum.Goal.Arming
import Tessivum.Goal.RoundTheorems

namespace Tessivum.Goal

open Library Protocol Session GoalView GoalState

variable {σ : Type} {S : Serde} {P : Persistence σ}

/-! ## Armed states -/

def ActiveRef (goals : GoalMap GoalSnapshot) (reference : GoalRef) : Prop :=
  ∃ goal, activeGoal goals reference.id = some goal ∧ goal.reference = reference

/-- The activation, if any, names the current revision of an active
goal. -/
def GoalState.Armed (state : GoalState) : Prop :=
  ∀ a ∈ state.activation, ActiveRef state.goals a.reference

variable {state a b next : GoalState} {goals : GoalMap GoalSnapshot} {snapshot goal : GoalSnapshot}
  {reference : GoalRef} {expected : Option GoalRef} {replay : Bool} {operation : GoalOperation}
  {e : SessionEvent} {log : List SessionEvent} {call : GoalCall} {token : Cancellation}
  {job : GoalJob} {seq : Nat} {view : GoalView} {sys : GoalSystem σ}

theorem GoalState.armed_of_none (h : state.activation = none) : state.Armed := by
  intro a ha
  rw [h] at ha
  cases ha

theorem activeRef_insert (hlive : snapshot.tombstone = false) (hphase : snapshot.phase = .active) :
    ActiveRef (goals.insert snapshot.reference.id snapshot) snapshot.reference :=
  ⟨snapshot, activeGoal_eq_some.mpr ⟨by rw [lookup_insert_eq, if_pos rfl], hlive, hphase⟩, rfl⟩

theorem ActiveRef.insert_of_ne (h : ActiveRef goals reference)
    (hne : reference.id ≠ snapshot.reference.id) :
    ActiveRef (goals.insert snapshot.reference.id snapshot) reference := by
  obtain ⟨goal, hgoal, href⟩ := h
  obtain ⟨hlookup, hlive⟩ := activeGoal_eq_some.mp hgoal
  exact ⟨goal, activeGoal_eq_some.mpr ⟨by rw [lookup_insert_eq, if_neg hne, hlookup], hlive⟩,
    href⟩

theorem GoalState.Armed.of_eq (h : a.Armed) (hgoals : b.goals = a.goals)
    (hactivation : b.activation.map Activation.reference = a.activation.map Activation.reference) :
    b.Armed := by
  intro x hx
  have hmem : x.reference ∈ a.activation.map Activation.reference := by
    rw [← hactivation]
    exact Option.mem_map_of_mem _ hx
  obtain ⟨y, hy, href⟩ := Option.mem_map.mp hmem
  rw [hgoals, ← href]
  exact h y hy

/-! ## Legal steps of an active goal -/

theorem create_fresh (hstate : state.Valid)
    (hvalid : validateGoalOperation state.goals .create snapshot = .ok ())
    (happly : applySnapshot state.goals expected snapshot replay = .ok goals) :
    state.goals.lookup snapshot.reference.id = none := by
  rcases applySnapshot_step happly with ⟨hnone, _⟩ | ⟨current, hlookup, _, _, hrevision, _⟩
  · exact hnone
  · have hone := (validateGoalOperation_create hvalid).2.1
    have hpos := hstate.revised _ _ hlookup
    have hbound : (u64Bound : Nat) = 18446744073709551616 := rfl
    omega

theorem operation_of_active (hvalid : validateGoalOperation goals operation snapshot = .ok ())
    (hlive : snapshot.tombstone = false) (hphase : snapshot.phase = .active) :
    operation = .create ∨ operation = .edit ∨ operation = .resume := by
  by_cases hcreate : operation = .create
  · exact .inl hcreate
  · obtain ⟨current, _, _, _, hop⟩ := validateGoalOperation_revise hcreate hvalid
    cases operation <;> simp_all [operationValid]

theorem armed_change (hstate : state.Valid) {a : Activation}
    (hvalid : validateGoalOperation state.goals operation snapshot = .ok ())
    (happly : applySnapshot state.goals expected snapshot replay = .ok goals)
    (ha : ActiveRef state.goals a.reference)
    (hne : operation = .create ∨ a.reference.id ≠ snapshot.reference.id) :
    ActiveRef goals a.reference := by
  obtain ⟨_, rfl⟩ := applySnapshot_eq_ok happly
  refine ha.insert_of_ne ?_
  rcases hne with rfl | hne
  · intro heq
    obtain ⟨_, hgoal, _⟩ := ha
    have hnone := create_fresh hstate hvalid happly
    rw [← heq, (activeGoal_eq_some.mp hgoal).1] at hnone
    cases hnone
  · exact hne

/-! ## Replay -/

/-- The goal a `goal/change` event resumes. -/
def resumedBy (e : SessionEvent) : Option String :=
  if e.eventType = "goal/change" then
    (Wire.changeFromValue e.data).bind fun change =>
      if change.operation = .resume then change.goal.map GoalSnapshotWire.id else none
  else none

/-- What an accepted event does to the activation. -/
inductive Rearmed (state : GoalState) (e : SessionEvent) : GoalState → Prop
  | quiet : Rearmed state e state
  | cleared (next : GoalState) (hactivation : next.activation = none) : Rearmed state e next
  | revised (operation : GoalOperation) (snapshot : GoalSnapshot) (next : GoalState)
      (hresume : operation = .resume → resumedBy e = some snapshot.reference.id)
      (hlive : snapshot.tombstone = false)
      (hvalid : validateGoalOperation state.goals operation snapshot = .ok ())
      (happly : applySnapshot state.goals none snapshot true = .ok next.goals)
      (hactivation : next.activation
        = state.activation.bind (Activation.follow operation snapshot))
      (hcurrent : next.current = some snapshot.reference.id) : Rearmed state e next
  | counted (goal : GoalSnapshot) (next : GoalState)
      (hgoal : activeGoal state.goals goal.reference.id = some goal)
      (hgoals : next.goals = state.goals)
      (hactivation : next.activation.map Activation.reference = some goal.reference) :
      Rearmed state e next

theorem applyRevision_rearmed {change : GoalChange} (htype : e.eventType = "goal/change")
    (hchange : Wire.changeFromValue e.data = some change)
    (h : applyRevision state change = .ok next) : Rearmed state e next := by
  unfold applyRevision at h
  split at h
  · cases h
  · rename_i hwire
    obtain ⟨⟨snapshot, _⟩, hsnapshot, h⟩ := bind_eq_ok.mp h
    obtain ⟨_, _, h⟩ := bind_eq_ok.mp h
    obtain ⟨hvalid, h⟩ := check_bind_eq_ok.mp h
    replace h := after_check h
    obtain ⟨_, happly, h⟩ := bind_eq_ok.mp h
    cases h
    obtain ⟨hid, hlive⟩ := GoalSnapshotWire.snapshot_eq_ok hsnapshot
    refine .revised change.operation snapshot _ (fun hop => ?_) hlive hvalid happly rfl rfl
    simp [resumedBy, htype, hchange, hop, hwire, hid]

theorem observeRound_activation (state : GoalState) (goal : GoalSnapshot) (round seq : Nat) :
    (state.observeRound goal round seq).activation.map Activation.reference
      = some goal.reference := by
  unfold observeRound
  split
  · split <;> rfl
  · rfl

theorem applyGoalEvent_rearmed (hstate : state.Valid) (h : applyGoalEvent S state e = .ok next) :
    Rearmed state e next := by
  by_cases htype : e.eventType = "goal/change"
  · rw [applyGoalEvent_change htype] at h
    unfold applyGoalChange at h
    cases hchange : Wire.changeFromValue e.data with
    | none => rw [hchange] at h; cases h
    | some change =>
      rw [hchange] at h
      replace h := after_check h
      split at h
      · obtain ⟨_, _, _, _, _, rfl⟩ := applyClear_eq_ok h
        exact .cleared _ rfl
      · exact applyRevision_rearmed htype hchange h
  · have hreplayed := applyGoalEvent_replayed h
    cases hreplayed with
    | quiet => exact .quiet
    | cleared => contradiction
    | revised => contradiction
    | counted goalId revision round goal times _ _ hgoal =>
      obtain ⟨hlookup, _⟩ := activeGoal_eq_some.mp hgoal
      have hid := (hstate.keyed goalId goal hlookup).1
      exact .counted goal _ (hid ▸ hgoal) (observeRound_goals ..) (observeRound_activation ..)

/-- An event that does not resume the armed goal keeps the state armed. -/
theorem Rearmed.armed (h : Rearmed state e next) (hstate : state.Valid) (harmed : state.Armed)
    (hresume : ∀ id ∈ resumedBy e, ∀ a ∈ state.activation, a.reference.id ≠ id) : next.Armed := by
  cases h with
  | quiet => exact harmed
  | cleared next hactivation => exact armed_of_none hactivation
  | revised operation snapshot next hres hlive hvalid happly hactivation =>
    intro b hb
    rw [hactivation] at hb
    obtain ⟨a, ha, hfollow⟩ := Option.mem_bind_iff.mp hb
    unfold Activation.follow at hfollow
    split at hfollow
    · cases hfollow
    · rename_i hphase
      rw [not_not] at hphase
      obtain ⟨_, hgoals⟩ := applySnapshot_eq_ok happly
      split at hfollow
      · obtain rfl := some.inj hfollow
        rw [hgoals]
        exact activeRef_insert hlive hphase
      · rename_i hedit
        obtain rfl := some.inj hfollow
        refine armed_change hstate hvalid happly (harmed a ha) ?_
        rcases operation_of_active hvalid hlive hphase with hop | hop | hop
        · exact .inl hop
        · exact .inr fun heq => hedit ⟨hop, heq⟩
        · exact .inr (hresume _ (hres hop) a ha)
  | counted goal next hgoal hgoals hactivation =>
    intro b hb
    have href : b.reference = goal.reference := by
      rw [hb] at hactivation
      exact some.inj hactivation
    rw [hgoals, href]
    exact ⟨goal, hgoal, rfl⟩

/-- Whether the replay of some events resumes the goal that is armed at
that point. -/
def resumesArmed (S : Serde) : GoalState → List SessionEvent → Bool
  | _, [] => false
  | state, e :: rest =>
    (resumedBy e).any (fun id => state.activation.any fun a => a.reference.id == id)
      || match applyGoalEvent S state e with
        | .error _ => false
        | .ok next => resumesArmed S next rest

theorem replay_armed :
    ∀ (events : List SessionEvent) {state next : GoalState}, state.Valid → state.Armed →
      resumesArmed S state events = false →
      events.foldlM (applyGoalEvent S) state = .ok next → next.Armed := by
  intro events
  induction events with
  | nil =>
    intro state next _ harmed _ h
    obtain rfl := ok.inj h
    exact harmed
  | cons e rest ih =>
    intro state next hstate harmed hresume h
    rw [foldlM_cons] at h
    obtain ⟨_, hmid, h⟩ := bind_eq_ok.mp h
    simp only [resumesArmed, hmid, or_eq_false_iff] at hresume
    refine ih ((applyGoalEvent_replayed hmid).valid hstate) ?_ hresume.2 h
    refine (applyGoalEvent_rearmed hstate hmid).armed hstate harmed fun id hid a ha heq => ?_
    have hnone := hresume.1
    rw [hid, Option.any_some, ha, Option.any_some] at hnone
    simp [heq] at hnone

/-- Whether a synchronisation replays a resume of the armed goal. -/
def GoalState.misses (S : Serde) (state : GoalState) (log : List SessionEvent) : Bool :=
  (syncLocked S state log).isOk && resumesArmed S state (log.drop state.observedEvents)

theorem syncLocked_armed {state' : GoalState} (hstate : state.Valid) (harmed : state.Armed)
    (hmiss : state.misses S log = false) (h : syncLocked S state log = .ok state') :
    state'.Armed := by
  simp only [misses, h, Except.isOk, Except.toBool, Bool.true_and] at hmiss
  unfold syncLocked at h
  split at h
  · cases h
  · split at h
    · obtain rfl := ok.inj h
      exact harmed
    · obtain ⟨_, hcandidate, h⟩ := bind_eq_ok.mp h
      obtain rfl := ok.inj h
      exact (replay_armed _ hstate harmed hmiss hcandidate).of_eq rfl rfl

/-- A folded state is armed or has an active goal. -/
theorem foldGoals_armed (h : foldGoals S log = .ok state) :
    state.Armed ∨ ∃ goal, state.currentActive = some goal := by
  refine (foldlM_invariant (fun state : GoalState => state.Valid
      ∧ (state.Armed ∨ ∃ goal, state.currentActive = some goal))
    (fun state e next hinv hstep => ?_) log ⟨valid_empty, .inl ?_⟩ h).2
  · obtain ⟨hstate, hinv⟩ := hinv
    refine ⟨(applyGoalEvent_replayed hstep).valid hstate, ?_⟩
    cases applyGoalEvent_rearmed hstate hstep with
    | quiet => exact hinv
    | cleared _ hactivation => exact .inl (armed_of_none hactivation)
    | revised operation snapshot _ _ hlive _ happly hactivation hcurrent =>
      obtain ⟨_, hgoals⟩ := applySnapshot_eq_ok happly
      by_cases hphase : snapshot.phase = .active
      · have hactive : ActiveRef (state.goals.insert snapshot.reference.id snapshot)
            snapshot.reference := activeRef_insert hlive hphase
        obtain ⟨goal, hgoal, _⟩ := hactive
        refine .inr ⟨goal, ?_⟩
        rw [currentActive, hcurrent, hgoals]
        exact hgoal
      · refine .inl (armed_of_none ?_)
        rw [hactivation]
        cases state.activation <;> simp [Activation.follow, hphase]
    | counted goal _ hgoal hgoals hactivation =>
      refine .inl fun b hb => ?_
      have href : b.reference = goal.reference := by
        rw [hb] at hactivation
        exact some.inj hactivation
      rw [hgoals, href]
      exact ⟨goal, hgoal, rfl⟩
  · exact armed_of_none rfl

theorem openView_armed (h : openView S log = .ok state) : state.Armed := by
  obtain ⟨folded, hfold, h⟩ := bind_eq_ok.mp h
  dsimp only at h
  split at h
  · rename_i hnone
    obtain rfl := ok.inj h
    rcases foldGoals_armed hfold with harmed | ⟨_, hgoal⟩
    · exact harmed.of_eq rfl rfl
    · have hsame : currentActive { folded with observedEvents := log.length }
          = folded.currentActive := rfl
      rw [hsame, hgoal] at hnone
      cases hnone
  · rename_i goal hgoal
    obtain rfl := ok.inj h
    intro a ha
    obtain rfl := some.inj ha
    have hvalid := foldGoals_valid hfold
    obtain ⟨id, _, hactive⟩ := bind_eq_some_iff.mp hgoal
    have hid := (hvalid.keyed id goal (activeGoal_eq_some.mp hactive).1).1
    exact ⟨goal, hid.symm ▸ hactive, rfl⟩

/-! ## Calls -/

/-- What a call asks for is what it will do with the activation. -/
def GoalJob.Matches (job : GoalJob) : Prop :=
  match job.call with
  | some (.create _ _ _) => job.write.operation = .create
  | some (.edit reference _ _) => job.write.operation = .edit ∧ job.write.expected = some reference
  | some (.resume _) => job.write.operation = .resume
  | _ => True

theorem matches_of_begin {write : GoalWrite} (stage : WriteStage) (checkedAt : Nat)
    (h : (call.request state >>= fun request => request.prepare state token) = .ok write) :
    GoalJob.Matches { call := some call, write, stage, checkedAt } := by
  obtain ⟨request, hrequest, h⟩ := bind_eq_ok.mp h
  unfold GoalRequest.prepare at h
  simp only [bind_eq_ok, exists_unit] at h
  obtain ⟨_, _, _, _, h⟩ := h
  cases h
  cases call with
  | create =>
    simp only [GoalCall.request, bind_eq_ok, exists_unit] at hrequest
    obtain ⟨_, _, _, hrequest⟩ := hrequest
    cases hrequest
    rfl
  | edit =>
    simp only [GoalCall.request, bind_eq_ok] at hrequest
    obtain ⟨_, _, _, _, _, _, hrequest⟩ := hrequest
    cases hrequest
    exact ⟨rfl, rfl⟩
  | resume reference =>
    simp only [GoalCall.request, bind_eq_ok] at hrequest
    obtain ⟨_, _, _, _, _, _, hrequest⟩ := hrequest
    cases hrequest
    rfl
  | _ => trivial

def GoalJob.Settles (job : GoalJob) (state : GoalState) : Prop :=
  match job.call with
  | none | some (.create _ _ _) => state.Armed
  | some (.edit reference _ _) => ∀ a ∈ state.activation, ActiveRef state.goals
      (if a.reference = reference then job.write.snapshot.reference else a.reference)
  | some (.resume _) =>
    (ActiveRef state.goals job.write.snapshot.reference
      ∧ 1 ≤ job.write.snapshot.maxGoalRounds
      ∧ job.write.snapshot.maxGoalRounds ≤ maxSafeInteger)
    ∧ ∀ a ∈ state.activation, a.reference.id = job.write.snapshot.reference.id
      ∨ ActiveRef state.goals a.reference
  | some _ => True

@[simp] theorem commit_goals (write : GoalWrite) (state : GoalState)
    (goals : GoalMap GoalSnapshot) (clock : Nat) : (write.commit state goals clock).goals = goals := by
  unfold GoalWrite.commit
  split <;> rfl

@[simp] theorem commit_activation (write : GoalWrite) (state : GoalState)
    (goals : GoalMap GoalSnapshot) (clock : Nat) :
    (write.commit state goals clock).activation = state.activation := by
  unfold GoalWrite.commit
  split <;> rfl

/-- A commit settles its job. -/
theorem commit_settles (hstate : state.Valid) (harmed : state.Armed) (hmatches : job.Matches)
    (hplan : job.write.plan state = .ok goals)
    (hwrite : job.call = none → ∀ a ∈ state.activation,
      a.reference.id ≠ job.write.snapshot.reference.id) (clock : Nat) :
    job.Settles (job.write.commit state goals clock) := by
  obtain ⟨hvalid, happly⟩ := check_bind_eq_ok.mp hplan
  obtain ⟨hsnapshot, hgoals⟩ := applySnapshot_eq_ok happly
  have hother : ∀ a ∈ state.activation, a.reference.id ≠ job.write.snapshot.reference.id →
      ActiveRef goals a.reference := fun a ha hne =>
    armed_change hstate hvalid happly (harmed a ha) (.inr hne)
  unfold GoalJob.Settles
  unfold GoalJob.Matches at hmatches
  rcases hcall : job.call with _ | call
  · intro a ha
    rw [commit_activation] at ha
    rw [commit_goals]
    exact hother a ha (hwrite hcall a ha)
  · rw [hcall] at hmatches
    cases call with
    | create =>
      intro a ha
      rw [commit_activation] at ha
      rw [commit_goals]
      exact armed_change hstate hvalid happly (harmed a ha) (.inl hmatches)
    | edit reference =>
      intro a ha
      rw [commit_activation] at ha
      rw [commit_goals]
      obtain ⟨hop, hexpected⟩ := hmatches
      obtain ⟨current, hcurrent, href⟩ : ∃ current,
          state.goals.lookup job.write.snapshot.reference.id = some current
            ∧ reference = current.reference := by
        rcases applySnapshot_step happly with ⟨_, hnone, _⟩ | ⟨current, hcurrent, _, hnamed, _⟩
        · rw [hexpected] at hnone
          cases hnone
        · rw [hexpected] at hnamed
          exact ⟨current, hcurrent, some.inj hnamed⟩
      have hkey := (hstate.keyed _ _ hcurrent).1
      by_cases hid : a.reference.id = job.write.snapshot.reference.id
      · -- The armed goal is the one the edit moves on, so it is at the edit's reference.
        obtain ⟨goal, hgoal, hactive⟩ := harmed a ha
        obtain ⟨hlookup, _, hphase⟩ := activeGoal_eq_some.mp hgoal
        rw [hid, hcurrent] at hlookup
        obtain rfl := some.inj hlookup
        rw [if_pos (hactive.symm.trans href.symm), hgoals]
        rw [hop] at hvalid
        obtain ⟨found, hfound, _, _, hedit⟩ := validateGoalOperation_revise (by decide) hvalid
        rw [hcurrent] at hfound
        obtain rfl := some.inj hfound
        have hnext : job.write.snapshot.tombstone = false
            ∧ job.write.snapshot.phase = current.phase := by
          simpa [operationValid] using hedit
        exact activeRef_insert hnext.1 (hnext.2.trans hphase)
      · have hne : a.reference ≠ reference := by
          rintro rfl
          exact hid (href ▸ hkey)
        rw [if_neg hne]
        exact hother a ha hid
    | resume reference =>
      obtain ⟨current, _, _, _, hresume⟩ :=
        validateGoalOperation_revise (by rw [hmatches]; decide) hvalid
      have hnext : job.write.snapshot.tombstone = false
          ∧ job.write.snapshot.phase = .active := by
        rw [hmatches] at hresume
        simp only [operationValid, and_eq_true, not_eq_true', beq_iff_eq] at hresume
        exact ⟨hresume.1.1.1, hresume.2⟩
      refine ⟨⟨?_, GoalSnapshot.validate_cap hsnapshot⟩, fun a ha => ?_⟩
      · rw [commit_goals, hgoals]
        exact activeRef_insert hnext.1 hnext.2
      · rw [commit_activation] at ha
        rw [commit_goals]
        by_cases hid : a.reference.id = job.write.snapshot.reference.id
        · exact .inl hid
        · exact .inr (hother a ha hid)
    | _ => trivial

theorem armLocked_activation (state : GoalState) (reference : GoalRef) (maxRounds : Nat)
    (next : Except SessionError Nat) :
    (armLocked state reference maxRounds next).goals = state.goals
      ∧ ((armLocked state reference maxRounds next).activation = state.activation
        ∨ (ActiveRef state.goals reference
          ∧ (armLocked state reference maxRounds next).activation.map Activation.reference
            = some reference)) := by
  unfold armLocked
  split
  · exact ⟨rfl, .inl rfl⟩
  · split
    · exact ⟨rfl, .inl rfl⟩
    · rename_i snapshot hlookup
      split
      · exact ⟨rfl, .inl rfl⟩
      · rename_i hactive
        simp only [not_or, not_not, not_eq_true] at hactive
        split
        · exact ⟨rfl, .inl rfl⟩
        · exact ⟨rfl, .inr ⟨⟨snapshot, activeGoal_eq_some.mpr ⟨hlookup, hactive.2.1,
            hactive.2.2⟩, hactive.1⟩, rfl⟩⟩

theorem armLocked_armed (harmed : state.Armed) (reference : GoalRef) (maxRounds : Nat)
    (next : Except SessionError Nat) : (armLocked state reference maxRounds next).Armed := by
  obtain ⟨hgoals, hsame | ⟨hactive, href⟩⟩ := armLocked_activation state reference maxRounds next
  · exact harmed.of_eq hgoals (by rw [hsame])
  · intro b hb
    rw [hb] at href
    rw [hgoals, show b.reference = reference from some.inj href]
    exact hactive

theorem armLocked_arms {maxRounds : Nat} (hactive : ActiveRef state.goals reference)
    (hmin : 1 ≤ maxRounds) (hmax : maxRounds ≤ maxSafeInteger) :
    (armLocked state reference maxRounds (.ok seq)).Armed := by
  obtain ⟨goal, hgoal, href⟩ := hactive
  obtain ⟨hlookup, hlive, hphase⟩ := activeGoal_eq_some.mp hgoal
  have hcap : ¬ (maxRounds < 1 ∨ maxRounds > maxSafeInteger) := by omega
  have hok : ¬ (goal.reference ≠ reference ∨ goal.tombstone = true ∨ goal.phase ≠ .active) := by
    simp [href, hlive, hphase]
  simp only [armLocked, if_neg hcap, hlookup, if_neg hok]
  intro a ha
  obtain rfl := some.inj ha
  exact ⟨goal, hgoal, href⟩

/-- The end of a call puts the activation right. -/
theorem finish_armed (hsettles : job.Settles state) (hcall : job.call = some call)
    (next : Except SessionError Nat) (token : Cancellation)
    (hnext : (∃ reference, call = .resume reference) → next.isOk = false →
      ∀ a ∈ state.activation, a.reference.id ≠ job.write.snapshot.reference.id) :
    (call.finish state job.write.snapshot next token).Armed := by
  unfold GoalJob.Settles at hsettles
  rw [hcall] at hsettles
  cases call with
  | create =>
    simp only [GoalCall.finish]
    split
    · exact hsettles
    · exact armLocked_armed hsettles _ _ _
  | edit =>
    intro b hb
    obtain ⟨a, ha, rfl⟩ := Option.mem_map.mp hb
    have hsettled := hsettles a ha
    split at hsettled
    · rename_i heq
      rw [if_pos heq]
      exact hsettled
    · rename_i hne
      rw [if_neg hne]
      exact hsettled
  | resume reference =>
    obtain ⟨⟨hactive, hmin, hmax⟩, hothers⟩ := hsettles
    cases next with
    | ok seq => exact armLocked_arms hactive hmin hmax
    | error err =>
      refine armLocked_armed (fun a ha => ?_) _ _ _
      rcases hothers a ha with hid | hother
      · exact absurd hid (hnext ⟨reference, rfl⟩ rfl a ha)
      · exact hother
  | _ => exact armed_of_none rfl

/-! ## Views -/

/-- A view is armed, or is about to be when its committed call ends. -/
structure GoalView.Arming (view : GoalView) : Prop where
  armed : (∀ job ∈ view.job, job.stage ≠ .committed) → view.state.Armed
  jobs : ∀ job ∈ view.job, job.Matches ∧ (job.stage = .committed → job.Settles view.state)

theorem GoalView.arming_idle (h : state.Armed) : (idle state).Arming :=
  ⟨fun _ => h, fun job hjob => by cases hjob⟩

theorem GoalView.Arming.free (h : view.Arming) (hfree : view.job = none) : view.state.Armed :=
  h.armed fun job hjob => by rw [hfree] at hjob; cases hjob

theorem GoalView.Arming.open (h : view.Arming) (hjob : view.job = some job)
    (hstage : job.stage ≠ .committed) : view.state.Armed :=
  h.armed fun job' hjob' => by rw [hjob] at hjob'; cases hjob'; exact hstage

theorem GoalView.Arming.stage (h : view.Arming) (hjob : view.job = some job) {stage : WriteStage}
    (hnew : stage ≠ .committed) (hstate : state.Armed) :
    Arming { state, job := some { job with stage } } where
  armed := fun _ => hstate
  jobs := fun job' hjob' => by
    cases hjob'
    exact ⟨(h.jobs job hjob).1, fun heq => absurd heq hnew⟩

theorem Tracks.valid (h : Tracks S log state) : state.Valid := by
  obtain ⟨_, _, hfold, hsame⟩ := h
  exact (foldGoals_valid hfold).of_same hsame

section ViewSteps

variable {log : List SessionEvent} {view : GoalView}

theorem GoalView.Arming.begin (h : view.Arming) (htracking : view.Tracking S log)
    (call : GoalCall) (live : Bool) (token : Cancellation)
    (hmiss : view.job = none → call.precheck live token = .ok () →
      view.state.misses S log = false) : (view.begin S log call live token).Arming := by
  unfold GoalView.begin
  split
  · exact h
  · rename_i hfree
    split
    · exact h
    · rename_i hcheck
      split
      · exact h
      · rename_i hsync
        have harmed := syncLocked_armed htracking.tracks.valid (h.free hfree)
          (hmiss hfree hcheck) hsync
        split
        · exact arming_idle harmed
        · rename_i hwrite
          refine ⟨fun _ => harmed, fun job hjob => ?_⟩
          cases hjob
          exact ⟨matches_of_begin _ _ hwrite, nofun⟩

theorem GoalView.Arming.beginWrite (h : view.Arming) (htracking : view.Tracking S log)
    (expected : Option GoalRef) (snapshot : GoalSnapshot) (live : Bool) (token : Cancellation)
    (hmiss : view.job = none →
      (do requireLive live; checkCancelled token 0 : Except GoalError Unit) = .ok () →
      view.state.misses S log = false) :
    (view.beginWrite S log expected snapshot live token).Arming := by
  unfold GoalView.beginWrite
  split
  · exact h
  · rename_i hfree
    split
    · exact h
    · rename_i hcheck
      split
      · exact h
      · rename_i hsync
        have harmed := syncLocked_armed htracking.tracks.valid (h.free hfree)
          (hmiss hfree hcheck) hsync
        dsimp only
        split
        · exact arming_idle harmed
        · refine ⟨fun _ => harmed, fun job hjob => ?_⟩
          cases hjob
          exact ⟨trivial, nofun⟩

theorem GoalView.Arming.checkLost (h : view.Arming) (session : Live σ) (token : Cancellation) :
    (view.checkLost session token).Arming := by
  unfold GoalView.checkLost
  split
  · exact h
  · rename_i hjob
    split
    · rename_i hstage
      have hopen := h.open hjob (by rw [hstage]; simp)
      split
      · exact arming_idle hopen
      · exact h.stage hjob (by simp) hopen
    · exact h

theorem GoalView.Arming.resync (h : view.Arming) (htracking : view.Tracking S log)
    (hmiss : ∀ job ∈ view.job, job.stage = .resyncing → view.state.misses S log = false) :
    (view.resync S log).Arming := by
  unfold GoalView.resync
  split
  · exact h
  · rename_i job hjob
    split
    · exact h
    · rename_i hstage
      rw [ne_eq, not_not] at hstage
      have hne : job.stage ≠ .committed := by rw [hstage]; simp
      have hopen := h.open hjob hne
      split
      · exact arming_idle hopen
      · rename_i state hsync
        exact h.stage hjob (by simp)
          (syncLocked_armed htracking.tracks.valid hopen (hmiss job hjob hstage) hsync)

theorem GoalView.Arming.finish (h : view.Arming) (session : Live σ) (token : Cancellation)
    (hnext : ∀ job ∈ view.job, job.stage = .committed → (∃ ref, job.call = some (.resume ref)) →
      (nextSeq session.state.events).isOk = false →
      ∀ a ∈ view.state.activation, a.reference.id ≠ job.write.snapshot.reference.id) :
    (view.finish session token).Arming := by
  unfold GoalView.finish
  split
  · exact h
  · rename_i job hjob
    split
    · exact h
    · rename_i hstage
      rw [ne_eq, not_not] at hstage
      have hsettles := (h.jobs job hjob).2 hstage
      split
      · rename_i hcall
        unfold GoalJob.Settles at hsettles
        rw [hcall] at hsettles
        exact arming_idle hsettles
      · rename_i call hcall
        refine arming_idle (finish_armed hsettles hcall _ token ?_)
        rintro ⟨reference, rfl⟩ hfull
        exact hnext job hjob hstage ⟨reference, hcall⟩ hfull

variable {session : Live σ}

theorem append_at_end {session' : Live σ} (hlog : Numbered session.state.events) {write : GoalWrite}
    {state : GoalState} {clock time : Nat} {token : Cancellation}
    (h : session.append S P (write.event state clock time) token = (.ok (), session')) :
    state.observedEvents = session.state.events.length := by
  have hadmitted := session.append_admission (S := S) (P := P) (write.event state clock time) token
  rw [h] at hadmitted
  cases hadmitted with
  | admitted expected projection _ hcheck hheader hstate =>
    have hadmitted : session.Admission S (write.event state clock time) (.ok (), session') :=
      .admitted expected projection _ hcheck hheader hstate
    rcases hadmitted.events with hsame | ⟨_, hseq, _⟩
    · rw [hstate] at hsame
      exact absurd hsame (by simp)
    · exact hlog.seq_of_nextSeq hseq

/-- One turn of the append loop. -/
theorem GoalView.Arming.attempt (h : view.Arming) (htracking : view.Tracking S session.state.events)
    (hlog : Numbered session.state.events) (clock time : Nat) (token : Cancellation)
    (hwrite : ∀ job ∈ view.job, job.call = none → job.stage = .attempting →
      view.state.observedEvents = session.state.events.length →
      (job.write.plan view.state).isOk = true →
      ∀ a ∈ view.state.activation, a.reference.id ≠ job.write.snapshot.reference.id) :
    (view.attempt S P session clock time token).1.Arming := by
  unfold GoalView.attempt
  split
  · exact h
  · rename_i job hjob
    split
    · exact h
    · rename_i hstage
      rw [ne_eq, not_not] at hstage
      have hne : job.stage ≠ .committed := by rw [hstage]; simp
      have hopen := h.open hjob hne
      split
      · exact arming_idle hopen
      · rename_i goals hplan
        split
        · rename_i happend
          have hend : view.state.observedEvents = session.state.events.length :=
            append_at_end hlog happend
          refine ⟨fun hfree => absurd rfl (hfree _ rfl), fun job' hjob' => ?_⟩
          cases hjob'
          refine ⟨(h.jobs job hjob).1, fun _ => ?_⟩
          exact commit_settles htracking.tracks.valid hopen (h.jobs job hjob).1 hplan
            (fun hcall => hwrite job hjob hcall hstage hend (by rw [hplan]; rfl)) clock
        · exact h.stage hjob (by simp) hopen
        · exact arming_idle hopen

end ViewSteps

/-! ## Steady views -/

/-- A view that tracks the log and is armed. -/
structure GoalView.Steady (S : Serde) (log : List SessionEvent) (view : GoalView) : Prop where
  tracking : view.Tracking S log
  arming : view.Arming

theorem GoalView.steady_idle (htracks : Tracks S log state) (harmed : state.Armed) :
    (idle state).Steady S log :=
  ⟨tracking_idle htracks, arming_idle harmed⟩

/-- `b` has the ledger of `a` and is armed where `a` is. -/
structure GoalState.Keeps (a b : GoalState) : Prop where
  same : SameLedger a b
  observed : b.observedEvents = a.observedEvents
  armed : a.Armed → b.Armed

theorem GoalState.Keeps.refl (a : GoalState) : a.Keeps a :=
  ⟨rfl, rfl, fun h => h⟩

theorem GoalState.keeps_setQueued (state : GoalState) (queuedRound : Option Nat) :
    state.Keeps (state.setQueued queuedRound) where
  same := setQueued_same state queuedRound
  observed := rfl
  armed := fun h => h.of_eq rfl (by
    cases hactivation : state.activation <;> simp [setQueued, hactivation])

theorem GoalState.keeps_clearQueuedRound (state : GoalState) (reference : GoalRef)
    (round : Nat) : state.Keeps (clearQueuedRound state reference round) := by
  unfold clearQueuedRound
  split
  · split
    · exact state.keeps_setQueued none
    · exact .refl state
  · exact .refl state

theorem GoalState.keeps_disarm (state : GoalState) (id : Nat) :
    state.Keeps (Goal.disarm state id) := by
  unfold Goal.disarm
  split
  · split
    · exact ⟨rfl, rfl, fun _ => armed_of_none rfl⟩
    · exact .refl state
  · exact .refl state

theorem GoalState.keeps_armLocked (state : GoalState) (reference : GoalRef) (maxRounds : Nat)
    (next : Except SessionError Nat) :
    state.Keeps (armLocked state reference maxRounds next) := by
  obtain ⟨hsame, hobserved⟩ := armLocked_same state reference maxRounds next
  exact ⟨hsame, hobserved, fun h => armLocked_armed h reference maxRounds next⟩

theorem admitUserRound_eq_ok {id : Nat} {live : Bool}
    (h : Goal.admitUserRound state log id seq live token = .ok next) :
    ∃ a, state.activation = some a ∧ next = { state with
      activation := some { a with lastUserEventSeq := some seq, rounds := a.rounds + 1 } } := by
  replace h := after_check h
  replace h := after_check h
  split at h
  · cases h
  · rename_i a ha
    replace h := after_check h
    replace h := after_check h
    split at h
    · cases h
    · replace h := after_check h
      split at h
      · cases h
      · replace h := after_check h
        exact ⟨a, ha, (ok.inj h).symm⟩

/-- Admitting a round of the user keeps the goals. -/
theorem GoalState.keeps_admitUserRound (state : GoalState) (log : List SessionEvent)
    (id seq : Nat) (live : Bool) (token : Cancellation) :
    state.Keeps ((Goal.admitUserRound state log id seq live token).toOption.getD state) := by
  cases hadmit : Goal.admitUserRound state log id seq live token with
  | error err => exact .refl state
  | ok next =>
    obtain ⟨a, ha, rfl⟩ := admitUserRound_eq_ok hadmit
    refine ⟨rfl, rfl, fun h => h.of_eq rfl ?_⟩
    rw [ha]
    rfl

section FreeViews

variable {log : List SessionEvent} {view : GoalView}

theorem GoalView.Steady.append (h : view.Steady S log) (more : List SessionEvent) :
    view.Steady S (log ++ more) :=
  ⟨h.tracking.append more, h.arming⟩

theorem GoalView.Steady.synced (h : view.Steady S log) (hfree : view.job = none)
    (hmiss : view.state.misses S log = false) {state next : GoalState}
    (hsync : syncLocked S view.state log = .ok state) (hkeeps : state.Keeps next) :
    (idle next).Steady S log := by
  have htracks := (syncLocked_tracks h.tracking.tracks hsync).1
  have harmed := syncLocked_armed h.tracking.tracks.valid (h.arming.free hfree) hmiss hsync
  exact steady_idle (htracks.of_same hkeeps.same hkeeps.observed) (hkeeps.armed harmed)

theorem GoalView.Steady.read (h : view.Steady S log)
    (hmiss : view.job = none → view.state.misses S log = false) :
    (view.read S log).Steady S log := by
  unfold GoalView.read
  split
  · exact h
  · rename_i hfree
    split
    · exact h
    · rename_i state hsync
      exact h.synced hfree (hmiss hfree) hsync (.refl state)

theorem GoalView.Steady.activate {session : Live σ} (h : view.Steady S session.state.events)
    (reference : GoalRef) (maxRounds : Nat) (live : Bool) (token : Cancellation)
    (hmiss : view.job = none →
      (do requireLive live; checkCancelled token 0 : Except GoalError Unit) = .ok () →
      view.state.misses S session.state.events = false) :
    (view.activate S session reference maxRounds live token).Steady S session.state.events := by
  unfold GoalView.activate
  split
  · exact h
  · rename_i hfree
    split
    · exact h
    · rename_i hcheck
      split
      · exact h
      · rename_i state hsync
        exact h.synced hfree (hmiss hfree hcheck) hsync
          (state.keeps_armLocked reference maxRounds _)

theorem GoalView.Steady.drive (h : view.Steady S log) (live : Bool)
    (hmiss : view.job = none → requireLive live = .ok () →
      view.state.misses S log = false) : (view.drive S log live).Steady S log := by
  unfold GoalView.drive
  split
  · exact h
  · rename_i hfree
    split
    · exact h
    · rename_i hcheck
      split
      · exact h
      · rename_i state hsync
        have hsynced : ∀ next, Keeps state next → (idle next).Steady S log :=
          fun _ hkeeps => h.synced hfree (hmiss hfree hcheck) hsync hkeeps
        split
        · exact hsynced _ (state.keeps_setQueued _)
        · exact hsynced _ (.refl state)

theorem GoalView.Steady.patch (h : view.Steady S log) {f : GoalState → GoalState}
    (hf : ∀ state : GoalState, state.Keeps (f state)) : (view.patch f).Steady S log := by
  unfold GoalView.patch
  split
  · exact h
  · rename_i hfree
    have hkeeps := hf view.state
    exact steady_idle (h.tracking.tracks.of_same hkeeps.same hkeeps.observed)
      (hkeeps.armed (h.arming.free hfree))

end FreeViews

/-! ## The condition -/

/-- A call of `resume`. -/
def GoalCall.isResume : GoalCall → Bool
  | .resume _ => true
  | _ => false

/-- Where view `v` is free and passes the checks of a call, its
synchronisation replays no resume of the armed goal. -/
def SyncsClear (S : Serde) (sys : GoalSystem σ) (v : Nat) (checked : Except GoalError Unit) :
    Prop :=
  ∀ view ∈ sys.views[v]?, view.job.isNone = true → checked.isOk = true →
    view.state.misses S sys.log = false

/-- The condition on a step. A synchronisation, a `write` that commits and
the end of a resume are the only steps it restricts. -/
def Follows (S : Serde) (sys : GoalSystem σ) : ArmingStep → Prop
  | .base (.begin v call live token) => SyncsClear S sys v (call.precheck live token)
  | .base (.attempt v _ _ _) =>
    ∀ view ∈ sys.views[v]?, ∀ job ∈ view.job, job.call = none → job.stage = .attempting →
      view.state.observedEvents = sys.log.length → (job.write.plan view.state).isOk = true →
        ∀ a ∈ view.state.activation, a.reference.id ≠ job.write.snapshot.reference.id
  | .base (.resync v) =>
    ∀ view ∈ sys.views[v]?, ∀ job ∈ view.job, job.stage = .resyncing →
      view.state.misses S sys.log = false
  | .base (.finish v _) =>
    ∀ view ∈ sys.views[v]?, ∀ job ∈ view.job, job.stage = .committed →
      job.call.any GoalCall.isResume = true →
        (nextSeq sys.log).isOk = false →
          ∀ a ∈ view.state.activation, a.reference.id ≠ job.write.snapshot.reference.id
  | .write v _ _ live token =>
    SyncsClear S sys v (do requireLive live; checkCancelled token 0)
  | .read v => SyncsClear S sys v (.ok ())
  | .activate v _ _ live token =>
    SyncsClear S sys v (do requireLive live; checkCancelled token 0)
  | .drive v live => SyncsClear S sys v (requireLive live)
  | _ => True

theorem SyncsClear.misses {v : Nat} {checked : Except GoalError Unit}
    (h : SyncsClear S sys v checked) (hview : view ∈ sys.views[v]?) (hfree : view.job = none)
    (hcheck : checked = .ok ()) : view.state.misses S sys.log = false :=
  h view hview (by rw [hfree]; rfl) (by rw [hcheck]; rfl)

/-! ## The system -/

def GoalSystem.Steady (S : Serde) (sys : GoalSystem σ) : Prop :=
  Numbered sys.log ∧ ∀ view ∈ sys.views, view.Steady S sys.log

theorem GoalSystem.Steady.onView (h : sys.Steady S) (v : Nat) {f : GoalView → GoalView}
    (hf : ∀ view ∈ sys.views[v]?, view.Steady S sys.log → (f view).Steady S sys.log) :
    (sys.onView v f).Steady S :=
  GoalSystem.All.onView (fun log view => view.Steady S log) h v hf

/-- One step of the goals. -/
theorem GoalSystem.Steady.step {sys : GoalSystem σ} (h : sys.Steady S) {i : GoalStep}
    (hcond : Follows S sys (.base i)) : (sys.step S P i).Steady S := by
  let Good : List SessionEvent → GoalView → Prop := fun log view => view.Steady S log
  have hviews : sys.All Good := h
  cases i with
  | ordinary call => exact hviews.ordinary Good (fun _ more h => h.append more) call
  | openView =>
    exact hviews.openView Good fun state hopen =>
      steady_idle (openView_tracks hopen) (openView_armed hopen)
  | begin v call live token =>
    exact h.onView v fun view hview hsteady =>
      ⟨(hsteady.tracking.moved
        (GoalView.begin_moved hsteady.tracking.tracks call live token)).tracking,
        hsteady.arming.begin hsteady.tracking call live token (hcond.misses hview)⟩
  | attempt v clock time token =>
    exact hviews.attempt Good (fun _ more h => h.append more) v clock time token
      fun view hview hsteady hattempt =>
        ⟨(hattempt.advances hsteady.tracking).tracking,
          hsteady.arming.attempt hsteady.tracking h.1 clock time token (hcond view hview)⟩
  | checkLost v token =>
    exact h.onView v fun view _ hsteady =>
      ⟨(hsteady.tracking.moved
        (GoalView.checkLost_moved hsteady.tracking.tracks token)).tracking,
        hsteady.arming.checkLost sys.session token⟩
  | resync v =>
    exact h.onView v fun view hview hsteady =>
      ⟨(hsteady.tracking.moved (GoalView.resync_moved hsteady.tracking.tracks)).tracking,
        hsteady.arming.resync hsteady.tracking (hcond view hview)⟩
  | finish v token =>
    refine h.onView v fun view hview hsteady =>
      ⟨(hsteady.tracking.moved
        (GoalView.finish_moved hsteady.tracking.tracks token)).tracking,
        hsteady.arming.finish sys.session token fun job hjob hstage hresume => ?_⟩
    obtain ⟨_, hcall⟩ := hresume
    exact hcond view hview job hjob hstage (by rw [hcall]; rfl)

theorem GoalSystem.Steady.arm (h : sys.Steady S) {i : ArmingStep} (hcond : Follows S sys i) :
    (sys.arm S P i).Steady S := by
  cases i with
  | base i => exact h.step hcond
  | write v expected snapshot live token =>
    exact h.onView v fun view hview hsteady =>
      ⟨(hsteady.tracking.beginWrite expected snapshot live token).tracking,
        hsteady.arming.beginWrite hsteady.tracking expected snapshot live token
          (hcond.misses hview)⟩
  | read v =>
    exact h.onView v fun view hview hsteady => hsteady.read fun hfree =>
      hcond.misses hview hfree rfl
  | activate v reference maxRounds live token =>
    exact h.onView v fun view hview hsteady =>
      hsteady.activate reference maxRounds live token (hcond.misses hview)
  | drive v live =>
    exact h.onView v fun view hview hsteady => hsteady.drive live (hcond.misses hview)
  | clearQueued v reference round =>
    exact h.onView v fun view _ hsteady =>
      hsteady.patch fun state => state.keeps_clearQueuedRound reference round
  | admitUserRound v id seq live token =>
    exact h.onView v fun view _ hsteady =>
      hsteady.patch fun state => state.keeps_admitUserRound sys.log id seq live token
  | disarm v id =>
    exact h.onView v fun view _ hsteady => hsteady.patch fun state => state.keeps_disarm id

/-! ## Runnable goals -/

/-- The one active goal of a ledger, with rounds left and a revision to
move to. -/
structure GoalState.Waits (state : GoalState) (goal : GoalSnapshot) : Prop where
  active : activeGoal state.goals goal.reference.id = some goal
  only : ∀ id other, activeGoal state.goals id = some other → other = goal
  rounds : ∀ times ∈ state.times.lookup goal.reference.id,
    times.roundsStarted < goal.maxGoalRounds
  revision : goal.reference.revision + 1 < u64Bound

/-- The goal's round is queued, or `drive` queues its next one, or no goal
is armed and `resume` accepts it. -/
def GoalState.Runnable (state : GoalState) (goal : GoalSnapshot) : Prop :=
  (∃ a ∈ state.activation, a.reference = goal.reference
      ∧ (a.queuedRound.isSome = true ∨ ∃ round,
          driveNext state = .ok (some (.queue goal.reference round goal.title
            goal.maxGoalRounds))))
    ∨ (state.activation = none
      ∧ ∃ request, (GoalCall.resume goal.reference).request state = .ok request)

/-- An armed goal that waits can be run. -/
theorem GoalState.Armed.runnable (harmed : state.Armed) (hstate : state.Valid)
    (hwaits : state.Waits goal) : state.Runnable goal := by
  obtain ⟨hlookup, hlive, hphase⟩ := activeGoal_eq_some.mp hwaits.active
  obtain ⟨times, htimes, _⟩ := hstate.timed _ goal hlookup hlive
  have hrounds := hwaits.rounds times htimes
  cases hactivation : state.activation with
  | some a =>
    obtain ⟨armed, hgoal, href⟩ := harmed a hactivation
    obtain rfl := hwaits.only _ armed hgoal
    refine .inl ⟨a, hactivation, href.symm, ?_⟩
    cases hqueued : a.queuedRound with
    | some round => exact .inl rfl
    | none =>
      refine .inr ⟨times.roundsStarted + 1, ?_⟩
      have hleft : ¬ armed.maxGoalRounds ≤ times.roundsStarted := by omega
      have hnamed : state.goals.lookup a.reference.id = some armed :=
        (activeGoal_eq_some.mp hgoal).1
      simp [driveNext, hactivation, hqueued, hnamed, href, hlive, hphase, htimes, hleft]
  | none =>
    refine .inr ⟨hactivation, ?_⟩
    have hcurrent : currentLocked state goal.reference = .ok goal := by
      simp [currentLocked, hlookup, hlive, failIf]
    have hresume : checkResume state goal = .ok () := by
      simp [checkResume, hphase, hactivation, htimes, failIf, hrounds]
    have hnext : nextRef goal.reference
        = .ok { goal.reference with revision := goal.reference.revision + 1 } :=
      if_pos hwaits.revision
    exact ⟨_, bind_eq_ok.mpr ⟨goal, hcurrent, bind_eq_ok.mpr ⟨(), hresume,
      bind_eq_ok.mpr ⟨_, hnext, rfl⟩⟩⟩⟩

/-- What a synchronised view owes the log: an activation names the current
revision of an active goal, and the goal that waits can run. -/
def GoalView.Runs (S : Serde) (log : List SessionEvent) (view : GoalView) : Prop :=
  ∃ folded, foldGoals S log = .ok folded
    ∧ (∀ a ∈ view.state.activation, ActiveRef folded.goals a.reference)
    ∧ ∀ goal, folded.Waits goal → view.state.Runnable goal

theorem GoalState.Waits.of_same (h : SameLedger a b) (ha : a.Waits goal) : b.Waits goal := by
  obtain ⟨hactive, honly, hrounds, hrevision⟩ := ha
  rw [h.goals] at hactive honly
  rw [h.times] at hrounds
  exact ⟨hactive, honly, hrounds, hrevision⟩

/-- In a run that stays clear of the three exceptions, every free view
that is synchronised is armed on an active goal, and a goal that waits can
run. -/
theorem armed_goal_runnable (S : Serde) (P : Persistence σ) (start : GoalSystem σ)
    (hviews : start.views = []) (hlog : Numbered start.log) (steps : List ArmingStep)
    (hrun : Meets (Follows S) (GoalSystem.arm S P) start steps) :
    let sys := steps.foldl (GoalSystem.arm S P) start
    ∀ view ∈ sys.views, view.job = none → view.state.observedEvents = sys.log.length →
      view.Runs S sys.log := by
  intro sys view hview hfree hend
  have hstart : start.Steady S := ⟨hlog, by simp [hviews]⟩
  have hsteady : sys.Steady S := foldl_invariant_of_meets (fun sys => sys.Steady S)
    (fun _ _ hcond h => h.arm hcond) steps start hrun hstart
  obtain ⟨htracking, harming⟩ := hsteady.2 view hview
  have harmed := harming.free hfree
  obtain ⟨folded, hfold, hsame⟩ := htracking.tracks.at_end hend
  refine ⟨folded, hfold, fun a ha => ?_, fun goal hwaits => ?_⟩
  · rw [hsame.goals]
    exact harmed a ha
  · exact harmed.runnable htracking.tracks.valid (hwaits.of_same hsame)

/-! ### A write on the armed goal -/

instance (sys : GoalSystem σ) (v : Nat) (checked : Except GoalError Unit) :
    Decidable (SyncsClear S sys v checked) :=
  inferInstanceAs (Decidable (∀ view ∈ _, _ → _ → _))

instance (sys : GoalSystem σ) : (i : ArmingStep) → Decidable (Follows S sys i)
  | .base (.attempt v _ _ _) => inferInstanceAs (Decidable (∀ view ∈ sys.views[v]?,
      ∀ job ∈ view.job, _ → _ → _ → _ → ∀ a ∈ view.state.activation, _))
  | .base (.resync v) => inferInstanceAs (Decidable (∀ view ∈ sys.views[v]?,
      ∀ job ∈ view.job, _ → _))
  | .base (.finish v _) => inferInstanceAs (Decidable (∀ view ∈ sys.views[v]?,
      ∀ job ∈ view.job, _ → _ → _ → ∀ a ∈ view.state.activation, _))
  | .base (.ordinary _) | .base .openView | .base (.checkLost _ _) => .isTrue trivial
  | .base (.begin _ _ _ _) | .write _ _ _ _ _ | .read _ | .activate _ _ _ _ _ | .drive _ _ =>
    inferInstanceAs (Decidable (SyncsClear S sys _ _))
  | .clearQueued _ _ _ | .admitUserRound _ _ _ _ _ | .disarm _ _ => .isTrue trivial

/-- A call of one view, started, written and ended without a rival. -/
def loneCall (v : Nat) (call : GoalCall) : List ArmingStep :=
  [.base (.begin v call true .never), .base (.attempt v 1 1 .never), .base (.finish v .never)]

/-- A view creates a goal, is disarmed, resumes the goal and edits it; a
second view reads and drives. -/
def rearmedRun : List ArmingStep :=
  [.base .openView, .base .openView] ++ loneCall 0 (.create "a" "first" none)
    ++ [.disarm 0 1] ++ loneCall 0 (.resume ⟨"goal-a", 1⟩)
    ++ loneCall 0 (.edit ⟨"goal-a", 2⟩ (some "second") none) ++ [.read 1, .drive 0 true]

theorem armed_goal_runnable_rearmedRun :
    let sys := rearmedRun.foldl (GoalSystem.arm wireSerde (memoryPersistence wireSerde))
      freshSystem
    sys.views.map (fun view => view.state.activation.map fun a => (a.reference, a.queuedRound))
        = [some (⟨"goal-a", 3⟩, some 1), none]
      ∧ ∀ view ∈ sys.views, view.job = none → view.state.observedEvents = sys.log.length →
          view.Runs wireSerde sys.log :=
  ⟨by decide +kernel,
    armed_goal_runnable wireSerde (memoryPersistence wireSerde) freshSystem rfl
      freshSystem_numbered rearmedRun (by decide +kernel)⟩

/-- A view creates a goal and writes its next revision, which stays
active. The activation keeps the first revision: `drive` does nothing and
`resume` is refused, since the view is armed. -/
def writtenRun : List ArmingStep :=
  [.base .openView] ++ loneCall 0 (.create "a" "first" none)
    ++ [.write 0 (some ⟨"goal-a", 1⟩)
          { reference := ⟨"goal-a", 2⟩, phase := .active, title := "second"
            maxGoalRounds := 20, tombstone := false } true .never,
        .base (.attempt 0 2 2 .never), .base (.finish 0 .never)]

theorem written_goal_not_runnable :
    ¬ ∀ steps : List ArmingStep,
      let sys := steps.foldl (GoalSystem.arm wireSerde (memoryPersistence wireSerde)) freshSystem
      ∀ view ∈ sys.views, view.job = none → view.state.observedEvents = sys.log.length →
        view.Runs wireSerde sys.log := by
  intro h
  let sys := writtenRun.foldl (GoalSystem.arm wireSerde (memoryPersistence wireSerde)) freshSystem
  have hstale : (sys.views.any fun view => view.job.isNone
      && view.state.observedEvents == sys.log.length
      && view.state.activation.any fun a => a.reference == ⟨"goal-a", 1⟩) = true := by
    decide +kernel
  have hcurrent : ((foldGoals wireSerde sys.log).toOption.all fun folded =>
    (activeGoal folded.goals "goal-a").all fun goal => goal.reference == ⟨"goal-a", 2⟩) = true := by
    decide +kernel
  obtain ⟨view, hview, hstale⟩ := List.any_eq_true.mp hstale
  simp only [and_eq_true, isNone_iff_eq_none, beq_iff_eq] at hstale
  obtain ⟨⟨hfree, hend⟩, harmed⟩ := hstale
  obtain ⟨_, hfold, hactive, _⟩ := h writtenRun view hview hfree hend
  obtain ⟨a, ha, href⟩ := Option.any_eq_true _ _ |>.mp harmed
  obtain ⟨_, hgoal, hsame⟩ := hactive a ha
  rw [beq_iff_eq.mp href] at hgoal hsame
  rw [hfold] at hcurrent
  simp [Except.toOption, hgoal, hsame] at hcurrent

end Tessivum.Goal
