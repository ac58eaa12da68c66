/-
Tessivum.Goal.OneOpenTheorems — at most one goal is open.

`GoalService::create` looks for an open goal on the ledger it has synchronised
and then enters the append loop. Every other call keeps its goal open or closes
it, so the number of open goals can grow only where a create commits, and it
exceeds one exactly when a goal created since the check is still open there.
-/
import Tessivum.Goal.ViewTheorems

namespace Tessivum.Goal

open Library Protocol Session List

variable {σ : Type} {S : Serde} {P : Persistence σ}

/-! ## Soundness of views -/

/-- What holds of a call in progress. A create has looked at a ledger
without open goals. -/
structure GoalJob.Sound (S : Serde) (log : List SessionEvent) (job : GoalJob) : Prop where
  prepared : job.write.Prepared
  checked : job.checkedAt ≤ log.length
  unopened : job.write.operation = .create →
    ∃ folded, foldGoals S (log.take job.checkedAt) = .ok folded ∧ ∀ id, ¬ folded.OpenIn id

def GoalView.Sound (S : Serde) (log : List SessionEvent) (view : GoalView) : Prop :=
  Tracks S log view.state ∧ ∀ job, view.job = some job → job.Sound S log

variable {job : GoalJob} {log : List SessionEvent} {view view' : GoalView} {session : Live σ}
  {sys : GoalSystem σ}

theorem GoalJob.Sound.append (h : job.Sound S log) (more : List SessionEvent) :
    job.Sound S (log ++ more) where
  prepared := h.prepared
  checked := by rw [length_append]; have := h.checked; omega
  unopened hop := by
    rw [take_append_of_le_length h.checked]
    exact h.unopened hop

theorem GoalJob.Sound.stage (h : job.Sound S log) (stage : WriteStage) :
    GoalJob.Sound S log { job with stage } :=
  ⟨h.prepared, h.checked, h.unopened⟩

theorem GoalView.Sound.append (h : view.Sound S log) (more : List SessionEvent) :
    view.Sound S (log ++ more) :=
  ⟨h.1.append more, fun job hjob => (h.2 job hjob).append more⟩

theorem GoalView.sound_idle {state : GoalState} (h : Tracks S log state) :
    (GoalView.idle state).Sound S log :=
  ⟨h, fun _ hjob => by cases hjob⟩

/-- A step of a call keeps a view sound. -/
theorem GoalView.Sound.moved (h : view.Sound S log) (hmoved : view.Moved S log view') :
    view'.Sound S log := by
  cases hmoved with
  | stands => exact h
  | ended state htracks hle => exact GoalView.sound_idle htracks
  | staged job state stage hjob htracks hle =>
    refine ⟨htracks, fun job' hjob' => ?_⟩
    cases hjob'
    exact (h.2 job hjob).stage stage
  | begun call state write htracks hle hend hprepared hcreate =>
    refine ⟨htracks, fun job hjob => ?_⟩
    cases hjob
    refine ⟨hprepared, le_refl _, fun hop => ?_⟩
    -- a create has seen the whole log, and no open goal in it
    obtain ⟨folded, hfold, hsame⟩ := htracks.at_end hend
    have hnone := GoalState.openIn_iff_anyOpen.mp (hcreate hop)
    refine ⟨folded, by rw [take_length]; exact hfold, fun id hopen => ?_⟩
    exact hnone id (GoalState.openIn_of_same hsame hopen)

/-- A view that tries to append. -/
theorem GoalView.Attempted.sound {log' : List SessionEvent} {clock time : Nat}
    (h : view.Attempted log clock time view' log') (hview : view.Sound S log) :
    view'.Sound S log' := by
  cases h with
  | unchanged => exact hview
  | dropped => exact GoalView.sound_idle hview.1
  | lost job hjob stage =>
    exact hview.moved (.staged job view.state stage hjob hview.1 (le_refl _))
  | committed job goals hjob hstage hplan hend =>
    have hsound := hview.2 job hjob
    refine ⟨job.write.commit_tracks hview.1 hend hsound.prepared hplan clock time, ?_⟩
    intro job' hjob'
    cases hjob'
    exact (hsound.stage _).append _

/-! ## The system -/

def GoalSystem.Sound (S : Serde) (sys : GoalSystem σ) : Prop :=
  Numbered sys.log ∧ ∀ view ∈ sys.views, view.Sound S sys.log

theorem GoalSystem.Sound.set (h : sys.Sound S) (hview : view.Sound S sys.log) (v : Nat) :
    (sys.setView v view).Sound S := by
  refine ⟨h.1, fun other hother => ?_⟩
  rcases mem_or_eq_of_mem_set hother with hmem | rfl
  · exact h.2 other hmem
  · exact hview

/-- One step of the views. -/
theorem GoalSystem.step_sound (h : sys.Sound S) (i : GoalStep) : (sys.step S P i).Sound S := by
  let Good : List SessionEvent → GoalView → Prop := fun log view => view.Sound S log
  have hviews : sys.All Good := h
  cases i with
  | ordinary call => exact hviews.ordinary Good (fun _ more h => h.append more) call
  | openView =>
    exact hviews.openView Good fun state hopen => GoalView.sound_idle (openView_tracks hopen)
  | begin v call live token =>
    exact hviews.onView Good v fun view _ h => h.moved (GoalView.begin_moved h.1 call live token)
  | attempt v clock time token =>
    exact hviews.attempt Good (fun _ more h => h.append more) v clock time token
      fun view _ h hattempt => hattempt.sound h
  | checkLost v token =>
    exact hviews.onView Good v fun view _ h => h.moved (GoalView.checkLost_moved h.1 token)
  | resync v => exact hviews.onView Good v fun view _ h => h.moved (GoalView.resync_moved h.1)
  | finish v token =>
    exact hviews.onView Good v fun view _ h => h.moved (GoalView.finish_moved h.1 token)

/-! ## Where the log grows -/

/-- What a step can append. -/
inductive GoalSystem.Grows (sys : GoalSystem σ) : GoalStep → List SessionEvent → Prop
  | same (i : GoalStep) : Grows sys i sys.log
  | ordinary (call : Call) (e : SessionEvent) (htype : e.eventType ≠ "goal/change") :
      Grows sys (.ordinary call) (sys.log ++ [e])
  | change (v clock time : Nat) (token : Cancellation) (view : GoalView) (job : GoalJob)
      (goals : GoalMap GoalSnapshot) (hview : sys.views[v]? = some view)
      (hjob : view.job = some job) (hstage : job.stage = .attempting)
      (hplan : job.write.plan view.state = .ok goals)
      (hend : view.state.observedEvents = sys.log.length) :
      Grows sys (.attempt v clock time token)
        (sys.log ++ [job.write.event view.state clock time])

/-- What one step adds to the log. -/
theorem GoalSystem.step_grows (h : sys.Sound S) (i : GoalStep) :
    sys.Grows i (sys.step S P i).log := by
  cases i with
  | ordinary call =>
    simp only [GoalSystem.step]
    split
    · exact .same _
    · rename_i htype
      have hadmitted := sys.session.call_admission (S := S) (P := P) call
      rcases hadmitted.events with hsame | ⟨_, _, hgrown⟩
      · simp only [GoalSystem.log, hsame]
        exact .same _
      · simp only [GoalSystem.log, hgrown]
        exact .ordinary call _ htype
  | attempt v clock time token =>
    simp only [GoalSystem.step]
    split
    · exact .same _
    · rename_i view hview
      have hattempt := view.attempt_attempted (S := S) (P := P) h.1 clock time token
      simp only [GoalSystem.log]
      generalize (view.attempt S P sys.session clock time token).1 = view' at hattempt
      generalize (view.attempt S P sys.session clock time token).2.state.events = log'
        at hattempt
      cases hattempt with
      | committed job goals hjob hstage hplan hend =>
        exact .change v clock time token view job goals hview hjob hstage hplan hend
      | _ => exact .same _
  | _ =>
    simp only [GoalSystem.step]
    split <;> exact .same _

theorem createdBy_event (write : GoalWrite) (state : GoalState) (clock time : Nat) :
    createdBy (write.event state clock time)
      = if write.operation = .create then some write.snapshot.reference.id else none := by
  have htype : (write.event state clock time).eventType = "goal/change" := rfl
  rw [createdBy, if_pos htype, GoalWrite.event]
  by_cases hop : write.operation = .clear
  · simp only [GoalWrite.change, SessionEvent.plain, hop]
    rfl
  · simp only [GoalWrite.change, if_neg hop, SessionEvent.plain, Wire.changeFromValue_snapshot]
    by_cases hcreate : write.operation = .create
    · simp [filter_some, GoalChange.snapshot, hcreate, GoalSnapshotWire.fromSnapshot]
    · simp [filter_some, GoalChange.snapshot, hcreate]

/-! ## At most one open goal -/

def GoalSystem.OneOpen (S : Serde) (sys : GoalSystem σ) : Prop :=
  ∀ folded, foldGoals S sys.log = .ok folded → folded.AtMostOneOpen

/-- The goals created in the log from position `n` on. -/
def createdSince (log : List SessionEvent) (n : Nat) : List String :=
  (log.drop n).filterMap createdBy

/-- The condition on a step: where an attempt of a create stands at the
end of the log, so that it commits, no goal created since the create's
check is open any more. Every other step is unconditional. -/
def Uncontested (sys : GoalSystem σ) : GoalStep → Prop
  | .attempt v _ _ _ =>
    ∀ view ∈ sys.views[v]?, ∀ job ∈ view.job, job.write.operation = .create →
      view.state.observedEvents = sys.log.length →
        ∀ id ∈ createdSince sys.log job.checkedAt, ¬ view.state.OpenIn id
  | _ => True

/-- A view that stands at the end of the log sees every goal that is
open, and none of them was open when its create looked. -/
theorem created_since_of_open (hview : view.Sound S log) (hjob : view.job = some job)
    (hop : job.write.operation = .create) {folded : GoalState}
    (hfold : foldGoals S log = .ok folded) {id : String} (hopen : folded.OpenIn id) :
    id ∈ createdSince log job.checkedAt := by
  obtain ⟨checked, hchecked, hnone⟩ := (hview.2 job hjob).unopened hop
  rw [← take_append_drop job.checkedAt log] at hfold
  obtain ⟨mid, hmid, hrest⟩ := foldGoals_append.mp hfold
  obtain rfl : mid = checked := ok.inj (hmid.symm.trans hchecked)
  rcases open_before_of_foldlM hrest hopen with h | h
  · exact absurd h (hnone id)
  · exact mem_filterMap.mpr h

/-- An uncontested step leaves at most one goal open. -/
theorem GoalSystem.step_oneOpen (hsound : sys.Sound S) {i : GoalStep} (hcond : Uncontested sys i)
    (h : sys.OneOpen S) : (sys.step S P i).OneOpen S := by
  intro folded hfolded
  have hgrows := GoalSystem.step_grows (P := P) hsound i
  generalize (sys.step S P i).log = log' at hgrows hfolded
  cases hgrows with
  | same => exact h folded hfolded
  | ordinary call e htype =>
    obtain ⟨before, hbefore, hlast⟩ := foldGoals_append.mp hfolded
    have hquiet : createdBy e = none := by rw [createdBy, if_neg htype]
    have hopen : ∀ id, folded.OpenIn id → before.OpenIn id := by
      intro id hid
      rcases open_before_of_foldlM hlast hid with h | ⟨_, he', hcreated⟩
      · exact h
      · rw [mem_singleton.mp he', hquiet] at hcreated
        cases hcreated
    exact fun a b ha hb => h before hbefore a b (hopen a ha) (hopen b hb)
  | change v clock time token view job goals hview hjob hstage hplan hend =>
    obtain ⟨before, hbefore, hlast⟩ := foldGoals_append.mp hfolded
    have hsees := hsound.2 view (mem_of_getElem? hview)
    have hopen : ∀ id, folded.OpenIn id →
        before.OpenIn id ∨ createdBy (job.write.event view.state clock time) = some id := by
      intro id hid
      rcases open_before_of_foldlM hlast hid with h | ⟨_, he', hcreated⟩
      · exact .inl h
      · rw [mem_singleton.mp he'] at hcreated
        exact .inr hcreated
    by_cases hop : job.write.operation = .create
    · -- the goal just created is the only one: nothing was open before it
      obtain ⟨same, hsame, hledger⟩ := hsees.1.at_end hend
      obtain rfl : same = before := ok.inj (hsame.symm.trans hbefore)
      have hnone : ∀ id, ¬ same.OpenIn id := by
        intro id hid
        have hcreated := created_since_of_open hsees hjob hop hbefore hid
        exact hcond view hview job hjob hop hend id hcreated
          (GoalState.openIn_of_same hledger hid)
      rw [createdBy_event, if_pos hop] at hopen
      intro a b ha hb
      have ha' := (hopen a ha).resolve_left (hnone a)
      have hb' := (hopen b hb).resolve_left (hnone b)
      exact some.inj (ha'.symm.trans hb')
    · rw [createdBy_event, if_neg hop] at hopen
      intro a b ha hb
      exact h before hbefore a b ((hopen a ha).resolve_right (by simp))
        ((hopen b hb).resolve_right (by simp))

/-- At most one goal is open after every run, from a session with no
views and at most one open goal, in which no create commits while a goal
created since its check is open. -/
theorem open_goals_at_most_one (S : Serde) (P : Persistence σ) (start : GoalSystem σ)
    (hviews : start.views = []) (hlog : Numbered start.log) (hstart : start.OneOpen S)
    (steps : List GoalStep) (hrun : Meets Uncontested (GoalSystem.step S P) start steps) :
    (steps.foldl (GoalSystem.step S P) start).OneOpen S := by
  have hsound : start.Sound S := ⟨hlog, by simp [hviews]⟩
  refine (foldl_invariant_of_meets (fun sys => sys.Sound S ∧ sys.OneOpen S) ?_ steps start hrun
    ⟨hsound, hstart⟩).2
  intro sys i hcond hinv
  exact ⟨GoalSystem.step_sound hinv.1 i, GoalSystem.step_oneOpen hinv.1 hcond hinv.2⟩

/-! ### Two views, one goal after the other -/

instance (state : GoalState) (id : String) : Decidable (state.OpenIn id) :=
  decidable_of_iff ((state.goals.lookup id).any GoalSnapshot.isOpen = true) (by
    simp [GoalState.OpenIn, Option.any_eq_true])

instance (sys : GoalSystem σ) : (i : GoalStep) → Decidable (Uncontested sys i)
  | .attempt v _ _ _ => inferInstanceAs (Decidable (∀ view ∈ sys.views[v]?, ∀ job ∈ view.job,
      _ → _ → ∀ id ∈ createdSince sys.log job.checkedAt, _))
  | .ordinary _ | .openView | .begin _ _ _ _ | .checkLost _ _ | .resync _ | .finish _ _ =>
    .isTrue trivial

theorem freshSystem_oneOpen : freshSystem.OneOpen wireSerde := by
  intro folded hfold a b ha
  cases hfold
  obtain ⟨_, hgoal, _⟩ := ha
  simp [GoalState.empty] at hgoal

/-- A call of one view, started and written without a rival. -/
def wholeCall (v : Nat) (call : GoalCall) : List GoalStep :=
  [.begin v call true .never, .attempt v 1 1 .never, .finish v .never]

/-- Two views, the second creating its goal after the first has completed
its own. -/
theorem open_goals_at_most_one_twoViews :
    let P := memoryPersistence wireSerde
    let steps := [.openView, .openView] ++ wholeCall 0 (.create "a" "first" none)
      ++ wholeCall 0 (.complete ⟨"goal-a", 1⟩) ++ wholeCall 1 (.create "b" "second" none)
    let sys := steps.foldl (GoalSystem.step wireSerde P) freshSystem
    createdSince sys.log 0 = ["goal-a", "goal-b"] ∧ sys.OneOpen wireSerde := by
  intro P steps sys
  refine ⟨by decide +kernel, ?_⟩
  exact open_goals_at_most_one wireSerde P freshSystem rfl freshSystem_numbered
    freshSystem_oneOpen steps (by decide +kernel)

/-- Two views that both looked before either wrote: the second create
loses the race for its number, synchronises, and commits beside the
first. -/
theorem open_goals_two_creates :
    ¬ ∀ steps : List GoalStep,
      (steps.foldl (GoalSystem.step wireSerde (memoryPersistence wireSerde))
        freshSystem).OneOpen wireSerde := by
  intro h
  let steps : List GoalStep :=
    [.openView, .openView, .begin 0 (.create "a" "first" none) true .never,
      .begin 1 (.create "b" "second" none) true .never, .attempt 0 1 1 .never,
      .finish 0 .never, .attempt 1 2 2 .never, .checkLost 1 .never, .resync 1,
      .attempt 1 3 3 .never, .finish 1 .never]
  let sys := steps.foldl (GoalSystem.step wireSerde (memoryPersistence wireSerde)) freshSystem
  have hopen : ∃ folded, foldGoals wireSerde sys.log = .ok folded ∧ folded.OpenIn "goal-a"
      ∧ folded.OpenIn "goal-b" := by
    have hboth : (foldGoals wireSerde sys.log).toOption.any
        (fun folded => decide (folded.OpenIn "goal-a" ∧ folded.OpenIn "goal-b")) = true := by
      decide +kernel
    cases hfold : foldGoals wireSerde sys.log with
    | error err => rw [hfold] at hboth; cases hboth
    | ok folded =>
      rw [hfold] at hboth
      exact ⟨folded, rfl, of_decide_eq_true hboth⟩
  obtain ⟨folded, hfold, ha, hb⟩ := hopen
  have hsame := h steps folded hfold "goal-a" "goal-b" ha hb
  exact absurd hsame (by decide)

end Tessivum.Goal
