/-
Tessivum.Goal.ViewTheorems — what the steps of a view do.

A view tracks the log, and the write of the call that holds its lock has
passed the checks before the append loop (`GoalView.Tracking`). Every
step keeps this. Only an attempt can append, and it commits at the end of
the log or leaves the log alone (`GoalView.Attempted`); every other step
moves a call on, ends it or begins one (`GoalView.Moved`). No step moves a
view back (`observed_le`).
-/
import Tessivum.Goal.ServiceTheorems

namespace Tessivum.Goal

open Library Protocol Session

variable {σ : Type} {S : Serde} {P : Persistence σ}

/-! ## After the commit -/

theorem armLocked_same (state : GoalState) (reference : GoalRef) (maxRounds : Nat)
    (next : Except SessionError Nat) :
    SameLedger state (armLocked state reference maxRounds next)
      ∧ (armLocked state reference maxRounds next).observedEvents = state.observedEvents := by
  unfold armLocked
  split
  · exact ⟨rfl, rfl⟩
  · split
    · exact ⟨rfl, rfl⟩
    · split
      · exact ⟨rfl, rfl⟩
      · dsimp only
        split <;> exact ⟨rfl, rfl⟩

theorem GoalCall.finish_same (call : GoalCall) (state : GoalState) (snapshot : GoalSnapshot)
    (next : Except SessionError Nat) (token : Cancellation) :
    SameLedger state (call.finish state snapshot next token)
      ∧ (call.finish state snapshot next token).observedEvents = state.observedEvents := by
  cases call with
  | create =>
    simp only [GoalCall.finish]
    split
    · exact ⟨rfl, rfl⟩
    · exact armLocked_same state _ _ next
  | resume reference => exact armLocked_same state _ _ next
  | _ => exact ⟨rfl, rfl⟩

/-! ## One turn of the append loop -/

/-- What an attempt can do: nothing to the log, or commit at its end. -/
inductive GoalView.Attempted (view : GoalView) (log : List SessionEvent) (clock time : Nat) :
    GoalView → List SessionEvent → Prop
  | unchanged : Attempted view log clock time view log
  | dropped : Attempted view log clock time (.idle view.state) log
  | lost (job : GoalJob) (hjob : view.job = some job) (stage : WriteStage) :
      Attempted view log clock time { view with job := some { job with stage } } log
  | committed (job : GoalJob) (goals : GoalMap GoalSnapshot) (hjob : view.job = some job)
      (hstage : job.stage = .attempting) (hplan : job.write.plan view.state = .ok goals)
      (hend : view.state.observedEvents = log.length) :
      Attempted view log clock time
        { state := job.write.commit view.state goals clock
          job := some { job with stage := .committed } }
        (log ++ [job.write.event view.state clock time])

variable {session : Live σ} {clock time : Nat} {log log' : List SessionEvent}
  {view view' : GoalView} {state : GoalState}

/-- What an attempt does to its view and to the log. -/
theorem GoalView.attempt_attempted (hlog : Numbered session.state.events) (view : GoalView)
    (clock time : Nat) (token : Cancellation) :
    view.Attempted session.state.events clock time
      (view.attempt S P session clock time token).1
      (view.attempt S P session clock time token).2.state.events := by
  unfold GoalView.attempt
  split
  · exact .unchanged
  · rename_i job hjob
    split
    · exact .unchanged
    · rename_i hstage
      rw [ne_eq, not_not] at hstage
      split
      · exact .dropped
      · rename_i goals hplan
        have hadmitted := session.append_admission (S := S) (P := P)
          (job.write.event view.state clock time) token
        rcases happend : session.append S P (job.write.event view.state clock time) token
          with ⟨_, session'⟩
        rw [happend] at hadmitted
        cases hadmitted with
        | refused err _ _ hstate =>
          cases err with
          | sequenceGap expected actual =>
            dsimp only
            rw [hstate]
            exact .lost job hjob _
          | _ =>
            dsimp only
            rw [hstate]
            exact .dropped
        | admitted expected projection _ hcheck hheader hstate =>
          have hadmitted : session.Admission S (job.write.event view.state clock time)
              (.ok (), session') := .admitted expected projection _ hcheck hheader hstate
          dsimp only
          rcases hadmitted.events with hsame | ⟨_, hseq, hgrown⟩
          · rw [hstate] at hsame
            exact absurd hsame (by simp)
          · rw [hgrown]
            exact .committed job goals hjob hstage hplan (hlog.seq_of_nextSeq hseq)

theorem GoalView.Attempted.numbered (h : view.Attempted log clock time view' log')
    (hlog : Numbered log) : Numbered log' := by
  cases h with
  | committed job goals hjob hstage hplan hend => exact numbered_snoc.mpr ⟨hlog, hend⟩
  | _ => exact hlog

theorem GoalView.Attempted.log_grows (h : view.Attempted log clock time view' log') :
    ∃ more, log' = log ++ more := by
  cases h with
  | committed job goals => exact ⟨_, rfl⟩
  | _ => exact ⟨[], by simp⟩

/-! ## One step of a call -/

theorem syncLocked_observed_le {state' : GoalState} (h : Tracks S log state)
    (hsync : syncLocked S state log = .ok state') :
    state.observedEvents ≤ state'.observedEvents := by
  rw [(syncLocked_tracks h hsync).2]
  exact h.1

/-- What a step that appends nothing makes of a view: its call goes on at another
stage, or ends, or a call begins, at the end of the log. -/
inductive GoalView.Moved (S : Serde) (log : List SessionEvent) (view : GoalView) :
    GoalView → Prop
  | stands : view.Moved S log view
  | ended (state : GoalState) (htracks : Tracks S log state)
      (hle : view.state.observedEvents ≤ state.observedEvents) : view.Moved S log (.idle state)
  | staged (job : GoalJob) (state : GoalState) (stage : WriteStage) (hjob : view.job = some job)
      (htracks : Tracks S log state)
      (hle : view.state.observedEvents ≤ state.observedEvents) :
      view.Moved S log { state, job := some { job with stage } }
  | begun (call : GoalCall) (state : GoalState) (write : GoalWrite) (htracks : Tracks S log state)
      (hle : view.state.observedEvents ≤ state.observedEvents)
      (hend : state.observedEvents = log.length) (hprepared : write.Prepared)
      (hcreate : write.operation = .create → state.anyOpen = false) :
      view.Moved S log { state, job := some { call := some call, write, stage := .attempting
                                              checkedAt := log.length } }

/-- A view begins a call. -/
theorem GoalView.begin_moved (h : Tracks S log view.state) (call : GoalCall) (live : Bool)
    (token : Cancellation) : view.Moved S log (view.begin S log call live token) := by
  unfold GoalView.begin
  split
  · exact .stands
  · split
    · exact .stands
    · split
      · exact .stands
      · rename_i state hsync
        obtain ⟨htracks, hend⟩ := syncLocked_tracks h hsync
        have hle := syncLocked_observed_le h hsync
        split
        · exact .ended state htracks hle
        · rename_i write hwrite
          obtain ⟨hprepared, hcreate⟩ := GoalCall.prepared hwrite
          exact .begun call state write htracks hle hend hprepared hcreate

/-- A view looks for events it has lost. -/
theorem GoalView.checkLost_moved (h : Tracks S log view.state) (token : Cancellation) :
    view.Moved S log (view.checkLost session token) := by
  unfold GoalView.checkLost
  split
  · exact .stands
  · rename_i job hjob
    split
    · split
      · exact .ended view.state h (le_refl _)
      · exact .staged job view.state _ hjob h (le_refl _)
    · exact .stands

/-- A view folds the log again. -/
theorem GoalView.resync_moved (h : Tracks S log view.state) :
    view.Moved S log (view.resync S log) := by
  unfold GoalView.resync
  split
  · exact .stands
  · rename_i job hjob
    split
    · exact .stands
    · split
      · exact .ended view.state h (le_refl _)
      · rename_i state hsync
        exact .staged job state _ hjob (syncLocked_tracks h hsync).1
          (syncLocked_observed_le h hsync)

/-- A view finishes its call. -/
theorem GoalView.finish_moved (h : Tracks S log view.state) (token : Cancellation) :
    view.Moved S log (view.finish session token) := by
  unfold GoalView.finish
  split
  · exact .stands
  · rename_i job hjob
    split
    · exact .stands
    · split
      · exact .ended view.state h (le_refl _)
      · rename_i call _
        obtain ⟨hsame, hobserved⟩ := call.finish_same view.state job.write.snapshot
          (nextSeq session.state.events) token
        exact .ended _ (h.of_same hsame hobserved) (le_of_eq hobserved.symm)

/-! ## Tracking -/

/-- The view's ledger is the fold of what it has observed, and the write
in progress is prepared. -/
structure GoalView.Tracking (S : Serde) (log : List SessionEvent) (view : GoalView) : Prop where
  tracks : Tracks S log view.state
  prepared : ∀ job, view.job = some job → job.write.Prepared

theorem GoalView.tracking_idle (h : Tracks S log state) : (GoalView.idle state).Tracking S log :=
  ⟨h, fun _ hjob => by cases hjob⟩

theorem GoalView.Tracking.append (h : view.Tracking S log) (more : List SessionEvent) :
    view.Tracking S (log ++ more) :=
  ⟨h.tracks.append more, h.prepared⟩

/-- A view that moved on: it tracks the log and has observed no less. -/
structure GoalView.Advances (S : Serde) (log : List SessionEvent) (view view' : GoalView) :
    Prop where
  tracking : view'.Tracking S log
  observed_le : view.state.observedEvents ≤ view'.state.observedEvents

theorem GoalView.Tracking.refl (h : view.Tracking S log) : view.Advances S log view :=
  ⟨h, le_refl _⟩

/-- A step of a call keeps a view tracking. -/
theorem GoalView.Tracking.moved (h : view.Tracking S log) (hmoved : view.Moved S log view') :
    view.Advances S log view' := by
  cases hmoved with
  | stands => exact h.refl
  | ended state htracks hle => exact ⟨GoalView.tracking_idle htracks, hle⟩
  | staged job state stage hjob htracks hle =>
    refine ⟨⟨htracks, fun job' hjob' => ?_⟩, hle⟩
    cases hjob'
    exact h.prepared job hjob
  | begun call state write htracks hle hend hprepared hcreate =>
    refine ⟨⟨htracks, fun job hjob => ?_⟩, hle⟩
    cases hjob
    exact hprepared

theorem GoalRequest.prepare_prepared {request : GoalRequest} {token : Cancellation}
    {write : GoalWrite} (h : request.prepare state token = .ok write) : write.Prepared := by
  unfold GoalRequest.prepare at h
  simp only [bind_eq_ok, exists_unit] at h
  obtain ⟨_, _, _, hreason, h⟩ := h
  cases h
  exact blockedReasonFor_checked hreason

/-- `write` begins without a call, so nothing is known of the open goals. -/
theorem GoalView.Tracking.beginWrite (h : view.Tracking S log) (expected : Option GoalRef)
    (snapshot : GoalSnapshot) (live : Bool) (token : Cancellation) :
    view.Advances S log (view.beginWrite S log expected snapshot live token) := by
  unfold GoalView.beginWrite
  split
  · exact h.refl
  · split
    · exact h.refl
    · split
      · exact h.refl
      · rename_i hsync
        have htracks := (syncLocked_tracks h.tracks hsync).1
        have hle := syncLocked_observed_le h.tracks hsync
        dsimp only
        split
        · exact ⟨GoalView.tracking_idle htracks, hle⟩
        · rename_i hwrite
          refine ⟨⟨htracks, fun job hjob => ?_⟩, hle⟩
          cases hjob
          exact GoalRequest.prepare_prepared hwrite

theorem GoalView.Attempted.advances (h : view.Attempted log clock time view' log')
    (hview : view.Tracking S log) : view.Advances S log' view' := by
  cases h with
  | unchanged => exact hview.refl
  | dropped => exact ⟨GoalView.tracking_idle hview.tracks, le_refl _⟩
  | lost job hjob stage =>
    exact hview.moved (.staged job view.state stage hjob hview.tracks (le_refl _))
  | committed job goals hjob hstage hplan hend =>
    refine ⟨⟨job.write.commit_tracks hview.tracks hend (hview.prepared job hjob) hplan clock
      time, fun job' hjob' => ?_⟩, ?_⟩
    · cases hjob'
      exact hview.prepared job hjob
    · simp [GoalWrite.commit]

/-! ## The views of a system -/

/-- Every view is good on the log. -/
def GoalSystem.All (Good : List SessionEvent → GoalView → Prop) (sys : GoalSystem σ) : Prop :=
  Numbered sys.log ∧ ∀ view ∈ sys.views, Good sys.log view

section

variable (Good : List SessionEvent → GoalView → Prop) {sys : GoalSystem σ} (h : sys.All Good)

include h

theorem GoalSystem.All.onView (v : Nat) {f : GoalView → GoalView}
    (hf : ∀ view ∈ sys.views[v]?, Good sys.log view → Good sys.log (f view)) :
    (sys.onView v f).All Good := by
  unfold GoalSystem.onView
  split
  · exact h
  · rename_i view hview
    refine ⟨h.1, fun other hother => ?_⟩
    rcases List.mem_or_eq_of_mem_set hother with hmem | rfl
    · exact h.2 other hmem
    · exact hf view hview (h.2 view (List.mem_of_getElem? hview))

theorem GoalSystem.All.openView
    (hidle : ∀ state, openView S sys.log = .ok state → Good sys.log (.idle state)) :
    (sys.step S P .openView).All Good := by
  simp only [GoalSystem.step]
  split
  · exact h
  · rename_i state hopen
    refine ⟨h.1, fun view hview => ?_⟩
    rcases mem_append.mp hview with hmem | hmem
    · exact h.2 view hmem
    · rw [mem_singleton.mp hmem]
      exact hidle state hopen

variable (happend : ∀ view more, Good sys.log view → Good (sys.log ++ more) view)

include happend

theorem GoalSystem.All.ordinary (call : Call) : (sys.step S P (.ordinary call)).All Good := by
  simp only [GoalSystem.step]
  split
  · exact h
  · have hadmitted := sys.session.call_admission (S := S) (P := P) call
    refine ⟨hadmitted.numbered h.1, fun view hview => ?_⟩
    rcases hadmitted.events with hsame | ⟨_, _, hgrown⟩
    · simp only [GoalSystem.log, hsame]
      exact h.2 view hview
    · simp only [GoalSystem.log, hgrown]
      exact happend view _ (h.2 view hview)

theorem GoalSystem.All.attempt (v clock time : Nat) (token : Cancellation)
    (hf : ∀ view ∈ sys.views[v]?, Good sys.log view →
      view.Attempted sys.log clock time (view.attempt S P sys.session clock time token).1
        (view.attempt S P sys.session clock time token).2.state.events →
      Good (view.attempt S P sys.session clock time token).2.state.events
        (view.attempt S P sys.session clock time token).1) :
    (sys.step S P (.attempt v clock time token)).All Good := by
  simp only [GoalSystem.step]
  split
  · exact h
  · rename_i view hview
    have hattempt := view.attempt_attempted (S := S) (P := P) h.1 clock time token
    obtain ⟨more, hmore⟩ := hattempt.log_grows
    refine ⟨hattempt.numbered h.1, fun other hother => ?_⟩
    rcases List.mem_or_eq_of_mem_set hother with hmem | rfl
    · simp only [GoalSystem.log, hmore]
      exact happend other more (h.2 other hmem)
    · exact hf view hview (h.2 view (List.mem_of_getElem? hview)) hattempt

end

/-! ## A new session -/

def freshSystem : GoalSystem MemoryState where
  session := memorySession (.plain ⟨"s"⟩ 0)
  views := []

theorem freshSystem_numbered : Numbered freshSystem.log := by
  intro i e h
  simp [freshSystem, GoalSystem.log, memorySession, SessionState.empty] at h

end Tessivum.Goal
