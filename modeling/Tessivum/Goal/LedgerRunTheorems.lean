/-
Tessivum.Goal.LedgerRunTheorems — the live goal ledger is the fold of its log.

The system of views is run with the public `write` beside the other calls, and
with a record of what the views have committed: the position in the log and the
write. The record is history only, no step reads it.
-/
import Tessivum.Goal.HistoryTheorems
import Tessivum.Goal.ViewTheorems

namespace Tessivum.Goal

open Library Protocol Session List

variable {σ : Type} {S : Serde} {P : Persistence σ}

/-! ## Runs with `write` -/

/-- A system and what its views have committed, oldest first. -/
structure LedgerSystem (σ : Type) where
  goals : GoalSystem σ
  committed : List (Nat × GoalWrite)

/-- A step of a view, of another writer, or the start of a `write`. -/
inductive LedgerStep where
  | base (step : GoalStep)
  | write (view : Nat) (expected : Option GoalRef) (snapshot : GoalSnapshot) (live : Bool)
      (token : Cancellation)

def LedgerStep.isOrdinary : LedgerStep → Bool
  | .base (.ordinary _) => true
  | _ => false

/-- What a step commits: an attempt that has grown the log has appended
the change of its view's write. -/
def GoalSystem.commitBy (sys sys' : GoalSystem σ) : GoalStep → Option (Nat × GoalWrite)
  | .attempt v _ _ _ =>
    if sys'.log.length = sys.log.length then none
    else (sys.views[v]?.bind GoalView.job).map fun job => (sys.log.length, job.write)
  | _ => none

def LedgerSystem.step (S : Serde) (P : Persistence σ) (sys : LedgerSystem σ) :
    LedgerStep → LedgerSystem σ
  | .base i =>
    let goals := sys.goals.step S P i
    { goals, committed := sys.committed ++ (sys.goals.commitBy goals i).toList }
  | .write v expected snapshot live token =>
    match sys.goals.views[v]? with
    | none => sys
    | some view =>
      let begun := view.beginWrite S sys.goals.log expected snapshot live token
      { sys with goals := sys.goals.setView v begun }

/-! ## What holds in every state -/

/-- The four fields of a view that are the fold of a stretch of log. -/
def IsFoldOf (S : Serde) (log : List SessionEvent) (state : GoalState) : Prop :=
  ∃ folded, foldGoals S log = .ok folded ∧ state.goals = folded.goals
    ∧ state.times = folded.times ∧ state.blockedReasons = folded.blockedReasons
    ∧ state.current = folded.current

/-- Every view, in a call or not, is the fold of what it has observed. -/
def LedgerSystem.ViewsFold (S : Serde) (sys : LedgerSystem σ) : Prop :=
  ∀ view ∈ sys.goals.views, view.state.observedEvents ≤ sys.goals.log.length
    ∧ IsFoldOf S (sys.goals.log.take view.state.observedEvents) view.state

/-- Every committed write stands in the log as its change, and the fold
accepts the log up to it. -/
def LedgerSystem.CommitsFold (S : Serde) (sys : LedgerSystem σ) : Prop :=
  ∀ commit ∈ sys.committed,
    (sys.goals.log[commit.1]?.bind entryOf) = some commit.2.snapshot.entry
      ∧ ∃ folded, foldGoals S (sys.goals.log.take (commit.1 + 1)) = .ok folded

/-- Up to every commit the history of every goal is orderly. -/
def LedgerSystem.HistoriesOrderly (sys : LedgerSystem σ) : Prop :=
  ∀ commit ∈ sys.committed, ∀ id,
    Orderly (goalHistory (sys.goals.log.take (commit.1 + 1)) id)

def LedgerSystem.ExpectedOnce (sys : LedgerSystem σ) : Prop :=
  (sys.committed.filterMap fun commit => commit.2.expected).Nodup

/-- A step of a view that commits nothing appends nothing, moves no view
back and leaves each one the fold of what it has observed. -/
def LedgerSystem.FailuresQuiet (S : Serde) (P : Persistence σ) (sys : LedgerSystem σ) : Prop :=
  ∀ i : LedgerStep, i.isOrdinary = false → (sys.step S P i).committed = sys.committed →
    (sys.step S P i).goals.log = sys.goals.log
      ∧ (sys.step S P i).ViewsFold S
      ∧ ∀ (v : Nat) (view view' : GoalView), sys.goals.views[v]? = some view →
          (sys.step S P i).goals.views[v]? = some view' →
          view.state.observedEvents ≤ view'.state.observedEvents

/-! ## The invariant -/

/-- The log is numbered, every view tracks it, and the record of commits
agrees with it. -/
structure LedgerSystem.Inv (S : Serde) (sys : LedgerSystem σ) : Prop where
  numbered : Numbered sys.goals.log
  views : ∀ view ∈ sys.goals.views, view.Tracking S sys.goals.log
  commits : sys.CommitsFold S
  ascending : sys.committed.Pairwise fun earlier later => earlier.1 < later.1
  inside : ∀ commit ∈ sys.committed, commit.1 < sys.goals.log.length
  expected : ∀ commit ∈ sys.committed, ∀ reference, commit.2.expected = some reference →
    commit.2.snapshot.reference = { reference with revision := reference.revision + 1 }

variable {state : GoalState} {sys sys' : LedgerSystem σ} {goals : GoalMap GoalSnapshot}
  {write : GoalWrite} {session : Live σ} {v : Nat} {view view' : GoalView}

theorem Tracks.isFoldOf {log : List SessionEvent} (h : Tracks S log state) :
    IsFoldOf S (log.take state.observedEvents) state := by
  obtain ⟨_, folded, hfold, hsame⟩ := h
  exact ⟨folded, hfold, hsame.goals.symm, hsame.times.symm, hsame.blockedReasons.symm,
    hsame.current.symm⟩

theorem LedgerSystem.Inv.viewsFold (h : sys.Inv S) : sys.ViewsFold S :=
  fun view hview => ⟨(h.views view hview).tracks.1, (h.views view hview).tracks.isFoldOf⟩

theorem LedgerSystem.Inv.historiesOrderly (h : sys.Inv S) : sys.HistoriesOrderly := by
  intro commit hcommit id
  obtain ⟨_, _, hfold⟩ := h.commits commit hcommit
  exact foldGoals_orderly hfold id

/-- Two commits of one reference would give one goal the same revision
twice. -/
theorem LedgerSystem.Inv.reference_once (h : sys.Inv S) {a b : Nat × GoalWrite}
    (ha : a ∈ sys.committed) (hb : b ∈ sys.committed) (hlt : a.1 < b.1) :
    a.2.snapshot.reference ≠ b.2.snapshot.reference := by
  intro hsame
  obtain ⟨hentryA, _⟩ := h.commits a ha
  obtain ⟨hentryB, folded, hfold⟩ := h.commits b hb
  have hinside := h.inside b hb
  obtain ⟨eventA, heventA, hentryA⟩ := bind_eq_some_iff.mp hentryA
  obtain ⟨eventB, heventB, hentryB⟩ := bind_eq_some_iff.mp hentryB
  -- the log up to `b` is what precedes it, with `a` among it, then `b`
  have hsplit : sys.goals.log.take (b.1 + 1) = sys.goals.log.take b.1 ++ [eventB] := by
    rw [take_add_one, heventB]
    rfl
  have hmem : eventA ∈ sys.goals.log.take b.1 :=
    mem_iff_getElem?.mpr ⟨a.1, by rw [getElem?_take_of_lt hlt]; exact heventA⟩
  have hnodup := (foldGoals_orderly hfold b.2.snapshot.reference.id).nodup
  rw [hsplit, goalHistory_snoc, hentryB] at hnodup
  have hlast : ((some b.2.snapshot.entry).toList.filter fun entry =>
    decide (entry.reference.id = b.2.snapshot.reference.id)) = [b.2.snapshot.entry] := by
    simp [GoalSnapshot.entry]
  rw [hlast, map_append] at hnodup
  have hin : a.2.snapshot.entry ∈ goalHistory (sys.goals.log.take b.1)
      b.2.snapshot.reference.id := by
    refine mem_filter.mpr ⟨mem_filterMap.mpr ⟨eventA, hmem, hentryA⟩, ?_⟩
    simp [GoalSnapshot.entry, hsame]
  refine (nodup_append.mp hnodup).2.2 _ (mem_map_of_mem hin) _
    (mem_singleton_self _) ?_
  simp [GoalSnapshot.entry, hsame]

theorem LedgerSystem.Inv.expectedOnce (h : sys.Inv S) : sys.ExpectedOnce := by
  unfold LedgerSystem.ExpectedOnce
  rw [List.Nodup, pairwise_filterMap]
  refine h.ascending.imp_of_mem ?_
  intro a b ha hb hlt reference hreference reference' hreference' heq
  subst heq
  refine h.reference_once ha hb hlt ?_
  rw [h.expected a ha reference hreference, h.expected b hb reference hreference']

/-! ## Steps -/

theorem GoalWrite.entryOf_event (hplan : write.plan state = .ok goals) (clock time : Nat) :
    entryOf (write.event state clock time) = some write.snapshot.entry := by
  obtain ⟨hvalid, _⟩ := check_bind_eq_ok.mp hplan
  have htype : (write.event state clock time).eventType = "goal/change" := rfl
  rw [entryOf, if_pos htype]
  by_cases hop : write.operation = .clear
  · rw [hop] at hvalid
    obtain ⟨_, _, _, _, hstep⟩ := validateGoalOperation_revise (by decide) hvalid
    have htomb : write.snapshot.tombstone = true := operationValid_tombstone hstep
    simp only [GoalWrite.event, GoalWrite.change, if_pos hop, SessionEvent.plain,
      Wire.changeFromValue_clear]
    simp [GoalChange.entry, GoalChange.clear, GoalSnapshot.entry, htomb]
  · have hlive := write.snapshot_live hop hplan
    simp only [GoalWrite.event, GoalWrite.change, if_neg hop, SessionEvent.plain,
      Wire.changeFromValue_snapshot]
    simp [GoalChange.entry, GoalChange.snapshot, hop, GoalSnapshotWire.fromSnapshot,
      GoalSnapshot.entry, hlive]

theorem GoalWrite.plan_reference (hstate : state.Valid) (hplan : write.plan state = .ok goals)
    {reference : GoalRef} (hexpected : write.expected = some reference) :
    write.snapshot.reference = { reference with revision := reference.revision + 1 } := by
  obtain ⟨hvalid, happly⟩ := check_bind_eq_ok.mp hplan
  rcases applySnapshot_step happly with
    ⟨_, hnone, _⟩ | ⟨current, hcurrent, _, hnamed, hnext, _⟩
  · rw [hexpected] at hnone
    cases hnone
  · rw [hexpected] at hnamed
    obtain rfl : reference = current.reference := by simpa using hnamed
    have hkey := (hstate.keyed _ current hcurrent).1
    have hpos := hstate.revised _ current hcurrent
    have hrevision : write.snapshot.reference.revision = current.reference.revision + 1 := by
      by_cases hop : write.operation = .create
      · rw [hop] at hvalid
        have hone := (validateGoalOperation_create hvalid).2.1
        unfold u64Bound at hnext
        omega
      · obtain ⟨_, hfound, _, hnextRef, _⟩ := validateGoalOperation_revise hop hvalid
        rw [hcurrent] at hfound
        cases hfound
        exact nextRef_revision hnextRef
    rw [hkey, ← hrevision]

/-- What a step of the system does to the log, the views and the record. -/
inductive LedgerSystem.Stepped (S : Serde) (sys : LedgerSystem σ) (i : LedgerStep)
    (sys' : LedgerSystem σ) : Prop
  | quiet (hlog : sys'.goals.log = sys.goals.log) (hcommitted : sys'.committed = sys.committed)
  | ordinary (e : SessionEvent) (hlog : sys'.goals.log = sys.goals.log ++ [e])
      (hcommitted : sys'.committed = sys.committed) (hordinary : i.isOrdinary = true)
  | committed (view : GoalView) (job : GoalJob) (goals : GoalMap GoalSnapshot) (clock time : Nat)
      (hview : view ∈ sys.goals.views) (hjob : view.job = some job)
      (hplan : job.write.plan view.state = .ok goals)
      (hend : view.state.observedEvents = sys.goals.log.length)
      (hlog : sys'.goals.log = sys.goals.log ++ [job.write.event view.state clock time])
      (hcommitted : sys'.committed = sys.committed ++ [(sys.goals.log.length, job.write)])

/-- The views of a step: one moves on, the others stand. -/
structure GoalSystem.ViewsAdvance (S : Serde) (sys sys' : GoalSystem σ) : Prop where
  tracking : ∀ view ∈ sys'.views, view.Tracking S sys'.log
  observed_le : ∀ (v : Nat) (view view' : GoalView), sys.views[v]? = some view →
    sys'.views[v]? = some view' → view.state.observedEvents ≤ view'.state.observedEvents

theorem GoalSystem.ViewsAdvance.set {sys : GoalSystem σ} (hview : sys.views[v]? = some view)
    (hothers : ∀ other ∈ sys.views, other.Tracking S session.state.events)
    (hadvances : view.Advances S session.state.events view') :
    GoalSystem.ViewsAdvance S sys { session, views := sys.views.set v view' } := by
  constructor
  · intro other hother
    rcases mem_or_eq_of_mem_set hother with hmem | rfl
    · exact hothers other hmem
    · exact hadvances.tracking
  · intro w before after hbefore hafter
    by_cases hw : v = w
    · subst hw
      have hlt : v < sys.views.length := (List.getElem?_eq_some_iff.mp hview).1
      rw [getElem?_set_self hlt] at hafter
      rw [hview] at hbefore
      cases hbefore
      cases hafter
      exact hadvances.observed_le
    · rw [getElem?_set_ne hw] at hafter
      rw [hbefore] at hafter
      cases hafter
      exact le_refl _

theorem GoalSystem.ViewsAdvance.grown {sys : GoalSystem σ} (more : List SessionEvent)
    (hviews : ∀ view ∈ sys.views, view.Tracking S sys.log)
    (hlog : session.state.events = sys.log ++ more) :
    GoalSystem.ViewsAdvance S sys { sys with session } := by
  constructor
  · intro view hview
    show view.Tracking S session.state.events
    rw [hlog]
    exact (hviews view hview).append more
  · intro v before after hbefore hafter
    rw [hbefore] at hafter
    cases hafter
    exact le_refl _

theorem GoalSystem.ViewsAdvance.refl {sys : GoalSystem σ}
    (hviews : ∀ view ∈ sys.views, view.Tracking S sys.log) :
    GoalSystem.ViewsAdvance S sys sys :=
  GoalSystem.ViewsAdvance.grown [] hviews (by simp [GoalSystem.log])

theorem LedgerSystem.stepped_onView (h : sys.Inv S) {i : LedgerStep} (v : Nat)
    {f : GoalView → GoalView}
    (hf : ∀ {view : GoalView}, view.Tracking S sys.goals.log →
      view.Advances S sys.goals.log (f view)) :
    LedgerSystem.Stepped S sys i
        { goals := sys.goals.onView v f, committed := sys.committed ++ [] }
      ∧ GoalSystem.ViewsAdvance S sys.goals (sys.goals.onView v f) := by
  unfold GoalSystem.onView
  cases hview : sys.goals.views[v]? with
  | none => exact ⟨.quiet rfl (append_nil _), .refl h.views⟩
  | some view =>
    have hadvances := hf (h.views _ (mem_of_getElem? hview))
    exact ⟨.quiet rfl (append_nil _), GoalSystem.ViewsAdvance.set hview h.views hadvances⟩

/-- An attempt of a view to append. -/
theorem LedgerSystem.attempt_stepped (h : sys.Inv S) (v clock time : Nat) (token : Cancellation) :
    LedgerSystem.Stepped S sys (.base (.attempt v clock time token))
        (sys.step S P (.base (.attempt v clock time token)))
      ∧ GoalSystem.ViewsAdvance S sys.goals
          (sys.goals.step S P (.attempt v clock time token)) := by
  simp only [LedgerSystem.step, GoalSystem.step]
  cases hview : sys.goals.views[v]? with
  | none =>
    refine ⟨.quiet rfl ?_, .refl h.views⟩
    simp [GoalSystem.commitBy]
  | some view =>
    have hmem := mem_of_getElem? hview
    have hattempt := view.attempt_attempted (S := S) (P := P) h.numbered clock time token
    have hadvances := hattempt.advances (h.views view hmem)
    obtain ⟨more, hmore⟩ := hattempt.log_grows
    have hothers : ∀ other ∈ sys.goals.views, other.Tracking S
        (view.attempt S P sys.goals.session clock time token).2.state.events := by
      intro other hother
      rw [hmore]
      exact (h.views other hother).append more
    refine ⟨?_, GoalSystem.ViewsAdvance.set hview hothers hadvances⟩
    simp only [GoalSystem.commitBy, GoalSystem.log, hview, bind_some]
    generalize (view.attempt S P sys.goals.session clock time token).1 = view' at hattempt
    generalize hsession : (view.attempt S P sys.goals.session clock time token).2 = session'
    rw [hsession] at hattempt
    generalize hlog : session'.state.events = log' at hattempt
    cases hattempt with
    | committed job goals hjob hstage hplan hend =>
      refine .committed view job goals clock time hmem hjob hplan hend hlog ?_
      simp [hjob, GoalSystem.log]
    | _ => exact .quiet hlog (by simp)

/-- What one step does to the ledger. -/
theorem LedgerSystem.step_stepped (h : sys.Inv S) (i : LedgerStep) :
    LedgerSystem.Stepped S sys i (sys.step S P i)
      ∧ GoalSystem.ViewsAdvance S sys.goals (sys.step S P i).goals := by
  have hstand : ∀ j : GoalStep, sys.goals.commitBy sys.goals j = none →
      LedgerSystem.Stepped S sys i
          ⟨sys.goals, sys.committed ++ (sys.goals.commitBy sys.goals j).toList⟩
        ∧ GoalSystem.ViewsAdvance S sys.goals sys.goals := by
    intro j hnone
    exact ⟨.quiet rfl (by simp [hnone]), .refl h.views⟩
  cases i with
  | write v expected snapshot live token =>
    simp only [LedgerSystem.step]
    cases hview : sys.goals.views[v]? with
    | none => exact ⟨.quiet rfl rfl, .refl h.views⟩
    | some view =>
      have htrack := h.views _ (mem_of_getElem? hview)
      have hadvances := htrack.beginWrite expected snapshot live token
      exact ⟨.quiet rfl rfl, GoalSystem.ViewsAdvance.set hview h.views hadvances⟩
  | base j =>
    cases j with
    | attempt v clock time token => exact attempt_stepped h v clock time token
    | ordinary call =>
      simp only [LedgerSystem.step, GoalSystem.step]
      split
      · exact hstand (.ordinary call) rfl
      · have hadmitted := sys.goals.session.call_admission (S := S) (P := P) call
        rcases hadmitted.events with hsame | ⟨_, _, hgrown⟩
        · exact ⟨.quiet hsame (by simp [GoalSystem.commitBy]),
            .grown [] h.views (by simpa [GoalSystem.log] using hsame)⟩
        · exact ⟨.ordinary _ hgrown (by simp [GoalSystem.commitBy]) rfl,
            .grown _ h.views hgrown⟩
    | openView =>
      simp only [LedgerSystem.step, GoalSystem.step]
      split
      · exact hstand .openView rfl
      · rename_i hopen
        refine ⟨.quiet rfl (by simp [GoalSystem.commitBy]), ?_, ?_⟩
        · intro view hview
          rcases mem_append.mp hview with hmem | hmem
          · exact h.views view hmem
          · rw [mem_singleton.mp hmem]
            exact GoalView.tracking_idle (openView_tracks hopen)
        · intro v before after hbefore hafter
          have hlt := (List.getElem?_eq_some_iff.mp hbefore).1
          rw [getElem?_append_left hlt, hbefore] at hafter
          cases hafter
          exact le_refl _
    | begin v call live token =>
      exact stepped_onView h v fun htrack =>
        htrack.moved (GoalView.begin_moved htrack.tracks call live token)
    | checkLost v token =>
      exact stepped_onView h v fun htrack =>
        htrack.moved (GoalView.checkLost_moved htrack.tracks token)
    | resync v =>
      exact stepped_onView h v fun htrack => htrack.moved (GoalView.resync_moved htrack.tracks)
    | finish v token =>
      exact stepped_onView h v fun htrack =>
        htrack.moved (GoalView.finish_moved htrack.tracks token)

/-- A committed change is the entry its view planned. -/
theorem LedgerSystem.Inv.commit (h : sys.Inv S)
    (hviews : GoalSystem.ViewsAdvance S sys.goals sys'.goals) {job : GoalJob} {clock time : Nat}
    (hview : view ∈ sys.goals.views) (hjob : view.job = some job)
    (hplan : job.write.plan view.state = .ok goals)
    (hend : view.state.observedEvents = sys.goals.log.length)
    (hlog : sys'.goals.log = sys.goals.log ++ [job.write.event view.state clock time])
    (hcommitted : sys'.committed = sys.committed ++ [(sys.goals.log.length, job.write)]) :
    sys'.Inv S := by
  have htracking := h.views view hview
  obtain ⟨folded, hfold, hsame⟩ := htracking.tracks.at_end hend
  have hstate : view.state.Valid := (foldGoals_valid hfold).of_same hsame
  have hgrown := job.write.commit_tracks htracking.tracks hend (htracking.prepared job hjob)
    hplan clock time
  constructor
  · rw [hlog]
    exact numbered_snoc.mpr ⟨h.numbered, hend⟩
  · exact hviews.tracking
  · intro commit hcommit
    rw [hcommitted] at hcommit
    rw [hlog]
    rcases mem_append.mp hcommit with hmem | hmem
    · obtain ⟨hentry, hold⟩ := h.commits commit hmem
      have hinside := h.inside commit hmem
      rw [getElem?_append_left hinside, take_append_of_le_length (by omega)]
      exact ⟨hentry, hold⟩
    · rw [mem_singleton.mp hmem]
      refine ⟨?_, ?_⟩
      · simp [GoalWrite.entryOf_event hplan clock time]
      · obtain ⟨whole, hwhole, _⟩ := hgrown.at_end (by simp [GoalWrite.commit, hend])
        refine ⟨whole, ?_⟩
        rw [take_of_length_le (by simp)]
        exact hwhole
  · rw [hcommitted]
    refine pairwise_append.mpr ⟨h.ascending, pairwise_singleton _ _, ?_⟩
    intro earlier hearlier later hlater
    rw [mem_singleton.mp hlater]
    exact h.inside earlier hearlier
  · intro commit hcommit
    rw [hcommitted] at hcommit
    rw [hlog, length_append, length_singleton]
    rcases mem_append.mp hcommit with hmem | hmem
    · have := h.inside commit hmem
      omega
    · rw [mem_singleton.mp hmem]
      exact lt_succ_self _
  · intro commit hcommit reference hreference
    rw [hcommitted] at hcommit
    rcases mem_append.mp hcommit with hmem | hmem
    · exact h.expected commit hmem reference hreference
    · rw [mem_singleton.mp hmem] at hreference ⊢
      exact job.write.plan_reference hstate hplan hreference

theorem LedgerSystem.Inv.keep (h : sys.Inv S)
    (hviews : GoalSystem.ViewsAdvance S sys.goals sys'.goals) (more : List SessionEvent)
    (hlog : sys'.goals.log = sys.goals.log ++ more) (hnumbered : Numbered sys'.goals.log)
    (hcommitted : sys'.committed = sys.committed) : sys'.Inv S where
  numbered := hnumbered
  views := hviews.tracking
  commits commit hcommit := by
    rw [hcommitted] at hcommit
    have hinside := h.inside commit hcommit
    rw [hlog, getElem?_append_left hinside, take_append_of_le_length (by omega)]
    exact h.commits commit hcommit
  ascending := by
    rw [hcommitted]
    exact h.ascending
  inside commit hcommit := by
    rw [hcommitted] at hcommit
    have := h.inside commit hcommit
    rw [hlog, length_append]
    omega
  expected commit hcommit := by
    rw [hcommitted] at hcommit
    exact h.expected commit hcommit

theorem LedgerSystem.step_numbered (h : sys.Inv S) (call : Call) :
    Numbered (sys.step S P (.base (.ordinary call))).goals.log := by
  simp only [LedgerSystem.step, GoalSystem.step]
  split
  · exact h.numbered
  · exact (sys.goals.session.call_admission (S := S) (P := P) call).numbered h.numbered

/-- One step of the ledger. -/
theorem LedgerSystem.step_inv (S : Serde) (P : Persistence σ) (sys : LedgerSystem σ)
    (i : LedgerStep) (h : sys.Inv S) : (sys.step S P i).Inv S := by
  obtain ⟨hstep, hviews⟩ := step_stepped (P := P) h i
  cases hstep with
  | quiet hlog hcommitted =>
    refine h.keep hviews [] (by rw [hlog, append_nil]) ?_ hcommitted
    rw [hlog]
    exact h.numbered
  | ordinary e hlog hcommitted hordinary =>
    refine h.keep hviews _ hlog ?_ hcommitted
    cases i with
    | write => cases hordinary
    | base j =>
      cases j with
      | ordinary call => exact step_numbered h call
      | _ => cases hordinary
  | committed view job goals clock time hview hjob hplan hend hlog hcommitted =>
    exact h.commit hviews hview hjob hplan hend hlog hcommitted

theorem LedgerSystem.Inv.failuresQuiet (h : sys.Inv S) : sys.FailuresQuiet S P := by
  intro i hview hsame
  obtain ⟨hstep, hviews⟩ := step_stepped (P := P) h i
  have hfold := (step_inv S P sys i h).viewsFold
  cases hstep with
  | quiet hlog => exact ⟨hlog, hfold, hviews.observed_le⟩
  | ordinary e hlog hcommitted hordinary =>
    rw [hview] at hordinary
    cases hordinary
  | committed view job goals clock time _ _ _ _ _ hcommitted =>
    rw [hcommitted] at hsame
    exact absurd hsame (by simp)

/-! ## Runs -/

/-- The live goal ledger is the fold of its log: over any number of
views and any schedule of their calls, of `write` and of other writers'
appends, every view is the fold of what it has observed, every committed
change is accepted by that fold, no two commits expected one reference,
every history up to a commit is orderly, and a step that does not commit
appends nothing. -/
theorem goal_ledger_is_fold (S : Serde) (P : Persistence σ) (start : GoalSystem σ)
    (hviews : start.views = []) (hlog : Numbered start.log) (steps : List LedgerStep) :
    let sys := steps.foldl (LedgerSystem.step S P) { goals := start, committed := [] }
    sys.ViewsFold S ∧ sys.CommitsFold S ∧ sys.ExpectedOnce ∧ sys.HistoriesOrderly
      ∧ sys.FailuresQuiet S P := by
  intro sys
  have hstart : LedgerSystem.Inv S { goals := start, committed := [] } :=
    ⟨hlog, by simp [hviews], by simp [LedgerSystem.CommitsFold], .nil, by simp, by simp⟩
  have hinv : sys.Inv S :=
    foldlRecOn steps (LedgerSystem.step S P) hstart
      fun before hbefore i _ => LedgerSystem.step_inv S P before i hbefore
  exact ⟨hinv.viewsFold, hinv.commits, hinv.expectedOnce, hinv.historiesOrderly,
    hinv.failuresQuiet⟩

/-! ### Two views after one reference -/

/-- The snapshot a caller of `write` creates a goal with. -/
def writtenGoal : GoalSnapshot :=
  { reference := ⟨"g", 1⟩, phase := .active, title := "first", maxGoalRounds := 3
    tombstone := false }

/-- One view writes a goal; then two views edit it from the same
reference, and the one that loses the race synchronises and is refused. -/
def rivalEdits : List LedgerStep :=
  [.base .openView, .base .openView, .write 0 none writtenGoal true .never,
    .base (.attempt 0 1 1 .never), .base (.finish 0 .never),
    .base (.begin 0 (.edit ⟨"g", 1⟩ (some "second") none) true .never),
    .base (.begin 1 (.edit ⟨"g", 1⟩ (some "third") none) true .never),
    .base (.attempt 0 2 2 .never), .base (.attempt 1 2 2 .never),
    .base (.checkLost 1 .never), .base (.resync 1), .base (.attempt 1 3 3 .never)]

theorem goal_ledger_is_fold_rivalEdits :
    let P := memoryPersistence wireSerde
    let sys := rivalEdits.foldl (LedgerSystem.step wireSerde P)
      { goals := freshSystem, committed := [] }
    sys.committed.map (fun commit => (commit.1, commit.2.snapshot.reference.revision))
        = [(0, 1), (1, 2)]
      ∧ (sys.ViewsFold wireSerde ∧ sys.CommitsFold wireSerde ∧ sys.ExpectedOnce
        ∧ sys.HistoriesOrderly ∧ sys.FailuresQuiet wireSerde P) :=
  ⟨by decide +kernel,
    goal_ledger_is_fold wireSerde (memoryPersistence wireSerde) freshSystem rfl
      freshSystem_numbered rivalEdits⟩

end Tessivum.Goal
