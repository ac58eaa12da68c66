/-
Tessivum.Goal.HistoryTheorems — the history of one goal in the log.

Each `goal/change` event is one entry in the history of its goal: the
revision it gives the goal and the phase, or no phase where it clears the
goal. Replay accepts a log only if every history is orderly: the
revisions count up from one, nothing leaves the complete phase, and a
cleared goal is not changed again (`foldGoals_orderly`).
-/
import Tessivum.Goal.LedgerTheorems

namespace Tessivum.Goal

open Library Protocol Session List

variable {S : Serde}

/-! ## Histories -/

/-- One change of a goal, as the log records it. A clear has no phase. -/
structure GoalEntry where
  reference : GoalRef
  phase : Option GoalPhase
  deriving DecidableEq, Repr

def GoalSnapshot.entry (snapshot : GoalSnapshot) : GoalEntry :=
  { reference := snapshot.reference
    phase := if snapshot.tombstone then none else some snapshot.phase }

def GoalChange.entry (change : GoalChange) : Option GoalEntry :=
  if change.operation = .clear then
    change.cleared.map fun reference => { reference, phase := none }
  else
    change.goal.map fun wire =>
      { reference := { id := wire.id, revision := wire.revision }, phase := some wire.phase }

def entryOf (e : SessionEvent) : Option GoalEntry :=
  if e.eventType = "goal/change" then (Wire.changeFromValue e.data).bind GoalChange.entry
  else none

def goalHistory (log : List SessionEvent) (id : String) : List GoalEntry :=
  (log.filterMap entryOf).filter fun entry => entry.reference.id = id

/-- A history whose revisions count up from one, that never leaves the
complete phase and ends with the clear, if there is one. -/
structure Orderly (history : List GoalEntry) : Prop where
  revisions : history.map (fun entry => entry.reference.revision)
    = List.range' 1 history.length
  complete : history.Pairwise fun earlier later =>
    earlier.phase = some .complete → later.phase = some .complete ∨ later.phase = none
  cleared : history.Pairwise fun earlier _ => earlier.phase ≠ none

theorem orderly_nil : Orderly [] := ⟨rfl, .nil, .nil⟩

theorem orderly_singleton {entry : GoalEntry} (h : entry.reference.revision = 1) :
    Orderly [entry] :=
  ⟨by simp [h], pairwise_singleton _ _, pairwise_singleton _ _⟩

variable {history : List GoalEntry} {e : SessionEvent} {snapshot : GoalSnapshot}
  {state state' : GoalState} {log : List SessionEvent}

/-- One entry more of a goal that is not cleared. -/
theorem Orderly.snoc {last entry : GoalEntry} (h : Orderly (history ++ [last]))
    (hlive : last.phase ≠ none) (hrevision : entry.reference.revision = last.reference.revision + 1)
    (hphase : last.phase = some .complete → entry.phase = some .complete ∨ entry.phase = none) :
    Orderly (history ++ [last] ++ [entry]) := by
  have hlast : last.reference.revision = history.length + 1 := by
    have hrev := h.revisions
    rw [map_append, length_append] at hrev
    have hget := congrArg (fun xs => xs[history.length]?) hrev
    simp at hget
    omega
  refine ⟨?_, ?_, ?_⟩
  · have hrev := h.revisions
    rw [map_append, hrev, length_append, length_append, length_append]
    simp only [length_singleton, map_cons, map_nil]
    conv_rhs => rw [List.range'_concat]
    rw [hrevision, hlast]
    simp [Nat.add_comm]
  · refine pairwise_append.mpr ⟨h.complete, pairwise_singleton _ _, ?_⟩
    intro earlier hearlier later hlater hcomplete
    rw [mem_singleton.mp hlater]
    rcases mem_append.mp hearlier with hmem | hmem
    · have hpair := (pairwise_append.mp h.complete).2.2 earlier hmem last
        mem_cons_self hcomplete
      exact hphase (hpair.resolve_right hlive)
    · rw [mem_singleton.mp hmem] at hcomplete
      exact hphase hcomplete
  · refine pairwise_append.mpr ⟨h.cleared, pairwise_singleton _ _, ?_⟩
    intro earlier hearlier later _
    rcases mem_append.mp hearlier with hmem | hmem
    · exact (pairwise_append.mp h.cleared).2.2 earlier hmem last mem_cons_self
    · rw [mem_singleton.mp hmem]
      exact hlive

theorem Orderly.nodup (h : Orderly history) :
    (history.map fun entry => entry.reference.revision).Nodup := by
  rw [h.revisions]
  exact nodup_range'

/-! ## Replay and histories -/

/-- What an accepted event does to the goals: nothing, or one legal entry
for one goal. -/
inductive Replayed.Effect (state : GoalState) (e : SessionEvent) (state' : GoalState) : Prop
  | quiet (hentry : entryOf e = none) (hgoals : state'.goals = state.goals)
  | first (snapshot : GoalSnapshot) (hentry : entryOf e = some snapshot.entry)
      (hgoals : state'.goals = state.goals.insert snapshot.reference.id snapshot)
      (hnew : state.goals.lookup snapshot.reference.id = none)
      (hrevision : snapshot.reference.revision = 1)
  | next (snapshot current : GoalSnapshot) (hentry : entryOf e = some snapshot.entry)
      (hgoals : state'.goals = state.goals.insert snapshot.reference.id snapshot)
      (hcurrent : state.goals.lookup snapshot.reference.id = some current)
      (hlive : current.tombstone = false)
      (hrevision : snapshot.reference.revision = current.reference.revision + 1)
      (hphase : current.phase = .complete → snapshot.phase = .complete)

theorem nextRef_revision {reference next : GoalRef} (h : nextRef reference = .ok next) :
    next.revision = reference.revision + 1 := by
  unfold nextRef at h
  split at h
  · cases h
    rfl
  · cases h

/-- The effect of an operation that was checked and applied. -/
theorem effect_of_step {operation : GoalOperation} {goals : GoalMap GoalSnapshot}
    (hstate : state.Valid) (hentry : entryOf e = some snapshot.entry)
    (hvalid : validateGoalOperation state.goals operation snapshot = .ok ())
    (happly : applySnapshot state.goals none snapshot true = .ok goals)
    (hgoals : state'.goals = goals) : Replayed.Effect state e state' := by
  have hinsert := (applySnapshot_eq_ok happly).2
  rcases applySnapshot_step happly with
    ⟨hnew, _, hone, _⟩ | ⟨current, hcurrent, hlive, _, hnext, hpermits⟩
  · exact .first snapshot hentry (hgoals.trans hinsert) hnew hone
  · refine .next snapshot current hentry (hgoals.trans hinsert) hcurrent hlive ?_ ?_
    · by_cases hop : operation = .create
      · -- a create of a goal that exists would need revision one
        rw [hop] at hvalid
        have hone := (validateGoalOperation_create hvalid).2.1
        have hpos := hstate.revised _ current hcurrent
        unfold u64Bound at hnext
        omega
      · obtain ⟨_, hfound, _, hnextRef, _⟩ := validateGoalOperation_revise hop hvalid
        rw [hcurrent] at hfound
        cases hfound
        exact nextRef_revision hnextRef
    · intro hcomplete
      simpa [GoalPhase.permits, hcomplete] using hpermits

theorem Replayed.effect (hstate : state.Valid) (h : Replayed S state e state') :
    Replayed.Effect state e state' := by
  cases h with
  | quiet htype => exact .quiet (by rw [entryOf, if_neg htype]) rfl
  | cleared change snapshot goals htype hchange hop href hvalid happly =>
    refine effect_of_step hstate ?_ hvalid happly rfl
    obtain ⟨_, _, _, _, hstep⟩ := validateGoalOperation_revise (by decide) hvalid
    have htomb : snapshot.tombstone = true := operationValid_tombstone hstep
    rw [entryOf, if_pos htype, hchange]
    simp [GoalChange.entry, hop, href, GoalSnapshot.entry, htomb]
  | revised change wire snapshot times reason goals _ htype hchange _ hop hgoal hwire _ hvalid _
      happly =>
      refine effect_of_step hstate ?_ hvalid happly rfl
      rw [entryOf, if_pos htype, hchange]
      replace hwire := after_check hwire
      replace hwire := after_check hwire
      cases hwire
      simp [GoalChange.entry, hop, hgoal, GoalSnapshot.entry]
  | counted goalId revision round goal times htype =>
    refine .quiet ?_ (observeRound_goals _ _ _ _)
    rw [entryOf, if_neg (by rw [htype]; decide)]

theorem goalHistory_snoc (log : List SessionEvent) (e : SessionEvent) (id : String) :
    goalHistory (log ++ [e]) id
      = goalHistory log id ++ (entryOf e).toList.filter fun entry => entry.reference.id = id := by
  cases hentry : entryOf e <;> simp [goalHistory, filterMap_append, hentry]

/-- The ledger holds the last entry of every history. -/
structure Recorded (log : List SessionEvent) (state : GoalState) : Prop where
  orderly : ∀ id, Orderly (goalHistory log id)
  last : ∀ id, (goalHistory log id).getLast? = (state.goals.lookup id).map GoalSnapshot.entry

theorem recorded_empty : Recorded [] GoalState.empty :=
  ⟨fun _ => orderly_nil, fun id => by simp [goalHistory, GoalState.empty]⟩

theorem Recorded.entry (h : Recorded log state) (hentry : entryOf e = some snapshot.entry)
    (hgoals : state'.goals = state.goals.insert snapshot.reference.id snapshot)
    (horderly : Orderly (goalHistory log snapshot.reference.id ++ [snapshot.entry])) :
    Recorded (log ++ [e]) state' := by
  have hself : goalHistory (log ++ [e]) snapshot.reference.id
      = goalHistory log snapshot.reference.id ++ [snapshot.entry] := by
    rw [goalHistory_snoc, hentry]
    simp [GoalSnapshot.entry]
  have hother : ∀ id, id ≠ snapshot.reference.id →
      goalHistory (log ++ [e]) id = goalHistory log id := by
    intro id hid
    rw [goalHistory_snoc, hentry]
    simp [GoalSnapshot.entry, Ne.symm hid]
  constructor
  · intro id
    by_cases hid : id = snapshot.reference.id
    · rw [hid, hself]
      exact horderly
    · rw [hother id hid]
      exact h.orderly id
  · intro id
    rw [hgoals, lookup_insert_eq]
    by_cases hid : id = snapshot.reference.id
    · rw [hid, hself, if_pos rfl]
      simp
    · rw [hother id hid, if_neg hid]
      exact h.last id

/-- One event more: the history records what it did. -/
theorem Recorded.step (h : Recorded log state) (heffect : Replayed.Effect state e state') :
    Recorded (log ++ [e]) state' := by
  cases heffect with
  | quiet hentry hgoals =>
    have hsame : ∀ id, goalHistory (log ++ [e]) id = goalHistory log id := by
      intro id
      rw [goalHistory_snoc, hentry]
      simp
    constructor
    · intro id
      rw [hsame]
      exact h.orderly id
    · intro id
      rw [hsame, hgoals]
      exact h.last id
  | first snapshot hentry hgoals hnew hrevision =>
    have hlast := h.last snapshot.reference.id
    rw [hnew, map_none, getLast?_eq_none_iff] at hlast
    refine h.entry hentry hgoals ?_
    rw [hlast]
    exact orderly_singleton hrevision
  | next snapshot current hentry hgoals hcurrent hlive hrevision hphase =>
    have hlast := h.last snapshot.reference.id
    rw [hcurrent, map_some, getLast?_eq_some_iff] at hlast
    obtain ⟨_, hbefore⟩ := hlast
    have horderly := h.orderly snapshot.reference.id
    rw [hbefore] at horderly
    refine h.entry hentry hgoals ?_
    rw [hbefore]
    refine horderly.snoc (by simp [GoalSnapshot.entry, hlive]) hrevision ?_
    intro hcomplete
    simp only [GoalSnapshot.entry, hlive, false_eq_true, if_false] at hcomplete
    have hstay := hphase (some.inj hcomplete)
    by_cases htomb : snapshot.tombstone = true
    · exact .inr (by simp [GoalSnapshot.entry, htomb])
    · exact .inl (by simp [GoalSnapshot.entry, htomb, hstay])

/-- Replay accepts a log only if every history in it is orderly, and the
ledger holds the last entry of each. -/
theorem foldGoals_recorded (log : List SessionEvent) :
    ∀ {state : GoalState}, foldGoals S log = .ok state → Recorded log state := by
  induction log using reverseRecOn with
  | nil =>
    intro state h
    cases h
    exact recorded_empty
  | append_singleton log e ih =>
    intro state h
    unfold foldGoals at h
    rw [foldlM_append_one] at h
    obtain ⟨_, hmid, hstep⟩ := bind_eq_ok.mp h
    exact (ih hmid).step ((applyGoalEvent_replayed hstep).effect (foldGoals_valid hmid))

theorem foldGoals_orderly (h : foldGoals S log = .ok state) (id : String) :
    Orderly (goalHistory log id) :=
  (foldGoals_recorded log h).orderly id

end Tessivum.Goal
