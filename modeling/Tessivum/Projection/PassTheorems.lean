/-
Tessivum.Projection.PassTheorems — what one pass over the projections and one
replay of the log do.

A projection is the fold of the log up to its last event (`isFold`). An event
refused leaves the fold where it is, so a projection stays a fold as long as
every event it takes comes after events it has applied or refuses (`Covered`).
A pass ends at the first failing callback; `SafePass` is the condition that
this cuts off no projection that would have taken the event, and then a pass
moves a covered position past the event (`Fed.pass`).
-/
import Tessivum.Projection.Registry
import Tessivum.Session.LogTheorems

namespace Tessivum.Projection

open Protocol Session List AttachedProjection

/-! ## The fold of a log -/

/-- An event of the log folded in: one the callback refuses leaves the
state. -/
def ProjectionDefinition.foldEvent (d : ProjectionDefinition) (v : Value) (e : SessionEvent) :
    Value :=
  match d.apply v e with
  | .ok next => next
  | .error _ => v

/-- The state is the fold of the committed events up to the last one
applied. -/
def AttachedProjection.isFold (p : AttachedProjection) (header : SessionHeader)
    (log : List SessionEvent) : Bool :=
  match p.definition.init header with
  | .ok initial =>
    decide (p.state.state =
      (log.filter fun e => p.state.lastSeq.any (e.seq ≤ ·)).foldl p.definition.foldEvent
        initial)
  | .error _ => false

def AttachedProjection.refuses (p : AttachedProjection) (e : SessionEvent) : Bool :=
  match p.definition.apply p.state.state e with
  | .ok _ => false
  | .error _ => true

/-- The callback takes every one of the events, one after the other. -/
def ProjectionDefinition.accepts (d : ProjectionDefinition) : Value → List SessionEvent → Bool
  | _, [] => true
  | v, e :: rest =>
    match d.apply v e with
    | .ok next => d.accepts next rest
    | .error _ => false

/-- The number of the first event after the last one applied. -/
def AttachedProjection.next (p : AttachedProjection) : Nat :=
  p.state.lastSeq.elim 0 (· + 1)

/-- `isFold` by position in the log. -/
def AttachedProjection.Folded (p : AttachedProjection) (header : SessionHeader)
    (log : List SessionEvent) : Prop :=
  p.next ≤ log.length ∧ ∃ initial, p.definition.init header = .ok initial ∧
    p.state.state = (log.take p.next).foldl p.definition.foldEvent initial

/-- The projection has applied or refuses every event before the
position. -/
def AttachedProjection.Covered (p : AttachedProjection) (log : List SessionEvent) (k : Nat) :
    Prop :=
  ∀ i e, p.next ≤ i → i < k → log[i]? = some e → p.refuses e = true

variable {e : SessionEvent} {p : AttachedProjection} {header : SessionHeader}
  {log : List SessionEvent} {ps : List AttachedProjection}

theorem AttachedProjection.lacks_iff : p.lacks e = true ↔ p.next ≤ e.seq := by
  unfold lacks AttachedProjection.next
  cases p.state.lastSeq with
  | none => simp
  | some n =>
    simp only [Option.all_some, Option.elim_some, decide_eq_true_eq]
    exact Nat.lt_iff_add_one_le

theorem AttachedProjection.Folded.isFold (h : p.Folded header log) (hlog : Numbered log) :
    p.isFold header log = true := by
  obtain ⟨-, _, hinit, hstate⟩ := h
  unfold AttachedProjection.isFold
  rw [hinit]
  refine decide_eq_true ?_
  rw [hstate, ← filter_seq_lt hlog]
  unfold AttachedProjection.next
  cases p.state.lastSeq with
  | none => simp
  | some n => simp only [Option.any_some, Option.elim_some, Nat.lt_succ_iff]

theorem AttachedProjection.Folded.extend (h : p.Folded header log) {k : Nat} (hk : p.next ≤ k)
    (hkn : k ≤ log.length) (hcov : p.Covered log k) :
    ∃ initial, p.definition.init header = .ok initial ∧
      p.state.state = (log.take k).foldl p.definition.foldEvent initial := by
  induction k, hk using Nat.le_induction with
  | base => exact h.2
  | succ k hk ih =>
    have hlt : k < log.length := hkn
    obtain ⟨initial, hinit, hstate⟩ :=
      ih (by omega) (fun i e hi hik => hcov i e hi (by omega))
    refine ⟨initial, hinit, ?_⟩
    have hrefuses := hcov k log[k] hk (Nat.lt_succ_self k) (List.getElem?_eq_getElem hlt)
    unfold refuses at hrefuses
    rw [take_succ_eq_append_getElem hlt, foldl_append, ← hstate]
    simp only [foldl_cons, foldl_nil, ProjectionDefinition.foldEvent]
    split at hrefuses
    · cases hrefuses
    · rfl

/-! ## One pass -/

/-- What a pass does to one projection: nothing, or it folds the event
in. -/
inductive Passed (e : SessionEvent) (p : AttachedProjection) : AttachedProjection → Prop where
  | kept : Passed e p p
  | advanced (next : Value) (hlacks : p.lacks e = true)
      (happly : p.definition.apply p.state.state e = .ok next) :
      Passed e p { p with state := p.state.commit e next }

@[simp] theorem commit_state (st : ProjectionState) (e : SessionEvent) (next : Value) :
    (st.commit e next).state = next := by
  unfold ProjectionState.commit
  split
  · assumption
  · rfl

@[simp] theorem commit_lastSeq (st : ProjectionState) (e : SessionEvent) (next : Value) :
    (st.commit e next).lastSeq = some e.seq := by
  unfold ProjectionState.commit
  split <;> rfl

theorem applyEventLocked_passed (e : SessionEvent) (ps : List AttachedProjection) :
    ∀ p' ∈ (applyEventLocked e ps).2, ∃ p ∈ ps, Passed e p p' := by
  induction ps with
  | nil => intro p' hp'; cases hp'
  | cons p rest ih =>
    have hrest : ∀ p' ∈ (applyEventLocked e rest).2, ∃ q ∈ p :: rest, Passed e q p' :=
      fun p' hp' => (ih p' hp').imp fun q hq => ⟨mem_cons_of_mem p hq.1, hq.2⟩
    intro p' hp'
    unfold applyEventLocked at hp'
    split at hp'
    · rename_i hlacks
      split at hp'
      · exact ⟨p', hp', .kept⟩
      · rename_i next happly
        rcases mem_cons.mp hp' with rfl | hmem
        · exact ⟨p, mem_cons_self, .advanced next hlacks happly⟩
        · exact hrest p' hmem
    · rcases mem_cons.mp hp' with rfl | hmem
      · exact ⟨p', mem_cons_self, .kept⟩
      · exact hrest p' hmem

theorem applyEventLocked_definitions (e : SessionEvent) (ps : List AttachedProjection) :
    (applyEventLocked e ps).2.map (·.definition) = ps.map (·.definition) := by
  induction ps with
  | nil => rfl
  | cons p rest ih =>
    unfold applyEventLocked
    split
    · split
      · rfl
      · rw [map_cons, map_cons, ih]
    · rw [map_cons, map_cons, ih]

theorem replayLocked_definitions (events : List SessionEvent) : ∀ ps : List AttachedProjection,
    (replayLocked ps events).2.map (·.definition) = ps.map (·.definition) := by
  induction events with
  | nil => exact fun _ => rfl
  | cons e rest ih =>
    intro ps
    have hpass := applyEventLocked_definitions e ps
    unfold replayLocked
    split
    · rename_i happly
      rwa [happly] at hpass
    · rename_i ps' happly
      rw [happly] at hpass
      rw [ih ps', hpass]

/-- The condition on a pass: a projection that refuses the event comes
before none that lacks it and would take it. -/
def SafePass (e : SessionEvent) (ps : List AttachedProjection) : Prop :=
  ps.Pairwise fun p q => p.lacks e = true → p.refuses e = true → q.lacks e = true →
    q.refuses e = true

instance (e : SessionEvent) (ps : List AttachedProjection) : Decidable (SafePass e ps) :=
  inferInstanceAs (Decidable (List.Pairwise _ ps))

theorem lacks_commit {next : Value} :
    lacks { p with state := p.state.commit e next } e = false := by
  simp [lacks]

/-- After a safe pass, a projection still lacks the event only if it
refuses it. -/
theorem applyEventLocked_settled (hsafe : SafePass e ps) :
    ∀ p ∈ (applyEventLocked e ps).2, p.lacks e = true → p.refuses e = true := by
  induction ps with
  | nil => intro p hp; cases hp
  | cons p rest ih =>
    obtain ⟨hfirst, hrest⟩ := pairwise_cons.mp hsafe
    intro p' hp' hlacks'
    unfold applyEventLocked at hp'
    split at hp'
    · rename_i hlacks
      split at hp'
      · rename_i happly
        have hrefuses : p.refuses e = true := by
          unfold refuses
          rw [happly]
        rcases mem_cons.mp hp' with rfl | hmem
        · exact hrefuses
        · exact hfirst p' hmem hlacks hrefuses hlacks'
      · rcases mem_cons.mp hp' with rfl | hmem
        · rw [lacks_commit] at hlacks'
          cases hlacks'
        · exact ih hrest p' hmem hlacks'
    · rename_i hlacks
      rcases mem_cons.mp hp' with rfl | hmem
      · exact absurd hlacks' hlacks
      · exact ih hrest p' hmem hlacks'

theorem applyEventLocked_completed (hnone : (applyEventLocked e ps).1 = none) :
    ∀ p ∈ (applyEventLocked e ps).2, p.lacks e = false := by
  induction ps with
  | nil => intro p hp; cases hp
  | cons p rest ih =>
    intro p' hp'
    unfold applyEventLocked at hp' hnone
    split at hp'
    · rename_i hlacks
      rw [if_pos hlacks] at hnone
      split at hp'
      · rename_i happly
        rw [happly] at hnone
        cases hnone
      · rename_i happly
        rw [happly] at hnone
        rcases mem_cons.mp hp' with rfl | hmem
        · exact lacks_commit
        · exact ih hnone p' hmem
    · rename_i hlacks
      rw [if_neg hlacks] at hnone
      rcases mem_cons.mp hp' with rfl | hmem
      · simpa using hlacks
      · exact ih hnone p' hmem

theorem applyEventLocked_none (h : ∀ p ∈ ps, p.lacks e = true → p.refuses e = false) :
    (applyEventLocked e ps).1 = none := by
  induction ps with
  | nil => rfl
  | cons p rest ih =>
    have hrest := ih fun q hq => h q (mem_cons_of_mem p hq)
    unfold applyEventLocked
    split
    · rename_i hlacks
      have hrefuses := h p mem_cons_self hlacks
      unfold refuses at hrefuses
      split at hrefuses
      · rename_i happly
        simpa [happly] using hrest
      · cases hrefuses
    · exact hrest

/-! ## What a pass keeps -/

section
variable {header : SessionHeader} {log : List SessionEvent} {e : SessionEvent}
  {p p' : AttachedProjection}

@[simp] theorem next_commit (next : Value) :
    AttachedProjection.next { p with state := p.state.commit e next } = e.seq + 1 := by
  simp [AttachedProjection.next]

theorem Passed.folded (h : Passed e p p') (he : log[e.seq]? = some e)
    (hfold : p.Folded header log) (hcov : p.Covered log e.seq) : p'.Folded header log := by
  cases h with
  | kept => exact hfold
  | advanced next hlacks happly =>
    obtain ⟨hlt, hget⟩ := List.getElem?_eq_some_iff.mp he
    obtain ⟨initial, hinit, hstate⟩ :=
      hfold.extend (lacks_iff.mp hlacks) (le_of_lt hlt) hcov
    refine ⟨by rw [next_commit]; exact hlt, initial, hinit, ?_⟩
    rw [next_commit, take_succ_eq_append_getElem hlt, foldl_append, hget]
    simp only [foldl_cons, foldl_nil, ← hstate, commit_state]
    simp [ProjectionDefinition.foldEvent, happly]

variable {k : Nat}

theorem Passed.covered (h : Passed e p p') (he : log[e.seq]? = some e) (hcov : p.Covered log k) :
    p'.Covered log k := by
  cases h with
  | kept => exact hcov
  | advanced next hlacks happly =>
    intro i x hi hik hx
    rw [next_commit] at hi
    have hrefuses := hcov e.seq e (lacks_iff.mp hlacks) (by omega) he
    unfold refuses at hrefuses
    rw [happly] at hrefuses
    cases hrefuses

theorem AttachedProjection.Covered.succ (hcov : p.Covered log k) (he : log[k]? = some e)
    (hseq : e.seq = k) (h : p.lacks e = true → p.refuses e = true) : p.Covered log (k + 1) := by
  intro i x hi hik hx
  by_cases hlt : i < k
  · exact hcov i x hi hlt hx
  · obtain rfl : i = k := by omega
    obtain rfl : e = x := Option.some.inj (he.symm.trans hx)
    exact h (lacks_iff.mpr (by omega))

theorem AttachedProjection.Covered.of_next_ge (h : k ≤ p.next) : p.Covered log k :=
  fun i _ hi hik _ => absurd hik (by omega)

theorem AttachedProjection.Covered.mono {j : Nat} (hcov : p.Covered log k) (hjk : j ≤ k) :
    p.Covered log j :=
  fun i x hi hij => hcov i x hi (by omega)

end

/-! ## All projections -/

/-- Every projection is a fold and covered up to each of the positions. -/
def Fed (header : SessionHeader) (log : List SessionEvent) (positions : List Nat)
    (ps : List AttachedProjection) : Prop :=
  ∀ p ∈ ps, p.Folded header log ∧ ∀ k ∈ positions, p.Covered log k

section
variable {header : SessionHeader} {log : List SessionEvent} {positions : List Nat}
  {ps : List AttachedProjection} {e : SessionEvent}

theorem Fed.subset (h : Fed header log positions ps) {positions' : List Nat}
    (hsub : ∀ k ∈ positions', k = 0 ∨ k ∈ positions) : Fed header log positions' ps := by
  intro p hp
  refine ⟨(h p hp).1, fun k hk => ?_⟩
  rcases hsub k hk with rfl | hmem
  · exact .of_next_ge (Nat.zero_le _)
  · exact (h p hp).2 k hmem

theorem Fed.pass (h : Fed header log (e.seq :: positions) ps) (he : log[e.seq]? = some e)
    (hsafe : SafePass e ps) :
    Fed header log ((e.seq + 1) :: positions) (applyEventLocked e ps).2 := by
  intro p' hp'
  obtain ⟨p, hp, hpassed⟩ := applyEventLocked_passed e ps p' hp'
  obtain ⟨hfold, hcov⟩ := h p hp
  have hhere := hcov e.seq mem_cons_self
  refine ⟨hpassed.folded he hfold hhere, fun k hk => ?_⟩
  rcases mem_cons.mp hk with rfl | hmem
  · exact (hpassed.covered he hhere).succ he rfl (applyEventLocked_settled hsafe p' hp')
  · exact hpassed.covered he (hcov k (mem_cons_of_mem _ hmem))

theorem Fed.recordError (h : Fed header log positions ps) (err : ProjectionError) :
    Fed header log positions (recordError ps err) := by
  intro p' hp'
  obtain ⟨p, hp, rfl⟩ := mem_map.mp hp'
  exact h p hp

theorem Fed.recorded {outcome : Option ProjectionError × List AttachedProjection}
    (h : Fed header log positions outcome.2) : Fed header log positions (recorded outcome) := by
  obtain ⟨failure, _⟩ := outcome
  cases failure with
  | none => exact h
  | some err => exact Fed.recordError h err

theorem Fed.append (h : Fed header log positions ps) (hle : ∀ k ∈ positions, k ≤ log.length)
    (x : SessionEvent) : Fed header (log ++ [x]) positions ps := by
  intro p hp
  obtain ⟨⟨hnext, hfold⟩, hcov⟩ := h p hp
  refine ⟨⟨by simp; omega, ?_⟩, fun k hk i y hi hik hy => ?_⟩
  · rwa [take_append_of_le_length hnext]
  · have hkn := hle k hk
    rw [getElem?_append_left (by omega)] at hy
    exact hcov k hk i y hi hik hy

/-! ## Replays -/

/-- A replay from a position all projections are covered up to keeps what
its passes keep, and one that meets no failure applies the whole log. -/
theorem replayLocked_keeps (hlog : Numbered log) (keeps : AttachedProjection → Prop)
    (hpass : ∀ e p p', Passed e p p' → log[e.seq]? = some e → e.seq ≤ p.next → keeps p →
      keeps p') :
    ∀ (events : List SessionEvent) (ps : List AttachedProjection) (j : Nat),
      log.drop j = events → (∀ p ∈ ps, keeps p ∧ j ≤ p.next) →
      (∀ p ∈ (replayLocked ps events).2, keeps p) ∧
      ((replayLocked ps events).1 = none →
        ∀ p ∈ (replayLocked ps events).2, log.length ≤ p.next) := by
  intro events
  induction events with
  | nil =>
    intro ps j hdrop hps
    have hj : log.length ≤ j := drop_eq_nil_iff.mp hdrop
    exact ⟨fun p hp => (hps p hp).1, fun _ p hp => le_trans hj (hps p hp).2⟩
  | cons e rest ih =>
    intro ps j hdrop hps
    have hget : log[j]? = some e := by
      have hhead := congrArg (fun l => l[0]?) hdrop
      simpa using hhead
    have hseq : e.seq = j := hlog j e hget
    have he : log[e.seq]? = some e := by rw [hseq]; exact hget
    have hkept : ∀ p' ∈ (applyEventLocked e ps).2, keeps p' := by
      intro p' hp'
      obtain ⟨p, hp, hpassed⟩ := applyEventLocked_passed e ps p' hp'
      exact hpass e p p' hpassed he (hseq ▸ (hps p hp).2) (hps p hp).1
    unfold replayLocked
    split
    · rename_i happly
      rw [happly] at hkept
      exact ⟨hkept, nofun⟩
    · rename_i ps' happly
      have hdone : ∀ p ∈ (applyEventLocked e ps).2, p.lacks e = false :=
        applyEventLocked_completed (by rw [happly])
      rw [happly] at hkept hdone
      refine ih ps' (j + 1) ?_ fun p hp => ⟨hkept p hp, ?_⟩
      · rw [← drop_drop, hdrop]
        rfl
      · have hlacks := hdone p hp
        by_contra hlt
        rw [lacks_iff.mpr (by omega)] at hlacks
        cases hlacks

/-- A replay keeps the folds and the positions, whether or not it meets a
failure. -/
theorem Fed.replay (h : Fed header log positions ps) (hlog : Numbered log) :
    Fed header log positions (replayLocked ps log).2 ∧
      ((replayLocked ps log).1 = none → ∀ p ∈ (replayLocked ps log).2, log.length ≤ p.next) :=
  replayLocked_keeps hlog (fun p => p.Folded header log ∧ ∀ k ∈ positions, p.Covered log k)
    (fun _ _ _ hpassed he hnext hkept =>
      ⟨hpassed.folded he hkept.1 (.of_next_ge hnext), fun k hk => hpassed.covered he (hkept.2 k hk)⟩)
    log ps 0 rfl fun p hp => ⟨h p hp, Nat.zero_le _⟩

/-- A replay whose callbacks accept ends without an error. -/
theorem replayLocked_none (hlog : Numbered log) :
    ∀ (events : List SessionEvent) (ps : List AttachedProjection) (j : Nat),
      log.drop j = events →
      (∀ p ∈ ps, j ≤ p.next ∧ p.definition.accepts p.state.state (log.drop p.next) = true) →
      (replayLocked ps events).1 = none := by
  intro events
  induction events with
  | nil => intro ps j _ _; rfl
  | cons e rest ih =>
    intro ps j hdrop hps
    have hget : log[j]? = some e := by
      have hhead := congrArg (fun l => l[0]?) hdrop
      simpa using hhead
    have hseq : e.seq = j := hlog j e hget
    have hrest : log.drop (j + 1) = rest := by
      rw [← drop_drop, hdrop]
      rfl
    -- a projection that lacks the event stands right before it
    have hhere : ∀ p ∈ ps, p.lacks e = true → p.next = j := by
      intro p hp hlacks
      have hle := lacks_iff.mp hlacks
      have hge := (hps p hp).1
      omega
    have hnone : (applyEventLocked e ps).1 = none := by
      refine applyEventLocked_none fun p hp hlacks => ?_
      have haccepts := (hps p hp).2
      rw [hhere p hp hlacks, hdrop] at haccepts
      unfold refuses
      unfold ProjectionDefinition.accepts at haccepts
      split at haccepts
      · rfl
      · cases haccepts
    have hdone := applyEventLocked_completed hnone
    have hpassed := applyEventLocked_passed e ps
    unfold replayLocked
    split
    · rename_i happly
      rw [happly] at hnone
      cases hnone
    · rename_i ps' happly
      rw [happly] at hdone hpassed
      refine ih ps' (j + 1) hrest fun p' hp' => ?_
      obtain ⟨p, hp, hpass⟩ := hpassed p' hp'
      have hlacks' := hdone p' hp'
      cases hpass with
      | kept =>
        refine ⟨?_, (hps p' hp).2⟩
        by_contra hlt
        rw [lacks_iff.mpr (by omega)] at hlacks'
        cases hlacks'
      | advanced next hlacks happly' =>
        have haccepts := (hps p hp).2
        rw [hhere p hp hlacks, hdrop, ProjectionDefinition.accepts, happly'] at haccepts
        refine ⟨by simp [hseq], ?_⟩
        rw [next_commit, hseq, hrest, commit_state]
        exact haccepts

end

/-! ### A projection of event types -/

/-- A projection that lists the types of the events it has seen. -/
def listTypes (key : String) (apply : Value → SessionEvent → Except ProjectionError Value) :
    ProjectionDefinition :=
  { key, stateVersion := 1, init := fun _ => .ok (.array []), apply }

def pushType : Value → SessionEvent → Except ProjectionError Value
  | .array seen, e => .ok (.array (seen ++ [.string e.eventType]))
  | _, _ => .error (.callback "not an array")

end Tessivum.Projection
