/-
Tessivum.Session.LogTheorems — what an accepted log looks like.

`build_state` accepts a log when every event passes its checks against
the state of the events before it. This module takes that apart: one
turn of the rebuild as its checks (`replayEvent_eq_ok`), the rebuild as
its conditions (`buildState_eq_ok`), and the two facts every later
argument about a log uses: the event at position `i` carries sequence
number `i` (`Accepted.numbered`), and every event is valid and
decodes (`Accepted.event`).
-/
import Tessivum.Session.Log

namespace Tessivum.Session

open Library Protocol List

variable {S : Serde} {header : SessionHeader}

/-! ## One turn of the rebuild -/

variable {e : SessionEvent} {state state' : SessionState} {log : List SessionEvent}

theorem replayEvent_eq_ok :
    replayEvent S header state e = .ok state' ↔
      e.validate S = .ok () ∧ checkSeq state.events e = .ok ()
        ∧ validateSeedBoundary header state e = .ok ()
        ∧ validateSources e state.events = .ok ()
        ∧ ∃ projection, decodeSurfaceEvent S e = .ok projection
          ∧ validateSurfaceOperation e projection state.surface = .ok ()
          ∧ state' = state.record e projection := by
  unfold replayEvent
  simp only [bind_eq_ok, exists_unit, liftProtocol_eq_ok, ok.injEq,
    eq_comm (a := state')]

theorem foldlM_replayEvent_snoc :
    (log ++ [e]).foldlM (replayEvent S header) state = .ok state' ↔
      ∃ mid, log.foldlM (replayEvent S header) state = .ok mid
        ∧ replayEvent S header mid e = .ok state' := by
  rw [foldlM_append_one, bind_eq_ok]

theorem foldlM_replayEvent_events : ∀ {log : List SessionEvent} {state state' : SessionState},
    log.foldlM (replayEvent S header) state = .ok state' →
      state'.events = state.events ++ log ∧ state'.seedLength = state.seedLength
  | [], state, state', h => by
    cases h
    simp
  | e :: rest, state, state', h => by
    rw [foldlM_cons] at h
    obtain ⟨_, hmid, h⟩ := bind_eq_ok.mp h
    obtain ⟨_, _, _, _, _, _, _, rfl⟩ := replayEvent_eq_ok.mp hmid
    obtain ⟨hevents, hseed⟩ := foldlM_replayEvent_events h
    refine ⟨?_, hseed⟩
    rw [hevents, SessionState.record_events, append_assoc]
    rfl

/-! ## The rebuild -/

theorem buildState_eq_ok :
    buildState S header log = .ok state ↔
      validateHeader header = .ok () ∧ header.seedLength.getD 0 ≤ log.length
        ∧ log.foldlM (replayEvent S header) (.empty (header.seedLength.getD 0)) = .ok state
        ∧ ∃ inbox, replayInbox S log = .ok inbox := by
  unfold buildState
  simp only [bind_eq_ok, exists_unit, failIf_eq_ok, ok.injEq, not_lt, gt_iff_lt]
  constructor
  · rintro ⟨hheader, hseed, _, hfold, inbox, hinbox, rfl⟩
    refine ⟨hheader, hseed, hfold, inbox, ?_⟩
    have hevents := (foldlM_replayEvent_events hfold).1
    rwa [hevents] at hinbox
  · rintro ⟨hheader, hseed, hfold, inbox, _⟩
    refine ⟨hheader, hseed, state, hfold, inbox, ?_, rfl⟩
    have hevents := (foldlM_replayEvent_events hfold).1
    rwa [hevents]

theorem buildState_events (h : buildState S header log = .ok state) : state.events = log := by
  obtain ⟨_, _, hfold, _⟩ := buildState_eq_ok.mp h
  exact (foldlM_replayEvent_events hfold).1

/-! ## Accepted logs -/

/-- A log the loop of the rebuild accepts, from the empty state, and the
state it reaches. -/
def Accepted (S : Serde) (header : SessionHeader) (log : List SessionEvent)
    (state : SessionState) : Prop :=
  log.foldlM (replayEvent S header) (.empty (header.seedLength.getD 0)) = .ok state

theorem accepted_of_buildState (h : buildState S header log = .ok state) :
    Accepted S header log state :=
  (buildState_eq_ok.mp h).2.2.1

theorem Accepted.nil : Accepted S header [] (.empty (header.seedLength.getD 0)) := rfl

theorem Accepted.events (h : Accepted S header log state) : state.events = log :=
  (foldlM_replayEvent_events h).1

theorem accepted_snoc :
    Accepted S header (log ++ [e]) state ↔
      ∃ mid, Accepted S header log mid ∧ replayEvent S header mid e = .ok state :=
  foldlM_replayEvent_snoc

theorem Accepted.take (h : Accepted S header log state) (k : Nat) :
    ∃ mid, Accepted S header (log.take k) mid := by
  unfold Accepted at h
  rw [← take_append_drop k log, foldlM_append] at h
  obtain ⟨mid, hmid, _⟩ := bind_eq_ok.mp h
  exact ⟨mid, hmid⟩

/-! ## Contiguity -/

theorem checkSeq_eq_ok {events : List SessionEvent} :
    checkSeq events e = .ok () ↔ nextSeq events = .ok e.seq := by
  unfold checkSeq
  simp only [bind_eq_ok, failIf_eq_ok, not_not]
  constructor
  · rintro ⟨n, hn, rfl⟩
    exact hn
  · intro h
    exact ⟨e.seq, h, rfl⟩

/-- A list of events numbered from `0`. -/
def Numbered (log : List SessionEvent) : Prop :=
  ∀ (i : Nat) (e : SessionEvent), log[i]? = some e → e.seq = i

theorem numbered_snoc : Numbered (log ++ [e]) ↔ Numbered log ∧ e.seq = log.length := by
  constructor
  · intro h
    refine ⟨fun i x hx => ?_, h log.length e (by simp)⟩
    have hlt : i < log.length := (List.getElem?_eq_some_iff.mp hx).1
    exact h i x (by rw [getElem?_append_left hlt]; exact hx)
  · rintro ⟨hlog, he⟩ i x hx
    by_cases hlt : i < log.length
    · rw [getElem?_append_left hlt] at hx
      exact hlog i x hx
    · rw [getElem?_append_right (Nat.le_of_not_lt hlt)] at hx
      obtain ⟨hi, rfl⟩ := List.getElem?_eq_some_iff.mp hx
      simp only [length_singleton, Nat.lt_one_iff] at hi
      simp only [hi, getElem_singleton]
      omega

theorem Numbered.nextSeq (h : Numbered log) :
    nextSeq log = if log.length < u64Bound then .ok log.length else .error .sequenceExhausted := by
  cases log using reverseRecOn with
  | nil => rfl
  | append_singleton log e =>
    have hlast := (numbered_snoc.mp h).2
    simp only [Session.nextSeq, getLast?_append, getLast?_singleton, Option.some_or,
      length_append, length_singleton, hlast]

theorem Numbered.seq_of_nextSeq (h : Numbered log) {n : Nat} (hn : Session.nextSeq log = .ok n) :
    n = log.length := by
  rw [h.nextSeq] at hn
  by_cases hlt : log.length < u64Bound
  · rw [if_pos hlt] at hn
    exact (ok.inj hn).symm
  · rw [if_neg hlt] at hn
    cases hn

theorem filter_seq_lt (hlog : Numbered log) (k : Nat) :
    (log.filter fun e => e.seq < k) = log.take k := by
  induction log using reverseRecOn with
  | nil => simp
  | append_singleton log e ih =>
    obtain ⟨hinit, hseq⟩ := numbered_snoc.mp hlog
    rw [filter_append, ih hinit]
    by_cases hk : e.seq < k
    · rw [take_of_length_le (by omega), take_of_length_le (by simp; omega)]
      simp [hk]
    · rw [take_append_of_le_length (by omega)]
      simp [hk]

theorem filter_seq_ge (hlog : Numbered log) (k : Nat) :
    (log.filter fun e => k ≤ e.seq) = log.drop k := by
  induction log using reverseRecOn with
  | nil => simp
  | append_singleton log e ih =>
    obtain ⟨hinit, hseq⟩ := numbered_snoc.mp hlog
    rw [filter_append, ih hinit]
    by_cases hk : k ≤ e.seq
    · rw [drop_append_of_le_length (by omega)]
      simp [hk]
    · rw [drop_of_length_le (by omega), drop_of_length_le (by simp; omega)]
      simp [hk]

theorem Numbered.take (h : Numbered log) (n : Nat) : Numbered (log.take n) := by
  intro i e he
  rw [getElem?_take] at he
  split at he
  · exact h i e he
  · exact nomatch he

theorem Numbered.getElem?_seq (h : Numbered log) (he : e ∈ log) : log[e.seq]? = some e := by
  obtain ⟨i, hi⟩ := mem_iff_getElem?.mp he
  rw [h i e hi]
  exact hi

theorem Numbered.seq_lt_length (h : Numbered log) (he : e ∈ log) : e.seq < log.length :=
  (List.getElem?_eq_some_iff.mp (h.getElem?_seq he)).1

theorem Accepted.numbered : ∀ {state : SessionState},
    Accepted S header log state → Numbered log := by
  induction log using reverseRecOn with
  | nil => intro _ _ i e h; simp at h
  | append_singleton log e ih =>
    intro state h
    obtain ⟨_, hmid, hstep⟩ := accepted_snoc.mp h
    have hlog := ih hmid
    have hseq := checkSeq_eq_ok.mp (replayEvent_eq_ok.mp hstep).2.1
    rw [hmid.events] at hseq
    exact numbered_snoc.mpr ⟨hlog, hlog.seq_of_nextSeq hseq⟩

theorem Accepted.event : ∀ {state : SessionState},
    Accepted S header log state → ∀ e ∈ log,
      e.validate S = .ok () ∧ ∃ projection, decodeSurfaceEvent S e = .ok projection := by
  induction log using reverseRecOn with
  | nil => intro _ _ e h; cases h
  | append_singleton log last ih =>
    intro state h e he
    obtain ⟨_, hmid, hstep⟩ := accepted_snoc.mp h
    rcases mem_append.mp he with hmem | hmem
    · exact ih hmid e hmem
    · obtain rfl := mem_singleton.mp hmem
      obtain ⟨hvalid, _, _, _, projection, hdecode, _⟩ := replayEvent_eq_ok.mp hstep
      exact ⟨hvalid, projection, hdecode⟩

end Tessivum.Session
