/-
Tessivum.Session.RecoveryTheorems — which admitted logs a cold restore
recovers.

Admission does not constrain turn numbers, step numbers or tool-call ids the
way the recovery scan reads them, so not every admitted log can be restored.
`Recoverable` is the exact condition, on the log alone: every `turn/start`
carries a turn number, every `assistant/message` a step number, and, when a
turn is open at the end, no call waiting in it has a blank id and the closing
events fit below the largest sequence number.
-/
import Tessivum.Session.OpenTurnTheorems
import Tessivum.Session.ReplayTheorems

namespace Tessivum.Session

open Library Protocol List

variable {S : Serde} {header : SessionHeader}

/-- The logs a cold restore recovers. -/
structure Recoverable (S : Serde) (log : List SessionEvent) : Prop where
  turns_numbered : ∀ e ∈ log, e.eventType = "turn/start" → (dataU64 e "turn").isSome = true
  messages_numbered : ∀ e ∈ log, e.eventType = "assistant/message" →
    (dataU64 e "step").isSome = true
  calls_named : turnOpen log = true →
    ∀ e ∈ openEvents log, ∀ id ∈ calledIds S e, isBlank id.asStr = false
  room : turnOpen log = true →
    log.length + (unanswered S (openEvents log)).length + (if stepOpen log then 1 else 0)
      ≤ maxSafeInteger

/-! ## The closing events -/

/-- The closing results of the pending calls, numbered from `seq` on. -/
def callClosers (S : Serde) (turn time : Nat) : Nat → List PendingCall → List SessionEvent
  | _, [] => []
  | seq, call :: rest => toolCloser S turn time call seq :: callClosers S turn time (seq + 1) rest

def endClosers (turn time : Nat) (openStep : Option Nat) (seq : Nat) : List SessionEvent :=
  match openStep with
  | none => [turnCloser turn time seq]
  | some step => [stepCloser turn step time seq, turnCloser turn time (seq + 1)]

/-- The number the closing `turn/end` gets. -/
def turnEndSeq (scan : TurnScan) (seq : Nat) : Nat :=
  seq + scan.pending.length + (if scan.openStep.isSome then 1 else 0)

variable {seq time turn : Nat} {closers log : List SessionEvent} {openStep : Option Nat}
  {last e : SessionEvent} {scan : TurnScan} {call : PendingCall} {state : SessionState}
  {live : Live MemoryState} {σ : Type} {P : Persistence σ} {token : Cancellation}

theorem seqAfter_eq_ok {next : Nat} (h : seqAfter seq = .ok next) : next = seq + 1 := by
  unfold seqAfter at h
  split at h
  · exact (ok.inj h).symm
  · cases h

theorem seqAfter_of_lt (h : seq + 1 < u64Bound) : seqAfter seq = .ok (seq + 1) :=
  if_pos h

theorem closeCalls_eq_ok : ∀ {pending : List PendingCall} {seq last : Nat}
    {closers : List SessionEvent}, closeCalls S turn time seq pending = .ok (closers, last) →
      closers = callClosers S turn time seq pending ∧ last = seq + pending.length
  | [], seq, last, closers, h => by
    cases h
    exact ⟨rfl, rfl⟩
  | call :: rest, seq, last, closers, h => by
    rw [closeCalls] at h
    obtain ⟨next, hnext, h⟩ := bind_eq_ok.mp h
    obtain ⟨⟨tail, last'⟩, htail, h⟩ := bind_eq_ok.mp h
    obtain rfl := seqAfter_eq_ok hnext
    obtain ⟨rfl, rfl⟩ := closeCalls_eq_ok htail
    cases h
    refine ⟨rfl, ?_⟩
    rw [length_cons]
    omega

theorem closeCalls_of_lt : ∀ {pending : List PendingCall} {seq : Nat},
    seq + pending.length < u64Bound →
      closeCalls S turn time seq pending
        = .ok (callClosers S turn time seq pending, seq + pending.length)
  | [], _, _ => rfl
  | call :: rest, seq, h => by
    rw [length_cons] at h
    rw [closeCalls, seqAfter_of_lt (by omega), ok_bind, closeCalls_of_lt (by omega), ok_bind,
      length_cons, callClosers, Nat.add_assoc, Nat.add_comm 1]

theorem closeTurn_eq_ok (h : closeTurn turn time openStep seq = .ok closers) :
    closers = endClosers turn time openStep seq := by
  cases openStep with
  | none => cases h; rfl
  | some step =>
    obtain ⟨_, hnext, h⟩ := bind_eq_ok.mp h
    obtain rfl := seqAfter_eq_ok hnext
    cases h
    rfl

theorem closeTurn_of_lt (h : seq + 1 < u64Bound) :
    closeTurn turn time openStep seq = .ok (endClosers turn time openStep seq) := by
  cases openStep with
  | none => rfl
  | some step => rw [closeTurn, seqAfter_of_lt h]; rfl

theorem closersOf_eq_ok (hturn : scan.openTurn = some turn)
    (h : closersOf S scan (some last) = .ok closers) :
    closers = callClosers S turn last.time (last.seq + 1) scan.pending
      ++ endClosers turn last.time scan.openStep (last.seq + 1 + scan.pending.length) := by
  unfold closersOf at h
  rw [hturn] at h
  obtain ⟨_, hseq, h⟩ := bind_eq_ok.mp h
  obtain ⟨⟨_, _⟩, hcalls, h⟩ := bind_eq_ok.mp h
  obtain ⟨_, hends, h⟩ := bind_eq_ok.mp h
  obtain rfl := seqAfter_eq_ok hseq
  obtain ⟨rfl, rfl⟩ := closeCalls_eq_ok hcalls
  obtain rfl := closeTurn_eq_ok hends
  cases h
  rfl

theorem closersOf_none (h : scan.openTurn = none) (last : Option SessionEvent) :
    closersOf S scan last = .ok [] := by
  unfold closersOf
  rw [h]

theorem closersOf_of_lt (hturn : scan.openTurn = some turn)
    (hroom : last.seq + 1 + scan.pending.length + 1 < u64Bound) :
    closersOf S scan (some last)
      = .ok (callClosers S turn last.time (last.seq + 1) scan.pending
          ++ endClosers turn last.time scan.openStep
              (last.seq + 1 + scan.pending.length)) := by
  unfold closersOf
  rw [hturn]
  simp only
  rw [seqAfter_of_lt (by omega), ok_bind, closeCalls_of_lt (by omega), ok_bind,
    closeTurn_of_lt (by omega), ok_bind]

/-! ### Which closing events are admitted -/

theorem closingMessage_faithful (call : PendingCall) (seq : Nat) :
    (closingMessage call seq).Faithful := by
  intro provider model h
  cases h

theorem closingMessage_validate :
    (closingMessage call seq).validate = .ok () ↔ isBlank call.callId.asStr = false := by
  have hsource : (closingMessage call seq).source = .tool call.callId := rfl
  have hcontent : (closingMessage call seq).content
      = [.toolResult call.callId [.text (closingText call).2.2] (some true)] := rfl
  rw [Message.validate, check_bind_eq_ok, hsource, hcontent, MessageSource.validate,
    ContentBlock.validateBlocks, ContentBlock.validate, validateNonempty_eq_ok]
  constructor
  · intro h
    exact h.1
  · intro h
    have htext : ContentBlock.validateBlocks [.text (closingText call).2.2] = .ok () := rfl
    rw [validateNonempty_eq_ok.mpr h, htext]
    exact ⟨h, rfl⟩

theorem decodeSurfaceEvent_toolCloser (hS : S.RoundTrips) (turn time seq : Nat)
    (call : PendingCall) :
    (∃ projection, decodeSurfaceEvent S (toolCloser S turn time call seq) = .ok projection) ↔
      isBlank call.callId.asStr = false := by
  have hdata : surfaceData (toolCloser S turn time call seq)
      = .ok (S.messageToValue (closingMessage call seq)) := rfl
  have hrole : expectedRole (toolCloser S turn time call seq).eventType = some .user := rfl
  unfold decodeSurfaceEvent
  rw [hrole]
  simp only [hdata, ok_bind, decodeMessage, hS _ (closingMessage_faithful call seq)]
  cases hvalid : (closingMessage call seq).validate with
  | error err =>
    constructor
    · rintro ⟨_, h⟩
      cases h
    · intro h
      rw [closingMessage_validate.mpr h] at hvalid
      cases hvalid
  | ok u =>
    constructor
    · intro _
      exact closingMessage_validate.mp hvalid
    · intro _
      exact ⟨_, rfl⟩

theorem replayEvent_plain {eventType : String} {data : Value}
    (hknown : isKnownEventType eventType = true) (hrole : expectedRole eventType = none)
    (hseed : eventType ≠ "session/end-seed")
    (hworkflow : validateToolWorkflowEvent S eventType data = .ok ()) (hnum : Numbered state.events)
    (htime : time ≤ maxSafeInteger) (hseq : state.events.length ≤ maxSafeInteger) :
    replayEvent S header state (.plain eventType state.events.length time data)
      = .ok (state.record (.plain eventType state.events.length time data) none) := by
  have hsurface : isSurfaceEventType eventType = false := by
    by_contra h
    rw [not_eq_false] at h
    obtain ⟨_, hr⟩ := isSurfaceEventType_iff.mp h
    rw [hrole] at hr
    cases hr
  have hlt : state.events.length < u64Bound := by
    unfold maxSafeInteger at hseq
    unfold u64Bound
    omega
  refine replayEvent_eq_ok.mpr ⟨?_, ?_, ?_, rfl, none, ?_, rfl, rfl⟩
  · refine SessionEvent.validate_eq_ok.mpr ⟨hseq, htime, ?_, .inl hknown, hworkflow, ?_⟩
    · intro h
      cases h
    · simp [validateSurfaceMetadata, SessionEvent.plain, hsurface, failIf_eq_ok]
  · rw [checkSeq_eq_ok, hnum.nextSeq, if_pos hlt]
    rfl
  · exact if_pos hseed
  · simp [decodeSurfaceEvent, SessionEvent.plain, hrole]

theorem validateCitations_toolCloser (S : Serde) (turn time : Nat) (hnum : Numbered log)
    (hseq : log.length ≤ maxSafeInteger)
    (hcalled : ∀ seq, call.callSeq = some seq → ∃ e ∈ log, e.seq = seq) :
    validateCitations (toolCloser S turn time call log.length) = .ok ()
      ∧ validateSources (toolCloser S turn time call log.length) log = .ok () := by
  cases hcall : call.callSeq with
  | none => simp [validateCitations, validateSources, toolCloser, hcall]
  | some source =>
    obtain ⟨e, he, rfl⟩ := hcalled source hcall
    have hlt := hnum.seq_lt_length he
    have hsources : (toolCloser S turn time call log.length).sourceEventSeqs = some [e.seq] := by
      simp [toolCloser, hcall]
    constructor
    · have hone : validateSourceSeq log.length e.seq = .ok () := by
        rw [validateSourceSeq, check_bind_eq_ok, checkSafeInteger_eq_ok, failIf_eq_ok]
        omega
      rw [validateCitations, hsources]
      simp only [check_bind_eq_ok, failIf_eq_ok, forAllOk_eq_ok, mem_singleton,
        forall_eq]
      exact ⟨by simp, hone⟩
    · rw [validateSources, hsources]
      simp only [forAllOk_eq_ok, mem_singleton, forall_eq, validateSource, failIf_eq_ok]
      have hany : log.any (fun p => p.seq == e.seq) = true :=
        any_eq_true.mpr ⟨e, he, by simp⟩
      simp [hany]

/-- A closing result is admitted. -/
theorem replayEvent_toolCloser (hS : S.RoundTrips) (header : SessionHeader) (turn : Nat)
    (hnum : Numbered state.events) (htime : time ≤ maxSafeInteger)
    (hseq : state.events.length ≤ maxSafeInteger)
    (hcalled : ∀ seq, call.callSeq = some seq → ∃ e ∈ state.events, e.seq = seq)
    (hnamed : isBlank call.callId.asStr = false) :
    ∃ projection,
      replayEvent S header state (toolCloser S turn time call state.events.length)
        = .ok (state.record (toolCloser S turn time call state.events.length) projection) := by
  obtain ⟨projection, hdecode⟩ :=
    (decodeSurfaceEvent_toolCloser hS turn time state.events.length call).mpr hnamed
  have hlt : state.events.length < u64Bound := by
    unfold maxSafeInteger at hseq
    unfold u64Bound
    omega
  obtain ⟨hcitations, hsources⟩ := validateCitations_toolCloser S turn time hnum hseq hcalled
  refine ⟨projection, replayEvent_eq_ok.mpr ⟨?_, ?_, rfl, hsources, projection, hdecode, ?_, rfl⟩⟩
  · refine SessionEvent.validate_eq_ok.mpr ⟨hseq, htime, ?_, .inl rfl, rfl, ?_⟩
    · intro h
      cases h
    · show (do
        SurfaceOp.validate .append
        validateCitations (toolCloser S turn time call state.events.length)
        failIf _ _) = Except.ok ()
      rw [hcitations]
      simp [SurfaceOp.validate, failIf_eq_ok]
  · rw [checkSeq_eq_ok, hnum.nextSeq, if_pos hlt]
    rfl
  · cases projection <;> rfl

/-- The closing results are admitted one after another. -/
theorem foldlM_callClosers (hS : S.RoundTrips) (header : SessionHeader) (turn : Nat)
    (htime : time ≤ maxSafeInteger) :
    ∀ {pending : List PendingCall} {state : SessionState}, Numbered state.events →
      state.events.length + pending.length ≤ maxSafeInteger →
      (∀ call ∈ pending, ∀ seq, call.callSeq = some seq → ∃ e ∈ state.events, e.seq = seq) →
      (∀ call ∈ pending, isBlank call.callId.asStr = false) →
      ∃ state', (callClosers S turn time state.events.length pending).foldlM
          (replayEvent S header) state = .ok state'
        ∧ Numbered state'.events
        ∧ state'.events.length = state.events.length + pending.length
  | [], state, hnum, _, _, _ => ⟨state, rfl, hnum, rfl⟩
  | call :: rest, state, hnum, hroom, hcalled, hnamed => by
    rw [length_cons] at hroom
    obtain ⟨projection, hstep⟩ := replayEvent_toolCloser hS header turn hnum htime (by omega)
      (hcalled call mem_cons_self) (hnamed call mem_cons_self)
    have hlen : (state.record (toolCloser S turn time call state.events.length)
        projection).events.length = state.events.length + 1 := by simp
    have hnum' : Numbered (state.record (toolCloser S turn time call state.events.length)
        projection).events := numbered_snoc.mpr ⟨hnum, rfl⟩
    have hcalled' : ∀ c ∈ rest, ∀ seq, c.callSeq = some seq →
        ∃ e ∈ (state.record (toolCloser S turn time call state.events.length)
          projection).events, e.seq = seq := by
      intro c hc seq hseq
      obtain ⟨e, he, heq⟩ := hcalled c (mem_cons_of_mem call hc) seq hseq
      exact ⟨e, mem_append_left _ he, heq⟩
    obtain ⟨state', hfold, hnumbered, hlength⟩ := foldlM_callClosers hS header turn htime
      hnum' (by rw [hlen]; omega) hcalled' fun c hc => hnamed c (mem_cons_of_mem call hc)
    refine ⟨state', ?_, hnumbered, ?_⟩
    · rw [callClosers, foldlM_cons, hstep, ok_bind]
      rw [hlen] at hfold
      exact hfold
    · rw [hlength, hlen, length_cons]
      omega

/-- The ends of the step and of the turn are admitted. -/
theorem foldlM_endClosers (S : Serde) (header : SessionHeader) (turn : Nat)
    (htime : time ≤ maxSafeInteger) (hnum : Numbered state.events)
    (hroom : state.events.length + (if openStep.isSome then 1 else 0) ≤ maxSafeInteger) :
    ∃ state', (endClosers turn time openStep state.events.length).foldlM
      (replayEvent S header) state = .ok state' := by
  have hturnEnd : ∀ state : SessionState, Numbered state.events →
      state.events.length ≤ maxSafeInteger →
      ∃ state', replayEvent S header state (turnCloser turn time state.events.length)
        = .ok state' := by
    intro state hnum hseq
    exact ⟨_, replayEvent_plain rfl rfl (by decide) rfl hnum htime hseq⟩
  cases openStep with
  | none =>
    obtain ⟨state', hstep⟩ := hturnEnd state hnum (by simpa using hroom)
    refine ⟨state', ?_⟩
    rw [endClosers, foldlM_cons, hstep]
    rfl
  | some step =>
    rw [Option.isSome_some, if_pos rfl] at hroom
    have hstep : replayEvent S header state (stepCloser turn step time state.events.length)
        = .ok (state.record (stepCloser turn step time state.events.length) none) :=
      replayEvent_plain rfl rfl (by decide) rfl hnum htime (by omega)
    have hlen : (state.record (stepCloser turn step time state.events.length)
        none).events.length = state.events.length + 1 := by simp
    obtain ⟨state', hend⟩ := hturnEnd
      (state.record (stepCloser turn step time state.events.length) none)
      (numbered_snoc.mpr ⟨hnum, rfl⟩) (by omega)
    refine ⟨state', ?_⟩
    rw [endClosers, foldlM_cons, hstep, ok_bind, foldlM_cons]
    rw [hlen] at hend
    rw [hend]
    rfl

theorem foldlM_closers (hS : S.RoundTrips) (header : SessionHeader) (turn : Nat)
    (htime : time ≤ maxSafeInteger) (hnum : Numbered state.events)
    (hroom : turnEndSeq scan state.events.length ≤ maxSafeInteger)
    (hcalled : ∀ call ∈ scan.pending, ∀ seq, call.callSeq = some seq →
      ∃ e ∈ state.events, e.seq = seq)
    (hnamed : ∀ call ∈ scan.pending, isBlank call.callId.asStr = false) :
    ∃ state', (callClosers S turn time state.events.length scan.pending
      ++ endClosers turn time scan.openStep (state.events.length + scan.pending.length)).foldlM
        (replayEvent S header) state = .ok state' := by
  unfold turnEndSeq at hroom
  obtain ⟨mid, hcalls, hmidNum, hmidLen⟩ :=
    foldlM_callClosers hS header turn htime hnum (by omega) hcalled hnamed
  rw [← hmidLen] at hroom ⊢
  obtain ⟨state', hends⟩ := foldlM_endClosers S header turn htime hmidNum hroom
  refine ⟨state', ?_⟩
  rw [foldlM_append, hcalls]
  exact hends

/-! ## Appending on the memory backend -/

theorem checkAppend_of_replayEvent {state' : SessionState}
    (h : replayEvent S header state e = .ok state') (hinbox : isInboxEvent e = false) :
    ∃ projection, checkAppend S header state e none = .ok projection
      ∧ state' = state.record e projection := by
  obtain ⟨_, _, _, _, projection, hdecode, _, rfl⟩ := replayEvent_eq_ok.mp h
  refine ⟨projection, checkAppend_eq_ok.mpr ⟨rfl, h, hdecode, ?_⟩, rfl⟩
  rw [checkInbox, hinbox]
  rfl

theorem Live.append_memory (hlive : live.Replays S (memoryPersistence S))
    {projection : Option SurfaceMessage}
    (h : checkAppend S live.header live.state e none = .ok projection) :
    ∃ disk, live.append S (memoryPersistence S) e .never
      = (.ok (), { live with disk, state := live.state.record e projection }) := by
  obtain ⟨_, hcommitted, _⟩ := hlive
  rw [Memory.committed_eq, map_eq_some_iff] at hcommitted
  obtain ⟨session, hsession, hevents⟩ := hcommitted
  obtain ⟨hvalid, hseq, _⟩ := replayEvent_eq_ok.mp (checkAppend_eq_ok.mp h).2.1
  have happend : Memory.append S live.disk live.header.id e .never
      = .ok (Memory.insert live.disk live.header.id
          { session with events := session.events ++ [e] }) := by
    rw [← hevents] at hseq
    simp [Memory.append, liftProtocol, hvalid, hsession, hseq]
  have hdisk : (memoryPersistence S).append live.disk live.header.id e .never
      = (.ok (), Memory.insert live.disk live.header.id
          { session with events := session.events ++ [e] }) := orUnchanged_eq_ok.mpr happend
  refine ⟨Memory.insert live.disk live.header.id
    { session with events := session.events ++ [e] }, ?_⟩
  simp only [Live.append, Live.appendInner, Live.appendUnderGate, checkCancellation_never,
    Cancellation.never_after, ok_bind, h, hdisk]

theorem Live.append_eq_ok {live live' : Live σ} (h : live.append S P e token = (.ok (), live')) :
    ∃ projection, checkAppend S live.header live.state e none = .ok projection
      ∧ live'.header = live.header ∧ live'.state = live.state.record e projection := by
  unfold Live.append Live.appendInner at h
  split at h
  · cases h
  · unfold Live.appendUnderGate at h
    dsimp only at h
    split at h
    · cases h
    · rename_i projection hchecks
      have hcheck := after_check hchecks
      split at h
      · cases h
      · cases h
        exact ⟨projection, hcheck, rfl, rfl⟩

theorem Live.appendAll_eq_ok :
    ∀ {events : List SessionEvent} {live live' : Live σ},
      live.appendAll S P token events = (.ok (), live') →
        live'.header = live.header
          ∧ events.foldlM (replayEvent S live.header) live.state = .ok live'.state
  | [], live, live', h => by
    cases h
    exact ⟨rfl, rfl⟩
  | e :: rest, live, live', h => by
    rw [Live.appendAll] at h
    rcases happend : live.append S P e token with ⟨result, _⟩
    rw [happend] at h
    cases result with
    | error err => cases h
    | ok u =>
      obtain ⟨_, hcheck, hheader, hstate⟩ := Live.append_eq_ok happend
      obtain ⟨hheader', hfold⟩ := Live.appendAll_eq_ok h
      have hreplay := (checkAppend_eq_ok.mp hcheck).2.1
      refine ⟨hheader'.trans hheader, ?_⟩
      rw [foldlM_cons, hreplay, ok_bind, ← hstate, ← hheader]
      exact hfold

theorem Live.appendAll_memory : ∀ {events : List SessionEvent} {live : Live MemoryState}
    {state' : SessionState}, live.Replays S (memoryPersistence S) →
      (∀ e ∈ events, isInboxEvent e = false) →
      events.foldlM (replayEvent S live.header) live.state = .ok state' →
        ∃ live', live.appendAll S (memoryPersistence S) .never events = (.ok (), live')
  | [], live, _, _, _, _ => ⟨live, rfl⟩
  | e :: rest, live, state', hlive, hinbox, hfold => by
    rw [foldlM_cons] at hfold
    obtain ⟨_, hmid, hfold⟩ := bind_eq_ok.mp hfold
    obtain ⟨_, hcheck, rfl⟩ :=
      checkAppend_of_replayEvent hmid (hinbox e mem_cons_self)
    obtain ⟨_, happend⟩ := Live.append_memory hlive hcheck
    have hnext := Live.call_replays (memoryPersistence_lawful S) live (.append e .never) hlive
    simp only [Live.call, happend] at hnext
    obtain ⟨live', hrest⟩ := Live.appendAll_memory hnext
      (fun x hx => hinbox x (mem_cons_of_mem e hx)) hfold
    refine ⟨live', ?_⟩
    rw [Live.appendAll, happend]
    exact hrest

/-! ## Restoring -/

/-- A host that has just started over a backend: nothing is live. -/
def Store.restarted {σ : Type} (disk : σ) : Store σ := { isLive := fun _ => false, disk }

/-- A cold restore of a committed log does what it should: it succeeds,
admits every closing event it computes, and leaves nothing to close. -/
def RestoresCold (S : Serde) (disk : MemoryState) (id : SessionId) (log : List SessionEvent) :
    Prop :=
  ∃ closers, interruptedTurnClosers S log = .ok closers
    ∧ (∃ live' store', (Store.restarted disk).restore S (memoryPersistence S) id .cold .never
          = (.ok live', store')
        ∧ live'.state.events = log ++ closers)
    ∧ interruptedTurnClosers S (log ++ closers) = .ok []

theorem Store.readBack_restarted (hlive : live.Replays S (memoryPersistence S)) :
    (Store.restarted live.disk).readBack S (memoryPersistence S) live.header.id .never
      = .ok live := by
  obtain ⟨hload, hcommitted, hbuild⟩ := hlive
  have hheader := (buildState_eq_ok.mp hbuild).1
  have hread : (memoryPersistence S).readFrom live.disk live.header.id 0 .never
      = .ok live.state.events := by
    unfold Persistence.committed at hcommitted
    cases hr : (memoryPersistence S).readFrom live.disk live.header.id 0 .never with
    | error err => rw [hr] at hcommitted; cases hcommitted
    | ok events => rw [hr] at hcommitted; cases hcommitted; rfl
  simp only [Store.readBack, Store.restarted, Store.ensureNotLive, checkCancellation_never,
    Cancellation.never_after, ok_bind, hload, hheader, hread, hbuild]
  simp [failIf]

theorem Store.insertLive_restarted (disk : σ) (live : Live σ) :
    ∃ store', (Store.restarted disk).insertLive live = (.ok live, store') := by
  exact ⟨{ isLive := Function.update (fun _ => false) live.header.id true, disk := live.disk },
    rfl⟩

theorem Store.restore_restarted {live : Live MemoryState}
    (hlive : live.Replays S (memoryPersistence S)) {closers : List SessionEvent}
    (hclosers : interruptedTurnClosers S live.state.events = .ok closers)
    {live' : Live MemoryState} :
    (∃ store', (Store.restarted live.disk).restore S (memoryPersistence S) live.header.id .cold
        .never = (.ok live', store')) ↔
      live.appendAll S (memoryPersistence S) .never closers = (.ok (), live') := by
  unfold Store.restore
  simp only [Store.readBack_restarted hlive, ok_bind, hclosers, Cancellation.never_after]
  by_cases hnil : closers = []
  · rw [hnil, if_pos rfl]
    obtain ⟨_, hinsert⟩ := Store.insertLive_restarted live.disk live
    rw [hinsert]
    simp [Live.appendAll]
  · rw [if_neg hnil, if_neg (by decide), if_neg (by decide)]
    rcases happend : live.appendAll S (memoryPersistence S) .never closers with ⟨result, mid⟩
    cases result with
    | error err => simp
    | ok u =>
      obtain ⟨_, hinsert⟩ := Store.insertLive_restarted live.disk mid
      simp [hinsert]

theorem ne_nil_of_turnOpen (h : turnOpen log = true) : log ≠ [] := by
  rintro rfl
  cases h

theorem eventType_callClosers : ∀ {pending : List PendingCall} {seq : Nat},
    ∀ e ∈ callClosers S turn time seq pending, e.eventType = "tool/result"
  | [], _, _, he => by cases he
  | call :: rest, seq, e, he => by
    rcases mem_cons.mp he with rfl | he
    · rfl
    · exact eventType_callClosers e he

theorem mem_endClosers (h : e ∈ endClosers turn time openStep seq) :
    e.eventType = "step/end" ∨ e.eventType = "turn/end" := by
  cases openStep with
  | none =>
    obtain rfl := mem_singleton.mp h
    exact .inr rfl
  | some step =>
    rcases mem_cons.mp h with rfl | h
    · exact .inl rfl
    · obtain rfl := mem_singleton.mp h
      exact .inr rfl

theorem mem_callClosers :
    ∀ {pending : List PendingCall} {seq : Nat}, call ∈ pending →
      ∃ n, toolCloser S turn time call n ∈ callClosers S turn time seq pending
  | [], _, h => by cases h
  | first :: rest, seq, h => by
    rcases mem_cons.mp h with rfl | h
    · exact ⟨seq, mem_cons_self⟩
    · obtain ⟨n, hn⟩ := mem_callClosers h
      exact ⟨n, mem_cons_of_mem _ hn⟩

def closersAt (S : Serde) (scan : TurnScan) (turn time seq : Nat) : List SessionEvent :=
  callClosers S turn time seq scan.pending
    ++ endClosers turn time scan.openStep (seq + scan.pending.length)

theorem eventType_closersAt (h : e ∈ closersAt S scan turn time seq) :
    e.eventType = "tool/result" ∨ e.eventType = "step/end" ∨ e.eventType = "turn/end" := by
  rcases mem_append.mp h with hcall | hend
  · exact .inl (eventType_callClosers e hcall)
  · exact .inr (mem_endClosers hend)

theorem readsFields_closersAt : ∀ e ∈ closersAt S scan turn time seq, ReadsFields e := by
  intro e he
  have hnot : e.eventType ≠ "turn/start" ∧ e.eventType ≠ "assistant/message" := by
    rcases eventType_closersAt he with htype | htype | htype <;> rw [htype] <;> decide
  exact ⟨fun htype => absurd htype hnot.1, fun htype => absurd htype hnot.2⟩

theorem not_inboxEvent_closersAt :
    ∀ e ∈ closersAt S scan turn time seq, isInboxEvent e = false := by
  intro e he
  unfold isInboxEvent
  rcases eventType_closersAt he with htype | htype | htype <;> rw [htype] <;> decide

theorem closersAt_eq_snoc (S : Serde) (scan : TurnScan) (turn time seq : Nat) :
    ∃ init, closersAt S scan turn time seq
      = init ++ [turnCloser turn time (turnEndSeq scan seq)] := by
  unfold closersAt turnEndSeq
  cases scan.openStep with
  | none => exact ⟨_, rfl⟩
  | some step =>
    refine ⟨callClosers S turn time seq scan.pending
      ++ [stepCloser turn step time (seq + scan.pending.length)], ?_⟩
    rw [append_assoc]
    rfl

/-- After its closing events a log has nothing to close. -/
theorem closers_of_closed (hacc : Accepted S header (log ++ closersAt S scan turn time seq) state)
    (hreads : ∀ e ∈ log, ReadsFields e) :
    interruptedTurnClosers S (log ++ closersAt S scan turn time seq) = .ok [] := by
  have hreads' : ∀ e ∈ log ++ closersAt S scan turn time seq, ReadsFields e := by
    intro e he
    rcases mem_append.mp he with hlog | hclose
    · exact hreads e hlog
    · exact readsFields_closersAt e hclose
  obtain ⟨scan', hscan, hfound⟩ := hacc.scan hreads'
  obtain ⟨_, hinit⟩ := closersAt_eq_snoc S scan turn time seq
  have hclosed : turnOpen (log ++ closersAt S scan turn time seq) = false := by
    rw [hinit, ← append_assoc, turnOpen, lastOf_snoc]
    rfl
  have hnone : scan'.openTurn = none := by
    have hturn := hfound.turn
    rw [hclosed] at hturn
    cases hopen : scan'.openTurn with
    | none => rfl
    | some n => rw [hopen] at hturn; cases hturn
  rw [interruptedTurnClosers, hscan, ok_bind, closersOf_none hnone]

/-! ## The condition is exact -/

theorem Accepted.last_seq (h : Accepted S header log state) (hlast : log.getLast? = some last) :
    last.seq + 1 = log.length ∧ last.time ≤ maxSafeInteger := by
  obtain ⟨_, rfl⟩ := getLast?_eq_some_iff.mp hlast
  have hnum := numbered_snoc.mp h.numbered
  have htime := (SessionEvent.validate_eq_ok.mp (h.event last (by simp)).1).2.1
  exact ⟨by simp [hnum.2], htime⟩

theorem Scanned.turnEndSeq (h : Scanned S log scan) :
    Session.turnEndSeq scan log.length
      = log.length + (unanswered S (openEvents log)).length
        + (if stepOpen log then 1 else 0) := by
  rw [Session.turnEndSeq, ← h.pending, length_map, h.step]

theorem Scanned.named (h : Scanned S log scan) :
    (∀ call ∈ scan.pending, isBlank call.callId.asStr = false) ↔
      ∀ e ∈ openEvents log, ∀ id ∈ calledIds S e, isBlank id.asStr = false := by
  constructor
  · intro hnamed e he id hid
    by_contra hblank
    have hno : ∀ x ∈ openEvents log, id ∉ answeredIds S x := fun x _ hanswered =>
      hblank (isBlank_of_answered hanswered)
    have hmem := mem_unanswered_of_called hno e he hid
    rw [← h.pending] at hmem
    obtain ⟨call, hcall, rfl⟩ := mem_map.mp hmem
    exact hblank (hnamed call hcall)
  · intro hnamed call hcall
    have hmem : call.callId ∈ unanswered S (openEvents log) := by
      rw [← h.pending]
      exact mem_map_of_mem hcall
    obtain ⟨e, he, hid⟩ := mem_unanswered hmem
    exact hnamed e he _ hid

/-- A recoverable log is restored. -/
theorem restoresCold_of_recoverable (hS : S.RoundTrips) {live : Live MemoryState}
    (hlive : live.Replays S (memoryPersistence S)) (h : Recoverable S live.state.events) :
    RestoresCold S live.disk live.header.id live.state.events := by
  have hacc := accepted_of_buildState hlive.2.2
  have hreads : ∀ e ∈ live.state.events, ReadsFields e := fun e he =>
    ⟨h.turns_numbered e he, h.messages_numbered e he⟩
  obtain ⟨scan, hscan, hfound⟩ := hacc.scan hreads
  cases hturn : scan.openTurn with
  | none =>
    have hclosers : interruptedTurnClosers S live.state.events = .ok [] := by
      rw [interruptedTurnClosers, hscan, ok_bind, closersOf_none hturn]
    obtain ⟨store', hrestore⟩ := (Store.restore_restarted hlive hclosers).mpr rfl
    refine ⟨[], hclosers, ⟨live, store', hrestore, by simp⟩, ?_⟩
    rw [append_nil]
    exact hclosers
  | some turn =>
    have hopen : turnOpen live.state.events = true := by
      rw [← hfound.turn, hturn]
      rfl
    obtain ⟨last, hlast⟩ : ∃ last, live.state.events.getLast? = some last :=
      ⟨_, getLast?_eq_some_getLast (ne_nil_of_turnOpen hopen)⟩
    obtain ⟨hseq, htime⟩ := hacc.last_seq hlast
    have hroom := h.room hopen
    rw [← hfound.turnEndSeq] at hroom
    have hnamed := hfound.named.mpr (h.calls_named hopen)
    -- the closing events exist and are admitted one after the other
    have hclosers : interruptedTurnClosers S live.state.events
        = .ok (closersAt S scan turn last.time live.state.events.length) := by
      have hbound : last.seq + 1 + scan.pending.length + 1 < u64Bound := by
        unfold turnEndSeq maxSafeInteger at hroom
        unfold u64Bound
        omega
      rw [interruptedTurnClosers, hscan, ok_bind, hlast, closersOf_of_lt hturn hbound, hseq]
      rfl
    obtain ⟨state', hfold⟩ :=
      foldlM_closers hS live.header turn htime hacc.numbered hroom hfound.called hnamed
    obtain ⟨live', happend⟩ := Live.appendAll_memory hlive not_inboxEvent_closersAt hfold
    obtain ⟨store', hrestore⟩ := (Store.restore_restarted hlive hclosers).mpr happend
    obtain ⟨_, hstate⟩ := Live.appendAll_eq_ok happend
    refine ⟨_, hclosers, ⟨live', store', hrestore, (foldlM_replayEvent_events hstate).1⟩, ?_⟩
    have hacc' : Accepted S live.header (live.state.events
        ++ closersAt S scan turn last.time live.state.events.length) state' := by
      unfold Accepted at hacc ⊢
      rw [foldlM_append, hacc]
      exact hfold
    exact closers_of_closed hacc' hreads

/-- What is restored was recoverable. -/
theorem recoverable_of_restoresCold (hS : S.RoundTrips) {live : Live MemoryState}
    (hlive : live.Replays S (memoryPersistence S))
    (h : RestoresCold S live.disk live.header.id live.state.events) :
    Recoverable S live.state.events := by
  obtain ⟨closers, hclosers, ⟨live', store', hrestore, _⟩, _⟩ := h
  have hacc := accepted_of_buildState hlive.2.2
  have happend := (Store.restore_restarted hlive hclosers).mp ⟨store', hrestore⟩
  obtain ⟨_, hfold⟩ := Live.appendAll_eq_ok happend
  have hacc' : Accepted S live.header (live.state.events ++ closers) live'.state := by
    unfold Accepted at hacc ⊢
    rw [foldlM_append, hacc]
    exact hfold
  obtain ⟨scan, hscan, hfrom⟩ := bind_eq_ok.mp hclosers
  have hreads := readsFields_of_scan hscan
  obtain ⟨scan', hscan', hfound⟩ := hacc.scan hreads
  obtain rfl : scan' = scan := ok.inj (hscan'.symm.trans hscan)
  -- with an open turn, the closing events are the ones the scan asks for
  have hopenClosers : turnOpen live.state.events = true → ∃ turn last,
      closers = closersAt S scan' turn last live.state.events.length := by
    intro hopen
    rw [← hfound.turn] at hopen
    obtain ⟨turn, hturn⟩ := isSome_iff_exists.mp hopen
    have hne : live.state.events ≠ [] :=
      ne_nil_of_turnOpen (hfound.turn ▸ hopen)
    obtain ⟨last, hlast⟩ : ∃ last, live.state.events.getLast? = some last :=
      ⟨_, getLast?_eq_some_getLast hne⟩
    rw [hlast] at hfrom
    have heq := closersOf_eq_ok hturn hfrom
    rw [(hacc.last_seq hlast).1] at heq
    exact ⟨turn, last.time, heq⟩
  refine ⟨fun e he => (hreads e he).1, fun e he => (hreads e he).2, ?_, ?_⟩
  · intro hopen
    obtain ⟨turn, time, rfl⟩ := hopenClosers hopen
    refine hfound.named.mp fun call hcall => ?_
    obtain ⟨n, hn⟩ : ∃ n, toolCloser S turn time call n
        ∈ callClosers S turn time live.state.events.length scan'.pending := mem_callClosers hcall
    have hmem : toolCloser S turn time call n
        ∈ live.state.events ++ closersAt S scan' turn time live.state.events.length :=
      mem_append_right _ (mem_append_left _ hn)
    exact (decodeSurfaceEvent_toolCloser hS turn time n call).mp (hacc'.event _ hmem).2
  · intro hopen
    obtain ⟨turn, time, rfl⟩ := hopenClosers hopen
    obtain ⟨_, hinit⟩ := closersAt_eq_snoc S scan' turn time live.state.events.length
    have hmem : turnCloser turn time (turnEndSeq scan' live.state.events.length)
        ∈ live.state.events ++ closersAt S scan' turn time live.state.events.length := by
      rw [hinit]
      simp
    rw [← hfound.turnEndSeq]
    exact (SessionEvent.validate_eq_ok.mp (hacc'.event _ hmem).1).1

/-- Cold restore, over every run of a live session: what the session
admitted can be restored, its closing events are admitted and nothing is
left to close, exactly when the log is recoverable. -/
theorem cold_restore_iff (S : Serde) (hS : S.RoundTrips) (header : SessionHeader)
    (start : Live MemoryState) (hstart : Started S (memoryPersistence S) header start)
    (calls : List Call) :
    let live := runState (Live.call S (memoryPersistence S)) start calls
    RestoresCold S live.disk header.id live.state.events ↔ Recoverable S live.state.events := by
  intro live
  obtain ⟨hheader, hlive⟩ := Live.run_replays (memoryPersistence_lawful S) hstart calls
  rw [← hheader]
  exact ⟨recoverable_of_restoresCold hS hlive, restoresCold_of_recoverable hS hlive⟩

/-- A turn that stops in its first step, with a call that has no result. -/
def interruptedTurn : List SessionEvent :=
  let call : Message :=
    { id := ⟨"a"⟩, role := .assistant, content := [.toolCall ⟨"c"⟩ "read" "\x7b\x7d"]
      source := .model "p" "m" none }
  [SessionEvent.plain "turn/start" 0 1 (.object [("turn", .ofNat 1)]),
   SessionEvent.plain "step/start" 1 1 (.object [("step", .ofNat 1), ("turn", .ofNat 1)]),
   { SessionEvent.plain "assistant/message" 2 1
       (.object [("message", wireSerde.messageToValue call), ("step", .ofNat 1)]) with
     surfaceOp := some .append }]

theorem cold_restore_iff_interruptedTurn :
    let P := memoryPersistence wireSerde
    ∃ start store', (Store.restarted Memory.empty).create wireSerde P (.plain ⟨"s"⟩ 1) .never
        = (.ok start, store') ∧
      let live := runState (Live.call wireSerde P) start
        (interruptedTurn.map fun e => .append e .never)
      live.state.events = interruptedTurn
        ∧ (stepOpen live.state.events = true
          ∧ unanswered wireSerde (openEvents live.state.events) = [⟨"c"⟩])
        ∧ RestoresCold wireSerde live.disk ⟨"s"⟩ live.state.events := by
  intro P
  refine ⟨_, _, rfl, ?_⟩
  intro live
  have hevents : live.state.events = interruptedTurn := by decide +kernel
  have hrecoverable : Recoverable wireSerde interruptedTurn :=
    ⟨by decide +kernel, by decide +kernel, by decide +kernel, by decide +kernel⟩
  refine ⟨hevents, ?_, ?_⟩
  · rw [hevents]
    decide +kernel
  · exact (cold_restore_iff wireSerde wireSerde_roundTrips (.plain ⟨"s"⟩ 1) _
      (.create (Store.restarted Memory.empty) .never _ rfl)
      (interruptedTurn.map fun e => .append e .never)).mpr (hevents ▸ hrecoverable)

/-- A session that admitted a turn without a number cannot be
restored. -/
theorem not_restoresCold_unnumberedTurn :
    let P := memoryPersistence wireSerde
    let turnStart := SessionEvent.plain "turn/start" 0 1 .null
    ∃ start store', (Store.restarted Memory.empty).create wireSerde P (.plain ⟨"s"⟩ 1) .never
        = (.ok start, store') ∧
      ∃ live, start.append wireSerde P turnStart .never = (.ok (), live)
        ∧ ¬ RestoresCold wireSerde live.disk ⟨"s"⟩ live.state.events
        ∧ ((Store.restarted live.disk).restore wireSerde P ⟨"s"⟩ .cold .never).1.toOption.isNone
            = true := by
  intro P turnStart
  refine ⟨_, _, rfl, _, rfl, ?_, rfl⟩
  rintro ⟨_, hclosers, _⟩
  cases hclosers

end Tessivum.Session
