/-
Tessivum.Session.OpenTurnTheorems — what the recovery scan finds, in the log's
own terms.

Whether a turn or a step is open, and which calls wait for an answer, are
properties of the log: the last lifecycle event of a kind, and the calls made
since the last event that clears them which no later result answers.
-/
import Tessivum.Session.Recovery
import Tessivum.Session.SurfaceTheorems

namespace Tessivum.Session

open Library Protocol List

variable {S : Serde} {header : SessionHeader}

/-! ## The log's open turn, in its own terms -/

def lastOf (p : SessionEvent → Bool) (log : List SessionEvent) : Option SessionEvent :=
  log.reverse.find? p

def isTurnMark (e : SessionEvent) : Bool :=
  e.eventType == "turn/start" || e.eventType == "turn/end"

def isStepMark (e : SessionEvent) : Bool :=
  isTurnMark e || e.eventType == "step/start" || e.eventType == "step/end"

/-- The events after which no earlier call is waiting any more. -/
def endsCalls (e : SessionEvent) : Bool := isTurnMark e || e.eventType == "step/end"

def turnOpen (log : List SessionEvent) : Bool :=
  (lastOf isTurnMark log).any fun e => e.eventType == "turn/start"

/-- The last step of the log was started, with a number, and not
ended. -/
def stepOpen (log : List SessionEvent) : Bool :=
  (lastOf isStepMark log).any fun e => e.eventType == "step/start" && (dataU64 e "step").isSome

def openEvents (log : List SessionEvent) : List SessionEvent :=
  log.rtakeWhile fun e => !endsCalls e

def messageOf (S : Serde) (eventType : String) (e : SessionEvent) : Option Message :=
  if e.eventType = eventType then
    match decodeSurfaceEvent S e with
    | .ok (some m) => some m.message
    | _ => none
  else none

def calledIds (S : Serde) (e : SessionEvent) : List ToolCallId :=
  ((messageOf S "assistant/message" e).map toolCalls).getD []

def answeredIds (S : Serde) (e : SessionEvent) : List ToolCallId :=
  match (messageOf S "tool/result" e).map Message.source with
  | some (.tool callId) => [callId]
  | _ => []

/-- The calls of a stretch of events that no later event of it
answers. -/
def unanswered (S : Serde) : List SessionEvent → List ToolCallId
  | [] => []
  | e :: rest =>
    ((calledIds S e).filter fun id => id ∉ rest.flatMap (answeredIds S)) ++ unanswered S rest

/-! ### One event more -/

theorem lastOf_snoc (p : SessionEvent → Bool) (log : List SessionEvent) (e : SessionEvent) :
    lastOf p (log ++ [e]) = if p e then some e else lastOf p log := by
  unfold lastOf
  rw [reverse_append, reverse_singleton, singleton_append, find?_cons]
  cases p e <;> rfl

theorem openEvents_snoc (log : List SessionEvent) (e : SessionEvent) :
    openEvents (log ++ [e]) = if endsCalls e then [] else openEvents log ++ [e] := by
  unfold openEvents
  rw [rtakeWhile_concat]
  cases endsCalls e <;> rfl

theorem unanswered_snoc (S : Serde) : ∀ (events : List SessionEvent) (e : SessionEvent),
    unanswered S (events ++ [e])
      = ((unanswered S events).filter fun id => id ∉ answeredIds S e) ++ calledIds S e
  | [], e => by simp [unanswered]
  | x :: rest, e => by
    have ih := unanswered_snoc S rest e
    rw [cons_append, unanswered, ih, unanswered, filter_append, filter_filter,
      ← append_assoc]
    congr 2
    refine filter_congr fun id _ => ?_
    simp only [flatMap_append, flatMap_singleton, mem_append, not_or,
      Bool.decide_and]
    exact Bool.and_comm _ _

variable {id : ToolCallId} {e : SessionEvent} {m : SurfaceMessage} {eventType : String}
  {call : PendingCall} {log : List SessionEvent}

theorem mem_unanswered : ∀ {events : List SessionEvent},
    id ∈ unanswered S events → ∃ e ∈ events, id ∈ calledIds S e
  | [], h => by cases h
  | x :: rest, h => by
    rw [unanswered] at h
    rcases mem_append.mp h with hx | hrest
    · exact ⟨x, mem_cons_self, (mem_filter.mp hx).1⟩
    · obtain ⟨e, he, hid⟩ := mem_unanswered hrest
      exact ⟨e, mem_cons_of_mem x he, hid⟩

theorem mem_unanswered_of_called : ∀ {events : List SessionEvent},
    (∀ e ∈ events, id ∉ answeredIds S e) → ∀ e ∈ events, id ∈ calledIds S e →
      id ∈ unanswered S events
  | [], _, _, he, _ => by cases he
  | x :: rest, hno, e, he, hid => by
    rw [unanswered, mem_append]
    have hrest : ∀ e ∈ rest, id ∉ answeredIds S e := fun y hy => hno y (mem_cons_of_mem x hy)
    rcases mem_cons.mp he with rfl | he
    · left
      refine mem_filter.mpr ⟨hid, ?_⟩
      have hnot : id ∉ rest.flatMap (answeredIds S) := by
        intro hmem
        obtain ⟨y, hy, hidy⟩ := mem_flatMap.mp hmem
        exact hrest y hy hidy
      exact decide_eq_true hnot
    · exact .inr (mem_unanswered_of_called hrest e he hid)

/-! ### Decoded messages -/

theorem validate_of_decodeSurfaceEvent (h : decodeSurfaceEvent S e = .ok (some m)) :
    m.message.validate = .ok () := by
  unfold decodeSurfaceEvent at h
  cases hrole : expectedRole e.eventType with
  | none => rw [hrole] at h; cases h
  | some role =>
    rw [hrole] at h
    simp only [bind_eq_ok, exists_unit] at h
    obtain ⟨_, _, _, hdecode, _, h⟩ := h
    cases h
    unfold decodeMessage at hdecode
    split at hdecode
    · cases hdecode
    · split at hdecode
      · rename_i hvalid
        cases hdecode
        exact hvalid
      · cases hdecode

theorem messageOf_eq (htype : e.eventType = eventType) (h : decodeSurfaceEvent S e = .ok (some m)) :
    messageOf S eventType e = some m.message := by
  rw [messageOf, if_pos htype, h]

theorem messageOf_of_ne (htype : e.eventType ≠ eventType) :
    messageOf S eventType e = none := if_neg htype

theorem calledIds_of_ne (h : e.eventType ≠ "assistant/message") : calledIds S e = [] := by
  rw [calledIds, messageOf_of_ne h]
  rfl

theorem answeredIds_of_ne (h : e.eventType ≠ "tool/result") : answeredIds S e = [] := by
  rw [answeredIds, messageOf_of_ne h]
  rfl

theorem isBlank_of_answered (h : id ∈ answeredIds S e) : isBlank id.asStr = false := by
  unfold answeredIds messageOf at h
  by_cases htype : e.eventType = "tool/result"
  · rw [if_pos htype] at h
    cases hdecode : decodeSurfaceEvent S e with
    | error err => rw [hdecode] at h; cases h
    | ok projection =>
      rw [hdecode] at h
      cases projection with
      | none => cases h
      | some m =>
        have hvalid := validate_of_decodeSurfaceEvent hdecode
        have hsource := (check_bind_eq_ok.mp hvalid).1
        cases hs : m.message.source with
        | tool callId =>
          simp only [map_some, hs, mem_singleton] at h
          rw [hs] at hsource
          rw [h]
          exact validateNonempty_eq_ok.mp hsource
        | _ => simp [hs] at h
  · rw [if_neg htype] at h
    cases h

/-! ## The scan, in the log's terms -/

/-- What a scan of the log has found. -/
structure Scanned (S : Serde) (log : List SessionEvent) (scan : TurnScan) : Prop where
  turn : scan.openTurn.isSome = turnOpen log
  step : scan.openStep.isSome = stepOpen log
  pending : scan.pending.map PendingCall.callId = unanswered S (openEvents log)
  called : ∀ call ∈ scan.pending, ∀ seq, call.callSeq = some seq → ∃ e ∈ log, e.seq = seq

theorem markCalled_callIds (callId : Option String) (seq : Nat) : ∀ pending : List PendingCall,
    (markCalled callId seq pending).map PendingCall.callId = pending.map PendingCall.callId
  | [] => rfl
  | call :: rest => by
    rw [markCalled]
    split
    · rfl
    · rw [map_cons, map_cons, markCalled_callIds callId seq rest]

theorem mem_markCalled {callId : Option String} {seq : Nat} :
    ∀ {pending : List PendingCall}, call ∈ markCalled callId seq pending →
      call.callSeq = some seq ∨ call ∈ pending
  | [], h => by cases h
  | first :: rest, h => by
    rw [markCalled] at h
    split at h
    · rcases mem_cons.mp h with rfl | h
      · exact .inl rfl
      · exact .inr (mem_cons_of_mem first h)
    · rcases mem_cons.mp h with rfl | h
      · exact .inr mem_cons_self
      · rcases mem_markCalled h with hseq | hmem
        · exact .inl hseq
        · exact .inr (mem_cons_of_mem first hmem)

theorem dropAnswered_subset {source : MessageSource} {pending : List PendingCall}
    (h : call ∈ dropAnswered source pending) : call ∈ pending := by
  unfold dropAnswered at h
  split at h
  · exact (mem_filter.mp h).1
  · exact h

theorem Scanned.other {scan : TurnScan} (h : Scanned S log scan) (hmark : isStepMark e = false)
    (hcalled : calledIds S e = []) (hanswered : answeredIds S e = []) :
    Scanned S (log ++ [e]) scan := by
  have hturn : isTurnMark e = false := by
    unfold isStepMark at hmark
    simp only [or_eq_false_iff] at hmark
    exact hmark.1.1
  have hends : endsCalls e = false := by
    unfold isStepMark at hmark
    simp only [or_eq_false_iff] at hmark
    simp [endsCalls, hmark]
  refine ⟨?_, ?_, ?_, ?_⟩
  · rw [h.turn, turnOpen, turnOpen, lastOf_snoc, hturn]
    rfl
  · rw [h.step, stepOpen, stepOpen, lastOf_snoc, hmark]
    rfl
  · rw [h.pending, openEvents_snoc, hends, if_neg Bool.false_ne_true, unanswered_snoc, hcalled,
      hanswered]
    simp
  · intro call hcall seq hseq
    obtain ⟨x, hx, hxseq⟩ := h.called call hcall seq hseq
    exact ⟨x, mem_append_left _ hx, hxseq⟩

def ReadsFields (e : SessionEvent) : Prop :=
  (e.eventType = "turn/start" → (dataU64 e "turn").isSome = true)
    ∧ (e.eventType = "assistant/message" → (dataU64 e "step").isSome = true)

theorem surfaceMessageOf_eq (h : decodeSurfaceEvent S e = .ok (some m)) :
    surfaceMessageOf S e = .ok m := by
  rw [surfaceMessageOf, h]
  rfl

/-- One event more of the scan. -/
theorem scanEvent_scanned {scan : TurnScan} (h : Scanned S log scan) (hreads : ReadsFields e)
    (hdecode : ∃ projection, decodeSurfaceEvent S e = .ok projection) :
    ∃ scan', scanEvent S scan e = .ok scan' ∧ Scanned S (log ++ [e]) scan' := by
  obtain ⟨projection, hdecode⟩ := hdecode
  -- one case for each arm of the source's match
  unfold scanEvent
  by_cases hstart : e.eventType = "turn/start"
  · obtain ⟨_, hturn⟩ := isSome_iff_exists.mp (hreads.1 hstart)
    rw [if_pos hstart, turnId, hturn]
    refine ⟨_, rfl, ?_, ?_, ?_, by simp⟩
    · simp [turnOpen, lastOf_snoc, isTurnMark, hstart]
    · simp [stepOpen, lastOf_snoc, isStepMark, isTurnMark, hstart]
    · simp [openEvents_snoc, endsCalls, isTurnMark, hstart, unanswered]
  rw [if_neg hstart]
  by_cases hend : e.eventType = "turn/end"
  · rw [if_pos hend]
    refine ⟨_, rfl, ?_, ?_, ?_, by simp [TurnScan.idle]⟩
    · simp [turnOpen, lastOf_snoc, isTurnMark, hend, TurnScan.idle]
    · simp [stepOpen, lastOf_snoc, isStepMark, isTurnMark, hend, TurnScan.idle]
    · simp [openEvents_snoc, endsCalls, isTurnMark, hend, unanswered, TurnScan.idle]
  rw [if_neg hend]
  have hmark : isTurnMark e = false := by simp [isTurnMark, hstart, hend]
  have hturn' : turnOpen (log ++ [e]) = turnOpen log := by
    rw [turnOpen, turnOpen, lastOf_snoc, hmark]
    rfl
  have hgrown : ∀ {seq : Nat}, (∃ x ∈ log, x.seq = seq) → ∃ x ∈ log ++ [e], x.seq = seq := by
    rintro _ ⟨x, hx, hseq⟩
    exact ⟨x, mem_append_left _ hx, hseq⟩
  by_cases hstep : e.eventType = "step/start"
  · rw [if_pos hstep]
    refine ⟨_, rfl, ?_, ?_, ?_, fun call hc seq hs => hgrown (h.called call hc seq hs)⟩
    · rw [hturn']
      exact h.turn
    · simp [stepOpen, lastOf_snoc, isStepMark, hmark, hstep]
    · have hcalled := calledIds_of_ne (S := S) (e := e) (by rw [hstep]; decide)
      have hanswered := answeredIds_of_ne (S := S) (e := e) (by rw [hstep]; decide)
      have hends : endsCalls e = false := by simp [endsCalls, hmark, hstep]
      rw [openEvents_snoc, hends, if_neg Bool.false_ne_true, unanswered_snoc, hcalled, hanswered]
      simpa using h.pending
  rw [if_neg hstep]
  by_cases hstepEnd : e.eventType = "step/end"
  · rw [if_pos hstepEnd]
    refine ⟨_, rfl, ?_, ?_, ?_, by simp⟩
    · rw [hturn']
      exact h.turn
    · simp [stepOpen, lastOf_snoc, isStepMark, hmark, hstepEnd]
    · simp [openEvents_snoc, endsCalls, hmark, hstepEnd, unanswered]
  rw [if_neg hstepEnd]
  have hstepMark : isStepMark e = false := by simp [isStepMark, hmark, hstep, hstepEnd]
  have hends : endsCalls e = false := by simp [endsCalls, hmark, hstepEnd]
  have hstep' : stepOpen (log ++ [e]) = stepOpen log := by
    rw [stepOpen, stepOpen, lastOf_snoc, hstepMark]
    rfl
  have hopen : unanswered S (openEvents (log ++ [e]))
      = ((unanswered S (openEvents log)).filter fun id => id ∉ answeredIds S e)
        ++ calledIds S e := by
    rw [openEvents_snoc, hends, if_neg Bool.false_ne_true, unanswered_snoc]
  by_cases hmessage : e.eventType = "assistant/message"
  · obtain ⟨step, hnumber⟩ := isSome_iff_exists.mp (hreads.2 hmessage)
    obtain ⟨m, rfl⟩ := decodeSurfaceEvent_isSome hdecode (by rw [hmessage]; decide)
    rw [if_pos hmessage, messageStep, hnumber, surfaceMessageOf_eq hdecode]
    have hanswered := answeredIds_of_ne (S := S) (e := e) (by rw [hmessage]; decide)
    have hcalled : calledIds S e = toolCalls m.message := by
      rw [calledIds, messageOf_eq hmessage hdecode]
      rfl
    refine ⟨_, rfl, hturn' ▸ h.turn, hstep' ▸ h.step, ?_, ?_⟩
    · rw [hopen, hanswered, hcalled, ← h.pending]
      simp [Function.comp_def]
    · intro call hcall seq hseq
      rcases mem_append.mp hcall with hold | hnew
      · exact hgrown (h.called call hold seq hseq)
      · obtain ⟨_, _, rfl⟩ := mem_map.mp hnew
        cases hseq
  rw [if_neg hmessage]
  have hcalled : calledIds S e = [] := calledIds_of_ne hmessage
  by_cases hcall : e.eventType = "tool/call"
  · rw [if_pos hcall]
    have hanswered := answeredIds_of_ne (S := S) (e := e) (by rw [hcall]; decide)
    refine ⟨_, rfl, hturn' ▸ h.turn, hstep' ▸ h.step, ?_, ?_⟩
    · rw [hopen, hanswered, hcalled, markCalled_callIds, h.pending]
      simp
    · intro call hmem seq hseq
      rcases mem_markCalled hmem with hnow | hold
      · exact ⟨e, by simp, some.inj (hnow.symm.trans hseq)⟩
      · exact hgrown (h.called call hold seq hseq)
  rw [if_neg hcall]
  by_cases hresult : e.eventType = "tool/result"
  · obtain ⟨m, rfl⟩ := decodeSurfaceEvent_isSome hdecode (by rw [hresult]; decide)
    rw [if_pos hresult, surfaceMessageOf_eq hdecode]
    refine ⟨_, rfl, hturn' ▸ h.turn, hstep' ▸ h.step, ?_, ?_⟩
    · rw [hopen, hcalled, ← h.pending, append_nil]
      have hmessage' := messageOf_eq hresult hdecode
      cases hsource : m.message.source with
      | tool callId =>
        simp only [answeredIds, hmessage', map_some, hsource, dropAnswered,
          mem_singleton, filter_map]
        rfl
      | _ => simp [answeredIds, hmessage', hsource, dropAnswered]
    · intro call hmem seq hseq
      exact hgrown (h.called call (dropAnswered_subset hmem) seq hseq)
  rw [if_neg hresult]
  exact ⟨scan, rfl, h.other hstepMark hcalled (answeredIds_of_ne hresult)⟩

theorem readsFields_of_scanEvent {scan scan' : TurnScan} (h : scanEvent S scan e = .ok scan') :
    ReadsFields e := by
  constructor
  · intro htype
    rw [scanEvent, if_pos htype] at h
    obtain ⟨turn, hturn, _⟩ := bind_eq_ok.mp h
    unfold turnId at hturn
    cases hdata : dataU64 e "turn" with
    | none => rw [hdata] at hturn; cases hturn
    | some n => rfl
  · intro htype
    simp only [scanEvent, htype, String.reduceEq, if_false, if_true] at h
    obtain ⟨step, hstep, _⟩ := bind_eq_ok.mp h
    unfold messageStep at hstep
    cases hdata : dataU64 e "step" with
    | none => rw [hdata] at hstep; cases hstep
    | some n => rfl

/-- The scan of an accepted log succeeds exactly when it can read the
two fields everywhere, and then finds the log's open turn. -/
theorem Accepted.scan : ∀ {state : SessionState},
    Accepted S header log state → (∀ e ∈ log, ReadsFields e) →
      ∃ scan, log.foldlM (scanEvent S) .idle = .ok scan ∧ Scanned S log scan := by
  induction log using reverseRecOn with
  | nil => intro _ _ _; exact ⟨.idle, rfl, rfl, rfl, rfl, by simp [TurnScan.idle]⟩
  | append_singleton log e ih =>
    intro state h hreads
    obtain ⟨_, hmid, _⟩ := accepted_snoc.mp h
    obtain ⟨_, hscan, hfound⟩ := ih hmid fun x hx => hreads x (mem_append_left _ hx)
    obtain ⟨_, hdecode⟩ := h.event e (by simp)
    obtain ⟨scan', hstep, hfound'⟩ := scanEvent_scanned hfound (hreads e (by simp)) hdecode
    refine ⟨scan', ?_, hfound'⟩
    rw [foldlM_append_one, hscan]
    exact hstep

theorem readsFields_of_scan : ∀ {log : List SessionEvent} {start scan : TurnScan},
    log.foldlM (scanEvent S) start = .ok scan → ∀ e ∈ log, ReadsFields e
  | [], _, _, _, _, he => by cases he
  | x :: rest, start, scan, h, e, he => by
    rw [foldlM_cons] at h
    obtain ⟨_, hmid, h⟩ := bind_eq_ok.mp h
    rcases mem_cons.mp he with rfl | he
    · exact readsFields_of_scanEvent hmid
    · exact readsFields_of_scan h e he

end Tessivum.Session
