/-
Tessivum.Session.RepairTheorems — what a cold repair appends, and what it
appends after a crash in the middle of itself.

The calls that wait for an answer are read off the log (`openCalls`): the calls
made since calls were last cleared, in order, less those a later result
answers, each with the last `tool/call` event that names it. The scan finds the
same list wherever no id waits twice (`scan_agrees`).
-/
import Tessivum.Session.RecoveryTheorems

namespace Tessivum.Session

open Library Protocol List PendingCall

variable {S : Serde} {header : SessionHeader}

/-! ## The calls that wait, in the log's terms -/

def recordsCall (id : ToolCallId) (e : SessionEvent) : Bool :=
  e.eventType == "tool/call" && (e.data.get "callId").bind Value.asStr == some id.asStr

def recordedSeq (id : ToolCallId) (events : List SessionEvent) : Option Nat :=
  (lastOf (recordsCall id) events).map SessionEvent.seq

/-- The calls of a stretch of events that no later event of it answers, with
the step of their message and the event that recorded them. -/
def openCalls (S : Serde) : List SessionEvent → List PendingCall
  | [] => []
  | e :: rest =>
    (((calledIds S e).filter fun id => id ∉ rest.flatMap (answeredIds S)).map fun id =>
      { callId := id, step := (dataU64 e "step").getD 0, callSeq := recordedSeq id rest })
      ++ openCalls S rest

def markedBy (e : SessionEvent) (call : PendingCall) : PendingCall :=
  if recordsCall call.callId e then { call with callSeq := some e.seq } else call

def newCalls (S : Serde) (e : SessionEvent) : List PendingCall :=
  (calledIds S e).map fun id => { callId := id, step := (dataU64 e "step").getD 0, callSeq := none }

theorem recordedSeq_snoc (id : ToolCallId) (events : List SessionEvent) (e : SessionEvent) :
    recordedSeq id (events ++ [e])
      = if recordsCall id e then some e.seq else recordedSeq id events := by
  unfold recordedSeq
  rw [lastOf_snoc]
  split <;> rfl

theorem openCalls_snoc (S : Serde) : ∀ (events : List SessionEvent) (e : SessionEvent),
    openCalls S (events ++ [e])
      = ((openCalls S events).filter fun call => call.callId ∉ answeredIds S e).map (markedBy e)
        ++ newCalls S e
  | [], e => by simp [openCalls, newCalls, recordedSeq, lastOf]
  | x :: rest, e => by
    rw [cons_append, openCalls, openCalls_snoc S rest e, openCalls, filter_append,
      map_append, ← append_assoc]
    congr 2
    rw [filter_map, map_map, filter_filter]
    have hkept : (calledIds S x).filter (fun id => id ∉ (rest ++ [e]).flatMap (answeredIds S))
        = (calledIds S x).filter fun id =>
          decide (id ∉ answeredIds S e) && decide (id ∉ rest.flatMap (answeredIds S)) := by
      refine filter_congr fun id _ => ?_
      simp only [flatMap_append, flatMap_singleton, mem_append, not_or,
        Bool.decide_and]
      exact Bool.and_comm _ _
    rw [hkept]
    refine map_congr_left fun id _ => ?_
    simp only [Function.comp_apply, markedBy, recordedSeq_snoc]
    split <;> rfl

/-! ## The scan finds them -/

/-- Two lists of calls with the same ids, and the same call under each id that
waits once. -/
structure Agrees (pending calls : List PendingCall) : Prop where
  ids : pending.map PendingCall.callId = calls.map PendingCall.callId
  same : ∀ p ∈ pending, ∀ q ∈ calls, p.callId = q.callId →
    (pending.map PendingCall.callId).count p.callId = 1 → p = q

theorem Agrees.nil : Agrees [] [] := ⟨rfl, nofun⟩

variable {calls pending : List PendingCall} {e : SessionEvent} {log : List SessionEvent}
  {scan : TurnScan} {call : PendingCall} {seq time turn : Nat}

theorem Agrees.eq (h : Agrees pending calls) (hnodup : (pending.map callId).Nodup) :
    pending = calls := by
  have hlength : pending.length = calls.length := by
    simpa using congrArg List.length h.ids
  refine ext_getElem hlength fun i hp hq => ?_
  have hid : pending[i].callId = calls[i].callId := by
    have hget : (pending.map callId)[i]? = (calls.map callId)[i]? := by
      rw [h.ids]
    simpa [hp, hq] using hget
  exact h.same _ (getElem_mem hp) _ (getElem_mem hq) hid
    (count_eq_one_of_mem hnodup (mem_map_of_mem (getElem_mem hp)))

theorem count_ids_pos {p : PendingCall} (h : p ∈ pending) :
    0 < (pending.map callId).count p.callId :=
  count_pos_iff.mpr (mem_map_of_mem h)

theorem Agrees.append {new : List PendingCall} (h : Agrees pending calls)
    (hnew : ∀ p ∈ new, ∀ q ∈ new, p.callId = q.callId → p = q) :
    Agrees (pending ++ new) (calls ++ new) := by
  refine ⟨by rw [map_append, map_append, h.ids], ?_⟩
  intro p hp q hq hid hcount
  rw [map_append, count_append] at hcount
  rcases mem_append.mp hp with hp | hp
  · have hpos := count_ids_pos hp
    rcases mem_append.mp hq with hq | hq
    · exact h.same p hp q hq hid (by omega)
    · have hpos' := count_ids_pos hq
      rw [← hid] at hpos'
      omega
  · have hpos := count_ids_pos hp
    rcases mem_append.mp hq with hq | hq
    · have hpos' := count_ids_pos hq
      rw [← h.ids, ← hid] at hpos'
      omega
    · exact hnew p hp q hq hid

theorem callId_ext {a b : ToolCallId} (h : a.asStr = b.asStr) : a = b := by
  obtain ⟨a⟩ := a
  obtain ⟨b⟩ := b
  obtain rfl : a = b := h
  rfl

/-- An event marks the one pending call it names. -/
theorem mem_markCalled_once (htype : e.eventType = "tool/call") :
    ∀ {pending : List PendingCall} {p : PendingCall},
      p ∈ markCalled ((e.data.get "callId").bind Value.asStr) e.seq pending →
        (pending.map callId).count p.callId = 1 → ∃ old ∈ pending, p = markedBy e old
  | [], p, h, _ => by cases h
  | first :: rest, p, h, hcount => by
    have hrecords : ∀ call : PendingCall, recordsCall call.callId e = true
        ↔ some call.callId.asStr = (e.data.get "callId").bind Value.asStr := by
      intro call
      rw [recordsCall, htype]
      simp only [BEq.rfl, Bool.true_and, beq_iff_eq]
      exact eq_comm
    rw [markCalled] at h
    rw [map_cons, count_cons] at hcount
    split at h
    · rename_i hfirst
      rcases mem_cons.mp h with rfl | h
      · refine ⟨first, mem_cons_self, ?_⟩
        rw [markedBy, if_pos ((hrecords first).mpr hfirst)]
      · refine ⟨p, mem_cons_of_mem first h, ?_⟩
        have hpos := count_ids_pos h
        have hne : first.callId ≠ p.callId := by
          intro heq
          rw [if_pos (by simpa using heq)] at hcount
          omega
        rw [markedBy, if_neg]
        rw [hrecords, ← hfirst]
        intro heq
        exact hne (callId_ext (some.inj heq).symm)
    · rename_i hfirst
      rcases mem_cons.mp h with rfl | h
      · refine ⟨p, mem_cons_self, ?_⟩
        rw [markedBy, if_neg]
        rwa [hrecords]
      · have hmem : p.callId ∈ rest.map callId := by
          rw [← markCalled_callIds ((e.data.get "callId").bind Value.asStr) e.seq rest]
          exact mem_map_of_mem h
        have hpos := count_pos_iff.mpr hmem
        obtain ⟨old, hold, heq⟩ := mem_markCalled_once htype h (by omega)
        exact ⟨old, mem_cons_of_mem first hold, heq⟩

theorem markedBy_callId (e : SessionEvent) (call : PendingCall) :
    (markedBy e call).callId = call.callId := by
  unfold markedBy
  split <;> rfl

theorem Agrees.marked (h : Agrees pending calls) (htype : e.eventType = "tool/call") :
    Agrees (markCalled ((e.data.get "callId").bind Value.asStr) e.seq pending)
      (calls.map (markedBy e)) := by
  constructor
  · rw [markCalled_callIds, h.ids, map_map]
    exact map_congr_left fun call _ => (markedBy_callId e call).symm
  · intro p hp q hq hid hcount
    rw [markCalled_callIds] at hcount
    obtain ⟨old, hold, rfl⟩ := mem_markCalled_once htype hp hcount
    obtain ⟨call, hcall, rfl⟩ := mem_map.mp hq
    rw [markedBy_callId] at hid hcount
    rw [markedBy_callId] at hid
    rw [h.same old hold call hcall hid hcount]

theorem Agrees.filter (h : Agrees pending calls) (keep : ToolCallId → Bool) :
    Agrees (pending.filter fun call => keep call.callId)
      (calls.filter fun call => keep call.callId) := by
  have hmap : ∀ xs : List PendingCall, (xs.filter fun call => keep call.callId).map
      callId = (xs.map callId).filter keep := by
    intro xs
    rw [filter_map]
    rfl
  constructor
  · rw [hmap, hmap, h.ids]
  · intro p hp q hq hid hcount
    obtain ⟨hp, hkeep⟩ := mem_filter.mp hp
    rw [hmap, count_filter hkeep] at hcount
    exact h.same p hp q (mem_filter.mp hq).1 hid hcount

theorem openCalls_clear (h : endsCalls e = true) : openCalls S (openEvents (log ++ [e])) = [] := by
  rw [openEvents_snoc, h, if_pos rfl]
  rfl

theorem openCalls_more (h : endsCalls e = false) :
    openCalls S (openEvents (log ++ [e]))
      = ((openCalls S (openEvents log)).filter fun call => call.callId ∉ answeredIds S e).map
          (markedBy e) ++ newCalls S e := by
  rw [openEvents_snoc, h, if_neg Bool.false_ne_true, openCalls_snoc]

theorem newCalls_of_ne (h : e.eventType ≠ "assistant/message") : newCalls S e = [] := by
  rw [newCalls, calledIds_of_ne h]
  rfl

theorem map_markedBy_of_ne (h : e.eventType ≠ "tool/call") (calls : List PendingCall) :
    calls.map (markedBy e) = calls := by
  have hmark : markedBy e = id := by
    funext call
    simp [markedBy, recordsCall, h]
  rw [hmark, map_id]

theorem filter_answered_of_ne (h : e.eventType ≠ "tool/result") (calls : List PendingCall) :
    (calls.filter fun call => call.callId ∉ answeredIds S e) = calls := by
  rw [answeredIds_of_ne h]
  simp

theorem surfaceMessageOf_eq_ok {m : SurfaceMessage} (h : surfaceMessageOf S e = .ok m) :
    decodeSurfaceEvent S e = .ok (some m) := by
  unfold surfaceMessageOf at h
  obtain ⟨projection, hdecode, h⟩ := bind_eq_ok.mp h
  cases projection with
  | none => cases h
  | some found =>
    cases h
    exact hdecode

/-- One event more: the pending calls stay those of the open events. -/
theorem scanEvent_agrees {scan' : TurnScan} (h : Agrees scan.pending (openCalls S (openEvents log)))
    (hscan : scanEvent S scan e = .ok scan') :
    Agrees scan'.pending (openCalls S (openEvents (log ++ [e]))) := by
  unfold scanEvent at hscan
  by_cases hstart : e.eventType = "turn/start"
  · rw [if_pos hstart] at hscan
    obtain ⟨_, _, hscan⟩ := bind_eq_ok.mp hscan
    cases hscan
    rw [openCalls_clear (by simp [endsCalls, isTurnMark, hstart])]
    exact .nil
  rw [if_neg hstart] at hscan
  by_cases hend : e.eventType = "turn/end"
  · rw [if_pos hend] at hscan
    cases hscan
    rw [openCalls_clear (by simp [endsCalls, isTurnMark, hend])]
    exact .nil
  rw [if_neg hend] at hscan
  by_cases hstepEnd : e.eventType = "step/end"
  · rw [if_neg (by rw [hstepEnd]; decide), if_pos hstepEnd] at hscan
    cases hscan
    rw [openCalls_clear (by simp [endsCalls, hstepEnd])]
    exact .nil
  rw [openCalls_more (by simp [endsCalls, isTurnMark, hstart, hend, hstepEnd])]
  by_cases hstep : e.eventType = "step/start"
  · rw [if_pos hstep] at hscan
    cases hscan
    rw [filter_answered_of_ne (by rw [hstep]; decide), map_markedBy_of_ne (by rw [hstep]; decide),
      newCalls_of_ne (by rw [hstep]; decide), append_nil]
    exact h
  rw [if_neg hstep, if_neg hstepEnd] at hscan
  by_cases hmessage : e.eventType = "assistant/message"
  · rw [if_pos hmessage] at hscan
    obtain ⟨step, hnumber, hscan⟩ := bind_eq_ok.mp hscan
    obtain ⟨m, hdecode, hscan⟩ := bind_eq_ok.mp hscan
    cases hscan
    rw [filter_answered_of_ne (by rw [hmessage]; decide),
      map_markedBy_of_ne (by rw [hmessage]; decide)]
    have hnew : newCalls S e = (toolCalls m.message).map fun callId =>
      { callId, step, callSeq := none } := by
      have hstep' : dataU64 e "step" = some step := by
        unfold messageStep at hnumber
        split at hnumber
        · rename_i hfound
          cases hnumber
          exact hfound
        · cases hnumber
      rw [newCalls, calledIds, messageOf_eq hmessage (surfaceMessageOf_eq_ok hdecode), hstep']
      rfl
    rw [hnew]
    refine h.append ?_
    rintro p hp q hq hid
    obtain ⟨a, _, rfl⟩ := mem_map.mp hp
    obtain ⟨b, _, rfl⟩ := mem_map.mp hq
    obtain rfl : a = b := hid
    rfl
  rw [if_neg hmessage] at hscan
  rw [newCalls_of_ne hmessage, append_nil]
  by_cases hcall : e.eventType = "tool/call"
  · rw [if_pos hcall] at hscan
    cases hscan
    rw [filter_answered_of_ne (by rw [hcall]; decide)]
    exact h.marked hcall
  rw [if_neg hcall] at hscan
  rw [map_markedBy_of_ne hcall]
  by_cases hresult : e.eventType = "tool/result"
  · rw [if_pos hresult] at hscan
    obtain ⟨m, hdecode, hscan⟩ := bind_eq_ok.mp hscan
    cases hscan
    have hmessage' := messageOf_eq hresult (surfaceMessageOf_eq_ok hdecode)
    have hdrop : dropAnswered m.message.source scan.pending
        = scan.pending.filter fun call => call.callId ∉ answeredIds S e := by
      cases hsource : m.message.source <;>
        simp [dropAnswered, answeredIds, hmessage', hsource]
    rw [hdrop]
    exact h.filter fun id => id ∉ answeredIds S e
  · rw [if_neg hresult] at hscan
    cases hscan
    rw [filter_answered_of_ne hresult]
    exact h

/-- The pending calls of a whole scan. -/
theorem scan_agrees : ∀ {scan : TurnScan},
    log.foldlM (scanEvent S) .idle = .ok scan →
      Agrees scan.pending (openCalls S (openEvents log)) := by
  induction log using reverseRecOn with
  | nil =>
    intro scan h
    cases h
    exact .nil
  | append_singleton log e ih =>
    intro scan h
    rw [foldlM_append_one] at h
    obtain ⟨_, hmid, h⟩ := bind_eq_ok.mp h
    exact scanEvent_agrees (ih hmid) h

/-! ## Going on after a crash -/

theorem decodeSurfaceEvent_toolCloser_eq (hS : S.RoundTrips) {projection : Option SurfaceMessage}
    (h : decodeSurfaceEvent S (toolCloser S turn time call seq) = .ok projection) :
    ∃ m, projection = some m ∧ m.message = closingMessage call seq := by
  have hdata : surfaceData (toolCloser S turn time call seq)
      = .ok (S.messageToValue (closingMessage call seq)) := rfl
  have hrole : expectedRole (toolCloser S turn time call seq).eventType = some .user := rfl
  unfold decodeSurfaceEvent at h
  rw [hrole] at h
  simp only [hdata, ok_bind, decodeMessage, hS _ (closingMessage_faithful call seq)] at h
  cases hvalid : (closingMessage call seq).validate with
  | error err => rw [hvalid] at h; cases h
  | ok u =>
    rw [hvalid] at h
    cases h
    exact ⟨_, rfl, rfl⟩

theorem scanEvent_toolCloser (hS : S.RoundTrips) {rest : List PendingCall}
    (hpending : scan.pending = call :: rest) (hnodup : (scan.pending.map callId).Nodup)
    (hadmitted : ∃ projection,
      decodeSurfaceEvent S (toolCloser S turn time call seq) = .ok projection) :
    scanEvent S scan (toolCloser S turn time call seq) = .ok { scan with pending := rest } := by
  obtain ⟨_, hdecode⟩ := hadmitted
  obtain ⟨m, rfl, hm⟩ := decodeSurfaceEvent_toolCloser_eq hS hdecode
  have hkeep : dropAnswered (.tool call.callId) scan.pending = rest := by
    rw [hpending, map_cons, nodup_cons] at hnodup
    rw [hpending, dropAnswered, filter_cons_of_neg (by simp)]
    refine filter_eq_self.mpr fun other hother => ?_
    have hne : other.callId ≠ call.callId := fun heq =>
      hnodup.1 (heq ▸ mem_map_of_mem hother)
    simpa using hne
  have htype : (toolCloser S turn time call seq).eventType = "tool/result" := rfl
  simp only [scanEvent, htype, String.reduceEq, if_false, if_true, surfaceMessageOf_eq hdecode,
    ok_bind, hm]
  have hsource : (closingMessage call seq).source = .tool call.callId := rfl
  rw [hsource, hkeep]

/-- Scanning the first closing event leaves the others to be written. -/
theorem closersOf_resume (hS : S.RoundTrips) {last : Option SessionEvent} {c : SessionEvent}
    {rest : List SessionEvent} (hnodup : (scan.pending.map callId).Nodup)
    (h : closersOf S scan last = .ok (c :: rest))
    (hadmitted : ∃ projection, decodeSurfaceEvent S c = .ok projection) :
    ∃ scan', scanEvent S scan c = .ok scan' ∧ (scan'.pending.map callId).Nodup
      ∧ closersOf S scan' (some c) = .ok rest := by
  obtain ⟨openTurn, openStep, pending⟩ := scan
  unfold closersOf at h
  cases openTurn with
  | none => cases h
  | some turn =>
    cases last with
    | none => cases h
    | some last =>
      obtain ⟨seq, _, hrest⟩ := bind_eq_ok.mp h
      obtain ⟨⟨_, _⟩, hcalls, hrest⟩ := bind_eq_ok.mp hrest
      obtain ⟨_, hends, hall⟩ := bind_eq_ok.mp hrest
      cases pending with
      | cons call others =>
        -- a closing result: the same numbers, one call less
        rw [closeCalls] at hcalls
        obtain ⟨_, hnext, hcalls⟩ := bind_eq_ok.mp hcalls
        obtain ⟨⟨_, _⟩, htail, hcalls⟩ := bind_eq_ok.mp hcalls
        cases hcalls
        cases hall
        refine ⟨_, scanEvent_toolCloser hS rfl hnodup hadmitted,
          (nodup_cons.mp hnodup).2, ?_⟩
        have hseq : (toolCloser S turn last.time call seq).seq = seq := rfl
        have htime : (toolCloser S turn last.time call seq).time = last.time := rfl
        unfold closersOf
        dsimp only
        rw [hseq, htime, hnext, ok_bind, htail, ok_bind, hends]
        rfl
      | nil =>
        cases hcalls
        cases openStep with
        | some step =>
          obtain ⟨_, hnext, hends⟩ := bind_eq_ok.mp hends
          cases hends
          cases hall
          refine ⟨{ openTurn := some turn, openStep := none, pending := [] }, rfl,
            nodup_nil, ?_⟩
          have hseq : (stepCloser turn step last.time seq).seq = seq := rfl
          unfold closersOf
          dsimp only
          rw [hseq, hnext]
          rfl
        | none =>
          cases hends
          cases hall
          exact ⟨.idle, rfl, nodup_nil, rfl⟩

theorem interruptedTurnClosers_resume (hS : S.RoundTrips) : ∀ (k : Nat) {log : List SessionEvent}
    {scan : TurnScan} {closers : List SessionEvent},
    log.foldlM (scanEvent S) .idle = .ok scan →
    (scan.pending.map callId).Nodup →
    closersOf S scan log.getLast? = .ok closers →
    (∀ c ∈ closers.take k, ∃ projection, decodeSurfaceEvent S c = .ok projection) →
      interruptedTurnClosers S (log ++ closers.take k) = .ok (closers.drop k)
  | 0, log, scan, closers, hscan, _, h, _ => by
    rw [take_zero, append_nil, drop_zero, interruptedTurnClosers, hscan]
    exact h
  | k + 1, log, scan, [], hscan, _, h, _ => by
    rw [take_nil, append_nil, drop_nil, interruptedTurnClosers, hscan]
    exact h
  | k + 1, log, scan, c :: rest, hscan, hnodup, h, hadmitted => by
    rw [take_succ_cons] at hadmitted ⊢
    obtain ⟨scan', hstep, hnodup', hrest⟩ :=
      closersOf_resume hS hnodup h (hadmitted c mem_cons_self)
    have hscan' : (log ++ [c]).foldlM (scanEvent S) .idle = .ok scan' := by
      rw [foldlM_append_one, hscan]
      exact hstep
    have hlast : (log ++ [c]).getLast? = some c := by simp
    have hresume := interruptedTurnClosers_resume hS k hscan' hnodup' (by rw [hlast]; exact hrest)
      fun x hx => hadmitted x (mem_cons_of_mem c hx)
    rw [append_assoc] at hresume
    exact hresume

/-! ## What a repair appends -/

def settledCall (S : Serde) (e : SessionEvent) : Option ToolCallId :=
  match ((e.data.get "message").bind S.messageFromValue).map Message.source with
  | some (.tool callId) => some callId
  | _ => none

/-- What a closing result says: its type, its call, and the event that
recorded the call. -/
def settlement (S : Serde) (e : SessionEvent) : String × Option ToolCallId × Option (List Nat) :=
  (e.eventType, settledCall S e, e.sourceEventSeqs)

theorem settlement_toolCloser (hS : S.RoundTrips) (turn time seq : Nat) (call : PendingCall) :
    settlement S (toolCloser S turn time call seq)
      = ("tool/result", some call.callId, call.callSeq.map fun source => [source]) := by
  have hmessage : (toolCloser S turn time call seq).data.get "message"
      = some (S.messageToValue (closingMessage call seq)) := rfl
  have hcall : settledCall S (toolCloser S turn time call seq) = some call.callId := by
    rw [settledCall, hmessage, bind_some, hS _ (closingMessage_faithful call seq)]
    rfl
  rw [settlement, hcall]
  rfl

theorem settlement_callClosers (hS : S.RoundTrips) :
    ∀ {pending : List PendingCall} {seq : Nat},
      (callClosers S turn time seq pending).map (settlement S)
        = pending.map fun call =>
          ("tool/result", some call.callId, call.callSeq.map fun source => [source])
  | [], _ => rfl
  | call :: rest, seq => by
    rw [callClosers, map_cons, map_cons, settlement_toolCloser hS,
      settlement_callClosers hS]

theorem eventType_endClosers (turn time seq : Nat) (openStep : Option Nat) :
    (endClosers turn time openStep seq).map SessionEvent.eventType
      = if openStep.isSome then ["step/end", "turn/end"] else ["turn/end"] := by
  cases openStep <;> rfl

/-- A cold repair answers every call that waits, once and in order, with the
event that recorded it if there is one, then ends the open step and the turn.
A repair that stopped after any number of these events goes on with the
others. -/
theorem repair_settles_and_resumes (S : Serde) (hS : S.RoundTrips) (header : SessionHeader)
    (log : List SessionEvent) (state : SessionState) (hadmitted : Accepted S header log state)
    (hopen : turnOpen log = true)
    (hdistinct : ((openCalls S (openEvents log)).map PendingCall.callId).Nodup)
    (closers : List SessionEvent) (h : interruptedTurnClosers S log = .ok closers) :
    (∃ results ends, closers = results ++ ends
      ∧ results.map (settlement S) = (openCalls S (openEvents log)).map (fun call =>
        ("tool/result", some call.callId, call.callSeq.map fun source => [source]))
      ∧ ends.map SessionEvent.eventType
        = if stepOpen log then ["step/end", "turn/end"] else ["turn/end"])
    ∧ ∀ k state', Accepted S header (log ++ closers.take k) state' →
        interruptedTurnClosers S (log ++ closers.take k) = .ok (closers.drop k) := by
  obtain ⟨scan, hscan, hclosers⟩ := bind_eq_ok.mp h
  have hagrees := scan_agrees hscan
  have hnodup : (scan.pending.map callId).Nodup := by
    rw [hagrees.ids]
    exact hdistinct
  obtain ⟨_, hscan', hfound⟩ := hadmitted.scan (readsFields_of_scan hscan)
  obtain rfl := ok.inj (hscan.symm.trans hscan')
  constructor
  · obtain ⟨turn, hturn⟩ := isSome_iff_exists.mp (hfound.turn.trans hopen)
    rw [getLast?_eq_some_getLast (ne_nil_of_turnOpen hopen)] at hclosers
    refine ⟨_, _, closersOf_eq_ok hturn hclosers, ?_, ?_⟩
    · rw [settlement_callClosers hS, hagrees.eq hnodup]
    · rw [eventType_endClosers, hfound.step]
  · intro k state' haccepted
    refine interruptedTurnClosers_resume hS k hscan hnodup hclosers fun c hc => ?_
    exact (haccepted.event c (mem_append_right log hc)).2

/-- A crash after the first of two calls was recorded, and another one after
the first closing result. -/
theorem repair_settles_and_resumes_twoCalls :
    let message : Message :=
      { id := ⟨"m"⟩, role := .assistant, source := .model "p" "m" none
        content := [.toolCall ⟨"a"⟩ "read" "", .toolCall ⟨"b"⟩ "read" ""] }
    let log := [
      SessionEvent.plain "turn/start" 0 1 (.object [("turn", .ofNat 1)]),
      .plain "step/start" 1 1 (.object [("step", .ofNat 1)]),
      { SessionEvent.plain "assistant/message" 2 1
          (.object [("step", .ofNat 1), ("message", wireSerde.messageToValue message)])
        with surfaceOp := some .append },
      .plain "tool/call" 3 1 (.object [("callId", .string "a")])]
    ∃ closers, interruptedTurnClosers wireSerde log = .ok closers
      ∧ closers.map SessionEvent.eventType
        = ["tool/result", "tool/result", "step/end", "turn/end"]
      ∧ interruptedTurnClosers wireSerde (log ++ closers.take 1) = .ok (closers.drop 1) := by
  intro message log
  refine ⟨_, rfl, rfl, ?_⟩
  exact (repair_settles_and_resumes wireSerde wireSerde_roundTrips (.plain ⟨"s"⟩ 1) log _ rfl rfl
    (by decide) _ rfl).2 1 _ rfl

end Tessivum.Session
