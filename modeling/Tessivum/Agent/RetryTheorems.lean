/-
Tessivum.Agent.RetryTheorems — how often a generation is tried.

The number of a retry is one more than the last one of the session with the
same turn, step, provider and policy, and no retry of the loop itself is
missed: an event it appended is found before anything of the history
(`Counted.scheduled`). So the loop counts on from what the history says, and
the count has the limit of the policy (`scheduleRetry_keeps`).

Where the history has a retry of the same turn and step, the loop counts on
from it (`retries_counted_on`); a turn that takes a new number has none.
-/
import Tessivum.Agent.Retry
import Tessivum.Agent.TurnRules

namespace Tessivum.Agent

open Library Protocol Llm List Fallible

variable {f : Float64} {site : RetrySite f}

/-! ## The last retry of a session -/

theorem prior_data (site : RetrySite f) (events : List SessionEvent) :
    (site.prior events).map SessionEvent.data = (retryData events).reverse.find? site.names := by
  rw [retryData, ← map_reverse, ← filter_reverse, find?_map, find?_filter,
    RetrySite.prior]
  congr 2
  funext e
  simp

def dataRetry (data : Option Value) : Nat :=
  (data.bind fun v => (v.get "retry").bind Value.asU64).getD 0

def dataRetryId (data : Option Value) : Option String :=
  data.bind fun v => (v.get "retryId").bind Value.asStr

theorem priorRetry_eq (prior : Option SessionEvent) :
    priorRetry prior = dataRetry (prior.map SessionEvent.data) := by
  cases prior <;> rfl

theorem priorRetryId_eq (prior : Option SessionEvent) :
    priorRetryId prior = dataRetryId (prior.map SessionEvent.data) := by
  cases prior <;> rfl

/-- What the data of a retry says. -/
structure Recorded (site : RetrySite f) (retryId : String) (retry : Nat) (data : Value) : Prop where
  names : site.names data = true
  retry : dataRetry (some data) = retry
  retryId : dataRetryId (some data) = some retryId

theorem eventData_recorded (site : RetrySite f) (retryId : String) (retry : Nat) (delay : f.F)
    (failure : LlmFailure) :
    Recorded site retryId retry (site.eventData retryId retry delay failure) := by
  unfold RetrySite.eventData
  cases site.policy.maxRetries with
  | none | some n =>
    refine ⟨?_, ?_, ?_⟩ <;>
      simp [RetrySite.names, dataRetry, dataRetryId, Wire.skipNone, List.lookup]

theorem scheduledRetry_eq_some {cancelled : Bool} {events : List SessionEvent}
    {failure : LlmFailure} {freshId : String} {random : f.F} {plan : RetryPlan}
    (h : scheduledRetry site cancelled events failure freshId random = some plan) :
    (∀ n ∈ site.policy.maxRetries, priorRetry (site.prior events) < n)
      ∧ plan.retry = priorRetry (site.prior events) + 1
      ∧ (∀ id, priorRetryId (site.prior events) = some id → plan.retryId = id)
      ∧ Recorded site plan.retryId plan.retry plan.data := by
  unfold scheduledRetry at h
  split at h
  · cases h
  · dsimp only at h
    split at h
    · cases h
    · rename_i hlimit
      obtain ⟨delay, _, rfl⟩ := map_eq_some_iff.mp h
      refine ⟨?_, rfl, ?_, eventData_recorded site _ _ delay failure⟩
      · intro n hn
        rw [Option.any_eq_true] at hlimit
        by_contra hge
        exact hlimit ⟨n, hn, by simpa using hge⟩
      · intro id hid
        rw [hid]
        rfl

/-! ## Numbered retries -/

def marksOf (turn step : Nat) (retryId : String) (retry : Nat) (started : Bool) : List RetryMark :=
  .retry turn step retryId retry :: if started then [.started turn step retryId retry] else []

/-- Retries numbered from `first`, one after the other. -/
def numbered (turn step : Nat) (retryId : String) (started : Nat → Bool) (first k : Nat) :
    List RetryMark :=
  (List.range' first k).flatMap fun retry => marksOf turn step retryId retry (started retry)

theorem numbered_succ (turn step : Nat) (retryId : String) (started : Nat → Bool)
    (first k : Nat) : numbered turn step retryId started first (k + 1)
      = numbered turn step retryId started first k
        ++ marksOf turn step retryId (first + k) (started (first + k)) := by
  rw [numbered, List.range'_concat, flatMap_append, flatMap_singleton, Nat.one_mul]
  rfl

theorem numbered_congr {turn step : Nat} {retryId : String} {started started' : Nat → Bool}
    {first k : Nat} (h : ∀ retry, retry < first + k → started retry = started' retry) :
    numbered turn step retryId started first k = numbered turn step retryId started' first k := by
  refine flatMap_congr fun retry hretry => ?_
  rw [h retry (mem_range'_1.mp hretry).2]

/-! ## What the loop has done -/

/-- The part of the state that its bounds are about. -/
structure RetryTrace where
  marks : List RetryMark
  data : List Value
  attempts : Nat
  compactions : Nat

def LoopState.trace (s : LoopState) : RetryTrace :=
  { marks := retryMarks s.log, data := ownRetryData s.log, attempts := s.attempts
    compactions := s.compactions }

section Loop

variable (site : RetrySite f) (history : List SessionEvent) (n : Nat)

def firstRetry : Nat := priorRetry (site.prior history)

/-- The last retry, of the loop or of the history. -/
structure Counted (retryId : String) (k : Nat) (data : List Value) : Prop where
  number : dataRetry ((retryData history ++ data).reverse.find? site.names)
    = firstRetry site history + k
  name : 0 < k →
    dataRetryId ((retryData history ++ data).reverse.find? site.names) = some retryId

def Announced (k : Nat) (t : RetryTrace) : Prop :=
  ∃ retryId, t.marks = numbered site.turn site.step retryId (fun _ => true)
      (firstRetry site history + 1) k
    ∧ Counted site history retryId k t.data

def Ready (k compactions : Nat) (t : RetryTrace) : Prop :=
  Announced site history k t ∧ t.attempts = k + compactions ∧ t.compactions = compactions

def Attempted (k compactions : Nat) (t : RetryTrace) : Prop :=
  Announced site history k t ∧ t.attempts = k + compactions + 1 ∧ t.compactions = compactions

def Bounded (t : RetryTrace) : Prop :=
  (∃ retryId k started, (k = 0 ∨ firstRetry site history + k ≤ n)
      ∧ t.marks = numbered site.turn site.step retryId started (firstRetry site history + 1) k)
    ∧ t.attempts ≤ n + 2 ∧ t.compactions ≤ 1

variable {site history n}
variable {compactions k : Nat} {t : RetryTrace}

theorem Attempted.bounded (hk : k = 0 ∨ firstRetry site history + k ≤ n)
    (hcompactions : compactions ≤ 1) (h : Attempted site history k compactions t) :
    Bounded site history n t := by
  obtain ⟨⟨retryId, hmarks, _⟩, hattempts, hcompacted⟩ := h
  exact ⟨⟨retryId, k, _, hk, hmarks⟩, by omega, by omega⟩

theorem Ready.bounded (hk : k = 0 ∨ firstRetry site history + k ≤ n)
    (hcompactions : compactions ≤ 1) (h : Ready site history k compactions t) :
    Bounded site history n t := by
  obtain ⟨⟨retryId, hmarks, _⟩, hattempts, hcompacted⟩ := h
  exact ⟨⟨retryId, k, _, hk, hmarks⟩, by omega, by omega⟩

theorem Counted.scheduled {retryId : String} {data : Value} (before : List Value)
    (h : Recorded site retryId (firstRetry site history + k) data) :
    Counted site history retryId k (before ++ [data]) := by
  have hlast : (retryData history ++ (before ++ [data])).reverse.find? site.names = some data := by
    rw [← append_assoc, reverse_concat, find?_cons_of_pos h.names]
  exact ⟨by rw [hlast, h.retry], fun _ => by rw [hlast, h.retryId]⟩

theorem Counted.start (retryId : String) : Counted site history retryId 0 [] := by
  refine ⟨?_, fun h => absurd h (lt_irrefl 0)⟩
  rw [append_nil, ← prior_data, ← priorRetry_eq]
  rfl

end Loop

/-! ## The environment -/

/-- An answer of the retry policy is the decision over the session as it is. -/
def Faithful (site : RetrySite f) (history : List SessionEvent) (s : LoopState) :
    (q : TurnQuery) → q.Answer → Prop
  | .retryPolicy failure, plan =>
    ∃ cancelled events freshId random, retryData events = retryData history ++ s.trace.data
      ∧ plan = scheduledRetry site cancelled events failure freshId random
  | _, _ => True

theorem generationAnswers_faithful (history : List SessionEvent)
    (chance : Nat → RetryChance f.F) (others : Prog.Env TurnQuery TurnQuery.Answer)
    (s : LoopState) (n : Nat) (q : TurnQuery) :
    Faithful site history s q (generationAnswers site history chance others s n q) := by
  cases q with
  | retryPolicy failure => exact ⟨_, _, _, _, (chance n).retries _, rfl⟩
  | _ => trivial

/-! ## Parts that are not about retries -/

section Parts

variable {history : List SessionEvent} {n : Nat} {α β : Type}

/-- What a part of the loop does to the trace; where it fails, the bounds
hold. -/
abbrev Keeps (site : RetrySite f) (history : List SessionEvent) (n : Nat)
    (pre : RetryTrace → Prop) (p : TurnM α) (post : α → RetryTrace → Prop) : Prop :=
  Fallible.Contract (Faithful site history) LoopState.observe
    (fun s => Bounded site history n s.trace) (fun s => pre s.trace) p fun a s => post a s.trace

def Steady (site : RetrySite f) (history : List SessionEvent) (n : Nat) (p : TurnM α) : Prop :=
  ∀ pre : RetryTrace → Prop, (∀ t, pre t → Bounded site history n t) →
    Keeps site history n pre p fun _ => pre

theorem Steady.pure (a : α) : Steady site history n (pure a : TurnM α) :=
  fun _ _ => Contract.pure fun _ h => h

theorem Steady.bind {p : TurnM α} {g : α → TurnM β} (hp : Steady site history n p)
    (hg : ∀ a, Steady site history n (g a)) : Steady site history n (p >>= g) :=
  fun pre hpre => Contract.bind (hp pre hpre) fun a => hg a pre hpre

theorem Steady.ask {q : TurnQuery} (hq : ∀ (s : LoopState) a, s.observe q a = s) :
    Steady site history n (ask q) := by
  intro pre hpre
  refine Contract.query fun s a h _ => ?_
  rw [hq s a]
  exact h

variable {event : TurnEvent} {k compactions : Nat} {plan : RetryPlan} {t : RetryTrace}

theorem trace_append (h : event.retryMark = none) (s : LoopState) :
    ({ s with log := s.log ++ [event] } : LoopState).trace = s.trace := by
  have hmarks : retryMarks (s.log ++ [event]) = retryMarks s.log := by
    rw [retryMarks, filterMap_append]
    simp [h, retryMarks]
  have hdata : ownRetryData (s.log ++ [event]) = ownRetryData s.log := by
    cases event with
    | llmRetry => cases h
    | _ => simp [ownRetryData]
  rw [LoopState.trace, hmarks, hdata]
  rfl

/-- A compaction brings no retries. -/
theorem trace_compacted {q : TurnQuery} (a : q.Answer) (s : LoopState) (compactions : Nat) :
    ({ s with log := s.log ++ compactionEvents q a, compactions } : LoopState).trace
      = { s.trace with compactions } := by
  have hnone : ∀ event ∈ compactionEvents q a, event.retryMark = none := by
    intro event hevent
    obtain ⟨compacted, rfl⟩ := mem_compactionEvents hevent
    rfl
  generalize compactionEvents q a = events at hnone
  induction events generalizing s with
  | nil => simp [LoopState.trace]
  | cons event rest ih =>
    have hfirst := trace_append (hnone event mem_cons_self) s
    have hrest := ih { s with log := s.log ++ [event] } fun e he => hnone e (mem_cons_of_mem _ he)
    rw [hfirst, ← append_cons] at hrest
    exact hrest

/-- An append, by what it adds to the trace. -/
theorem append_keeps {pre post : RetryTrace → Prop} (event : TurnEvent)
    (hwritten : ∀ s : LoopState, pre s.trace →
      post ({ s with log := s.log ++ [event] } : LoopState).trace)
    (hrefused : ∀ t, pre t → Bounded site history n t) :
    Keeps site history n pre (append event) fun _ => post := by
  unfold append
  refine Contract.bind (Steady.ask (fun _ _ => rfl) pre hrefused) fun cancelled => ?_
  intro s hs written _
  cases written with
  | ok seq => exact hwritten s hs
  | error error => exact hrefused _ hs

theorem Steady.append (h : event.retryMark = none) : Steady site history n (append event) := by
  intro pre hpre
  refine append_keeps event (fun s hs => ?_) hpre
  rw [trace_append h]
  exact hs

theorem Steady.appendEvent (h : event.retryMark = none) :
    Steady site history n (appendEvent event) :=
  (Steady.append h).bind fun _ => .pure _

theorem Steady.aborted : Steady site history n aborted :=
  (Steady.ask fun _ _ => rfl).bind fun _ => .pure _

variable (turn step : Nat)

theorem Steady.closeStep : Steady site history n (closeStep turn step) :=
  .appendEvent rfl

theorem Steady.endTurn (turn : Nat) (reason : TurnEndReason) :
    Steady site history n (endTurn turn reason) := by
  refine (Steady.ask fun _ _ => rfl).bind fun cancelled => Steady.bind ?_ fun reason =>
    .appendEvent rfl
  cases cancelled with
  | false => exact .pure _
  | true => exact .aborted

theorem Steady.closeCancelledStep : Steady site history n (closeCancelledStep turn step) :=
  (Steady.closeStep turn step).bind fun _ => Steady.aborted.bind fun _ => .endTurn _ _

theorem Steady.failTurn (error : LlmFailure) : Steady site history n (failTurn turn step error) :=
  (Steady.closeStep turn step).bind fun _ => .endTurn _ _

theorem Steady.appendRuntimeContext : Steady site history n (appendRuntimeContext turn step) := by
  refine (Steady.ask fun _ _ => rfl).bind fun context => ?_
  cases context with
  | none => exact .pure _
  | some context => exact .appendEvent rfl

/-! ## Attempts -/

-- The induction is on the stream. A refused chunk is an error of the attempt.
theorem consumeChunks_trace (t : RetryTrace) (chunks : List (Except TessivumError StreamChunk)) :
    ∀ assembler seqs generation (s : LoopState), s.trace = t →
      (consumeChunks turn step chunks assembler seqs generation).Secures
        (Faithful site history) LoopState.observe s fun _ s' => s'.trace = t := by
  induction chunks with
  | nil =>
    intro assembler seqs generation s hs
    cases generation <;> exact hs
  | cons chunk rest ih =>
    intro assembler seqs generation s hs
    cases chunk with
    | error error => exact hs
    | ok chunk =>
      unfold consumeChunks
      cases assembler.push chunk with
      | error error => exact hs
      | ok pushed =>
        intro cancelled _ written _
        cases written with
        | error error => exact hs
        | ok seq => exact ih _ _ _ _ ((trace_append rfl s).trans hs)

theorem consumeGenerationAttempt_trace (provider model : String) (turn step : Nat)
    (s : LoopState) :
    (consumeGenerationAttempt provider model turn step).Secures (Faithful site history)
      LoopState.observe s fun _ s' => s'.trace = { s.trace with attempts := s.attempts + 1 } := by
  intro stream _
  cases stream with
  | error error => exact rfl
  | ok chunks =>
    intro id _
    exact consumeChunks_trace turn step _ chunks _ [] none _ rfl

/-- One attempt is counted. -/
theorem attempt_keeps (provider model : String) (turn step k compactions : Nat) :
    Keeps site history n (Ready site history k compactions)
      (ExceptT.lift (consumeGenerationAttempt provider model turn step))
      fun _ => Attempted site history k compactions := by
  refine Contract.lift fun s hs => ?_
  obtain ⟨hannounced, hattempts, hcompacted⟩ := hs
  refine (consumeGenerationAttempt_trace provider model turn step s).mono fun _ s' hs' => ?_
  rw [hs']
  exact ⟨hannounced, congrArg (· + 1) hattempts, hcompacted⟩

/-! ## Retries -/

/-- What a scheduled retry continues. -/
structure Scheduled (site : RetrySite f) (history : List SessionEvent) (n k : Nat)
    (plan : RetryPlan) (t : RetryTrace) : Prop where
  limit : firstRetry site history + (k + 1) ≤ n
  retry : plan.retry = firstRetry site history + (k + 1)
  recorded : Recorded site plan.retryId plan.retry plan.data
  marks : t.marks = numbered site.turn site.step plan.retryId (fun _ => true)
    (firstRetry site history + 1) k

theorem Announced.scheduled (hn : site.policy.maxRetries = some n) (h : Announced site history k t)
    {cancelled : Bool} {events : List SessionEvent}
    (hevents : retryData events = retryData history ++ t.data) {failure : LlmFailure}
    {freshId : String} {random : f.F}
    (hplan : scheduledRetry site cancelled events failure freshId random = some plan) :
    Scheduled site history n k plan t := by
  obtain ⟨retryId, hmarks, hcounted⟩ := h
  obtain ⟨hlimit, hretry, hid, hrecorded⟩ := scheduledRetry_eq_some hplan
  have hprior : priorRetry (site.prior events) = firstRetry site history + k := by
    rw [priorRetry_eq, prior_data, hevents, hcounted.number]
  have hbelow := hlimit n hn
  refine ⟨by omega, by omega, hrecorded, ?_⟩
  rw [hmarks]
  cases k with
  | zero => rfl
  | succ k =>
    have hsame : plan.retryId = retryId := by
      refine hid retryId ?_
      rw [priorRetryId_eq, prior_data, hevents, hcounted.name (Nat.succ_pos k)]
    rw [hsame]

/-- A retry that was announced and has not started. -/
structure Written (site : RetrySite f) (history : List SessionEvent) (n k compactions : Nat)
    (plan : RetryPlan) (t : RetryTrace) : Prop where
  limit : firstRetry site history + (k + 1) ≤ n
  retry : plan.retry = firstRetry site history + (k + 1)
  counted : Counted site history plan.retryId (k + 1) t.data
  marks : t.marks = numbered site.turn site.step plan.retryId (fun _ => true)
      (firstRetry site history + 1) k ++ [.retry site.turn site.step plan.retryId plan.retry]
  attempts : t.attempts = k + compactions + 1
  compactions : t.compactions = compactions

theorem Written.bounded (hcompactions : compactions ≤ 1)
    (h : Written site history n k compactions plan t) : Bounded site history n t := by
  have hlimit := h.limit
  refine ⟨⟨plan.retryId, k + 1, fun retry => decide (retry ≤ firstRetry site history + k),
    .inr hlimit, ?_⟩, ?_, ?_⟩
  · have hstarted : numbered site.turn site.step plan.retryId
          (fun retry => decide (retry ≤ firstRetry site history + k))
          (firstRetry site history + 1) k
        = numbered site.turn site.step plan.retryId (fun _ => true)
          (firstRetry site history + 1) k :=
      numbered_congr fun retry hretry => decide_eq_true (by omega)
    have hlast : decide (firstRetry site history + 1 + k ≤ firstRetry site history + k) = false :=
      decide_eq_false (by omega)
    have hnumber : firstRetry site history + 1 + k = plan.retry := by
      rw [h.retry]
      omega
    rw [h.marks, numbered_succ, hstarted, hlast, hnumber]
    rfl
  · rw [h.attempts]
    omega
  · rw [h.compactions]
    exact hcompactions

def Retried (site : RetrySite f) (history : List SessionEvent) (n k compactions : Nat) :
    Bool → RetryTrace → Prop
  | true, t => firstRetry site history + (k + 1) ≤ n ∧ Ready site history (k + 1) compactions t
  | false, t => Bounded site history n t

theorem trace_retry (s : LoopState) (turn step : Nat) (plan : RetryPlan) :
    ({ s with log := s.log ++ [.llmRetry turn step plan] } : LoopState).trace
      = { s.trace with marks := s.trace.marks ++ [.retry turn step plan.retryId plan.retry]
                       data := s.trace.data ++ [plan.data] } := by
  simp [LoopState.trace, retryMarks, ownRetryData, TurnEvent.retryMark]

theorem trace_retryStarted (s : LoopState) (retryId : String) (turn step retry : Nat) :
    ({ s with log := s.log ++ [.llmRetryStarted retryId turn step retry] } : LoopState).trace
      = { s.trace with marks := s.trace.marks ++ [.started turn step retryId retry] } := by
  simp [LoopState.trace, retryMarks, ownRetryData, TurnEvent.retryMark]

/-- A failure is given a retry or not. -/
theorem retryPolicy_keeps (hn : site.policy.maxRetries = some n) (k compactions : Nat)
    (error : LlmFailure) :
    Keeps site history n (Attempted site history k compactions) (ask (.retryPolicy error))
      fun (plan : Option RetryPlan) t => Attempted site history k compactions t
        ∧ ∀ p ∈ plan, Scheduled site history n k p t := by
  refine Contract.query fun s plan hs hplan => ?_
  obtain ⟨_, _, _, _, hevents, hplan⟩ := hplan
  refine ⟨hs, fun p hp => ?_⟩
  exact hs.1.scheduled hn hevents (hplan.symm.trans hp)

/-- A retry is announced as started. -/
theorem startRetry_keeps (hcompactions : compactions ≤ 1) (plan : RetryPlan) :
    Keeps site history n (Written site history n k compactions plan) (do
      appendEvent (.llmRetryStarted plan.retryId site.turn site.step plan.retry)
      let cancelled : Bool ← ask .isCancelled
      pure (!cancelled)) (Retried site history n k compactions) := by
  have hstarted : Keeps site history n (Written site history n k compactions plan)
      (appendEvent (.llmRetryStarted plan.retryId site.turn site.step plan.retry))
      fun _ => Retried site history n k compactions true := by
    refine Contract.bind (append_keeps _ (fun s h => ?_) fun _ h =>
      h.bounded hcompactions) fun _ => Contract.pure fun _ h => h
    have hnumber : firstRetry site history + 1 + k = plan.retry := by
      rw [h.retry]
      omega
    rw [trace_retryStarted]
    refine ⟨h.limit, ⟨plan.retryId, ?_, h.counted⟩, ?_, h.compactions⟩
    · show s.trace.marks ++ _ = _
      rw [h.marks, numbered_succ, hnumber, append_assoc]
      rfl
    · show s.trace.attempts = _
      rw [h.attempts]
      omega
  have hready : ∀ t, Retried site history n k compactions true t → Bounded site history n t :=
    fun t h => h.2.bounded (.inr h.1) hcompactions
  refine Contract.bind hstarted fun _ => Contract.bind
    (Steady.ask (fun _ _ => rfl) _ hready) fun cancelled => Contract.pure fun s h => ?_
  cases cancelled with
  | false => exact h
  | true => exact hready s.trace h

/-- A retry is written with the next number, or the step fails. -/
theorem scheduleRetry_keeps (hn : site.policy.maxRetries = some n)
    (hk : k = 0 ∨ firstRetry site history + k ≤ n) (hcompactions : compactions ≤ 1)
    (error : LlmFailure) :
    Keeps site history n (Attempted site history k compactions)
      (scheduleRetry site.turn site.step error) (Retried site history n k compactions) := by
  unfold scheduleRetry
  refine Contract.bind (retryPolicy_keeps hn k compactions error) fun plan => ?_
  cases plan with
  | none => exact Contract.pure fun s h => h.1.bounded hk hcompactions
  | some plan =>
    have hwritten : ∀ t, Written site history n k compactions plan t →
        Bounded site history n t := fun t h => h.bounded hcompactions
    have hevent : Keeps site history n (fun t => Attempted site history k compactions t
          ∧ ∀ p ∈ some plan, Scheduled site history n k p t)
        (append (.llmRetry site.turn site.step plan))
        fun _ => Written site history n k compactions plan := by
      refine append_keeps _ (fun s h => ?_) fun _ h => h.1.bounded hk hcompactions
      obtain ⟨⟨_, hattempts, hcompacted⟩, hscheduled⟩ := h
      have hplan := hscheduled plan rfl
      rw [trace_retry]
      exact ⟨hplan.limit, hplan.retry, .scheduled s.trace.data (hplan.retry ▸ hplan.recorded),
        congrArg (· ++ _) hplan.marks, hattempts, hcompacted⟩
    have happend : Keeps site history n (fun t => Attempted site history k compactions t
          ∧ ∀ p ∈ some plan, Scheduled site history n k p t)
        (appendEvent (.llmRetry site.turn site.step plan))
        fun _ => Written site history n k compactions plan :=
      hevent.bind fun _ => Contract.pure fun _ h => h
    -- until the retry has started nothing else changes the trace
    refine Contract.bind happend fun _ => Contract.bind
      (Steady.ask (fun _ _ => rfl) _ hwritten) fun cancelled => ?_
    split
    · exact Contract.pure fun s h => hwritten s.trace h
    refine Contract.bind (Steady.ask (fun _ _ => rfl) _ hwritten) fun interrupted => ?_
    split
    · exact Contract.pure fun s h => hwritten s.trace h
    refine Contract.bind (Steady.ask (fun _ _ => rfl) _ hwritten) fun cancelled => ?_
    split
    · exact Contract.pure fun s h => hwritten s.trace h
    exact startRetry_keeps hcompactions plan

/-! ## The loop -/

/-- What a failed attempt leaves: one more retry, one more compaction, or an
ended turn. -/
def Recovered (site : RetrySite f) (history : List SessionEvent) (n done : Nat) :
    Recovery → RetryTrace → Prop
  | .again recovered, t => ∃ k, (k = 0 ∨ firstRetry site history + k ≤ n)
      ∧ k + recovered.toNat = done + 1 ∧ Ready site history k recovered.toNat t
  | .ended, t => Bounded site history n t

/-- What an overflow leaves once compaction has answered. -/
def Compacted (site : RetrySite f) (history : List SessionEvent) (k : Nat)
    (compacted : CompactionAnswer Bool) (t : RetryTrace) : Prop :=
  if compacted.recovers then Ready site history k 1 t else Attempted site history k 0 t

/-- After a failure there is one retry more or none. -/
theorem retryOrFail_keeps (hn : site.policy.maxRetries = some n) (recovered : Bool)
    (hk : k = 0 ∨ firstRetry site history + k ≤ n) (error : LlmFailure) :
    Keeps site history n (Attempted site history k recovered.toNat)
      (retryOrFail site.turn site.step recovered error)
      (Recovered site history n (k + recovered.toNat)) := by
  have hcompactions := recovered.toNat_le
  unfold retryOrFail
  refine Contract.bind (scheduleRetry_keeps hn hk hcompactions error) fun retried => ?_
  cases retried with
  | true =>
    refine Contract.pure fun s h => ⟨k + 1, .inr h.1, ?_, h.2⟩
    omega
  | false =>
    refine Contract.bind (Steady.ask (fun _ _ => rfl) _ fun _ h => h)
      fun cancelled => ?_
    cases cancelled with
    | true =>
      exact Contract.bind (Steady.closeCancelledStep _ _ _ fun _ h => h)
        fun _ => Contract.pure fun _ h => h
    | false =>
      exact Contract.bind (Steady.failTurn _ _ error _ fun _ h => h)
        fun _ => Contract.pure fun _ h => h

/-- A failure is answered by a compaction or a retry. -/
theorem recoverAttempt_keeps (hn : site.policy.maxRetries = some n) (recovered : Bool)
    (hk : k = 0 ∨ firstRetry site history + k ≤ n) (error : LlmFailure) :
    Keeps site history n (Attempted site history k recovered.toNat)
      (recoverAttempt site.turn site.step recovered error)
      (Recovered site history n (k + recovered.toNat)) := by
  have hbounded : ∀ t, Attempted site history k recovered.toNat t → Bounded site history n t :=
    fun t h => h.bounded hk recovered.toNat_le
  unfold recoverAttempt
  split
  · rename_i hoverflow
    have hfirst : recovered = false := by
      cases recovered with
      | false => rfl
      | true => cases hoverflow
    subst hfirst
    -- a compacted overflow is observed, everything else about it is not
    have hcompacted : Keeps site history n (Attempted site history k 0) (ask .compactOverflow)
        (Compacted site history k) := by
      refine Contract.query fun s compacted hs _ => ?_
      show Compacted site history k compacted (LoopState.trace { s with
        log := s.log ++ compactionEvents .compactOverflow compacted
        compactions := s.compactions + compacted.recovers.toNat })
      rw [trace_compacted]
      unfold Compacted
      cases compacted.recovers with
      | false => exact hs
      | true => exact ⟨hs.1, hs.2.1, congrArg (· + 1) hs.2.2⟩
    refine Contract.bind hcompacted fun compacted => ?_
    rcases compacted with ⟨events, failure | _ | _⟩
    · exact Contract.bind (Steady.failTurn _ _ failure _ hbounded)
        fun _ => Contract.pure fun s h => hbounded s.trace h
    · exact retryOrFail_keeps hn false hk error
    · exact Contract.pure fun s h => ⟨k, hk, rfl, h⟩
  · exact retryOrFail_keeps hn recovered hk error

/-- The loop of attempts stays within its bounds. -/
theorem generateStep_keeps (hn : site.policy.maxRetries = some n) (model : String)
    (attempts : Nat) : ∀ (first recovered : Bool) (k : Nat),
      (k = 0 ∨ firstRetry site history + k ≤ n) → n + 2 ≤ attempts + (k + recovered.toNat) →
        Keeps site history n (Ready site history k recovered.toNat)
          (generateStep site.provider model site.turn site.step attempts first recovered)
          fun _ => Bounded site history n := by
  induction attempts with
  | zero =>
    intro first recovered k hk hleft
    have hcompactions := recovered.toNat_le
    omega
  | succ attempts ih =>
    intro first recovered k hk hleft
    have hready : ∀ t, Ready site history k recovered.toNat t → Bounded site history n t :=
      fun t h => h.bounded hk recovered.toNat_le
    have hattempted : ∀ t, Attempted site history k recovered.toNat t →
        Bounded site history n t := fun t h => h.bounded hk recovered.toNat_le
    have hcancelled : Keeps site history n (Attempted site history k recovered.toNat)
        (do closeCancelledStep site.turn site.step
            pure (none : Option (LlmGeneration × List Nat)))
        fun _ => Bounded site history n :=
      Contract.bind (Steady.closeCancelledStep _ _ _ hattempted)
        fun _ => Contract.pure fun s h => hattempted s.trace h
    have hagain {next : Recovery → TurnM (Option (LlmGeneration × List Nat))}
        (hnext : ∀ recovered, next (.again recovered)
          = generateStep site.provider model site.turn site.step attempts false recovered)
        (hended : next .ended = pure none) (error : LlmFailure) :
        Keeps site history n (Attempted site history k recovered.toNat)
          (recoverAttempt site.turn site.step recovered error >>= next)
          fun _ => Bounded site history n := by
      refine Contract.bind (recoverAttempt_keeps hn recovered hk error)
        fun recovery => ?_
      cases recovery with
      | again recovered =>
        rw [hnext]
        intro s h
        obtain ⟨k', hk', hdone, hready⟩ := h
        exact ih false recovered k' hk' (by omega) s hready
      | ended =>
        rw [hended]
        exact Contract.pure fun _ h => h
    have hcontext : Steady site history n
        (onlyIf (!first) (appendRuntimeContext site.turn site.step)) := by
      unfold onlyIf
      split
      · exact .appendRuntimeContext _ _
      · exact .pure _
    refine Contract.bind (hcontext _ hready) fun _ => ?_
    refine Contract.bind (attempt_keeps _ model _ _ k recovered.toNat) fun attempt => ?_
    rcases attempt with error | ⟨generation, seqs⟩
    · refine Contract.bind (Steady.ask (fun _ _ => rfl) _ hattempted)
        fun cancelled => ?_
      split
      · exact hcancelled
      · exact hagain (fun _ => rfl) rfl (failure error)
    · have hspoken : Keeps site history n (Attempted site history k recovered.toNat)
          (pure (some (generation, seqs))) fun _ => Bounded site history n :=
        Contract.pure fun s h => hattempted s.trace h
      dsimp only
      cases generation.finishReason with
      | error error => exact hagain (fun _ => rfl) rfl error
      | aborted _ => exact hcancelled
      | stop | toolCalls | maxTokens => exact hspoken

end Parts

/-! ## The result -/

def startedTurns (events : List SessionEvent) : List Nat :=
  (events.filter fun e => e.eventType = "turn/start").filterMap fun e =>
    (e.data.get "turn").bind Value.asU64

/-- A turn that takes a new number has no earlier retry: those of the turns
before name started turns, and its own name other steps. -/
theorem firstRetry_nextTurn (site : RetrySite f) {before during : List SessionEvent}
    (hturn : site.turn = nextTurn before)
    (hbefore : ∀ e ∈ before, e.eventType = "llm/retry" →
      ∀ turn, (e.data.get "turn").bind Value.asU64 = some turn → turn ∈ startedTurns before)
    (hstarted : ∀ turn ∈ startedTurns before, turn + 1 < u64Bound)
    (hduring : ∀ e ∈ during, e.eventType = "llm/retry" →
      (e.data.get "step").bind Value.asU64 ≠ some site.step) :
    firstRetry site (before ++ during) = 0 := by
  have hnew : ∀ turn ∈ startedTurns before, turn < nextTurn before := by
    intro turn hmem
    cases hmax : (startedTurns before).max? with
    | none =>
      rw [List.max?_eq_none_iff.mp hmax] at hmem
      cases hmem
    | some most =>
      obtain ⟨hmost, hle⟩ := List.max?_eq_some_iff.mp hmax
      have hlt := hstarted most hmost
      have hturns := hle turn hmem
      show turn < min ((startedTurns before).max?.getD 0 + 1) (u64Bound - 1)
      rw [hmax, getD_some]
      omega
  have hprior : site.prior (before ++ during) = none := by
    refine find?_eq_none.mpr fun e he => ?_
    simp only [and_eq_true, decide_eq_true_eq, not_and]
    intro htype hnames
    simp only [RetrySite.names, and_eq_true, beq_iff_eq] at hnames
    obtain ⟨⟨⟨hnamesTurn, hnamesStep⟩, -⟩, -⟩ := hnames
    rcases mem_append.mp (mem_reverse.mp he) with hmem | hmem
    · have hlt := hnew site.turn (hbefore e hmem htype site.turn hnamesTurn)
      omega
    · exact hduring e hmem htype hnamesStep
  rw [firstRetry, hprior]
  rfl

/-- A generation is tried at most twice more often than the limit of retries,
one context overflow is compacted at most, and the retries are numbered on from
the history: for every session, step, policy with a limit and every sequence of
answers of the provider, the compaction, the clock and the token. Where the
history is that of a new turn, they are numbered from one. -/
theorem generation_retries_numbered (f : Float64) (valueText : Value → String) (n : Nat)
    (codes : List String) (initialDelay maxDelay jitter : f.F) (turn step : Nat)
    (provider model : String) (history : List SessionEvent) (chance : Nat → RetryChance f.F)
    (others : Prog.Env TurnQuery TurnQuery.Answer) (extra start : Nat) :
    let site : RetrySite f :=
      { turn, step, provider, policy := .normal n codes initialDelay maxDelay jitter, valueText }
    let outcome := (generateStep provider model turn step (n + 2 + extra) true false).run.serve
      LoopState.observe (generationAnswers site history chance others) start LoopState.start
    outcome.1.isSome = true
      ∧ outcome.2.attempts ≤ n + 2
      ∧ outcome.2.compactions ≤ 1
      ∧ (∃ retryId k started, (k = 0 ∨ firstRetry site history + k ≤ n)
          ∧ retryMarks outcome.2.log
            = numbered turn step retryId started (firstRetry site history + 1) k)
      ∧ ∀ before during, history = before ++ during → turn = nextTurn before →
          (∀ e ∈ before, e.eventType = "llm/retry" →
            ∀ t, (e.data.get "turn").bind Value.asU64 = some t → t ∈ startedTurns before) →
          (∀ t ∈ startedTurns before, t + 1 < u64Bound) →
          (∀ e ∈ during, e.eventType = "llm/retry" →
            (e.data.get "step").bind Value.asU64 ≠ some step) →
          firstRetry site history = 0 := by
  intro site outcome
  have hstart : Ready site history 0 0 LoopState.start.trace :=
    ⟨⟨"", rfl, Counted.start ""⟩, rfl, rfl⟩
  have hkeeps : Keeps site history n (Ready site history 0 0)
      (generateStep provider model turn step (n + 2 + extra) true false)
      fun _ => Bounded site history n :=
    generateStep_keeps rfl model (n + 2 + extra) true false 0 (.inl rfl) (by
      rw [Bool.toNat_false]
      omega)
  obtain ⟨result, hreturned, hresult⟩ := Prog.Secures.of_serve
    (generationAnswers_faithful history chance others) (hkeeps LoopState.start hstart)
  have hbounded : Bounded site history n outcome.2.trace := by
    cases result with
    | ok generation => exact hresult
    | error error => exact hresult
  obtain ⟨hmarks, hattempts, hcompactions⟩ := hbounded
  refine ⟨isSome_iff_exists.mpr ⟨result, hreturned⟩, hattempts, hcompactions, hmarks, ?_⟩
  rintro _ _ rfl hturn hbefore hstarted hduring
  exact firstRetry_nextTurn site hturn hbefore hstarted hduring

/-! ### A retry of the history -/

def wholeFloat : Float64 :=
  { F := Nat, ofNat := id, add := (· + ·), sub := (· - ·), mul := (· * ·), powi := (· ^ ·)
    min := Nat.min, lt := fun a b => decide (a < b)
    toValue := fun a => .number (.float a) }

def limitedSite : RetrySite wholeFloat :=
  { turn := 1, step := 1, provider := "p"
    policy := .normal 2 ["RATE_LIMIT"] (500 : Nat) (60000 : Nat) (0 : Nat)
    valueText := fun _ => "[\"normal\",2,[\"RATE_LIMIT\"],500.0,60000.0,0.0]" }

/-- A retry of this step that no turn of the session explains. -/
def strayRetry : List SessionEvent :=
  [.plain "llm/retry" 0 0 (.object [("policyKey", .string limitedSite.policyKey),
    ("provider", .string "p"), ("retry", .ofNat 1), ("retryId", .string "r"),
    ("step", .ofNat 1), ("turn", .ofNat 1)])]

def limitedModel : (q : TurnQuery) → q.Answer
  | .generate => Except.error (llmError "RATE_LIMIT" "too many requests" .null)
  | q => calmAnswer q

def quietChance : RetryChance Nat :=
  { cancelled := false, freshId := "fresh", random := 0
    events := fun data => data.map (.plain "llm/retry" 0 0)
    retries := fun data => by
      simp [retryData, filter_map, Function.comp_def, SessionEvent.plain] }

def limitedOutcome : LoopState :=
  ((generateStep "p" "m" 1 1 4 true false).run.serve LoopState.observe
    (generationAnswers limitedSite strayRetry (fun _ => quietChance) fun _ => limitedModel) 0
    LoopState.start).2

/-- The turn takes its number from the session, whose retry is of that number;
the only retry that follows is the second. -/
theorem retries_counted_on :
    limitedSite.turn = nextTurn strayRetry
      ∧ retryMarks limitedOutcome.log = numbered 1 1 "r" (fun _ => true) 2 1
      ∧ ¬ ∃ retryId k started,
          retryMarks limitedOutcome.log = numbered 1 1 retryId started 1 k := by
  have hmarks : retryMarks limitedOutcome.log = [.retry 1 1 "r" 2, .started 1 1 "r" 2] := by
    decide +kernel
  refine ⟨by decide, hmarks, ?_⟩
  rintro ⟨_, k, _, hnumbered⟩
  rw [hmarks] at hnumbered
  cases k with
  | zero => cases hnumbered
  | succ k => cases hnumbered

end Tessivum.Agent
