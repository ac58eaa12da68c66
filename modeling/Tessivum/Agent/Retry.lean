/-
Tessivum.Agent.Retry — when a failed generation is tried again
(`schedule_retry` of `src/agent_loop.rs`, `LlmRetryPolicy` of `src/llm.rs`).

The number of a retry is not counted by the loop. It is read from the last
`llm/retry` event of the session with the same turn, step, provider and policy
key, each time a generation has failed.

`f64` numbers are a parameter with the operations the delays use, and the text
of a JSON value is the parameter `valueText`. The number of a retry is below
the limit of its policy, so the addition of the source does not overflow.
-/
import Tessivum.Agent.Turn
import Tessivum.Protocol.Stream
import Tessivum.Protocol.Wire

namespace Tessivum.Agent

open Library Protocol Llm

/-! ## Policies -/

/-- `f64`, with what `local_delay_ms` and `schedule_retry` use of it. -/
structure Float64 where
  F : Type
  ofNat : Nat → F
  add : F → F → F
  sub : F → F → F
  mul : F → F → F
  powi : F → Nat → F
  min : F → F → F
  lt : F → F → Bool
  toValue : F → Value

inductive LlmRetryPolicy (F : Type) where
  | normal (maxRetries : Nat) (retryableCodes : List String)
      (initialDelayMs maxDelayMs jitterRatio : F)
  | always (initialDelayMs maxDelayMs jitterRatio : F)

namespace LlmRetryPolicy

variable {F : Type}

def policyKey (toValue : F → Value) (valueText : Value → String) : LlmRetryPolicy F → String
  | .normal maxRetries retryableCodes initialDelayMs maxDelayMs jitterRatio =>
    valueText (.array [.string "normal", .ofNat maxRetries,
      .array ((retryableCodes.mergeSort fun a b => decide (a ≤ b)).map .string),
      toValue initialDelayMs, toValue maxDelayMs, toValue jitterRatio])
  | .always initialDelayMs maxDelayMs jitterRatio =>
    valueText (.array [.string "always", toValue initialDelayMs, toValue maxDelayMs,
      toValue jitterRatio])

def initialDelayMs : LlmRetryPolicy F → F
  | .normal _ _ initialDelayMs _ _ => initialDelayMs
  | .always initialDelayMs _ _ => initialDelayMs

def maxDelayMs : LlmRetryPolicy F → F
  | .normal _ _ _ maxDelayMs _ => maxDelayMs
  | .always _ maxDelayMs _ => maxDelayMs

def jitterRatio : LlmRetryPolicy F → F
  | .normal _ _ _ _ jitterRatio => jitterRatio
  | .always _ _ jitterRatio => jitterRatio

def mode : LlmRetryPolicy F → String
  | .normal _ _ _ _ _ => "normal"
  | .always _ _ _ => "always"

def permitsFailure (code : String) : LlmRetryPolicy F → Bool
  | .normal _ retryableCodes _ _ _ => retryableCodes.any fun candidate => candidate == code
  | .always _ _ _ => true

def maxRetries : LlmRetryPolicy F → Option Nat
  | .normal maxRetries _ _ _ _ => some maxRetries
  | .always _ _ _ => none

end LlmRetryPolicy

def localDelayMs (f : Float64) (policy : LlmRetryPolicy f.F) (retry : Nat) (random : f.F) : f.F :=
  let exponent := Nat.min (retry - 1) 1024
  let exponential := f.min (f.mul policy.initialDelayMs (f.powi (f.ofNat 2) exponent))
    policy.maxDelayMs
  f.min (f.mul exponential (f.add (f.sub (f.ofNat 1) policy.jitterRatio)
    (f.mul (f.mul (f.ofNat 2) policy.jitterRatio) random))) policy.maxDelayMs

/-! ## Scheduling -/

/-- What `schedule_retry` is called with, and the policy of the provider. -/
structure RetrySite (f : Float64) where
  turn : Nat
  step : Nat
  provider : String
  policy : LlmRetryPolicy f.F
  /-- `serde_json::to_string` of a value. -/
  valueText : Value → String

section Scheduling

variable {f : Float64} (site : RetrySite f)

def RetrySite.policyKey : String := site.policy.policyKey f.toValue site.valueText

/-- The data of a retry of this turn, step, provider and policy. -/
def RetrySite.names (data : Value) : Bool :=
  (data.get "turn").bind Value.asU64 == some site.turn
    && (data.get "step").bind Value.asU64 == some site.step
    && (data.get "provider").bind Value.asStr == some site.provider
    && (data.get "policyKey").bind Value.asStr == some site.policyKey

/-- The last retry of this turn, step, provider and policy. -/
def RetrySite.prior (events : List SessionEvent) : Option SessionEvent :=
  events.reverse.find? fun e => e.eventType = "llm/retry" && site.names e.data

def priorRetry (prior : Option SessionEvent) : Nat :=
  (prior.bind fun e => (e.data.get "retry").bind Value.asU64).getD 0

/-- The `retryId` a further retry takes over. -/
def priorRetryId (prior : Option SessionEvent) : Option String :=
  prior.bind fun e => (e.data.get "retryId").bind Value.asStr

/-- `delay_ms`. A provider's delay above the policy's ends the retries, if they
have a limit. -/
def delayMs (policy : LlmRetryPolicy f.F) (failure : LlmFailure) (localDelay : f.F) :
    Option f.F :=
  match failure.providerRetryAfterMs with
  | some delay =>
    if f.lt policy.maxDelayMs (f.ofNat delay) then
      if policy.maxRetries.isSome then none else some localDelay
    else if delay > 0 then some (f.ofNat delay)
    else some localDelay
  | none => some localDelay

/-- The data of an `llm/retry` event. -/
def RetrySite.eventData (retryId : String) (retry : Nat) (delay : f.F) (failure : LlmFailure) :
    Value :=
  .object ([("delayMs", f.toValue delay), ("failure", Wire.failureToValue failure)]
    ++ Wire.skipNone "maxRetries" .ofNat site.policy.maxRetries
    ++ [("mode", .string site.policy.mode), ("policyKey", .string site.policyKey),
        ("provider", .string site.provider), ("retry", .ofNat retry),
        ("retryId", .string retryId), ("step", .ofNat site.step), ("turn", .ofNat site.turn)])

/-- `schedule_retry`, up to the append. `cancelled` is what the first read of
the token answers, `freshId` and `random` are the two drawn uuids. -/
def scheduledRetry (cancelled : Bool) (events : List SessionEvent) (failure : LlmFailure)
    (freshId : String) (random : f.F) : Option RetryPlan :=
  if cancelled || !site.policy.permitsFailure failure.code then none
  else
    let prior := site.prior events
    if site.policy.maxRetries.any fun maxRetries => priorRetry prior ≥ maxRetries then none
    else
      let retry := priorRetry prior + 1
      let retryId := (priorRetryId prior).getD freshId
      (delayMs site.policy failure (localDelayMs f site.policy retry random)).map fun delay =>
        { retryId, retry, data := site.eventData retryId retry delay failure }

end Scheduling

/-! ## The environment of the generation loop -/

/-- The data of the `llm/retry` events of a session. -/
def retryData (events : List SessionEvent) : List Value :=
  (events.filter fun e => e.eventType = "llm/retry").map SessionEvent.data

/-- The data of the `llm/retry` events of a part of a turn. -/
def ownRetryData (log : List TurnEvent) : List Value :=
  log.filterMap fun
    | .llmRetry _ _ plan => some plan.data
    | _ => none

/-- What is observed of the loop. -/
structure LoopState where
  log : List TurnEvent
  attempts : Nat
  /-- The overflows that were compacted away. -/
  compactions : Nat

def LoopState.start : LoopState := { log := [], attempts := 0, compactions := 0 }

/-- An overflow was compacted away. -/
def CompactionAnswer.recovers (compacted : CompactionAnswer Bool) : Bool :=
  match compacted.outcome with
  | .ok recovered => recovered
  | .error _ => false

def LoopState.observe (s : LoopState) : (q : TurnQuery) → q.Answer → LoopState
  | .append event _, .ok _ => { s with log := s.log ++ [event] }
  | .generate, _ => { s with attempts := s.attempts + 1 }
  | .compactPressure, compacted =>
    { s with log := s.log ++ compactionEvents .compactPressure compacted }
  | .compactOverflow, compacted =>
    { s with
      log := s.log ++ compactionEvents .compactOverflow compacted
      compactions := s.compactions + compacted.recovers.toNat }
  | _, _ => s

/-- What a decision meets: the token, the drawn values, and the session, of
which only the `llm/retry` events are fixed. Nothing but `schedule_retry`
appends such an event. -/
structure RetryChance (F : Type) where
  cancelled : Bool
  freshId : String
  random : F
  events : List Value → List SessionEvent
  retries : ∀ data, retryData (events data) = data

/-- The retry policy answers from the session, which began as `history` and
went on with the events of the loop; every other question is answered by
`others`. -/
def generationAnswers {f : Float64} (site : RetrySite f) (history : List SessionEvent)
    (chance : Nat → RetryChance f.F) (others : Prog.Env TurnQuery TurnQuery.Answer)
    (s : LoopState) (n : Nat) : (q : TurnQuery) → q.Answer
  | .retryPolicy failure =>
    scheduledRetry site (chance n).cancelled
      ((chance n).events (retryData history ++ ownRetryData s.log)) failure (chance n).freshId
      (chance n).random
  | q => others n q

def nextTurn (events : List SessionEvent) : Nat :=
  let turns := (events.filter fun e => e.eventType = "turn/start").filterMap fun e =>
    (e.data.get "turn").bind Value.asU64
  min (turns.max?.getD 0 + 1) (u64Bound - 1)

/-! ## What the loop appended -/

/-- An event of the retries of a step. -/
inductive RetryMark where
  | retry (turn step : Nat) (retryId : String) (retry : Nat)
  | started (turn step : Nat) (retryId : String) (retry : Nat)
  deriving DecidableEq, Repr

def TurnEvent.retryMark : TurnEvent → Option RetryMark
  | .llmRetry turn step plan => some (.retry turn step plan.retryId plan.retry)
  | .llmRetryStarted retryId turn step retry => some (.started turn step retryId retry)
  | _ => none

def retryMarks (log : List TurnEvent) : List RetryMark := log.filterMap TurnEvent.retryMark

end Tessivum.Agent
