/-
Tessivum.Subagent.History — pages of a child's log
(`SubagentInner::history` of `src/subagent.rs`).

A request names the end of its page and how many messages it wants. The
page starts at the message that makes the count full, or at the first
event that message cites, and ends before `before_seq`. The next request
goes on before the first event of the page.

Looking up the child's header, its descriptor and its log are parameters.
-/
import Tessivum.Library.Positions
import Tessivum.Session.LogTheorems

namespace Tessivum.Subagent

open Protocol Session

/-! ## Requests and results -/

inductive SubagentMode where
  | oneShot
  | continuable
  deriving DecidableEq, Repr

/-- `SubagentError`, as far as `history` gives it. -/
inductive SubagentError where
  | modeMismatch
  | cancelled
  | protocol (error : TessivumError)
  deriving DecidableEq, Repr

structure SubagentHistoryRequest where
  parentSessionId : SessionId
  childSessionId : SessionId
  mode : SubagentMode
  beforeSeq : Option Nat
  maxMessages : Option Nat
  deriving DecidableEq, Repr

structure SubagentHistoryEntry where
  event : SessionEvent
  view : Option Value
  deriving DecidableEq, Repr

structure SessionProjectionsBlock where
  asOfSeq : Int
  values : List (String × Value)
  deriving DecidableEq, Repr

structure SubagentHistoryResult where
  events : List SubagentHistoryEntry
  hasMore : Bool
  projections : Option SessionProjectionsBlock
  deriving DecidableEq, Repr

/-! ## The cut -/

variable (e : SessionEvent)

def isMessage : Bool :=
  e.eventType == "user/message" || e.eventType == "assistant/message"

def countsAsMessage : Bool :=
  isMessage e && e.surfaceOp == some .append

def citations : List Nat := e.sourceEventSeqs.getD []

def messageCut : Nat := (citations e).foldl min e.seq

/-- The walk back over the events, with the number of messages seen. -/
def cutoffFrom (limit : Nat) : Nat → List SessionEvent → Nat
  | _, [] => 0
  | messages, e :: rest =>
    if countsAsMessage e then
      if messages + 1 = limit then messageCut e else cutoffFrom limit (messages + 1) rest
    else cutoffFrom limit messages rest

def cutoff (events : List SessionEvent) (maxMessages : Option Nat) : Nat :=
  match maxMessages with
  | none => 0
  | some limit => cutoffFrom limit 0 events.reverse

/-! ## Pages -/

def eventsBefore (log : List SessionEvent) : Option Nat → List SessionEvent
  | none => log
  | some before => log.filter fun e => e.seq < before

def historyPage (log : List SessionEvent) (beforeSeq maxMessages : Option Nat) :
    SubagentHistoryResult :=
  let events := eventsBefore log beforeSeq
  let cut := cutoff events maxMessages
  let kept := events.filter fun e => cut ≤ e.seq
  { events := kept.map fun event => { event, view := none }
    hasMore := cut ≠ 0
    projections :=
      match beforeSeq with
      | none => some { asOfSeq := (kept.getLast?.map fun e => (e.seq : Int)).getD (-1)
                       values := [] }
      | some _ => none }

/-- `SubagentInner::history`, given what the lookups give. -/
def history (request : SubagentHistoryRequest) (header : Except SubagentError Unit)
    (descriptor : Except SubagentError (Option SubagentMode))
    (events : Except SubagentError (List SessionEvent)) (cancelled : Bool) :
    Except SubagentError SubagentHistoryResult := do
  header
  match ← descriptor with
  | some mode => if mode ≠ request.mode then throw .modeMismatch
  | none => pure ()
  if request.maxMessages = some 0 then
    throw (.protocol
      { code := "INVALID_SUBAGENT_HISTORY"
        message := "maxMessages must be positive when present"
        phase := "subagent", details := .null })
  let log ← events
  if cancelled then throw .cancelled
  return historyPage log request.beforeSeq request.maxMessages

/-- Paging through a log, one limit a page, while there is more: each
request goes on before the first event of the page before it. -/
def pages (log : List SessionEvent) : List Nat → Option Nat → List SubagentHistoryResult
  | [], _ => []
  | limit :: limits, beforeSeq =>
    let page := historyPage log beforeSeq (some limit)
    if page.hasMore then
      page :: pages log limits (page.events.head?.map fun entry => entry.event.seq)
    else [page]

/-- The same requests, asked of `history` one after another with the
lookups answered. -/
def askPages (request : SubagentHistoryRequest) (log : List SessionEvent) :
    List Nat → Option Nat → Except SubagentError (List SubagentHistoryResult)
  | [], _ => .ok []
  | limit :: limits, beforeSeq => do
    let page ← history { request with beforeSeq, maxMessages := some limit } (.ok ())
      (.ok (some request.mode)) (.ok log) false
    if page.hasMore then
      let rest ← askPages request log limits (page.events.head?.map fun entry => entry.event.seq)
      .ok (page :: rest)
    else .ok [page]

def SubagentHistoryResult.log (page : SubagentHistoryResult) : List SessionEvent :=
  page.events.map SubagentHistoryEntry.event

end Tessivum.Subagent
