/-
Tessivum.Approval.AuditTheorems — the audit events of approvals and
questions, and what one step can do to the log.

An audit event is admitted when its number is the next one and the
backend commits it (`append_auditEvent`). It marks the call that wrote it
and no other (`approvalMarks_askedEvent` and its three siblings).
`step_log` says what a step can write, each audit event by one kind of
step only.
-/
import Tessivum.Approval.System
import Tessivum.Session.ReplayTheorems

namespace Tessivum.Approval

open Library Protocol Session List

variable {σ : Type} {S : Serde} {P : Persistence σ} {uuid : Nat → String}

/-! ## Audit events -/

variable {eventType : String} {seq : Nat} {session session' : Live σ} {e : SessionEvent}
  {result : Except SessionError Unit} {token : Cancellation}

theorem checkAppend_auditEvent {header : SessionHeader} {state : SessionState}
    (htype : eventType ∈ auditTypes) (data : Value) (hseq : nextSeq state.events = .ok seq)
    (hsafe : seq ≤ maxSafeInteger) :
    checkAppend S header state (auditEvent eventType data seq) none = .ok none := by
  have hcheck : checkSeq state.events (auditEvent eventType data seq) = .ok () :=
    checkSeq_eq_ok.mpr hseq
  have hsafe' : checkSafeInteger "seq" seq = .ok () := checkSafeInteger_eq_ok.mpr hsafe
  simp only [auditTypes, mem_cons, not_mem_nil, or_false] at htype
  rcases htype with rfl | rfl | rfl | rfl
  all_goals
    unfold checkAppend SessionEvent.validate
    rw [hcheck]
    simp only [auditEvent, hsafe']
    rfl

def Commits (P : Persistence σ) (session : Live σ) (e : SessionEvent) : Prop :=
  (P.append session.disk session.header.id e .never).1 = .ok ()

instance (session : Live σ) (e : SessionEvent) : Decidable (Commits P session e) :=
  inferInstanceAs (Decidable ((P.append session.disk session.header.id e .never).1 = .ok ()))

theorem append_auditEvent (htype : eventType ∈ auditTypes) {data : Value}
    (hseq : nextSeq session.state.events = .ok seq) (hsafe : seq ≤ maxSafeInteger)
    (hcommits : Commits P session (auditEvent eventType data seq)) :
    (session.append S P (auditEvent eventType data seq) .never).1 = .ok () := by
  unfold Live.append Live.appendInner Live.appendUnderGate
  rw [checkAppend_auditEvent htype data hseq hsafe]
  unfold Commits at hcommits
  simp only [checkCancellation_never, Cancellation.never_after, ok_bind]
  rcases hcall : P.append session.disk session.header.id (auditEvent eventType data seq) .never
    with ⟨result, disk⟩
  rw [hcall] at hcommits
  cases result with
  | error err => cases hcommits
  | ok u => rfl

/-- An append that fails leaves the log. -/
theorem append_error {err : SessionError}
    (hcall : session.append S P e token = (.error err, session')) :
    session'.state.events = session.state.events := by
  have hadmission := session.append_admission (S := S) (P := P) e token
  rw [hcall] at hadmission
  cases hadmission with
  | refused err live' hheader hstate => rw [hstate]

/-- An append that succeeds adds its event under the next number. -/
theorem append_ok (hcall : session.append S P e token = (.ok (), session')) :
    nextSeq session.state.events = .ok e.seq
      ∧ session'.state.events = session.state.events ++ [e] := by
  have hadmission := session.append_admission (S := S) (P := P) e token
  rw [hcall] at hadmission
  rcases hadmission.events with hsame | ⟨_, hgrown⟩
  · cases hadmission with
    | admitted expected projection live' hcheck hheader hstate =>
      rw [hstate, SessionState.record_events] at hsame
      simp at hsame
  · exact hgrown

theorem markOf_eq_none {askedType settledType key id : String} (hasked : e.eventType ≠ askedType)
    (hsettled : e.eventType ≠ settledType) : markOf askedType settledType key id e = none := by
  simp [markOf, hasked, hsettled]

theorem marks_singleton {askedType settledType key id : String}
    (hid : (e.data.get key).bind Value.asStr = some id) (other : String) :
    [e].filterMap (markOf askedType settledType key other) =
      if id = other then
        if e.eventType = askedType then [.asked e.data]
        else if e.eventType = settledType then [.settled e.data]
        else []
      else [] := by
  simp only [filterMap_cons, filterMap_nil, markOf, hid, some.injEq]
  split_ifs <;> rfl

theorem approvalMarks_append (id : String) (log added : List SessionEvent) :
    approvalMarks id (log ++ added) = approvalMarks id log ++ approvalMarks id added :=
  filterMap_append

theorem questionMarks_append (id : String) (log added : List SessionEvent) :
    questionMarks id (log ++ added) = questionMarks id log ++ questionMarks id added :=
  filterMap_append

theorem marks_of_not_mem (h : e.eventType ∉ auditTypes) (id : String) :
    approvalMarks id [e] = [] ∧ questionMarks id [e] = [] := by
  simp only [auditTypes, mem_cons, not_mem_nil, or_false, not_or] at h
  obtain ⟨h₁, h₂, h₃, h₄⟩ := h
  simp [approvalMarks, questionMarks, markOf_eq_none, *]

namespace ConsentSystem

/-! ## What the setters do -/

variable (s : ConsentSystem σ)

@[simp] theorem setApproval_self (n : Nat) (call : ApprovalCall) :
    (s.setApproval n call).approval n = call := by
  simp [setApproval]

@[simp] theorem setQuestion_self (n : Nat) (call : QuestionCall) :
    (s.setQuestion n call).question n = call := by
  simp [setQuestion]

/-! ## The marks of the audit events -/

theorem approvalMarks_askedEvent (n m seq : Nat) :
    approvalMarks (uuid m) [askedEvent uuid s n seq]
      = if uuid n = uuid m then [.asked (approvalAsked uuid s n).toValue] else [] :=
  marks_singleton rfl _

theorem approvalMarks_decidedEvent (n m seq : Nat) (outcome : ApprovalOutcome) :
    approvalMarks (uuid m) [decidedEvent uuid s n outcome seq]
      = if uuid n = uuid m then
        [.settled (ApprovalDecision.toValue ⟨uuid n, (s.approval n).turn, outcome⟩)]
        else [] :=
  marks_singleton rfl _

theorem questionMarks_askedEvent (n m seq : Nat) :
    questionMarks (uuid m) [questionAskedEvent uuid s n seq]
      = if uuid n = uuid m then [.asked (questionAskedEvent uuid s n seq).data] else [] :=
  marks_singleton rfl _

theorem questionMarks_resolvedEvent (n m seq : Nat) (answer : Option AskUserQuestionAnswer) :
    questionMarks (uuid m) [resolvedEvent uuid s n answer seq]
      = if uuid n = uuid m then
        [.settled (QuestionResolved.toValue ⟨uuid n, (s.question n).turn, answer⟩)]
        else [] := by
  cases answer <;> exact marks_singleton rfl _

/-! ## The log -/

/-- What a step can do to the log: nothing, one event of another writer
or of a policy change, or one of the four audit events, each by its own
step. What it adds has the next number. -/
inductive LogMove (uuid : Nat → String) (s s' : ConsentSystem σ) (i : ConsentStep) : Prop
  | same (hlog : s'.log = s.log)
  | other (e : SessionEvent) (htype : e.eventType ∉ auditTypes)
      (hseq : nextSeq s.log = .ok e.seq) (hlog : s'.log = s.log ++ [e])
  | approvalAsked (n seq : Nat) (fires : Bool) (hi : i = .commitAsk n fires)
      (hphase : (s.approval n).phase = .askRead seq) (hseq : nextSeq s.log = .ok seq)
      (hlog : s'.log = s.log ++ [askedEvent uuid s n seq])
  | approvalDecided (n seq : Nat) (outcome : ApprovalOutcome) (hi : i = .commitDecision n)
      (hphase : (s.approval n).phase = .decideRead outcome seq) (hseq : nextSeq s.log = .ok seq)
      (hlog : s'.log = s.log ++ [decidedEvent uuid s n outcome seq])
  | questionAsked (n seq : Nat) (fires : Bool) (hi : i = .commitAsked n fires)
      (hphase : (s.question n).phase = .askRead seq) (hseq : nextSeq s.log = .ok seq)
      (hlog : s'.log = s.log ++ [questionAskedEvent uuid s n seq])
  | questionResolved (n seq : Nat) (answer : Option AskUserQuestionAnswer)
      (hi : i = .commitResolved n) (hphase : (s.question n).phase = .resolveRead answer seq)
      (hseq : nextSeq s.log = .ok seq)
      (hlog : s'.log = s.log ++ [resolvedEvent uuid s n answer seq])

variable {s} in
theorem LogMove.log_cases {s' : ConsentSystem σ} {i : ConsentStep} (h : LogMove uuid s s' i) :
    s'.log = s.log ∨ ∃ e, nextSeq s.log = .ok e.seq ∧ s'.log = s.log ++ [e] := by
  cases h with
  | same hlog => exact .inl hlog
  | other e htype hseq hlog | approvalAsked n seq fires hi hphase hseq hlog
  | approvalDecided n seq outcome hi hphase hseq hlog
  | questionAsked n seq fires hi hphase hseq hlog
  | questionResolved n seq answer hi hphase hseq hlog => exact .inr ⟨_, hseq, hlog⟩

variable {s} in
theorem LogMove.of_append {s' : ConsentSystem σ} {i : ConsentStep}
    (hcall : s.session.append S P e token = (result, s'.session))
    (hmove : nextSeq s.log = .ok e.seq → s'.log = s.log ++ [e] → LogMove uuid s s' i) :
    LogMove uuid s s' i := by
  cases result with
  | error err => exact .same (append_error hcall)
  | ok u =>
    obtain ⟨hseq, hlog⟩ := append_ok hcall
    exact hmove hseq hlog

theorem write_log (call : Call) : LogMove uuid s (s.write S P call) (.write call) := by
  unfold write
  by_cases htype : (call.event s.session).eventType ∈ auditTypes
  · rw [if_pos htype]
    exact .same rfl
  · rw [if_neg htype]
    rcases (s.session.call_admission (S := S) (P := P) call).events with hsame | ⟨_, hseq, hgrown⟩
    · exact .same hsame
    · exact .other _ htype hseq hgrown

theorem setPolicy_log (policy : ApprovalPolicy) (seq : Nat) (token : Cancellation) :
    LogMove uuid s (s.setPolicy S P policy seq token) (.setPolicy policy seq token) := by
  unfold setPolicy
  split
  · rename_i hfree
    dsimp only
    split
    all_goals
      rename_i hcall
      exact .of_append hcall (.other _ (by simp [auditEvent, auditTypes]))
  · exact .same rfl

theorem commitAsk_log (n : Nat) (fires : Bool) :
    LogMove uuid s (s.commitAsk S P uuid n fires) (.commitAsk n fires) := by
  unfold commitAsk
  dsimp only
  split
  · rename_i seq hphase
    split
    all_goals
      rename_i hcall
      exact .of_append hcall (.approvalAsked n seq fires rfl hphase)
  · exact .same rfl

theorem commitDecision_log (n : Nat) :
    LogMove uuid s (s.commitDecision S P uuid n) (.commitDecision n) := by
  unfold commitDecision
  split
  · rename_i outcome seq hphase
    split
    all_goals
      rename_i hcall
      exact .of_append hcall (.approvalDecided n seq outcome rfl hphase)
  · exact .same rfl

theorem commitAsked_log (n : Nat) (fires : Bool) :
    LogMove uuid s (s.commitAsked S P uuid n fires) (.commitAsked n fires) := by
  unfold commitAsked
  dsimp only
  split
  · rename_i seq hphase
    split
    all_goals
      rename_i hcall
      exact .of_append hcall (.questionAsked n seq fires rfl hphase)
  · exact .same rfl

theorem commitResolved_log (n : Nat) :
    LogMove uuid s (s.commitResolved S P uuid n) (.commitResolved n) := by
  unfold commitResolved
  split
  · rename_i answer seq hphase
    split
    all_goals
      rename_i hcall
      exact .of_append hcall (.questionResolved n seq answer rfl hphase)
  · exact .same rfl

variable (S P uuid) in
/-- What one step does to the log. -/
theorem step_log (i : ConsentStep) : LogMove uuid s (step S P uuid s i) i := by
  cases i with
  | write call => exact s.write_log call
  | setPolicy policy seq token => exact s.setPolicy_log policy seq token
  | commitAsk n fires => exact s.commitAsk_log n fires
  | commitDecision n => exact s.commitDecision_log n
  | commitAsked n fires => exact s.commitAsked_log n fires
  | commitResolved n => exact s.commitResolved_log n
  | _ =>
    -- the other steps do not touch the session
    apply LogMove.same
    simp only [step, register, closeRegistration, approve, cancelApproval, enterApproval, readAsk,
      consultHooks, answerApproval, abortApproval, decideApproval, readDecision, ask,
      cancelQuestion, registerQuestion, readAsked, respondAnswer, respondCancelled, receive,
      readResolved]
    repeat' split
    all_goals rfl

theorem step_numbered {s : ConsentSystem σ} (i : ConsentStep) (h : Numbered s.log) :
    Numbered (step S P uuid s i).log := by
  rcases (s.step_log S P uuid i).log_cases with hlog | ⟨e, hseq, hlog⟩ <;> rw [hlog]
  · exact h
  · exact numbered_snoc.mpr ⟨h, h.seq_of_nextSeq hseq⟩

variable (S P uuid) in
theorem step_grows (i : ConsentStep) : s.log <+: (step S P uuid s i).log := by
  rcases (s.step_log S P uuid i).log_cases with hlog | ⟨e, _, hlog⟩
  · exact hlog.symm ▸ prefix_refl _
  · exact hlog.symm ▸ prefix_append _ _

/-! ## A run to start from -/

def unaryId (n : Nat) : String := String.ofList (List.replicate n 'i')

theorem unaryId_injective : Function.Injective unaryId := by
  intro n m h
  have hlist := String.ofList_injective h
  simpa using congrArg List.length hlist

/-- An event of another writer, which numbers it under the gate. -/
def turnWrite (eventType : String) : ConsentStep :=
  .write (.appendNext (fun seq =>
    SessionEvent.plain eventType seq 0 (.object [("turn", .ofNat 1)])) .never)

/-- An approval whose answerer allows it, up to the last check. -/
def approvalRun : List ConsentStep :=
  [turnWrite "turn/start", .register .answerer,
   .approve ⟨"write", .null⟩ false "write" none none, .enterApproval 0, .readAsk 0,
   .commitAsk 0 false, .consultHooks 0 [], .answerApproval 0 [.allow], .decideApproval 0]

def sampleRun (steps : List ConsentStep) : ConsentSystem MemoryState :=
  runFrom wireSerde (memoryPersistence wireSerde) unaryId
    (fresh (memorySession (.plain ⟨"s"⟩ 0)) .ask) steps

/-- The approval a step belongs to. A new call belongs to the approval it
starts. -/
def ownerApproval : ConsentStep → Option Nat
  | .approve _ _ _ _ _ => some s.approvals
  | .cancelApproval n => some n
  | .enterApproval n => some n
  | .readAsk n => some n
  | .commitAsk n _ => some n
  | .consultHooks n _ => some n
  | .answerApproval n _ => some n
  | .abortApproval n => some n
  | .decideApproval n => some n
  | .readDecision n => some n
  | .commitDecision n => some n
  | _ => none

/-- The question a step belongs to. A new call belongs to the question it
starts. -/
def ownerQuestion : ConsentStep → Option Nat
  | .ask _ _ _ => some s.questions
  | .cancelQuestion n => some n
  | .registerQuestion n => some n
  | .readAsked n => some n
  | .commitAsked n _ => some n
  | .respondAnswer n _ => some n
  | .respondCancelled n => some n
  | .receive n => some n
  | .readResolved n => some n
  | .commitResolved n => some n
  | _ => none

/-- What a step leaves: the calls that are not its own, and no call goes away. -/
structure Spares (i : ConsentStep) (s' : ConsentSystem σ) : Prop where
  approval : ∀ {n}, s.ownerApproval i ≠ some n → s'.approval n = s.approval n
  question : ∀ {n}, s.ownerQuestion i ≠ some n → s'.question n = s.question n
  approvals : s.approvals ≤ s'.approvals
  questions : s.questions ≤ s'.questions

variable (S P uuid) in
/-- What one step leaves alone. -/
theorem step_spares (i : ConsentStep) : s.Spares i (step S P uuid s i) := by
  cases i
  case write =>
    simp only [step, write]
    split <;> exact ⟨fun _ => rfl, fun _ => rfl, le_rfl, le_rfl⟩
  case setPolicy =>
    simp only [step, setPolicy]
    repeat' split
    all_goals exact ⟨fun _ => rfl, fun _ => rfl, le_rfl, le_rfl⟩
  all_goals
    simp only [step, register, closeRegistration, approve, cancelApproval, enterApproval, readAsk,
      commitAsk, consultHooks, answerApproval, abortApproval, decideApproval, readDecision,
      commitDecision, ask, cancelQuestion, registerQuestion, readAsked, commitAsked, respondAnswer,
      respondCancelled, receive, readResolved, commitResolved]
    repeat' split
    all_goals
      refine ⟨fun hother => ?_, fun hother => ?_, ?_, ?_⟩
      all_goals
        first
          | rfl
          | exact le_succ _
          | exact le_refl _
          | simp only [ownerApproval, ownerQuestion, ne_eq, some.injEq] at hother
            simp [approvalAt, leaveApproval, setApproval, questionAt, leaveQuestion, reply,
              setQuestion, Ne.symm hother]

end ConsentSystem

end Tessivum.Approval
