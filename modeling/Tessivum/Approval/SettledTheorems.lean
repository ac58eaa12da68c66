/-
Tessivum.Approval.SettledTheorems — every asked approval and question is
settled once, in every run whose own writes are not overtaken.

The one way to break this is a write that fails: `next_seq` and `append` are
two steps, so any other writer that commits in between turns the append into a
sequence gap. `undisturbed` is the condition that this does not happen.
-/
import Tessivum.Approval.ApprovalMoves
import Tessivum.Approval.QuestionMoves

namespace Tessivum.Approval

open Library Protocol Session

/-! ## Stages -/

/-- How far a call has come, as far as its events go. -/
inductive Stage (ρ : Type) where
  | unasked
  | asked
  | returned (result : ρ)

/-- The marks a stage goes with. `records` says which value is written
for a result. -/
def Stage.Marked {ρ : Type} (records : ρ → Value → Prop) : Stage ρ → List Mark → Prop
  | .unasked, marks => marks = []
  | .asked, marks => ∃ asked, marks = [.asked asked]
  | .returned result, marks =>
    marks = [] ∨ ∃ asked settled, marks = [.asked asked, .settled settled]
      ∧ records result settled

theorem Stage.Marked.unasked {ρ : Type} {records : ρ → Value → Prop} {stage : Stage ρ}
    {marks : List Mark} (h : stage.Marked records marks) (hstage : stage = .unasked) :
    marks = [] := by
  rwa [hstage] at h

theorem Stage.Marked.asked {ρ : Type} {records : ρ → Value → Prop} {stage : Stage ρ}
    {marks : List Mark} (h : stage.Marked records marks) (hstage : stage = .asked) :
    ∃ asked, marks = [.asked asked] := by
  rwa [hstage] at h

def ApprovalPhase.stage : ApprovalPhase → Stage ApprovalOutcome
  | .waiting => .unasked
  | .entered => .unasked
  | .askRead _ => .unasked
  | .asked => .asked
  | .answering => .asked
  | .settling _ => .asked
  | .deciding _ => .asked
  | .decideRead _ _ => .asked
  | .returned outcome => .returned outcome

def QuestionPhase.stage : QuestionPhase → Stage (Except QuestionError AskUserQuestionAnswer)
  | .begun => .unasked
  | .registered => .unasked
  | .askRead _ => .unasked
  | .waiting => .asked
  | .resolving _ => .asked
  | .resolveRead _ _ => .asked
  | .returned result => .returned result

namespace ConsentSystem

variable {σ : Type} {S : Serde} {P : Persistence σ} {uuid : Nat → String}

/-- The decision of approval `n`. -/
def Decides (uuid : Nat → String) (s : ConsentSystem σ) (n : Nat) (outcome : ApprovalOutcome)
    (settled : Value) : Prop :=
  settled = ApprovalDecision.toValue ⟨uuid n, (s.approval n).turn, outcome⟩

/-- The resolution of question `n`. -/
def Resolves (uuid : Nat → String) (s : ConsentSystem σ) (n : Nat)
    (result : Except QuestionError AskUserQuestionAnswer) (settled : Value) : Prop :=
  ∃ answer, result = answerResult answer
    ∧ settled = QuestionResolved.toValue ⟨uuid n, (s.question n).turn, answer⟩

/-- The turn a question was asked in was not active at some point since
it found it so. -/
def TurnEnded (s : ConsentSystem σ) (n : Nat) : Prop :=
  ∃ k, (s.question n).since ≤ k ∧ k ≤ s.log.length
    ∧ activeTurn (s.log.take k) ≠ some (s.question n).turn

/-! ## The condition -/

/-- The event's number is still the next one, a JSON number holds it, and
the backend commits the event. -/
def lands (P : Persistence σ) (s : ConsentSystem σ) (e : SessionEvent) : Bool :=
  decide (nextSeq s.log = .ok e.seq) && decide (e.seq ≤ maxSafeInteger)
    && decide (Commits P s.session e)

def hasAnswer (s : ConsentSystem σ) (n : Nat) : Bool :=
  match (s.question n).reply with
  | some (.answered _) => true
  | _ => false

/-- The condition on a step: no other writer has committed since a call
read the number its decision or resolution is written under. The asked
event of a question may only be overtaken while no answer is accepted,
and an accepted answer is received while its owner is there. -/
def undisturbed (P : Persistence σ) (uuid : Nat → String) (s : ConsentSystem σ) :
    ConsentStep → Bool
  | .readDecision _ => (nextSeq s.log).isOk
  | .commitDecision n =>
    match (s.approval n).phase with
    | .decideRead outcome seq => s.lands P (decidedEvent uuid s n outcome seq)
    | _ => true
  | .readAsked n => !s.hasAnswer n || (nextSeq s.log).isOk
  | .commitAsked n fires =>
    match (s.question n).phase with
    | .askRead seq =>
      !s.hasAnswer n || ((s.question n).cancelled || fires)
        || s.lands P (questionAskedEvent uuid s n seq)
    | _ => true
  | .receive n => !s.hasAnswer n || (s.slotOpen && s.agentLive)
  | .readResolved _ => (nextSeq s.log).isOk
  | .commitResolved n =>
    match (s.question n).phase with
    | .resolveRead answer seq => s.lands P (resolvedEvent uuid s n answer seq)
    | _ => true
  | _ => true

variable {s s' : ConsentSystem σ} {n : Nat} {i : ConsentStep} {answer : AskUserQuestionAnswer}

theorem not_failed_of_lands {eventType : String} (htype : eventType ∈ auditTypes) {data : Value}
    {seq : Nat} {err : SessionError} (h : s.lands P (auditEvent eventType data seq) = true)
    (hfail : (s.session.append S P (auditEvent eventType data seq) .never).1 = .error err) :
    False := by
  simp only [lands, and_eq_true, decide_eq_true_eq] at h
  obtain ⟨⟨hseq, hsafe⟩, hcommits⟩ := h
  have happend := append_auditEvent (S := S) htype hseq hsafe hcommits
  cases happend.symm.trans hfail

/-! ## Approvals -/

def ApprovalMarked (uuid : Nat → String) (s : ConsentSystem σ) (n : Nat) : Prop :=
  (s.approval n).phase.stage.Marked (Decides uuid s n) (approvalMarks (uuid n) s.log)

theorem ApprovalMarked.congr (h : ApprovalMarked uuid s n)
    (hstage : (s'.approval n).phase.stage = (s.approval n).phase.stage)
    (hturn : (s'.approval n).turn = (s.approval n).turn)
    (hmarks : approvalMarks (uuid n) s'.log = approvalMarks (uuid n) s.log) :
    ApprovalMarked uuid s' n := by
  unfold ApprovalMarked Decides at *
  rw [hstage, hturn, hmarks]
  exact h

/-- A step of the approval itself keeps its marks. -/
theorem ApprovalMarked.own (hown : s.ownerApproval i = some n)
    (hcond : s.undisturbed P uuid i = true)
    (hfree : s.approvals ≤ n → approvalMarks (uuid n) s.log = []) (h : ApprovalMarked uuid s n) :
    ApprovalMarked uuid (step S P uuid s i) n := by
  have hunasked := Stage.Marked.unasked h
  have hasked := Stage.Marked.asked h
  cases s.approval_move S P uuid hown with
  | started hn hcount hphase hlog =>
    unfold ApprovalMarked
    rw [hlog, hfree (by omega)]
    rcases hphase with hphase | ⟨_, _, hphase⟩ <;> rw [hphase]
    · rfl
    · exact .inl rfl
  | kept hcall hlog | cancelled hcall hlog =>
    exact h.congr (by rw [hcall]) (by rw [hcall]) (by rw [hlog])
  | entered generation hi hphase hcall hlog | askRead seq hphase hcall hlog
  | vetoed replies outcome hphase hdenies hcall hlog
  | passed replies hphase hpolicy hlength hreplies hcall hlog
  | answered replies hphase hlength hcall hlog | aborted hphase hcall hlog
  | decided outcome final hphase hfinal hcall hlog
  | decideRead outcome seq hi hphase hseq hcall hlog =>
    exact h.congr (by rw [hcall, hphase]; rfl) (by rw [hcall]) (by rw [hlog])
  | turnedAway outcome hphase hdenies hcall hlog =>
    unfold ApprovalMarked
    rw [hcall, hlog]
    exact .inl (hunasked (by rw [hphase]; rfl))
  | notAsked cancelled hphase hcall hlog =>
    unfold ApprovalMarked
    rw [hcall, hlog]
    refine .inl (hunasked ?_)
    rcases hphase with hphase | ⟨_, hphase⟩ <;> rw [hphase] <;> rfl
  | asked seq cancelled hphase hcall hlog =>
    unfold ApprovalMarked
    rw [hcall, hlog, approvalMarks_append, hunasked (by rw [hphase]; rfl),
      approvalMarks_askedEvent, if_pos rfl]
    exact ⟨_, rfl⟩
  | settled outcome seq hphase hseq hcall hlog =>
    obtain ⟨asked, hmarks⟩ := hasked (by rw [hphase]; rfl)
    unfold ApprovalMarked Decides
    rw [hcall, hlog, approvalMarks_append, hmarks, approvalMarks_decidedEvent, if_pos rfl]
    exact .inr ⟨asked, _, rfl, rfl⟩
  | exhausted outcome err hi hphase hseq =>
    rw [hi] at hcond
    simp only [undisturbed, hseq] at hcond
    cases hcond
  | lost outcome seq err hi hphase hfail =>
    rw [hi] at hcond
    simp only [undisturbed, hphase] at hcond
    exact (not_failed_of_lands (by decide) hcond hfail).elim

/-! ## Questions -/

def QuestionMarked (uuid : Nat → String) (s : ConsentSystem σ) (n : Nat) : Prop :=
  (s.question n).phase.stage.Marked (Resolves uuid s n) (questionMarks (uuid n) s.log)

theorem QuestionMarked.congr (h : QuestionMarked uuid s n)
    (hstage : (s'.question n).phase.stage = (s.question n).phase.stage)
    (hturn : (s'.question n).turn = (s.question n).turn)
    (hmarks : questionMarks (uuid n) s'.log = questionMarks (uuid n) s.log) :
    QuestionMarked uuid s' n := by
  unfold QuestionMarked Resolves at *
  rw [hstage, hturn, hmarks]
  exact h

/-- A step of the question itself keeps its marks. -/
theorem QuestionMarked.own (hown : s.ownerQuestion i = some n)
    (hcond : s.undisturbed P uuid i = true)
    (hfree : s.questions ≤ n → questionMarks (uuid n) s.log = []) (h : QuestionMarked uuid s n) :
    QuestionMarked uuid (step S P uuid s i) n := by
  have hunasked := Stage.Marked.unasked h
  have hasked := Stage.Marked.asked h
  cases s.question_move S P uuid hown with
  | started hn hcount hreply hsince hphase hlog =>
    unfold QuestionMarked
    rw [hlog, hfree (by omega)]
    rcases hphase with hphase | ⟨_, hphase⟩ <;> rw [hphase]
    · rfl
    · exact .inl rfl
  | kept hcall hlog | cancelled hcall hlog | replied told hpending hcall hlog =>
    exact h.congr (by rw [hcall]) (by rw [hcall]) (by rw [hlog])
  | registered hphase hcall hlog | askRead seq hphase hcall hlog
  | resolving answer hi hphase hanswer hcall hlog | resolveRead answer seq hphase hcall hlog =>
    exact h.congr (by rw [hcall, hphase]; rfl) (by rw [hcall]) (by rw [hlog])
  | turnedAway err hphase hcall hlog | askExhausted err hi hphase hseq hcall hlog
  | notAsked seq fires err hi hphase hfail hcall hlog =>
    unfold QuestionMarked
    rw [hcall, hlog]
    exact .inl (hunasked (by rw [hphase]; rfl))
  | asked seq cancelled hphase hcall hlog =>
    unfold QuestionMarked
    rw [hcall, hlog, questionMarks_append, hunasked (by rw [hphase]; rfl),
      questionMarks_askedEvent, if_pos rfl]
    exact ⟨_, rfl⟩
  | settled answer seq hphase hcall hlog =>
    obtain ⟨asked, hmarks⟩ := hasked (by rw [hphase]; rfl)
    unfold QuestionMarked Resolves
    rw [hcall, hlog, questionMarks_append, hmarks, questionMarks_resolvedEvent, if_pos rfl]
    exact .inr ⟨asked, _, rfl, answer, rfl, rfl⟩
  | exhausted answer err hi hphase hseq =>
    rw [hi] at hcond
    simp only [undisturbed, hseq] at hcond
    cases hcond
  | lost answer seq err hi hphase hfail =>
    rw [hi] at hcond
    simp only [undisturbed, hphase] at hcond
    exact (not_failed_of_lands (by decide) hcond hfail).elim

/-! ## Accepted answers -/

/-- What excuses a question from returning the answer it was given. -/
def Excused (s : ConsentSystem σ) (n : Nat) : Prop :=
  (s.question n).cancelled = true ∨ s.TurnEnded n

/-- An accepted answer is still to be received, or what the question
settles on. -/
def QuestionPhase.Honours (excused : Prop) (answer : AskUserQuestionAnswer) :
    QuestionPhase → Prop
  | .begun => False
  | .registered => True
  | .askRead _ => True
  | .waiting => True
  | .resolving settled => settled = some answer ∨ excused
  | .resolveRead settled _ => settled = some answer ∨ excused
  | .returned result => result = .ok answer ∨ excused

def Honoured (s : ConsentSystem σ) (n : Nat) : Prop :=
  ∀ answer, (s.question n).reply = some (.answered answer) →
    QuestionPhase.Honours (s.Excused n) answer (s.question n).phase

theorem QuestionPhase.Honours.mono {excused excused' : Prop} {phase : QuestionPhase}
    (himp : excused → excused') (h : QuestionPhase.Honours excused answer phase) :
    QuestionPhase.Honours excused' answer phase := by
  cases phase with
  | begun => exact h
  | registered | askRead seq | waiting => trivial
  | resolving settled | resolveRead settled seq | returned result => exact h.imp_right himp

theorem Excused.mono (h : s.Excused n)
    (hcancelled : (s.question n).cancelled = true → (s'.question n).cancelled = true)
    (hturn : (s'.question n).turn = (s.question n).turn)
    (hsince : (s'.question n).since = (s.question n).since) (hgrows : s.log <+: s'.log) :
    s'.Excused n := by
  rcases h with h | ⟨k, hfrom, hto, hended⟩
  · exact .inl (hcancelled h)
  · obtain ⟨added, hlog⟩ := hgrows
    refine .inr ⟨k, by rw [hsince]; exact hfrom, ?_, ?_⟩
    · rw [← hlog, length_append]
      omega
    · rw [hturn, ← hlog, take_append_of_le_length hto]
      exact hended

theorem Honoured.congr {s s' : ConsentSystem σ} {n : Nat} (h : s.Honoured n)
    (hreply : (s'.question n).reply = (s.question n).reply)
    (hphase : (s'.question n).phase = (s.question n).phase)
    (hexcused : s.Excused n → s'.Excused n) : s'.Honoured n := by
  intro answer hanswer
  rw [hreply] at hanswer
  rw [hphase]
  exact (h answer hanswer).mono hexcused

/-- A settled answer that is not the given one is excused while the owner
is there. -/
theorem settledAnswer_excused (given : AskUserQuestionAnswer)
    (howner : (s.slotOpen && s.agentLive) = true) (hsince : (s.question n).since ≤ s.log.length) :
    s.settledAnswer n given = some given ∨ s.Excused n := by
  unfold settledAnswer
  by_cases hcancelled : (s.question n).cancelled = true
  · exact .inr (.inl hcancelled)
  · by_cases hturn : activeTurn s.log = some (s.question n).turn
    · simp [hcancelled, hturn, howner]
    · refine .inr (.inr ⟨s.log.length, hsince, le_refl _, ?_⟩)
      rw [List.take_length]
      exact hturn

theorem hasAnswer_of_reply (h : (s.question n).reply = some (.answered answer)) :
    s.hasAnswer n = true := by
  unfold hasAnswer
  rw [h]

/-- A step of the question itself honours the answer. -/
theorem Honoured.own (hown : s.ownerQuestion i = some n) (hcond : s.undisturbed P uuid i = true)
    (hsince : (s.question n).since ≤ s.log.length) (h : s.Honoured n) :
    (step S P uuid s i).Honoured n := by
  have hgrows := s.step_grows S P uuid i
  intro given hgiven
  cases s.question_move S P uuid hown with
  | started hn hcount hreply =>
    rw [hreply] at hgiven
    cases hgiven
  | kept hcall hlog | cancelled hcall hlog =>
    rw [hcall] at hgiven ⊢
    refine (h given hgiven).mono fun he => he.mono ?_ ?_ ?_ hgrows <;> simp [hcall]
  | turnedAway err hphase hcall =>
    rw [hcall] at hgiven
    have hbegun := h given hgiven
    rw [hphase] at hbegun
    exact hbegun.elim
  | registered hphase hcall | askRead seq hphase hcall
  | asked seq cancelled hphase hcall => rw [hcall]; trivial
  | askExhausted err hi hphase hseq hcall =>
    rw [hcall] at hgiven
    rw [hi] at hcond
    simp only [undisturbed, hasAnswer_of_reply hgiven, hseq] at hcond
    cases hcond
  | notAsked seq fires err hi hphase hfail hcall =>
    rw [hcall] at hgiven ⊢
    rw [hi] at hcond
    simp only [undisturbed, hphase, hasAnswer_of_reply hgiven, Bool.not_true, Bool.false_or,
      or_eq_true] at hcond
    by_cases hcancelled : ((s.question n).cancelled || fires) = true
    · exact .inr (.inl (by rw [hcall]; exact hcancelled))
    · -- the token is still, so the append succeeds
      rcases hcond with hfired | hlands
      · exact absurd (by simpa using hfired) hcancelled
      · rw [not_eq_true] at hcancelled
        rw [hcancelled] at hfail
        exact (not_failed_of_lands (by decide) hlands hfail).elim
  | replied told hpending hcall =>
    rw [hcall] at hgiven ⊢
    dsimp only at hgiven ⊢
    by_cases hlistens : QuestionPhase.listens (s.question n).phase = true
    · revert hlistens
      cases (s.question n).phase <;> simp [QuestionPhase.listens, QuestionPhase.Honours]
    · rw [if_neg hlistens] at hgiven
      refine (h given hgiven).mono fun he => he.mono ?_ ?_ ?_ hgrows <;> simp [hcall]
  | resolving answer hi hphase hanswer hcall =>
    rw [hcall] at hgiven ⊢
    rw [hi] at hcond
    simp only [undisturbed, hasAnswer_of_reply hgiven, Bool.not_true, Bool.false_or] at hcond
    have hexcused : s.Excused n → (step S P uuid s i).Excused n := fun he =>
      he.mono (by simp [hcall]) (by rw [hcall]) (by rw [hcall]) hgrows
    rcases hanswer with hcancelled | hcancelled | ⟨accepted, haccepted, rfl⟩
    · exact .inr (hexcused (.inl hcancelled))
    · exact absurd (hcancelled.symm.trans hgiven) (by simp)
    · obtain rfl : accepted = given := by simpa using haccepted.symm.trans hgiven
      exact (settledAnswer_excused accepted hcond hsince).imp_right hexcused
  | resolveRead answer seq hphase hcall =>
    rw [hcall] at hgiven ⊢
    have howed := h given hgiven
    rw [hphase] at howed
    exact howed.imp_right fun he =>
      he.mono (by simp [hcall]) (by rw [hcall]) (by rw [hcall]) hgrows
  | settled answer seq hphase hcall =>
    rw [hcall] at hgiven ⊢
    have howed := h given hgiven
    rw [hphase] at howed
    rcases howed with rfl | he
    · exact .inl rfl
    · exact .inr (he.mono (by simp [hcall]) (by rw [hcall]) (by rw [hcall]) hgrows)
  | exhausted answer err hi hphase hseq =>
    rw [hi] at hcond
    simp only [undisturbed, hseq] at hcond
    cases hcond
  | lost answer seq err hi hphase hfail =>
    rw [hi] at hcond
    simp only [undisturbed, hphase] at hcond
    exact (not_failed_of_lands (by decide) hcond hfail).elim

/-! ## Whole runs -/

/-- Every event of the given type carries the id of one of the first
`count` calls. -/
def Owned (eventType key : String) (uuid : Nat → String) (count : Nat)
    (events : List SessionEvent) : Prop :=
  ∀ e ∈ events, e.eventType = eventType →
    ∃ n < count, (e.data.get key).bind Value.asStr = some (uuid n)

theorem Owned.mono {eventType key : String} {count count' : Nat} {events : List SessionEvent}
    (h : Owned eventType key uuid count events) (hle : count ≤ count') :
    Owned eventType key uuid count' events := by
  intro e he htype
  obtain ⟨n, hn, hid⟩ := h e he htype
  exact ⟨n, by omega, hid⟩

theorem Owned.snoc {eventType key : String} {count : Nat} {events : List SessionEvent}
    {e : SessionEvent} (h : Owned eventType key uuid count events)
    (he : e.eventType = eventType →
      ∃ n < count, (e.data.get key).bind Value.asStr = some (uuid n)) :
    Owned eventType key uuid count (events ++ [e]) := by
  intro x hx htype
  rcases mem_append.mp hx with hold | hnew
  · exact h x hold htype
  · obtain rfl := mem_singleton.mp hnew
    exact he htype

/-- The invariant of a run that starts from the log `before`: every call
is marked as its stage says, an id not drawn yet is unused, and every
asked event of the run belongs to a call. -/
structure Settling (uuid : Nat → String) (before : List SessionEvent) (s : ConsentSystem σ) :
    Prop where
  grows : before <+: s.log
  approvals : ∀ n, ApprovalMarked uuid s n
  freeApproval : ∀ n, s.approvals ≤ n →
    (∃ outcome, (s.approval n).phase = .returned outcome) ∧ approvalMarks (uuid n) s.log = []
  questions : ∀ n, QuestionMarked uuid s n
  freeQuestion : ∀ n, s.questions ≤ n →
    (∃ result, (s.question n).phase = .returned result) ∧ questionMarks (uuid n) s.log = []
  since : ∀ n, (s.question n).since ≤ s.log.length
  honoured : ∀ n, s.Honoured n
  ownedApproval :
    Owned "approval/asked" "approvalId" uuid s.approvals (s.log.drop before.length)
  ownedQuestion : Owned "question/asked" "rpcId" uuid s.questions (s.log.drop before.length)

theorem fresh_settling (session : Live σ) (policy : ApprovalPolicy)
    (hfresh : ∀ n, approvalMarks (uuid n) session.state.events = []
      ∧ questionMarks (uuid n) session.state.events = []) :
    Settling uuid session.state.events (fresh session policy) where
  grows := List.prefix_refl _
  approvals n := .inl (hfresh n).1
  freeApproval n _ := ⟨⟨_, rfl⟩, (hfresh n).1⟩
  questions n := .inl (hfresh n).2
  freeQuestion n _ := ⟨⟨_, rfl⟩, (hfresh n).2⟩
  since _ := Nat.zero_le _
  honoured _ _ h := by cases h
  ownedApproval e he := by simp [fresh, log] at he
  ownedQuestion e he := by simp [fresh, log] at he

section Step

variable {before : List SessionEvent} {s : ConsentSystem σ} {i : ConsentStep}

theorem Settling.step_approval (h : Settling uuid before s) (huuid : Function.Injective uuid)
    (hcond : s.undisturbed P uuid i = true) (n : Nat) :
    ApprovalMarked uuid (step S P uuid s i) n := by
  by_cases hown : s.ownerApproval i = some n
  · exact (h.approvals n).own hown hcond fun hfree => (h.freeApproval n hfree).2
  · have hcall := (s.step_spares S P uuid i).approval hown
    exact (h.approvals n).congr (by rw [hcall]) (by rw [hcall])
      (s.step_approvalMarks_ne S P uuid huuid hown)

variable {n : Nat}

section

variable (h : Settling uuid before s)

include h

/-- An approval that was not asked yet has no marks. -/
theorem Settling.step_freeApproval (huuid : Function.Injective uuid)
    (hn : (step S P uuid s i).approvals ≤ n) :
    (∃ outcome, ((step S P uuid s i).approval n).phase = .returned outcome)
      ∧ approvalMarks (uuid n) (step S P uuid s i).log = [] := by
  have hle := (s.step_spares S P uuid i).approvals
  obtain ⟨⟨outcome, hreturned⟩, hmarks⟩ := h.freeApproval n (by omega)
  by_cases hown : s.ownerApproval i = some n
  · obtain ⟨⟨hnew, hcount⟩ | hphase, hlog⟩ :=
      (s.approval_move S P uuid hown).returned hreturned
    · omega
    · rw [hlog]
      exact ⟨⟨outcome, hphase⟩, hmarks⟩
  · rw [(s.step_spares S P uuid i).approval hown, s.step_approvalMarks_ne S P uuid huuid hown]
    exact ⟨⟨outcome, hreturned⟩, hmarks⟩

theorem Settling.step_question (huuid : Function.Injective uuid)
    (hcond : s.undisturbed P uuid i = true) (n : Nat) :
    QuestionMarked uuid (step S P uuid s i) n := by
  by_cases hown : s.ownerQuestion i = some n
  · exact (h.questions n).own hown hcond fun hfree => (h.freeQuestion n hfree).2
  · have hcall := (s.step_spares S P uuid i).question hown
    exact (h.questions n).congr (by rw [hcall]) (by rw [hcall])
      (s.step_questionMarks_ne S P uuid huuid hown)

/-- A question that was not asked yet has no marks. -/
theorem Settling.step_freeQuestion (huuid : Function.Injective uuid)
    (hn : (step S P uuid s i).questions ≤ n) :
    (∃ result, ((step S P uuid s i).question n).phase = .returned result)
      ∧ questionMarks (uuid n) (step S P uuid s i).log = [] := by
  have hle := (s.step_spares S P uuid i).questions
  obtain ⟨⟨result, hreturned⟩, hmarks⟩ := h.freeQuestion n (by omega)
  by_cases hown : s.ownerQuestion i = some n
  · obtain ⟨⟨hnew, hcount⟩ | hphase, hlog⟩ :=
      (s.question_move S P uuid hown).returned hreturned
    · omega
    · rw [hlog]
      exact ⟨⟨result, hphase⟩, hmarks⟩
  · rw [(s.step_spares S P uuid i).question hown, s.step_questionMarks_ne S P uuid huuid hown]
    exact ⟨⟨result, hreturned⟩, hmarks⟩

theorem Settling.step_since (n : Nat) :
    ((step S P uuid s i).question n).since ≤ (step S P uuid s i).log.length := by
  have hgrows := (s.step_grows S P uuid i).length_le
  have hold := h.since n
  by_cases hown : s.ownerQuestion i = some n
  · cases s.question_move S P uuid hown with
    | started hn hcount hreply hsince hphase hlog => rw [hsince, hlog]
    | _ =>
      rename_i hcall hlog
      simp only [hcall]
      omega
  · rw [(s.step_spares S P uuid i).question hown]
    omega

theorem Settling.step_honoured (hcond : s.undisturbed P uuid i = true) (n : Nat) :
    (step S P uuid s i).Honoured n := by
  by_cases hown : s.ownerQuestion i = some n
  · exact (h.honoured n).own hown hcond (h.since n)
  · have hcall := (s.step_spares S P uuid i).question hown
    exact (h.honoured n).congr (by rw [hcall]) (by rw [hcall]) fun he =>
      he.mono (by simp [hcall]) (by rw [hcall]) (by rw [hcall]) (s.step_grows S P uuid i)

/-- New approval marks belong to approvals that were asked. -/
theorem Settling.step_ownedApproval :
    Owned "approval/asked" "approvalId" uuid (step S P uuid s i).approvals
      ((step S P uuid s i).log.drop before.length) := by
  have hold := h.ownedApproval.mono (s.step_spares S P uuid i).approvals
  have hdrop : ∀ e, (s.log ++ [e]).drop before.length = s.log.drop before.length ++ [e] :=
    fun e => List.drop_append_of_le_length h.grows.length_le
  cases s.step_log S P uuid i with
  | same hlog => rw [hlog]; exact hold
  | other e htype hseq hlog =>
    rw [hlog, hdrop]
    exact hold.snoc fun heq => absurd (by rw [heq]; decide) htype
  | approvalDecided n seq outcome hi hphase hseq hlog
  | questionAsked n seq fires hi hphase hseq hlog
  | questionResolved n seq answer hi hphase hseq hlog =>
    rw [hlog, hdrop]
    exact hold.snoc (by simp [decidedEvent, questionAskedEvent, resolvedEvent, auditEvent])
  | approvalAsked n seq fires hi hphase hseq hlog =>
    have hle := (s.step_spares S P uuid i).approvals
    have hn : n < s.approvals := by
      by_contra hfree
      obtain ⟨⟨outcome, hreturned⟩, _⟩ := h.freeApproval n (by omega)
      rw [hphase] at hreturned
      cases hreturned
    rw [hlog, hdrop]
    exact hold.snoc fun _ => ⟨n, by omega, rfl⟩

/-- New question marks belong to questions that were asked. -/
theorem Settling.step_ownedQuestion :
    Owned "question/asked" "rpcId" uuid (step S P uuid s i).questions
      ((step S P uuid s i).log.drop before.length) := by
  have hold := h.ownedQuestion.mono (s.step_spares S P uuid i).questions
  have hdrop : ∀ e, (s.log ++ [e]).drop before.length = s.log.drop before.length ++ [e] :=
    fun e => List.drop_append_of_le_length h.grows.length_le
  cases s.step_log S P uuid i with
  | same hlog => rw [hlog]; exact hold
  | other e htype hseq hlog =>
    rw [hlog, hdrop]
    exact hold.snoc fun heq => absurd (by rw [heq]; decide) htype
  | approvalAsked n seq fires hi hphase hseq hlog
  | approvalDecided n seq outcome hi hphase hseq hlog
  | questionResolved n seq answer hi hphase hseq hlog =>
    rw [hlog, hdrop]
    exact hold.snoc (by simp [askedEvent, decidedEvent, resolvedEvent, auditEvent])
  | questionAsked n seq fires hi hphase hseq hlog =>
    have hle := (s.step_spares S P uuid i).questions
    have hn : n < s.questions := by
      by_contra hfree
      obtain ⟨⟨result, hreturned⟩, _⟩ := h.freeQuestion n (by omega)
      rw [hphase] at hreturned
      cases hreturned
    rw [hlog, hdrop]
    exact hold.snoc fun _ => ⟨n, by omega, rfl⟩

end

/-- One step, undisturbed. -/
theorem Settling.step (huuid : Function.Injective uuid) (hcond : s.undisturbed P uuid i = true)
    (h : Settling uuid before s) : Settling uuid before (step S P uuid s i) where
  grows := h.grows.trans (s.step_grows S P uuid i)
  approvals := h.step_approval huuid hcond
  freeApproval _ := h.step_freeApproval huuid
  questions := h.step_question huuid hcond
  freeQuestion _ := h.step_freeQuestion huuid
  since := h.step_since
  honoured := h.step_honoured hcond
  ownedApproval := h.step_ownedApproval
  ownedQuestion := h.step_ownedQuestion

end Step

/-- **Every asked approval and question is settled once**, in every run
whose writes are not overtaken: what was asked belongs to a call; a call
that has returned wrote nothing, or that it asked and then, once, what it
returned; and an accepted answer is returned unless the call was
cancelled or its turn ended. -/
theorem consent_settled (huuid : Function.Injective uuid) (session : Live σ)
    (policy : ApprovalPolicy)
    (hfresh : ∀ n, approvalMarks (uuid n) session.state.events = []
      ∧ questionMarks (uuid n) session.state.events = [])
    (steps : List ConsentStep)
    (hrun : Meets (fun s i => undisturbed P uuid s i = true) (step S P uuid)
      (fresh session policy) steps) :
    let s := runFrom S P uuid (fresh session policy) steps
    Owned "approval/asked" "approvalId" uuid s.approvals
        (s.log.drop session.state.events.length)
    ∧ Owned "question/asked" "rpcId" uuid s.questions
        (s.log.drop session.state.events.length)
    ∧ (∀ n < s.approvals, ∀ outcome, (s.approval n).phase = .returned outcome →
        approvalMarks (uuid n) s.log = []
        ∨ ∃ asked, approvalMarks (uuid n) s.log = [.asked asked, .settled
            (ApprovalDecision.toValue ⟨uuid n, (s.approval n).turn, outcome⟩)])
    ∧ (∀ n < s.questions, ∀ result, (s.question n).phase = .returned result →
        questionMarks (uuid n) s.log = []
        ∨ ∃ asked answer, questionMarks (uuid n) s.log = [.asked asked, .settled
            (QuestionResolved.toValue ⟨uuid n, (s.question n).turn, answer⟩)]
            ∧ result = answerResult answer)
    ∧ (∀ n < s.questions, ∀ result answer, (s.question n).phase = .returned result →
        (s.question n).reply = some (.answered answer) →
        result = .ok answer ∨ (s.question n).cancelled = true ∨ s.TurnEnded n) := by
  intro s
  have h : Settling uuid session.state.events s :=
    foldl_invariant_of_meets (Settling uuid session.state.events)
      (fun _ _ hcond h => h.step huuid hcond) steps _ hrun
      (fresh_settling session policy hfresh)
  refine ⟨h.ownedApproval, h.ownedQuestion, fun n _ outcome hphase => ?_,
    fun n _ result hphase => ?_, fun n _ result answer hphase hreply => ?_⟩
  · have hmarked := h.approvals n
    unfold ApprovalMarked at hmarked
    rw [hphase] at hmarked
    rcases hmarked with hnone | ⟨asked, _, hmarks, rfl⟩
    · exact .inl hnone
    · exact .inr ⟨asked, hmarks⟩
  · have hmarked := h.questions n
    unfold QuestionMarked at hmarked
    rw [hphase] at hmarked
    rcases hmarked with hnone | ⟨asked, _, hmarks, answer, hresult, rfl⟩
    · exact .inl hnone
    · exact .inr ⟨asked, answer, hmarks, hresult⟩
  · have hhonoured := h.honoured n answer hreply
    rw [hphase] at hhonoured
    exact hhonoured

/-! ## Runs -/

def sampleAnswer : AskUserQuestionAnswer := [⟨"q", [], some "because"⟩]

/-- A question the user answers, up to the number of its resolution. -/
def questionRun : List ConsentStep :=
  [.ask [⟨"q", "why?", none, none, none, none, none⟩] ⟨"c"⟩ false, .registerQuestion 0,
   .readAsked 0, .commitAsked 0 false, .respondAnswer 0 sampleAnswer, .receive 0,
   .readResolved 0]

/-- Both are settled when nobody comes in between. -/
theorem consent_settled_sampleRun :
    let s := sampleRun (approvalRun ++ [.readDecision 0, .commitDecision 0] ++ questionRun ++ [.commitResolved 0])
    (s.approval 0).phase = .returned .allowedOnce
    ∧ (s.question 0).phase = .returned (.ok sampleAnswer)
    ∧ (approvalMarks (unaryId 0) s.log = []
        ∨ ∃ asked, approvalMarks (unaryId 0) s.log = [.asked asked, .settled
            (ApprovalDecision.toValue ⟨unaryId 0, (s.approval 0).turn, .allowedOnce⟩)]) := by
  intro s
  have h := consent_settled (S := wireSerde) (P := memoryPersistence wireSerde)
    unaryId_injective (memorySession (.plain ⟨"s"⟩ 0)) .ask (fun n => ⟨rfl, rfl⟩)
    (approvalRun ++ [.readDecision 0, .commitDecision 0] ++ questionRun ++ [.commitResolved 0])
    (by decide +kernel)
  have hphase : (s.approval 0).phase = .returned .allowedOnce := by decide +kernel
  exact ⟨hphase, by decide +kernel, h.2.2.1 0 (by decide +kernel) _ hphase⟩

/-- Another writer commits between the number and the append: the
approval the user allowed is rejected and its decision is not in the log,
and the answer the registry accepted is gone, in a turn that goes on. -/
theorem decision_lost :
    let s := sampleRun (approvalRun ++ [.readDecision 0, turnWrite "job/done", .commitDecision 0]
      ++ questionRun ++ [turnWrite "job/done", .commitResolved 0])
    (s.approval 0).phase = .returned .rejected
    ∧ approvalMarks (unaryId 0) s.log
        = [.asked (approvalAsked unaryId s 0).toValue]
    ∧ (s.question 0).phase = .returned (.error .persistenceFailed)
    ∧ (s.question 0).reply = some (.answered sampleAnswer)
    ∧ (s.question 0).cancelled = false
    ∧ (∀ k ≤ s.log.length, (s.question 0).since ≤ k →
        activeTurn (s.log.take k) = some (s.question 0).turn)
    ∧ (questionMarks (unaryId 0) s.log).length = 1 := by
  decide +kernel

end ConsentSystem

end Tessivum.Approval
