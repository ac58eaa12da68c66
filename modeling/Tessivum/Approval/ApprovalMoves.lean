/-
Tessivum.Approval.ApprovalMoves — what one step can do to one approval.

A step that is not the approval's own leaves it (`step_spares`) and writes
nothing under its id (`step_approvalMarks_ne`). `ApprovalMove` says
once what its own steps do (`approval_move`): most move it on, two write.
-/
import Tessivum.Approval.AuditTheorems

namespace Tessivum.Approval

open Library Protocol Session

variable {σ : Type} {S : Serde} {P : Persistence σ} {uuid : Nat → String}

namespace ConsentSystem

variable {i : ConsentStep} {n : Nat}
variable (S P uuid) in
/-- A step of another approval leaves the marks of this one. -/
theorem step_approvalMarks_ne (huuid : Function.Injective uuid) (s : ConsentSystem σ)
    (hother : s.ownerApproval i ≠ some n) :
    approvalMarks (uuid n) (step S P uuid s i).log = approvalMarks (uuid n) s.log := by
  have hsnoc : ∀ {e : SessionEvent} {log : List SessionEvent}, log = s.log ++ [e] →
      approvalMarks (uuid n) [e] = [] →
      approvalMarks (uuid n) log = approvalMarks (uuid n) s.log := by
    rintro e _ rfl hmark
    rw [approvalMarks_append, hmark, append_nil]
  have hne : ∀ {m : Nat}, s.ownerApproval i = some m → uuid m ≠ uuid n := by
    intro m hm heq
    exact hother (by rw [hm, huuid heq])
  cases s.step_log S P uuid i with
  | same hlog => rw [hlog]
  | other e htype hseq hlog => exact hsnoc hlog (marks_of_not_mem htype _).1
  | approvalAsked m seq fires hi hphase hseq hlog =>
    have hid := hne (m := m) (by rw [hi]; rfl)
    exact hsnoc hlog (by rw [approvalMarks_askedEvent, if_neg hid])
  | approvalDecided m seq outcome hi hphase hseq hlog =>
    have hid := hne (m := m) (by rw [hi]; rfl)
    exact hsnoc hlog (by rw [approvalMarks_decidedEvent, if_neg hid])
  | questionAsked m seq fires hi hphase hseq hlog =>
    exact hsnoc hlog (by simp [approvalMarks, markOf_eq_none, questionAskedEvent, auditEvent])
  | questionResolved m seq answer hi hphase hseq hlog =>
    exact hsnoc hlog (by simp [approvalMarks, markOf_eq_none, resolvedEvent, auditEvent])

/-- What a step of approval `n` can do to it. Only `asked` and `settled`
add to the log. -/
inductive ApprovalMove (S : Serde) (P : Persistence σ) (uuid : Nat → String)
    (s s' : ConsentSystem σ) (i : ConsentStep) (n : Nat) : Prop
  | started (hn : n = s.approvals) (hcount : s'.approvals = s.approvals + 1)
      (hphase : (s'.approval n).phase = .waiting
        ∨ ∃ outcome, outcome ≠ .allowedOnce ∧ (s'.approval n).phase = .returned outcome)
      (hlog : s'.log = s.log)
  | kept (hcall : s'.approval n = s.approval n) (hlog : s'.log = s.log)
  | cancelled (hcall : s'.approval n = { s.approval n with cancelled := true })
      (hlog : s'.log = s.log)
  | turnedAway (outcome : ApprovalOutcome) (hphase : (s.approval n).phase = .waiting)
      (hdenies : outcome ≠ .allowedOnce)
      (hcall : s'.approval n = { s.approval n with phase := .returned outcome })
      (hlog : s'.log = s.log)
  | entered (generation : Nat) (hi : i = .enterApproval n)
      (hphase : (s.approval n).phase = .waiting)
      (hcall : s'.approval n = { s.approval n with
        generation, policy := s.policy, hooks := s.hooks
        answerers := s.answerers ++ s.hostAnswerers, phase := .entered })
      (hlog : s'.log = s.log)
  | askRead (seq : Nat) (hphase : (s.approval n).phase = .entered)
      (hcall : s'.approval n = { s.approval n with phase := .askRead seq })
      (hlog : s'.log = s.log)
  | notAsked (cancelled : Bool)
      (hphase : (s.approval n).phase = .entered ∨ ∃ seq, (s.approval n).phase = .askRead seq)
      (hcall : s'.approval n = { s.approval n with cancelled, phase := .returned .rejected })
      (hlog : s'.log = s.log)
  | asked (seq : Nat) (cancelled : Bool) (hphase : (s.approval n).phase = .askRead seq)
      (hcall : s'.approval n = { s.approval n with cancelled, phase := .asked })
      (hlog : s'.log = s.log ++ [askedEvent uuid s n seq])
  | vetoed (replies : List HookReply) (outcome : ApprovalOutcome)
      (hphase : (s.approval n).phase = .asked) (hdenies : outcome ≠ .allowedOnce)
      (hcall : s'.approval n = { s.approval n with
        hookReplies := replies, phase := .settling outcome })
      (hlog : s'.log = s.log)
  | passed (replies : List HookReply) (hphase : (s.approval n).phase = .asked)
      (hpolicy : (s.approval n).policy = .ask)
      (hlength : replies.length = (s.approval n).hooks.length)
      (hreplies : ∀ reply ∈ replies, reply = .pass)
      (hcall : s'.approval n = { s.approval n with hookReplies := replies, phase := .answering })
      (hlog : s'.log = s.log)
  | answered (replies : List AnswererReply) (hphase : (s.approval n).phase = .answering)
      (hlength : replies.length = (s.approval n).answerers.length)
      (hcall : s'.approval n = { s.approval n with
        answererReplies := replies, phase := .settling (waterfall replies) })
      (hlog : s'.log = s.log)
  | aborted (hphase : (s.approval n).phase = .answering)
      (hcall : s'.approval n = { s.approval n with phase := .settling .cancelled })
      (hlog : s'.log = s.log)
  | decided (outcome final : ApprovalOutcome) (hphase : (s.approval n).phase = .settling outcome)
      (hfinal : final = .allowedOnce →
        outcome = .allowedOnce ∧ activeTurn s.log = some (s.approval n).turn)
      (hcall : s'.approval n = { s.approval n with phase := .deciding final })
      (hlog : s'.log = s.log)
  | decideRead (outcome : ApprovalOutcome) (seq : Nat) (hi : i = .readDecision n)
      (hphase : (s.approval n).phase = .deciding outcome) (hseq : nextSeq s.log = .ok seq)
      (hcall : s'.approval n = { s.approval n with phase := .decideRead outcome seq })
      (hlog : s'.log = s.log)
  | exhausted (outcome : ApprovalOutcome) (err : SessionError) (hi : i = .readDecision n)
      (hphase : (s.approval n).phase = .deciding outcome) (hseq : nextSeq s.log = .error err)
      (hcall : s'.approval n = { s.approval n with phase := .returned .rejected })
      (hlog : s'.log = s.log)
  | settled (outcome : ApprovalOutcome) (seq : Nat)
      (hphase : (s.approval n).phase = .decideRead outcome seq) (hseq : nextSeq s.log = .ok seq)
      (hcall : s'.approval n = { s.approval n with phase := .returned outcome })
      (hlog : s'.log = s.log ++ [decidedEvent uuid s n outcome seq])
  | lost (outcome : ApprovalOutcome) (seq : Nat) (err : SessionError) (hi : i = .commitDecision n)
      (hphase : (s.approval n).phase = .decideRead outcome seq)
      (hfail : (s.session.append S P (decidedEvent uuid s n outcome seq) .never).1 = .error err)
      (hcall : s'.approval n = { s.approval n with phase := .returned .rejected })
      (hlog : s'.log = s.log)

variable (s : ConsentSystem σ)

theorem approve_move (request : ApprovalRequest) (cancelled : Bool)
    (toolName : String) (callId : Option ToolCallId) (reason : Option String) :
    ApprovalMove S P uuid s (s.approve request cancelled toolName callId reason)
      (.approve request cancelled toolName callId reason) s.approvals := by
  refine .started rfl rfl ?_ rfl
  simp only [approve, setApproval, update_self]
  split_ifs
  · exact .inr ⟨.unavailable, by decide, rfl⟩
  · exact .inr ⟨.cancelled, by decide, rfl⟩
  · exact .inr ⟨.unavailable, by decide, rfl⟩
  · exact .inl rfl

theorem enterApproval_move (n : Nat) :
    ApprovalMove S P uuid s (s.enterApproval n) (.enterApproval n) n := by
  unfold enterApproval
  dsimp only
  split
  · rename_i hwaiting
    split_ifs
    · exact .turnedAway .cancelled hwaiting.1 (by decide) (by simp [approvalAt]) rfl
    · exact .turnedAway .rejected hwaiting.1 (by decide) (by simp [approvalAt]) rfl
    · exact .entered (idAfter s.nextId) rfl hwaiting.1 (by simp [setApproval]) rfl
  · exact .kept rfl rfl

theorem readAsk_move (n : Nat) :
    ApprovalMove S P uuid s (s.readAsk n) (.readAsk n) n := by
  unfold readAsk
  split
  · rename_i hentered
    split
    · rename_i seq hseq
      exact .askRead seq hentered (by simp [approvalAt]) rfl
    · exact .notAsked (s.approval n).cancelled (.inl hentered)
        (by simp [leaveApproval, approvalAt, setApproval]) rfl
  · exact .kept rfl rfl

theorem commitAsk_move (n : Nat) (fires : Bool) :
    ApprovalMove S P uuid s (s.commitAsk S P uuid n fires) (.commitAsk n fires) n := by
  unfold commitAsk
  dsimp only
  split
  · rename_i seq hphase
    split
    · rename_i hcall
      exact .asked seq ((s.approval n).cancelled || fires) hphase (by simp [setApproval])
        (append_ok hcall).2
    · rename_i hcall
      exact .notAsked ((s.approval n).cancelled || fires) (.inr ⟨seq, hphase⟩)
        (by simp [setApproval]) (append_error hcall)
  · exact .kept rfl rfl

theorem HookReply.eq_pass_of_denies {reply : HookReply} (h : reply.denies = false) :
    reply = .pass := by
  cases reply with
  | pass => rfl
  | veto reason => cases h
  | panicked => cases h

theorem consultHooks_move (n : Nat) (replies : List HookReply) :
    ApprovalMove S P uuid s (s.consultHooks n replies) (.consultHooks n replies) n := by
  unfold consultHooks
  dsimp only
  split
  · rename_i hasked
    obtain ⟨hphase, hlength⟩ := hasked
    split_ifs with hcancelled hdenies
    · exact .vetoed replies .cancelled hphase (by decide) (by simp) rfl
    · exact .vetoed replies .rejected hphase (by decide) (by simp) rfl
    · have hreplies : ∀ reply ∈ replies, reply = .pass := by
        intro reply hmem
        apply HookReply.eq_pass_of_denies
        simpa using fun h => hdenies (List.any_eq_true.mpr ⟨reply, hmem, h⟩)
      cases hpolicy : (s.approval n).policy with
      | never => exact .vetoed replies .rejected hphase (by decide) (by simp [hpolicy]) rfl
      | ask =>
        exact .passed replies hphase hpolicy hlength hreplies (by simp [hpolicy]) rfl
  · exact .kept rfl rfl

theorem answerApproval_move (n : Nat) (replies : List AnswererReply) :
    ApprovalMove S P uuid s (s.answerApproval n replies) (.answerApproval n replies) n := by
  unfold answerApproval
  dsimp only
  split
  · rename_i hanswering
    split_ifs
    · exact .aborted hanswering.1 (by simp [approvalAt]) rfl
    · exact .answered replies hanswering.1 hanswering.2 (by simp) rfl
  · exact .kept rfl rfl

theorem abortApproval_move (n : Nat) :
    ApprovalMove S P uuid s (s.abortApproval n) (.abortApproval n) n := by
  unfold abortApproval
  split
  · rename_i hanswering
    exact .aborted hanswering.1 (by simp [approvalAt]) rfl
  · exact .kept rfl rfl

variable {outcome : ApprovalOutcome}

theorem finalOutcome_eq_allowedOnce {s : ConsentSystem σ} {n : Nat} (h : s.finalOutcome n outcome = .allowedOnce) :
    outcome = .allowedOnce ∧ activeTurn s.log = some (s.approval n).turn := by
  unfold finalOutcome at h
  split_ifs at h with hpending hcancelled hactive
  subst h
  simp only [decide_true, Bool.true_and, not_eq_true', not_eq_false] at hactive
  have hturn : (activeTurn s.log == some (s.approval n).turn) = true :=
    (Bool.and_eq_true_iff.mp hactive).2
  exact ⟨rfl, beq_iff_eq.mp hturn⟩

theorem decideApproval_move (n : Nat) :
    ApprovalMove S P uuid s (s.decideApproval n) (.decideApproval n) n := by
  unfold decideApproval
  split
  · rename_i outcome hphase
    split
    · exact .decided outcome (s.finalOutcome n outcome) hphase finalOutcome_eq_allowedOnce
        (by simp [approvalAt, setApproval]) rfl
    · exact .kept rfl rfl
  · exact .kept rfl rfl

theorem readDecision_move (n : Nat) :
    ApprovalMove S P uuid s (s.readDecision n) (.readDecision n) n := by
  unfold readDecision
  split
  · rename_i outcome hphase
    cases hseq : nextSeq s.log with
    | ok seq => exact .decideRead outcome seq rfl hphase hseq (by simp [approvalAt]) rfl
    | error err =>
      exact .exhausted outcome err rfl hphase hseq
        (by simp [leaveApproval, approvalAt, setApproval]) rfl
  · exact .kept rfl rfl

theorem commitDecision_move (n : Nat) :
    ApprovalMove S P uuid s (s.commitDecision S P uuid n) (.commitDecision n) n := by
  unfold commitDecision
  split
  · rename_i outcome seq hphase
    split
    · rename_i hcall
      exact .settled outcome seq hphase (append_ok hcall).1
        (by simp [leaveApproval, approvalAt, setApproval]) (append_ok hcall).2
    · rename_i hcall
      exact .lost outcome seq _ rfl hphase (by rw [hcall])
        (by simp [leaveApproval, approvalAt, setApproval]) (append_error hcall)
  · exact .kept rfl rfl

variable (S P uuid) in
theorem approval_move (hown : s.ownerApproval i = some n) :
    ApprovalMove S P uuid s (step S P uuid s i) i n := by
  cases i <;> simp only [ownerApproval, some.injEq, reduceCtorEq] at hown <;> subst hown
  case approve request cancelled toolName callId reason =>
    exact s.approve_move request cancelled toolName callId reason
  case cancelApproval m => exact .cancelled (by simp [step, cancelApproval]) rfl
  case enterApproval m => exact s.enterApproval_move m
  case readAsk m => exact s.readAsk_move m
  case commitAsk m fires => exact s.commitAsk_move m fires
  case consultHooks m replies => exact s.consultHooks_move m replies
  case answerApproval m replies => exact s.answerApproval_move m replies
  case abortApproval m => exact s.abortApproval_move m
  case decideApproval m => exact s.decideApproval_move m
  case readDecision m => exact s.readDecision_move m
  case commitDecision m => exact s.commitDecision_move m

theorem ApprovalMove.returned {s s' : ConsentSystem σ} (h : ApprovalMove S P uuid s s' i n)
    (hreturned : (s.approval n).phase = .returned outcome) :
    (n = s.approvals ∧ s'.approvals = s.approvals + 1 ∨ (s'.approval n).phase = .returned outcome)
      ∧ s'.log = s.log := by
  cases h with
  | started hn hcount hphase hlog => exact ⟨.inl ⟨hn, hcount⟩, hlog⟩
  | kept hcall hlog | cancelled hcall hlog => exact ⟨.inr (by rw [hcall]; exact hreturned), hlog⟩
  | notAsked cancelled hphase => simp [hreturned] at hphase
  | _ => rename_i hphase _ _; simp_all

end ConsentSystem

end Tessivum.Approval
