/-
Tessivum.Approval.QuestionMoves — what one step can do to one question,
as `Tessivum.Approval.ApprovalMoves` says it for approvals.
-/
import Tessivum.Approval.AuditTheorems

namespace Tessivum.Approval

open Library Protocol Session

variable {σ : Type} {S : Serde} {P : Persistence σ} {uuid : Nat → String}

namespace ConsentSystem

variable (s : ConsentSystem σ)

variable {i : ConsentStep} {n : Nat}
variable (S P uuid) in
/-- A step of another question leaves the marks of this one. -/
theorem step_questionMarks_ne (huuid : Function.Injective uuid) (s : ConsentSystem σ)
    (hother : s.ownerQuestion i ≠ some n) :
    questionMarks (uuid n) (step S P uuid s i).log = questionMarks (uuid n) s.log := by
  have hsnoc : ∀ {e : SessionEvent} {log : List SessionEvent}, log = s.log ++ [e] →
      questionMarks (uuid n) [e] = [] →
      questionMarks (uuid n) log = questionMarks (uuid n) s.log := by
    rintro e _ rfl hmark
    rw [questionMarks_append, hmark, append_nil]
  have hne : ∀ {m : Nat}, s.ownerQuestion i = some m → uuid m ≠ uuid n := by
    intro m hm heq
    exact hother (by rw [hm, huuid heq])
  cases s.step_log S P uuid i with
  | same hlog => rw [hlog]
  | other e htype hseq hlog => exact hsnoc hlog (marks_of_not_mem htype _).2
  | approvalAsked m seq fires hi hphase hseq hlog =>
    exact hsnoc hlog (by simp [questionMarks, markOf_eq_none, askedEvent, auditEvent])
  | approvalDecided m seq outcome hi hphase hseq hlog =>
    exact hsnoc hlog (by simp [questionMarks, markOf_eq_none, decidedEvent, auditEvent])
  | questionAsked m seq fires hi hphase hseq hlog =>
    have hid := hne (m := m) (by rw [hi]; rfl)
    exact hsnoc hlog (by rw [questionMarks_askedEvent, if_neg hid])
  | questionResolved m seq answer hi hphase hseq hlog =>
    have hid := hne (m := m) (by rw [hi]; rfl)
    exact hsnoc hlog (by rw [questionMarks_resolvedEvent, if_neg hid])

/-- What a step of question `n` can do to it. Only `asked` and `settled`
add to the log. -/
inductive QuestionMove (S : Serde) (P : Persistence σ) (uuid : Nat → String)
    (s s' : ConsentSystem σ) (i : ConsentStep) (n : Nat) : Prop
  | started (hn : n = s.questions) (hcount : s'.questions = s.questions + 1)
      (hreply : (s'.question n).reply = none) (hsince : (s'.question n).since = s.log.length)
      (hphase : (s'.question n).phase = .begun
        ∨ ∃ err, (s'.question n).phase = .returned (.error err))
      (hlog : s'.log = s.log)
  | kept (hcall : s'.question n = s.question n) (hlog : s'.log = s.log)
  | cancelled (hcall : s'.question n = { s.question n with cancelled := true })
      (hlog : s'.log = s.log)
  | turnedAway (err : QuestionError) (hphase : (s.question n).phase = .begun)
      (hcall : s'.question n = { s.question n with phase := .returned (.error err) })
      (hlog : s'.log = s.log)
  | registered (hphase : (s.question n).phase = .begun)
      (hcall : s'.question n = { s.question n with pending := true, phase := .registered })
      (hlog : s'.log = s.log)
  | askRead (seq : Nat) (hphase : (s.question n).phase = .registered)
      (hcall : s'.question n = { s.question n with phase := .askRead seq })
      (hlog : s'.log = s.log)
  | askExhausted (err : SessionError) (hi : i = .readAsked n)
      (hphase : (s.question n).phase = .registered) (hseq : nextSeq s.log = .error err)
      (hcall : s'.question n = { s.question n with
        pending := false, phase := .returned (.error .persistenceFailed) })
      (hlog : s'.log = s.log)
  | asked (seq : Nat) (cancelled : Bool) (hphase : (s.question n).phase = .askRead seq)
      (hcall : s'.question n = { s.question n with cancelled, phase := .waiting })
      (hlog : s'.log = s.log ++ [questionAskedEvent uuid s n seq])
  | notAsked (seq : Nat) (fires : Bool) (err : SessionError) (hi : i = .commitAsked n fires)
      (hphase : (s.question n).phase = .askRead seq)
      (hfail : (s.session.append S P (questionAskedEvent uuid s n seq)
        (tokenDuring ((s.question n).cancelled || fires))).1 = .error err)
      (hcall : s'.question n = { s.question n with
        cancelled := (s.question n).cancelled || fires, pending := false
        phase := .returned (.error .persistenceFailed) })
      (hlog : s'.log = s.log)
  | replied (told : QuestionReply) (hpending : (s.question n).pending = true)
      (hcall : s'.question n = { s.question n with
        pending := false
        reply := if QuestionPhase.listens (s.question n).phase then some told
          else (s.question n).reply })
      (hlog : s'.log = s.log)
  | resolving (answer : Option AskUserQuestionAnswer) (hi : i = .receive n)
      (hphase : (s.question n).phase = .waiting)
      (hanswer : (s.question n).cancelled = true ∨ (s.question n).reply = some .cancelled
        ∨ ∃ given, (s.question n).reply = some (.answered given)
            ∧ answer = s.settledAnswer n given)
      (hcall : s'.question n = { s.question n with phase := .resolving answer })
      (hlog : s'.log = s.log)
  | resolveRead (answer : Option AskUserQuestionAnswer) (seq : Nat)
      (hphase : (s.question n).phase = .resolving answer)
      (hcall : s'.question n = { s.question n with phase := .resolveRead answer seq })
      (hlog : s'.log = s.log)
  | exhausted (answer : Option AskUserQuestionAnswer) (err : SessionError)
      (hi : i = .readResolved n) (hphase : (s.question n).phase = .resolving answer)
      (hseq : nextSeq s.log = .error err)
      (hcall : s'.question n = { s.question n with
        pending := false, phase := .returned (.error .persistenceFailed) })
      (hlog : s'.log = s.log)
  | settled (answer : Option AskUserQuestionAnswer) (seq : Nat)
      (hphase : (s.question n).phase = .resolveRead answer seq)
      (hcall : s'.question n = { s.question n with
        pending := false, phase := .returned (answerResult answer) })
      (hlog : s'.log = s.log ++ [resolvedEvent uuid s n answer seq])
  | lost (answer : Option AskUserQuestionAnswer) (seq : Nat) (err : SessionError)
      (hi : i = .commitResolved n) (hphase : (s.question n).phase = .resolveRead answer seq)
      (hfail : (s.session.append S P (resolvedEvent uuid s n answer seq) .never).1 = .error err)
      (hcall : s'.question n = { s.question n with
        pending := false, phase := .returned (.error .persistenceFailed) })
      (hlog : s'.log = s.log)

theorem ask_move (questions : List AskUserQuestionItem) (callId : ToolCallId) (cancelled : Bool) :
    QuestionMove S P uuid s (s.ask questions callId cancelled)
      (.ask questions callId cancelled) s.questions := by
  refine .started rfl rfl (by simp [ask, setQuestion]) (by simp [ask, setQuestion]) ?_ rfl
  simp only [ask, setQuestion, update_self]
  split_ifs
  · exact .inr ⟨.emptyQuestions, rfl⟩
  · exact .inr ⟨.badIntent, rfl⟩
  · exact .inr ⟨.aborted, rfl⟩
  · exact .inr ⟨.missingAgent, rfl⟩
  · exact .inr ⟨.callerNotLive, rfl⟩
  · exact .inr ⟨.noActiveTurn, rfl⟩
  · exact .inl rfl

theorem registerQuestion_move (n : Nat) :
    QuestionMove S P uuid s (s.registerQuestion n) (.registerQuestion n) n := by
  unfold registerQuestion
  dsimp only
  split
  · rename_i hbegun
    split_ifs
    · exact .turnedAway .missingAgent hbegun (by simp [questionAt]) rfl
    · exact .turnedAway .callerNotLive hbegun (by simp [questionAt]) rfl
    · exact .registered hbegun (by simp) rfl
  · exact .kept rfl rfl

theorem readAsked_move (n : Nat) : QuestionMove S P uuid s (s.readAsked n) (.readAsked n) n := by
  unfold readAsked
  split
  · rename_i hregistered
    cases hseq : nextSeq s.log with
    | ok seq => exact .askRead seq hregistered (by simp [questionAt]) rfl
    | error err => exact .askExhausted err rfl hregistered hseq (by simp [leaveQuestion]) rfl
  · exact .kept rfl rfl

theorem commitAsked_move (n : Nat) (fires : Bool) :
    QuestionMove S P uuid s (s.commitAsked S P uuid n fires) (.commitAsked n fires) n := by
  unfold commitAsked
  dsimp only
  split
  · rename_i seq hphase
    split
    · rename_i hcall
      exact .asked seq ((s.question n).cancelled || fires) hphase (by simp [setQuestion])
        (append_ok hcall).2
    · rename_i hcall
      exact .notAsked seq fires _ rfl hphase (by rw [hcall]) (by simp [setQuestion])
        (append_error hcall)
  · exact .kept rfl rfl

theorem respondAnswer_move (n : Nat) (answer : AskUserQuestionAnswer) :
    QuestionMove S P uuid s (s.respondAnswer n answer) (.respondAnswer n answer) n := by
  unfold respondAnswer
  split
  · rename_i hmatch
    exact .replied (.answered answer) (Bool.and_eq_true_iff.mp hmatch).1 (by simp [reply]) rfl
  · exact .kept rfl rfl

theorem respondCancelled_move (n : Nat) :
    QuestionMove S P uuid s (s.respondCancelled n) (.respondCancelled n) n := by
  unfold respondCancelled
  split
  · rename_i hpending
    exact .replied .cancelled hpending (by simp [reply]) rfl
  · exact .kept rfl rfl

theorem receive_move (n : Nat) : QuestionMove S P uuid s (s.receive n) (.receive n) n := by
  unfold receive
  split
  · rename_i hwaiting
    split_ifs with hcancelled
    · exact .resolving none rfl hwaiting (.inl hcancelled) (by simp [questionAt]) rfl
    · cases hreply : (s.question n).reply with
      | none => exact .kept rfl rfl
      | some told =>
        cases told with
        | cancelled =>
          exact .resolving none rfl hwaiting (.inr (.inl hreply)) (by simp [questionAt]) rfl
        | answered answer =>
          exact .resolving (s.settledAnswer n answer) rfl hwaiting
            (.inr (.inr ⟨answer, hreply, rfl⟩)) (by simp [questionAt]) rfl
  · exact .kept rfl rfl

theorem readResolved_move (n : Nat) :
    QuestionMove S P uuid s (s.readResolved n) (.readResolved n) n := by
  unfold readResolved
  split
  · rename_i answer hphase
    cases hseq : nextSeq s.log with
    | ok seq => exact .resolveRead answer seq hphase (by simp [questionAt]) rfl
    | error err => exact .exhausted answer err rfl hphase hseq (by simp [leaveQuestion]) rfl
  · exact .kept rfl rfl

theorem commitResolved_move (n : Nat) :
    QuestionMove S P uuid s (s.commitResolved S P uuid n) (.commitResolved n) n := by
  unfold commitResolved
  split
  · rename_i answer seq hphase
    split
    · rename_i hcall
      exact .settled answer seq hphase (by simp [leaveQuestion, setQuestion])
        (append_ok hcall).2
    · rename_i hcall
      exact .lost answer seq _ rfl hphase (by rw [hcall]) (by simp [leaveQuestion, setQuestion])
        (append_error hcall)
  · exact .kept rfl rfl

variable (S P uuid) in
theorem question_move (hown : s.ownerQuestion i = some n) :
    QuestionMove S P uuid s (step S P uuid s i) i n := by
  cases i <;> simp only [ownerQuestion, some.injEq, reduceCtorEq] at hown <;> subst hown
  case ask questions callId cancelled => exact s.ask_move questions callId cancelled
  case cancelQuestion m => exact .cancelled (by simp [step, cancelQuestion]) rfl
  case registerQuestion m => exact s.registerQuestion_move m
  case readAsked m => exact s.readAsked_move m
  case commitAsked m fires => exact s.commitAsked_move m fires
  case respondAnswer m answer => exact s.respondAnswer_move m answer
  case respondCancelled m => exact s.respondCancelled_move m
  case receive m => exact s.receive_move m
  case readResolved m => exact s.readResolved_move m
  case commitResolved m => exact s.commitResolved_move m

theorem QuestionMove.returned {s s' : ConsentSystem σ}
    {result : Except QuestionError AskUserQuestionAnswer} (h : QuestionMove S P uuid s s' i n)
    (hreturned : (s.question n).phase = .returned result) :
    (n = s.questions ∧ s'.questions = s.questions + 1 ∨ (s'.question n).phase = .returned result)
      ∧ s'.log = s.log := by
  cases h with
  | started hn hcount hreply hsince hphase hlog => exact ⟨.inl ⟨hn, hcount⟩, hlog⟩
  | kept hcall hlog | cancelled hcall hlog | replied told hpending hcall hlog =>
    exact ⟨.inr (by rw [hcall]; exact hreturned), hlog⟩
  | _ => rename_i hphase _ _; simp_all

end ConsentSystem

end Tessivum.Approval
