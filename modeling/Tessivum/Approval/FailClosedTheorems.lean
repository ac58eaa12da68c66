/-
Tessivum.Approval.FailClosedTheorems — an approval is allowed only by the way
through every check.

`Granting` says, phase by phase, what an approval that may still be allowed has
behind it. The checks of `approve_with_audit` establish all of it but one
thing: that the turn is still active when the decision is numbered is looked at
before the number is read, and `turnHolds` is the condition that it has not
ended in between.
-/
import Tessivum.Approval.ApprovalMoves

namespace Tessivum.Approval

open Library Protocol Session

/-! ## The waterfall and the turn -/

/-- The log is inside turn `turn`: its start is there, and nothing after
it starts or ends a turn. -/
def InTurn (turn : Nat) (log : List SessionEvent) : Prop :=
  ∃ earlier start later, log = earlier ++ start :: later ∧ start.eventType = "turn/start"
    ∧ (start.data.get "turn").bind Value.asU64 = some turn
    ∧ ∀ e ∈ later, e.eventType ≠ "turn/start" ∧ e.eventType ≠ "turn/end"

variable {log : List SessionEvent} {turn : Nat}

theorem InTurn.snoc {e : SessionEvent} (h : InTurn turn log) (hstart : e.eventType ≠ "turn/start")
    (hend : e.eventType ≠ "turn/end") : InTurn turn (log ++ [e]) := by
  obtain ⟨earlier, start, later, rfl, htype, hturn, hquiet⟩ := h
  refine ⟨earlier, start, later ++ [e], by simp, htype, hturn, fun x hx => ?_⟩
  rcases mem_append.mp hx with hold | hnew
  · exact hquiet x hold
  · obtain rfl := mem_singleton.mp hnew
    exact ⟨hstart, hend⟩

namespace ConsentSystem

variable {σ : Type} {S : Serde} {P : Persistence σ} {uuid : Nat → String}

/-! ## What an allowance has behind it -/

/-- The events hold that approval `n` was asked, under the policy its
call found. -/
def AskedIn (uuid : Nat → String) (s : ConsentSystem σ) (n : Nat)
    (events : List SessionEvent) : Prop :=
  ∃ e ∈ events, e.eventType = "approval/asked"
    ∧ (e.data.get "approvalId").bind Value.asStr = some (uuid n)
    ∧ (e.data.get "policy").bind Value.asStr = some (s.approval n).policy.asStr

/-- The policy asks and every hook passed. -/
structure Passed (call : ApprovalCall) : Prop where
  policy : call.policy = .ask
  consulted : call.hookReplies.length = call.hooks.length
  passed : ∀ reply ∈ call.hookReplies, reply = .pass

/-- Besides, the waterfall allows. -/
structure Granted (call : ApprovalCall) : Prop extends Passed call where
  asked : call.answererReplies.length = call.answerers.length
  allowed : waterfall call.answererReplies = .allowedOnce

/-- What an approval that may still be allowed has behind it. -/
def Granting (uuid : Nat → String) (s : ConsentSystem σ) (n : Nat) : Prop :=
  match (s.approval n).phase with
  | .waiting => True
  | .entered => True
  | .askRead _ => True
  | .asked => s.AskedIn uuid n s.log
  | .answering => s.AskedIn uuid n s.log ∧ Passed (s.approval n)
  | .settling outcome =>
    s.AskedIn uuid n s.log ∧ (outcome = .allowedOnce → Granted (s.approval n))
  | .deciding outcome =>
    s.AskedIn uuid n s.log ∧ (outcome = .allowedOnce → Granted (s.approval n))
  | .decideRead outcome seq =>
    ∃ before, before <+: s.log ∧ before.length = seq ∧ s.AskedIn uuid n before
      ∧ (outcome = .allowedOnce →
          Granted (s.approval n) ∧ activeTurn before = some (s.approval n).turn)
  | .returned outcome =>
    outcome = .allowedOnce → Granted (s.approval n)
      ∧ ∃ before after,
          s.log = before ++ decidedEvent uuid s n .allowedOnce before.length :: after
            ∧ s.AskedIn uuid n before ∧ activeTurn before = some (s.approval n).turn

/-- The condition on a step: the turn has not ended between the last
check of an allowance and the number its decision gets. -/
def turnHolds (s : ConsentSystem σ) : ConsentStep → Bool
  | .readDecision n =>
    match (s.approval n).phase with
    | .deciding .allowedOnce => activeTurn s.log == some (s.approval n).turn
    | _ => true
  | _ => true

/-! ## One step -/

variable {n : Nat} {s s' : ConsentSystem σ} {i : ConsentStep}

theorem AskedIn.mono {events events' : List SessionEvent} (h : s.AskedIn uuid n events)
    (hpolicy : (s'.approval n).policy = (s.approval n).policy) (hsub : events ⊆ events') :
    s'.AskedIn uuid n events' := by
  obtain ⟨e, hmem, htype, hid, hasked⟩ := h
  exact ⟨e, hsub hmem, htype, hid, by rw [hpolicy]; exact hasked⟩

/-- A grant looks at its own call and the log before. -/
theorem Granting.congr {cancelled : Bool} (h : s.Granting uuid n)
    (hcall : s'.approval n = { s.approval n with cancelled }) (hgrows : s.log <+: s'.log) :
    s'.Granting uuid n := by
  have hasked : ∀ {events events' : List SessionEvent}, s.AskedIn uuid n events →
      events ⊆ events' → s'.AskedIn uuid n events' := fun h hsub =>
    h.mono (by rw [hcall]) hsub
  have hpassed : Passed (s.approval n) → Passed (s'.approval n) := by
    rintro ⟨hpolicy, hlength, hpass⟩
    rw [hcall]
    exact ⟨hpolicy, hlength, hpass⟩
  have hgranted : Granted (s.approval n) → Granted (s'.approval n) := by
    rintro ⟨hp, hlength, hallowed⟩
    rw [hcall] at hpassed ⊢
    exact ⟨hpassed hp, hlength, hallowed⟩
  have hphase : (s'.approval n).phase = (s.approval n).phase := by rw [hcall]
  have hturn : (s'.approval n).turn = (s.approval n).turn := by rw [hcall]
  unfold Granting at h ⊢
  rw [hphase, hturn]
  revert h
  cases (s.approval n).phase with
  | waiting | entered | askRead seq => exact id
  | asked => exact fun h => hasked h hgrows.subset
  | answering => exact fun h => ⟨hasked h.1 hgrows.subset, hpassed h.2⟩
  | settling outcome | deciding outcome =>
    exact fun h => ⟨hasked h.1 hgrows.subset, fun ho => hgranted (h.2 ho)⟩
  | decideRead outcome seq =>
    rintro ⟨before, hprior, hlength, ha, hg⟩
    exact ⟨before, hprior.trans hgrows, hlength, hasked ha (List.Subset.refl _),
      fun ho => ⟨hgranted (hg ho).1, (hg ho).2⟩⟩
  | returned outcome =>
    intro h hallowed
    obtain ⟨hg, before, after, hlog, ha, hactive⟩ := h hallowed
    obtain ⟨added, hadded⟩ := hgrows
    refine ⟨hgranted hg, before, after ++ added, ?_, hasked ha (List.Subset.refl _), hactive⟩
    rw [← hadded, hlog]
    simp [decidedEvent, hturn]

theorem Granting.left (h : s.Granting uuid n) (hcall : s'.approval n = s.approval n)
    (hgrows : s.log <+: s'.log) : s'.Granting uuid n :=
  h.congr (show s'.approval n = { s.approval n with cancelled := (s.approval n).cancelled } from
    hcall) hgrows

/-- A step of the approval itself. -/
theorem Granting.own (hown : s.ownerApproval i = some n) (hcond : s.turnHolds i = true)
    (hnumbered : Numbered s.log) (h : s.Granting uuid n) : (step S P uuid s i).Granting uuid n := by
  have hgrows := s.step_grows S P uuid i
  have hrefl := List.Subset.refl s.log
  have hleft : ∀ cancelled, (step S P uuid s i).approval n = { s.approval n with cancelled } →
      (step S P uuid s i).Granting uuid n := fun _ hcall => h.congr hcall hgrows
  unfold Granting at h hleft ⊢
  cases s.approval_move S P uuid hown with
  | kept hcall hlog | cancelled hcall hlog => exact hleft _ hcall
  | started hn hcount hphase =>
    rcases hphase with hphase | ⟨_, hdenies, hphase⟩ <;> rw [hphase]
    · trivial
    · exact fun hallowed => absurd hallowed hdenies
  | turnedAway outcome hphase hdenies hcall =>
    rw [hcall]
    exact fun hallowed => absurd hallowed hdenies
  | entered generation hi hphase hcall | askRead seq hphase hcall =>
    rw [hcall]; trivial
  | notAsked cancelled hphase hcall | exhausted outcome err hi hphase hseq hcall
  | lost outcome seq err hi hphase hfail hcall =>
    rw [hcall]
    intro hallowed
    cases hallowed
  | asked seq cancelled hphase hcall hlog =>
    have hevent : askedEvent uuid s n seq ∈ s.log ++ [askedEvent uuid s n seq] := by simp
    rw [hcall, hlog]
    refine ⟨_, hevent, rfl, rfl, ?_⟩
    rw [hcall]
    simp only [askedEvent, auditEvent, approvalAsked, ApprovalAsked.toValue]
    cases (s.approval n).callId <;> rfl
  | vetoed replies outcome hphase hdenies hcall hlog =>
    rw [hphase] at h
    rw [hcall, hlog]
    exact ⟨h.mono (by rw [hcall]) hrefl, fun hallowed => absurd hallowed hdenies⟩
  | passed replies hphase hpolicy hlength hreplies hcall hlog =>
    rw [hphase] at h
    rw [hcall, hlog]
    exact ⟨h.mono (by rw [hcall]) hrefl, hpolicy, hlength, hreplies⟩
  | answered replies hphase hlength hcall hlog =>
    rw [hphase] at h
    rw [hcall, hlog]
    obtain ⟨hasked, hpolicy, hconsulted, hpass⟩ := h
    exact ⟨hasked.mono (by rw [hcall]) hrefl, fun hallowed =>
      ⟨⟨hpolicy, hconsulted, hpass⟩, hlength, hallowed⟩⟩
  | aborted hphase hcall hlog =>
    rw [hphase] at h
    rw [hcall, hlog]
    exact ⟨h.1.mono (by rw [hcall]) hrefl, fun hallowed => (by cases hallowed)⟩
  | decided outcome final hphase hfinal hcall hlog =>
    rw [hphase] at h
    rw [hcall, hlog]
    refine ⟨h.1.mono (by rw [hcall]) hrefl, fun hallowed => ?_⟩
    obtain ⟨⟨hpolicy, hconsulted, hpass⟩, hlength, hwaterfall⟩ := h.2 (hfinal hallowed).1
    exact ⟨⟨hpolicy, hconsulted, hpass⟩, hlength, hwaterfall⟩
  | decideRead outcome seq hi hphase hseq hcall hlog =>
    rw [hphase] at h
    rw [hcall, hlog]
    refine ⟨s.log, List.prefix_refl _, (hnumbered.seq_of_nextSeq hseq).symm,
      h.1.mono (by rw [hcall]) hrefl, fun hallowed => ?_⟩
    obtain ⟨⟨hpolicy, hconsulted, hpass⟩, hlength, hwaterfall⟩ := h.2 hallowed
    rw [hi] at hcond
    simp only [turnHolds, hphase, hallowed, beq_iff_eq] at hcond
    exact ⟨⟨⟨hpolicy, hconsulted, hpass⟩, hlength, hwaterfall⟩, hcond⟩
  | settled outcome seq hphase hseq hcall hlog =>
    rw [hphase] at h
    rw [hcall, hlog]
    intro hallowed
    obtain ⟨before, hprior, hlength, hasked, hgranted⟩ := h
    obtain ⟨⟨⟨hpolicy, hconsulted, hpass⟩, hasks, hwaterfall⟩, hturn⟩ := hgranted hallowed
    -- nobody has written since the number was read
    have hwhole : before = s.log :=
      hprior.eq_of_length (hlength.trans (hnumbered.seq_of_nextSeq hseq))
    subst hwhole
    refine ⟨⟨⟨hpolicy, hconsulted, hpass⟩, hasks, hwaterfall⟩, s.log, [], ?_,
      hasked.mono (by rw [hcall]) hrefl, hturn⟩
    simp [decidedEvent, hcall, hallowed, hlength]

/-! ## Whole runs -/

end ConsentSystem

end Tessivum.Approval
