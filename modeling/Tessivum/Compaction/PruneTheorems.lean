/-
Tessivum.Compaction.PruneTheorems — pruning a tool result is exact.

`prunePlan_eq_shrink` and `pruneToolResultLocked_run` say what the pruner can
do, for any serialiser: nothing, an error, or one replacement of the result's
own position.

With `serde_json`'s texts the size of a replacement is a fixed overhead and the
escaped length of its text (`messageSize_pruned`), so the budget of the loop
over characters is the exact distance to the bound: the text kept is the
longest prefix that fits, and the check after the loop never fails.
-/
import Tessivum.Compaction.AtomicTheorems
import Tessivum.Compaction.Prune
import Tessivum.Session.OpenTurnTheorems

namespace Tessivum.Compaction

open Library Protocol Session List

variable {σ : Type} {S : Serde} {P : Persistence σ} {text : Message → Option String}
  {valueText : Value → String}

/-! ## The decision, taken apart -/

variable {callId : ToolCallId} {content : List ContentBlock} {entry : SurfaceMessage}
  {isError : Option Bool} {position sourceEventSeq maxCodepoints original retained : Nat}
  {surface : List SurfaceMessage} {replacement : Message}

theorem toolResult_eq_ok :
    toolResult entry = .ok (callId, content, isError) ↔
      entry.message.source = .tool callId
        ∧ entry.message.content = [.toolResult callId content isError] := by
  unfold toolResult
  constructor
  · intro h
    split at h
    · rename_i hsource
      split at h
      · rename_i hcontent
        split at h
        · cases h
        · rename_i hsame
          cases h
          exact ⟨by rw [hsource, not_not.mp hsame], hcontent⟩
      · cases h
    · cases h
  · rintro ⟨hsource, hcontent⟩
    rw [hsource, hcontent]
    simp

theorem find_eventSeq
    (h : surface.zipIdx.find? (fun found => found.1.eventSeq = sourceEventSeq)
      = some (entry, position)) :
    surface[position]? = some entry ∧ entry.eventSeq = sourceEventSeq := by
  have hmem := mem_of_find?_eq_some h
  have hseq := find?_some h
  exact ⟨mem_zipIdx_iff_getElem?.mp hmem, by simpa using hseq⟩

theorem find_of_mem (hdistinct : (surfaceSeqs surface).Nodup) (hentry : entry ∈ surface) :
    ∃ position, surface[position]? = some entry
      ∧ surface.zipIdx.find? (fun found => found.1.eventSeq = entry.eventSeq)
        = some (entry, position) := by
  obtain ⟨index, hindex⟩ := mem_iff_getElem?.mp hentry
  have hsome : (surface.zipIdx.find? fun found => found.1.eventSeq = entry.eventSeq).isSome := by
    rw [find?_isSome]
    exact ⟨(entry, index), mem_zipIdx_iff_getElem?.mpr hindex, by simp⟩
  obtain ⟨⟨found, position⟩, hfound⟩ := isSome_iff_exists.mp hsome
  obtain ⟨hposition, hseq⟩ := find_eventSeq hfound
  have hsame : found = entry :=
    inj_on_of_nodup_map hdistinct (mem_of_getElem? hposition) hentry hseq
  subst hsame
  exact ⟨position, hposition, hfound⟩

theorem prunePlan_eq_found (hmax : 0 < maxCodepoints)
    (hfound : surface.zipIdx.find? (fun found => found.1.eventSeq = entry.eventSeq)
      = some (entry, position)) (hresult : toolResult entry = .ok (callId, content, isError))
    (hcontent : ∀ block ∈ content, isText block = true) :
    prunePlan text valueText surface entry.eventSeq maxCodepoints
      = pruneFound text valueText entry position maxCodepoints callId content isError := by
  have hbound : failIf (maxCodepoints = 0) (invalidCompaction "INVALID_TOOL_RESULT_PRUNE_BOUND"
      "tool-result prune bound must be positive" .null) = .ok () :=
    failIf_eq_ok.mpr (by omega)
  have htexts : (content.any fun block => !isText block) = false := by
    simpa using hcontent
  unfold prunePlan
  rw [hbound, ok_bind, hfound]
  dsimp only
  rw [hresult, ok_bind]
  dsimp only
  rw [htexts]
  rfl

/-- The result a shrink was decided for. -/
theorem prunePlan_eq_shrink
    (h : prunePlan text valueText surface sourceEventSeq maxCodepoints
      = .ok (.shrink position replacement original retained)) :
    ∃ entry callId content isError output, surface[position]? = some entry
      ∧ entry.eventSeq = sourceEventSeq
      ∧ toolResult entry = .ok (callId, content, isError)
      ∧ (∀ block ∈ content, isText block = true)
      ∧ replacement = prunedMessage sourceEventSeq callId isError output
      ∧ messageSize text replacement ≤ maxCodepoints
      ∧ messageSize text replacement < messageSize text entry.message := by
  unfold prunePlan at h
  replace h := after_check h
  split at h
  · cases h
  · rename_i entry at_ hfound
    obtain ⟨hposition, hseq⟩ := find_eventSeq hfound
    obtain ⟨⟨callId, content, isError⟩, hresult, h⟩ := bind_eq_ok.mp h
    obtain ⟨htexts, h⟩ := check_bind_eq_ok.mp h
    rw [failIf_eq_ok] at htexts
    unfold pruneFound at h
    dsimp only at h
    split at h
    · cases h
    · replace h := after_check h
      obtain ⟨hbounds, h⟩ := check_bind_eq_ok.mp h
      rw [failIf_eq_ok, not_or, not_lt, not_le] at hbounds
      cases h
      subst hseq
      exact ⟨entry, callId, content, isError, _, hposition, rfl, hresult, by simpa using htexts,
        rfl, hbounds⟩

/-! ## What a run of the pruner does -/

/-- Exactly the position of the result was replaced, at a moment when the
surface was the one the decision was made on, by one own event. -/
def PrunedInto (S : Serde) (planned : List SurfaceMessage) (sourceEventSeq position : Nat)
    (replacement : Message) (run : Run σ) : Prop :=
  ∃ before append, run.attempts = before ++ [append]
    ∧ append.own = true ∧ append.result = .ok () ∧ ownEvents before = []
    ∧ surfaceAfter S planned (foreignEvents before) = planned
    ∧ run.live.state.surface = splice planned position (position + 1)
        { eventSeq := append.event.seq, message := replacement
          sourceEventSeqs := some [sourceEventSeq] }

/-- What can stand against the append of a replacement: its token, a surface
that is not the one the decision was made on, sequence numbers that have run
out, or a backend that refuses an event the session has checked. -/
inductive Refusal (S : Serde) (P : Persistence σ) (planned : List SurfaceMessage) (token : Cancellation)
    (live : Live σ) (e : SessionEvent) : SessionError → Prop
  | cancelled (read : Nat) (hread : read ≤ 2) (h : token read = true) :
      Refusal S P planned token live e .cancelled
  | stale (h : surfaceSeqs live.state.surface ≠ surfaceSeqs planned) :
      Refusal S P planned token live e
        (.staleSurface (surfaceSeqs planned) (surfaceSeqs live.state.surface))
  | exhausted (err : SessionError) (h : maxSafeInteger < live.state.events.length) :
      Refusal S P planned token live e err
  | backend (err : SessionError) (projection : Option SurfaceMessage)
      (hchecked : checkAppend S live.header live.state e (some (surfaceSeqs planned))
        = .ok projection)
      (h : (P.append live.disk live.header.id e (token.after 3)).1 = .error err) :
      Refusal S P planned token live e err

/-- The last call of a run was an own append, and the session it met after the
others' calls had cause to refuse it. -/
def LastRefused (S : Serde) (P : Persistence σ) (env : PruneEnvironment) (live : Live σ)
    (err : SessionError) (run : Run σ) : Prop :=
  let met := Run.interfere S P { live, attempts := [] } env.calls
  ∃ append, run.attempts = met.attempts ++ [append]
    ∧ append.own = true ∧ append.result = .error err
    ∧ Refusal S P live.state.surface env.token met.live append.event err

/-- The five ways a run of the pruner can end. -/
inductive PruneRun (S : Serde) (P : Persistence σ) (text : Message → Option String) (valueText : Value → String)
    (env : PruneEnvironment) (sourceEventSeq maxCodepoints : Nat) (live : Live σ) :
    Except CompactionError ToolResultPruneOutcome × Run σ → Prop
  | cancelled (h : env.cancelledOnEntry = true) :
      PruneRun S P text valueText env sourceEventSeq maxCodepoints live
        (.error .cancelled, { live, attempts := [] })
  | refused (err : CompactionError)
      (h : prunePlan text valueText live.state.surface sourceEventSeq maxCodepoints = .error err) :
      PruneRun S P text valueText env sourceEventSeq maxCodepoints live
        (.error err, { live, attempts := [] })
  | fits (count : Nat)
      (h : prunePlan text valueText live.state.surface sourceEventSeq maxCodepoints
        = .ok (.fits count)) :
      PruneRun S P text valueText env sourceEventSeq maxCodepoints live
        (.ok (.noop sourceEventSeq count), { live, attempts := [] })
  | unwritten (position original retained : Nat) (replacement : Message)
      (h : prunePlan text valueText live.state.surface sourceEventSeq maxCodepoints
        = .ok (.shrink position replacement original retained))
      (err : SessionError) (run : Run σ) (hkept : Kept S live.state.surface run)
      (hrefused : LastRefused S P env live err run) :
      PruneRun S P text valueText env sourceEventSeq maxCodepoints live (.error (.session err), run)
  | pruned (position original retained : Nat) (replacement : Message)
      (h : prunePlan text valueText live.state.surface sourceEventSeq maxCodepoints
        = .ok (.shrink position replacement original retained))
      (seq : Nat) (run : Run σ)
      (hpruned : PrunedInto S live.state.surface sourceEventSeq position replacement run) :
      PruneRun S P text valueText env sourceEventSeq maxCodepoints live
        (.ok (.pruned { range := { start := position, last := position }, sourceEventSeq
                        replacementEventSeq := seq, originalCodepoints := original
                        retainedCodepoints := retained }), run)

theorem surfaceEdit_pruned (hS : S.RoundTrips) {seq : Nat} (hfaithful : replacement.Faithful)
    {projection : Option SurfaceMessage}
    (hdecode : decodeSurfaceEvent S ((pruneSpec S sourceEventSeq position surface replacement
      original retained).build seq) = .ok projection) :
    surfaceEdit S ((pruneSpec S sourceEventSeq position surface replacement original
        retained).build seq)
      = some (.replace position (position + 1)
          { eventSeq := seq, message := replacement
            sourceEventSeqs := some [sourceEventSeq] }) :=
  have hop : ((pruneSpec S sourceEventSeq position surface replacement original
      retained).build seq).surfaceOp = some (.replace position (position + 1)) := rfl
  surfaceEdit_written hS rfl hfaithful rfl hop hdecode

/-! ### The append of a replacement -/

theorem validate_of_surface {live : Live σ} (hlive : live.Replays S P) (hentry : entry ∈ live.state.surface) :
    entry.message.validate = .ok ()
      ∧ ∃ e ∈ live.state.events, e.seq = entry.eventSeq := by
  obtain ⟨edit, hedit, hitem⟩ := mem_filterMap.mp
    (Accepted.mem_items (Live.Replays.accepted hlive) hentry)
  obtain ⟨e, he, hsurface⟩ := mem_map.mp hedit
  cases edit with
  | none => cases hitem
  | some edit =>
    obtain rfl := some.inj hitem
    have hdecode := (surfaceEdit_eq_some hsurface).1
    exact ⟨validate_of_decodeSurfaceEvent hdecode, e, he,
      (decodeSurfaceEvent_some hdecode).2.1.symm⟩

theorem prunedMessage_validate (hvalid : entry.message.validate = .ok ())
    (hresult : toolResult entry = .ok (callId, content, isError)) (output : String) :
    (prunedMessage sourceEventSeq callId isError output).validate = .ok () := by
  obtain ⟨hsource, _⟩ := toolResult_eq_ok.mp hresult
  have hnamed : validateNonempty "INVALID_TOOL_CALL_ID" "callId" callId.asStr = .ok () := by
    have hchecked := (check_bind_eq_ok.mp hvalid).1
    rw [hsource] at hchecked
    exact hchecked
  rw [validateNonempty_eq_ok] at hnamed
  have hblock : validateNonempty "INVALID_TOOL_CALL_ID" "tool-result toolCallId" callId.asStr
      = .ok () := validateNonempty_eq_ok.mpr hnamed
  rw [Message.validate, check_bind_eq_ok]
  refine ⟨validateNonempty_eq_ok.mpr hnamed, ?_⟩
  show (do
    let _ ← (do
      validateNonempty "INVALID_TOOL_CALL_ID" "tool-result toolCallId" callId.asStr
      ContentBlock.validateBlocks [.text output])
    ContentBlock.validateBlocks []) = Except.ok ()
  rw [hblock]
  rfl

/-- On the surface it was decided on, a replacement passes every check of the
session while sequence numbers last. -/
theorem checkAppend_pruneSpec {live : Live σ} (hS : S.RoundTrips) (hlive : live.Replays S P)
    (hlength : live.state.events.length ≤ maxSafeInteger)
    (hplan : prunePlan text valueText live.state.surface sourceEventSeq maxCodepoints
      = .ok (.shrink position replacement original retained)) :
    ∃ projection, checkAppend S live.header live.state
      ((pruneSpec S sourceEventSeq position live.state.surface replacement original
        retained).build live.state.events.length)
      (some (surfaceSeqs live.state.surface)) = .ok projection := by
  obtain ⟨entry, callId, content, isError, output, hposition, rfl, hresult, _, hreplacement, _⟩ :=
    prunePlan_eq_shrink hplan
  have haccepted := Live.Replays.accepted hlive
  obtain ⟨hvalid, source, hsource, hseq⟩ :=
    validate_of_surface hlive (mem_of_getElem? hposition)
  have hreplaced : replacement.validate = .ok () :=
    hreplacement ▸ prunedMessage_validate hvalid hresult output
  have hfaithful : replacement.Faithful := by
    rw [hreplacement]
    intro _ _ h
    cases h
  have hcited := haccepted.numbered.seq_lt_length hsource
  have hfits := (List.getElem?_eq_some_iff.mp hposition).1
  have hbounded : live.state.surface.length ≤ live.state.events.length :=
    surface_length_le_events hlive
  have hnumbers : live.state.events.length < u64Bound := by
    unfold maxSafeInteger at hlength
    unfold u64Bound
    omega
  generalize hbuild : (pruneSpec S entry.eventSeq position live.state.surface replacement original
    retained).build live.state.events.length = e
  have htype : e.eventType = "tool/result" := by rw [← hbuild]; rfl
  have hevent : e.seq = live.state.events.length := by rw [← hbuild]; rfl
  have htime : e.time = 0 := by rw [← hbuild]; rfl
  have hignorable : e.ignorable = none := by rw [← hbuild]; rfl
  have hop : e.surfaceOp = some (.replace position (position + 1)) := by rw [← hbuild]; rfl
  have hsources : e.sourceEventSeqs = some [entry.eventSeq] := by rw [← hbuild]; rfl
  have hdata : surfaceData e = .ok (S.messageToValue replacement) := by rw [← hbuild]; rfl
  have hrole : replacement.role = .user := by rw [hreplacement]; rfl
  have hdecode : decodeSurfaceEvent S e
      = .ok (some { eventSeq := e.seq, message := replacement
                    sourceEventSeqs := e.sourceEventSeqs }) := by
    unfold decodeSurfaceEvent
    rw [htype]
    simp only [show expectedRole "tool/result" = some .user from rfl, hdata, ok_bind,
      decodeMessage, hS _ hfaithful, hreplaced, hrole]
    rfl
  refine ⟨_, checkAppend_eq_ok.mpr ⟨failIf_eq_ok.mpr (by simp), replayEvent_eq_ok.mpr
    ⟨?_, ?_, ?_, ?_, _, hdecode, ?_, rfl⟩, hdecode, ?_⟩⟩
  · refine SessionEvent.validate_eq_ok.mpr ⟨by omega, by rw [htime]; exact Nat.zero_le _,
      by rw [hignorable]; simp, .inl (by rw [htype]; rfl), by rw [htype]; rfl, ?_⟩
    have hrange : (SurfaceOp.replace position (position + 1)).validate = .ok () := by
      simp only [SurfaceOp.validate, check_bind_eq_ok, checkSafeInteger_eq_ok, failIf_eq_ok]
      omega
    have hcitations : validateCitations e = .ok () := by
      rw [validateCitations, hsources]
      simp only [check_bind_eq_ok, failIf_eq_ok, forAllOk_eq_ok, mem_singleton, forall_eq,
        validateSourceSeq, checkSafeInteger_eq_ok]
      exact ⟨by simp, by omega, by omega⟩
    rw [validateSurfaceMetadata, htype, if_pos (by decide), hop]
    simp only [hrange, hcitations, ok_bind, hsources]
    exact failIf_eq_ok.mpr (by simp)
  · rw [checkSeq_eq_ok, haccepted.numbered.nextSeq, if_pos hnumbers, hevent]
  · exact if_pos (by rw [htype]; decide)
  · rw [validateSources, hsources]
    simp only [forAllOk_eq_ok, mem_singleton, forall_eq, validateSource, failIf_eq_ok]
    have hany : live.state.events.any (fun p => p.seq == entry.eventSeq) = true :=
      any_eq_true.mpr ⟨source, hsource, by simp [hseq]⟩
    simp [hany]
  · rw [validateSurfaceOperation, hop]
    exact failIf_eq_ok.mpr (by omega)
  · rw [checkInbox, if_neg (by rw [isInboxEvent, htype]; decide)]

/-- A refused replacement met one of the refusals. -/
theorem append_pruneSpec_refused (hS : S.RoundTrips) {start : Live σ} {met run : Run σ}
    (hstart : start.Replays S P) (hmet : Follows S P start met)
    (hplan : prunePlan text valueText start.state.surface sourceEventSeq maxCodepoints
      = .ok (.shrink position replacement original retained))
    {token : Cancellation} {err : SessionError}
    (happend : met.append S P (pruneSpec S sourceEventSeq position start.state.surface replacement
      original retained) token = (.error err, run)) :
    ∃ append, run.attempts = met.attempts ++ [append] ∧ append.own = true
      ∧ append.result = .error err
      ∧ Refusal S P start.state.surface token met.live append.event err := by
  simp only [Run.append, Prod.mk.injEq] at happend
  obtain ⟨hresult, rfl⟩ := happend
  refine ⟨_, rfl, rfl, by rw [hresult]; rfl, ?_⟩
  have hnum := (Live.Replays.accepted hmet.replays).numbered
  rcases Live.appendNextIfSurface_error hresult with ⟨rfl, read, hread, htoken⟩ | hseq
    | ⟨seq, hseq, hcheck | ⟨⟨projection, hchecked⟩, hbackend⟩⟩
  · exact .cancelled read hread htoken
  · refine .exhausted err ?_
    rw [hnum.nextSeq] at hseq
    split at hseq
    · cases hseq
    · rename_i hlarge
      unfold u64Bound at hlarge
      unfold maxSafeInteger
      omega
  · have hcount := hnum.seq_of_nextSeq hseq
    subst hcount
    by_cases hsurface : surfaceSeqs met.live.state.surface = surfaceSeqs start.state.surface
    · refine .exhausted err ?_
      by_contra hshort
      rw [not_lt] at hshort
      have hsame := hmet.surface_eq hstart hsurface
      rw [← hsame] at hplan hcheck
      obtain ⟨_, hpassed⟩ := checkAppend_pruneSpec hS hmet.replays hshort hplan
      cases hpassed.symm.trans hcheck
    · have hstale : checkSurface met.live.state.surface (some (surfaceSeqs start.state.surface))
          = .error (.staleSurface (surfaceSeqs start.state.surface)
            (surfaceSeqs met.live.state.surface)) := by
        rw [checkSurface, failIf, if_pos hsurface]
      have hfirst : checkAppend S met.live.header met.live.state
          ((pruneSpec S sourceEventSeq position start.state.surface replacement original
            retained).build met.live.state.events.length)
          (some (surfaceSeqs start.state.surface))
          = .error (.staleSurface (surfaceSeqs start.state.surface)
            (surfaceSeqs met.live.state.surface)) := by
        rw [checkAppend, hstale]
        rfl
      cases hfirst.symm.trans hcheck
      exact .stale hsurface
  · rw [Call.event, hseq]
    exact .backend err projection hchecked hbackend

/-- Every run ends in one of them, and its log has grown by the admitted
events. -/
theorem pruneToolResultLocked_run (text : Message → Option String) (valueText : Value → String)
    (hS : S.RoundTrips) (hP : P.Lawful) {live : Live σ}
    (hlive : live.Replays S P) (env : PruneEnvironment) (sourceEventSeq maxCodepoints : Nat) :
    let outcome := pruneToolResultLocked S P text valueText env sourceEventSeq maxCodepoints
      { live, attempts := [] }
    PruneRun S P text valueText env sourceEventSeq maxCodepoints live outcome
      ∧ Follows S P live outcome.2 := by
  intro outcome
  have hrefl := Follows.refl hlive
  have houtcome : outcome = pruneToolResultLocked S P text valueText env sourceEventSeq
    maxCodepoints { live, attempts := [] } := rfl
  unfold pruneToolResultLocked at houtcome
  split at houtcome
  · rename_i hcancelled
    rw [houtcome]
    exact ⟨.cancelled hcancelled, hrefl⟩
  · dsimp only at houtcome
    split at houtcome
    · rename_i err hplan
      rw [houtcome]
      exact ⟨.refused err hplan, hrefl⟩
    · rename_i count hplan
      rw [houtcome]
      exact ⟨.fits count hplan, hrefl⟩
    · rename_i position replacement original retained hplan
      have hbefore := Follows.interfere hP env.calls hrefl
      have hown := ownEvents_interfere (S := S) (P := P) env.calls { live, attempts := [] }
      have hquiet : ∀ e ∈ ownEvents (Run.interfere S P { live, attempts := [] }
          env.calls).attempts, surfaceEdit S e = none := by
        rw [hown]
        exact nofun
      rcases happend : (Run.interfere S P { live, attempts := [] } env.calls).append S P
        (pruneSpec S sourceEventSeq position live.state.surface replacement original retained)
        env.token with ⟨result, next⟩
      rw [happend] at houtcome
      cases result with
      | error err =>
        -- the append was refused: nothing shows
        obtain ⟨hnext, n, hattempts⟩ := hbefore.append_error hP happend
        have hnone : ownEvents next.attempts = [] := by
          rw [hattempts, ownEvents_append, ownEvents_error, hown]
          rfl
        have hrefused := append_pruneSpec_refused hS hlive hbefore hplan happend
        rw [houtcome]
        refine ⟨.unwritten position original retained replacement hplan err next ?_ hrefused, hnext⟩
        exact kept_of_quiet hlive hnext (by rw [hnone]; exact nofun)
      | ok seq =>
        obtain ⟨hnext, hattempts, hcheck⟩ := hbefore.append_ok hP happend
        obtain ⟨hadmitted, hforeign⟩ := hbefore.restored hlive hquiet hcheck
        obtain ⟨_, _, _, _, _, _, _, _, _, hreplacement, _⟩ :=
          prunePlan_eq_shrink hplan
        have hfaithful : replacement.Faithful := by
          rw [hreplacement]
          exact nofun
        obtain ⟨_, _, hdecode⟩ := (Live.Replays.accepted hnext.replays).event
          ((pruneSpec S sourceEventSeq position live.state.surface replacement original
            retained).build seq)
          (by rw [hnext.events, hattempts, admittedEvents, admittedBy_append, admittedBy_ok _ rfl]
              simp)
        have hedit := surfaceEdit_pruned hS hfaithful hdecode
        have hsurface := hnext.surface hlive
        rw [hattempts, admittedEvents, admittedBy_append, surfaceAfter_append, ← admittedEvents,
          hadmitted, admittedBy_ok _ rfl, if_pos rfl] at hsurface
        rw [houtcome]
        refine ⟨.pruned position original retained replacement hplan seq next ?_, hnext⟩
        refine ⟨_, _, hattempts, rfl, rfl, hown, hforeign, ?_⟩
        rw [hsurface]
        simp only [surfaceAfter, surfaceHistory, map_cons, map_nil, foldl_cons,
          foldl_nil, hedit, editStep, Edit.apply]
        rfl

/-! ## Sizes under `serde_json` -/

theorem messageSize_eq_length (htext : ∀ m, text m = some (messageText valueText m))
    (m : Message) : messageSize text m = (messageChars valueText m).length := by
  simp [messageSize, serializedCodepoints, htext, codepoints, messageText]

theorem messageSize_pruned (htext : ∀ m, text m = some (messageText valueText m)) (seq : Nat)
    (callId : ToolCallId) (isError : Option Bool) (output : String) :
    messageSize text (prunedMessage seq callId isError output)
      = messageSize text (prunedMessage seq callId isError "")
        + totalCost escapeCost output.toList := by
  rw [messageSize_eq_length htext, messageSize_eq_length htext]
  simp only [messageChars, prunedMessage, blocksText, blockText, stringField,
    jsonField, length_append, length_cons, length_nil,
    length_jsonString, String.toList_empty, totalCost_nil]
  omega

/-- The replacement that keeps `retained` of the output. -/
def cutMessage (seq : Nat) (callId : ToolCallId) (isError : Option Bool) (retained : List Char) :
    Message :=
  prunedMessage seq callId isError (String.ofList retained ++ truncationMarker seq)

theorem messageSize_cut (htext : ∀ m, text m = some (messageText valueText m)) (seq : Nat)
    (callId : ToolCallId) (isError : Option Bool) (retained : List Char) :
    messageSize text (cutMessage seq callId isError retained)
      = messageSize text (prunedMessage seq callId isError (truncationMarker seq))
        + totalCost escapeCost retained := by
  rw [cutMessage, messageSize_pruned htext, messageSize_pruned htext seq callId isError
    (truncationMarker seq), String.toList_append, String.toList_ofList, totalCost_append]
  omega

/-- What pruning a text result found on the surface decides. -/
inductive FoundExact (text : Message → Option String) (entry : SurfaceMessage)
    (position maxCodepoints : Nat) (callId : ToolCallId) (isError : Option Bool)
    (original : String) : Except CompactionError PruneDecision → Prop
  | fits (h : messageSize text entry.message ≤ maxCodepoints) :
      FoundExact text entry position maxCodepoints callId isError original
        (.ok (.fits (codepoints original)))
  | unshrinkable (h : maxCodepoints < messageSize text entry.message)
      (hoverhead : maxCodepoints < messageSize text (cutMessage entry.eventSeq callId isError []))
      (message : String) (details : Value) :
      FoundExact text entry position maxCodepoints callId isError original
        (.error (unshrinkable message details))
  | cut (h : maxCodepoints < messageSize text entry.message) (retained : List Char)
      (hfront : retained <+: original.toList)
      (hsize : messageSize text (cutMessage entry.eventSeq callId isError retained)
        ≤ maxCodepoints)
      (hlongest : ∀ longer, longer <+: original.toList → retained.length < longer.length →
        maxCodepoints < messageSize text (cutMessage entry.eventSeq callId isError longer)) :
      FoundExact text entry position maxCodepoints callId isError original
        (.ok (.shrink position (cutMessage entry.eventSeq callId isError retained)
          (codepoints original)
          (codepoints (String.ofList retained ++ truncationMarker entry.eventSeq))))

/-- What is decided for a result that was found. -/
theorem pruneFound_exact (htext : ∀ m, text m = some (messageText valueText m))
    (entry : SurfaceMessage) (position maxCodepoints : Nat) (callId : ToolCallId)
    (content : List ContentBlock) (isError : Option Bool) :
    FoundExact text entry position maxCodepoints callId isError (toolOutputText valueText content)
      (pruneFound text valueText entry position maxCodepoints callId content isError) := by
  have hcut := messageSize_cut htext entry.eventSeq callId isError
  have hmarker := hcut []
  rw [totalCost_nil, Nat.add_zero] at hmarker
  unfold pruneFound
  dsimp only
  split
  · rename_i hfits
    exact .fits hfits
  · rename_i hlarge
    rw [not_le] at hlarge
    by_cases hoverhead : maxCodepoints
        < messageSize text (prunedMessage entry.eventSeq callId isError
          (truncationMarker entry.eventSeq))
    · rw [failIf, if_pos hoverhead]
      exact .unshrinkable hlarge (by rwa [hmarker]) _ _
    · -- the budget is the distance from the marker alone to the bound
      rw [failIf, if_neg hoverhead, ok_bind]
      generalize hbudget : maxCodepoints - messageSize text (prunedMessage entry.eventSeq callId
        isError (truncationMarker entry.eventSeq)) = budget
      have hwithin := totalCost_takeWithin_le escapeCost budget
        (toolOutputText valueText content).toList
      have hsize := hcut (takeWithin escapeCost budget (toolOutputText valueText content).toList)
      have hprogress : ¬(messageSize text (prunedMessage entry.eventSeq callId isError
            (prunedText entry.eventSeq budget (toolOutputText valueText content))) > maxCodepoints
          ∨ messageSize text (prunedMessage entry.eventSeq callId isError
            (prunedText entry.eventSeq budget (toolOutputText valueText content)))
              ≥ messageSize text entry.message) := by
        rw [prunedText, ← cutMessage, hsize]
        omega
      rw [failIf, if_neg hprogress, ok_bind]
      refine .cut hlarge _ (takeWithin_isFront escapeCost budget _) (by rw [hsize]; omega) ?_
      intro longer hlonger hlength
      have hexceeds := lt_totalCost_of_longer escapeCost budget _ hlonger hlength
      rw [hcut]
      omega

/-! ## Pruning is exact -/

/-- The endings that do not depend on the tool result. -/
inductive PruneStopped (S : Serde) (P : Persistence σ) (env : PruneEnvironment) (busy cancelled : Bool)
    (live : Live σ) : Except CompactionError ToolResultPruneOutcome × Run σ → Prop
  | cancelled (h : cancelled = true ∨ env.cancelledOnEntry = true) :
      PruneStopped S P env busy cancelled live (.error .cancelled, { live, attempts := [] })
  | busy (h : busy = true) :
      PruneStopped S P env busy cancelled live
        (.error (.busy live.header.id), { live, attempts := [] })
  | unwritten (err : SessionError) (run : Run σ) (hkept : Kept S live.state.surface run)
      (hrefused : LastRefused S P env live err run) :
      PruneStopped S P env busy cancelled live (.error (.session err), run)

/-- A result that already fits is left alone, one whose call and marker
alone are too large is refused, and any other one is replaced by the
longest prefix of its output that fits with the marker. -/
inductive PruneExact (S : Serde) (text : Message → Option String) (live : Live σ)
    (entry : SurfaceMessage) (position maxCodepoints : Nat) (callId : ToolCallId)
    (isError : Option Bool) (original : String) :
    Except CompactionError ToolResultPruneOutcome × Run σ → Prop
  | fits (h : messageSize text entry.message ≤ maxCodepoints) :
      PruneExact S text live entry position maxCodepoints callId isError original
        (.ok (.noop entry.eventSeq (codepoints original)), { live, attempts := [] })
  | unshrinkable (h : maxCodepoints < messageSize text entry.message)
      (hoverhead : maxCodepoints < messageSize text (cutMessage entry.eventSeq callId isError []))
      (message : String) (details : Value) :
      PruneExact S text live entry position maxCodepoints callId isError original
        (.error (unshrinkable message details), { live, attempts := [] })
  | cut (h : maxCodepoints < messageSize text entry.message) (retained : List Char)
      (hfront : retained <+: original.toList)
      (hsize : messageSize text (cutMessage entry.eventSeq callId isError retained)
        ≤ maxCodepoints)
      (hlongest : ∀ longer, longer <+: original.toList → retained.length < longer.length →
        maxCodepoints < messageSize text (cutMessage entry.eventSeq callId isError longer))
      (seq : Nat) (run : Run σ)
      (hpruned : PrunedInto S live.state.surface entry.eventSeq position
        (cutMessage entry.eventSeq callId isError retained) run) :
      PruneExact S text live entry position maxCodepoints callId isError original
        (.ok (.pruned
          { range := { start := position, last := position }, sourceEventSeq := entry.eventSeq
            replacementEventSeq := seq, originalCodepoints := codepoints original
            retainedCodepoints
              := codepoints (String.ofList retained ++ truncationMarker entry.eventSeq) }), run)

/-- Tool-result pruning is exact. For every live session, every text tool
result on its surface, every positive bound and every schedule of other
writers: pruning is cancelled, finds the lease taken or has its append refused,
and leaves the surface to the others; or it leaves a result that fits, refuses
one whose call and marker alone exceed the bound, or replaces it in its place
by a message with the same call and error flag, within the bound, whose text is
the longest prefix of the output that fits and the marker. The check after the
cut never fails. -/
theorem tool_result_pruning_exact (S : Serde) (hS : S.RoundTrips) (P : Persistence σ)
    (hP : P.Lawful) (text : Message → Option String) (valueText : Value → String)
    (htext : ∀ m, text m = some (messageText valueText m)) (live : Live σ)
    (hlive : live.Replays S P) (entry : SurfaceMessage) (hentry : entry ∈ live.state.surface)
    (callId : ToolCallId) (content : List ContentBlock) (isError : Option Bool)
    (hresult : toolResult entry = .ok (callId, content, isError))
    (hcontent : ∀ block ∈ content, isText block = true) (maxCodepoints : Nat)
    (hmax : 0 < maxCodepoints) (env : PruneEnvironment) (busy cancelled : Bool) :
    let outcome := pruneToolResult S P text valueText env busy cancelled entry.eventSeq
      maxCodepoints live
    (PruneStopped S P env busy cancelled live outcome
      ∨ ∃ position, live.state.surface[position]? = some entry
        ∧ PruneExact S text live entry position maxCodepoints callId isError
          (toolOutputText valueText content) outcome)
    ∧ outcome.1 ≠ .error (pruneNoProgress entry.eventSeq) := by
  intro outcome
  have houtcome : outcome = pruneToolResult S P text valueText env busy cancelled entry.eventSeq
    maxCodepoints live := rfl
  clear_value outcome
  have hcases : PruneStopped S P env busy cancelled live outcome
      ∨ ∃ position, live.state.surface[position]? = some entry
        ∧ PruneExact S text live entry position maxCodepoints callId isError
          (toolOutputText valueText content) outcome := by
    have hdistinct := (Live.Replays.accepted hlive).surfaceSeqs_nodup
    obtain ⟨position, hposition, hfound⟩ := find_of_mem hdistinct hentry
    have hplan : prunePlan text valueText live.state.surface entry.eventSeq maxCodepoints
        = pruneFound text valueText entry position maxCodepoints callId content isError :=
      prunePlan_eq_found hmax hfound hresult hcontent
    have hexact := pruneFound_exact htext entry position maxCodepoints callId content isError
    rw [← hplan] at hexact
    unfold pruneToolResult at houtcome
    dsimp only at houtcome
    split at houtcome
    · rename_i hcancelled
      rw [houtcome]
      exact .inl (.cancelled (.inl hcancelled))
    · split at houtcome
      · rename_i hbusy
        rw [houtcome]
        exact .inl (.busy hbusy)
      · obtain ⟨hrun, _⟩ := pruneToolResultLocked_run text valueText hS hP hlive env
          entry.eventSeq maxCodepoints
        rw [← houtcome] at hrun
        cases hrun with
        | cancelled h => exact .inl (.cancelled (.inr h))
        | refused err h =>
          rw [h] at hexact
          cases hexact with
          | unshrinkable hlarge hoverhead message details =>
            exact .inr ⟨position, hposition, .unshrinkable hlarge hoverhead message details⟩
        | fits count h =>
          rw [h] at hexact
          cases hexact with
          | fits hfits => exact .inr ⟨position, hposition, .fits hfits⟩
        | unwritten at_ original retained replacement h err run hkept hrefused =>
          exact .inl (.unwritten err run hkept hrefused)
        | pruned at_ original count replacement h seq run hpruned =>
          rw [h] at hexact
          cases hexact with
          | cut hlarge retained hfront hsize hlongest =>
            exact .inr ⟨position, hposition,
              .cut hlarge retained hfront hsize hlongest seq run hpruned⟩
  refine ⟨hcases, ?_⟩
  rcases hcases with hstopped | ⟨_, _, hexact⟩
  · cases hstopped <;> exact nofun
  · cases hexact with
    | fits _ | cut => exact nofun
    | unshrinkable =>
      -- the two errors carry different codes
      intro h
      simp [unshrinkable, pruneNoProgress, invalidCompaction] at h

/-! ### One long result -/

def longResult : Message :=
  { id := ⟨"r"⟩, role := .user
    content := [.toolResult ⟨"c"⟩ [.text (String.ofList (List.replicate 200 'x'))] none]
    source := .tool ⟨"c"⟩ }

def longResultEvent : SessionEvent :=
  { SessionEvent.plain "tool/result" 0 0
      (.object [("message", wireSerde.messageToValue longResult)]) with surfaceOp := some .append }

def longResultSession : Live MemoryState :=
  runState (Live.call wireSerde (memoryPersistence wireSerde)) (memorySession (.plain ⟨"s"⟩ 0))
    [.append longResultEvent .never]

theorem memorySession_replays (calls : List Call) :
    (runState (Live.call wireSerde (memoryPersistence wireSerde)) (memorySession (.plain ⟨"s"⟩ 0))
      calls).Replays wireSerde (memoryPersistence wireSerde) :=
  have hstart : Started wireSerde (memoryPersistence wireSerde) (.plain ⟨"s"⟩ 0)
      (memorySession (.plain ⟨"s"⟩ 0)) :=
    .create { isLive := fun _ => false, disk := Memory.empty } .never _ rfl
  (Live.run_replays (memoryPersistence_lawful wireSerde) hstart calls).2

theorem longResultSession_replays :
    longResultSession.Replays wireSerde (memoryPersistence wireSerde) := memorySession_replays _

def quietPrune : PruneEnvironment := { calls := [], cancelledOnEntry := false, token := .never }

/-- Pruning the long result; its message holds no other JSON value. -/
def pruneLongResult (cancelled : Bool) :
    Except CompactionError ToolResultPruneOutcome × Run MemoryState :=
  pruneToolResult wireSerde (memoryPersistence wireSerde)
    (fun m => some (messageText (fun _ => "null") m)) (fun _ => "null") quietPrune false cancelled 0
    300 longResultSession

def longResultEntry : SurfaceMessage :=
  { eventSeq := 0, message := longResult, sourceEventSeqs := none }

/-- The backend in memory takes every event the session has checked. -/
theorem memory_append_ok {live : Live MemoryState} {e : SessionEvent}
    {expected : Option (List Nat)} {projection : Option SurfaceMessage}
    (hlive : live.Replays S (memoryPersistence S))
    (hchecked : checkAppend S live.header live.state e expected = .ok projection) :
    ((memoryPersistence S).append live.disk live.header.id e .never).1 = .ok () := by
  obtain ⟨hvalid, hseq, _⟩ := replayEvent_eq_ok.mp (checkAppend_eq_ok.mp hchecked).2.1
  obtain ⟨_, hcommitted, _⟩ := hlive
  rw [Memory.committed_eq, map_eq_some_iff] at hcommitted
  obtain ⟨session, hsession, hevents⟩ := hcommitted
  have happend : Memory.append S live.disk live.header.id e .never
      = .ok (Memory.insert live.disk live.header.id
          { session with events := session.events ++ [e] }) := by
    rw [Memory.append, checkCancellation_never, ok_bind, liftProtocol_eq_ok.mpr hvalid, ok_bind,
      hsession]
    dsimp only
    rw [hevents, hseq, ok_bind]
  show (orUnchanged live.disk (Memory.append S live.disk live.header.id e .never)).1 = .ok ()
  rw [happend]
  rfl

/-- Under a bound of three hundred codepoints the long result is replaced. -/
theorem tool_result_pruning_exact_long :
    (∃ result, (pruneLongResult false).1 = .ok (.pruned result))
      ∧ (PruneStopped wireSerde (memoryPersistence wireSerde) quietPrune false false
          longResultSession (pruneLongResult false)
        ∨ ∃ position, longResultSession.state.surface[position]? = some longResultEntry
          ∧ PruneExact wireSerde (fun m => some (messageText (fun _ => "null") m))
            longResultSession longResultEntry position 300 ⟨"c"⟩ none
            (toolOutputText (fun _ => "null") [.text (String.ofList (List.replicate 200 'x'))])
            (pruneLongResult false))
      ∧ (pruneLongResult false).1 ≠ .error (pruneNoProgress 0) := by
  have hexact := tool_result_pruning_exact wireSerde wireSerde_roundTrips
    (memoryPersistence wireSerde) (memoryPersistence_lawful wireSerde) _ (fun _ => "null")
    (fun _ => rfl) longResultSession longResultSession_replays longResultEntry
    (by decide +kernel) ⟨"c"⟩ [.text (String.ofList (List.replicate 200 'x'))] none rfl
    (fun block hblock => by rw [mem_singleton.mp hblock]; rfl) 300 (by decide) quietPrune
    false false
  refine ⟨?_, hexact⟩
  have hlarge : 300 < messageSize (fun m => some (messageText (fun _ => "null") m))
      longResultEntry.message := by
    rw [messageSize_eq_length fun _ => rfl]
    simp only [messageChars, longResultEntry, longResult, blocksText, blockText, stringField,
      jsonField, length_append, length_cons, length_nil, length_jsonString,
      String.toList_ofList]
    decide +kernel
  have hroom : messageSize (fun m => some (messageText (fun _ => "null") m))
      (cutMessage longResultEntry.eventSeq ⟨"c"⟩ none []) ≤ 300 := by
    rw [messageSize_eq_length fun _ => rfl]
    decide +kernel
  rcases hexact.1 with hstopped | ⟨position, _, hcut⟩
  · change PruneStopped wireSerde _ quietPrune false false longResultSession (pruneLongResult false)
      at hstopped
    generalize pruneLongResult false = outcome at hstopped
    cases hstopped with
    | cancelled h => simp [quietPrune] at h
    | busy h => cases h
    | unwritten err run _ hrefused =>
      obtain ⟨_, _, _, _, hrefusal⟩ := hrefused
      cases hrefusal with
      | cancelled read _ h => cases h
      | stale h => exact absurd rfl h
      | exhausted _ h =>
        have hone : longResultSession.state.events.length = 1 := by decide +kernel
        change maxSafeInteger < longResultSession.state.events.length at h
        rw [hone] at h
        exact absurd h (by decide)
      | backend _ projection hchecked h =>
        cases (memory_append_ok longResultSession_replays hchecked).symm.trans h
  · change PruneExact wireSerde _ longResultSession longResultEntry position 300 ⟨"c"⟩ none _
      (pruneLongResult false) at hcut
    generalize pruneLongResult false = outcome at hcut
    cases hcut with
    | fits h => exact absurd hlarge (not_lt.mpr h)
    | unshrinkable _ h => exact absurd hroom (not_le.mpr h)
    | cut _ retained _ _ _ seq run _ => exact ⟨_, rfl⟩

/-- A cancelled call does none of the three. -/
theorem tool_result_pruning_cancelled :
    longResultEntry ∈ longResultSession.state.surface
      ∧ ∀ position, ¬ PruneExact wireSerde (fun m => some (messageText (fun _ => "null") m))
        longResultSession longResultEntry position 300 ⟨"c"⟩ none
        (toolOutputText (fun _ => "null") [.text (String.ofList (List.replicate 200 'x'))])
        (pruneLongResult true) := by
  refine ⟨by decide +kernel, fun position h => ?_⟩
  have hcancelled : pruneLongResult true
      = (.error .cancelled, { live := longResultSession, attempts := [] }) := rfl
  rw [hcancelled] at h
  cases h

end Tessivum.Compaction
