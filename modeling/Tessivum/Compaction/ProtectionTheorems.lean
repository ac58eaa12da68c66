/-
Tessivum.Compaction.ProtectionTheorems — what the recovery loop leaves in
place.

The seed, the last message of the user and the last two context messages have
to stay on the surface.

A step also keeps results behind their calls, as long as every result answers a
call that is still pending (`Answered`). A second result for the same call is
another matter: its call is no longer pending, so the call and its first result
are a complete group of their own and can be summarised without it.
-/
import Tessivum.Compaction.ExecutableTheorems

namespace Tessivum.Compaction

open Library Protocol Session List

variable {σ : Type} {service : RecoveryService} {recovery : Recovery}

/-! ## Protected messages -/

def protectedKinds : List (SurfaceMessage → Bool) :=
  (fun entry => isUserSource entry.message)
    :: contextPlugins.map fun name entry => isPluginSource name entry.message

/-- The entries of a surface that have to stay, in their order. -/
def protectedEntries (seeds : List Nat) (surface : List SurfaceMessage) : List SurfaceMessage :=
  retained (fun entry => seeds.contains entry.eventSeq) protectedKinds surface

variable {kind : SurfaceMessage → Bool} {entry : SurfaceMessage} {α : Type} {p : α → Bool}
  {i recentStart : Nat} {surface : List SurfaceMessage}

theorem mem_protectedKinds : kind ∈ protectedKinds ↔
    kind = (fun entry => isUserSource entry.message)
      ∨ ∃ name ∈ contextPlugins, kind = fun entry => isPluginSource name entry.message := by
  rw [protectedKinds, mem_cons, mem_map]
  refine or_congr_right ⟨?_, ?_⟩
  · rintro ⟨name, hmem, rfl⟩
    exact ⟨name, hmem, rfl⟩
  · rintro ⟨name, hmem, rfl⟩
    exact ⟨name, hmem, rfl⟩

theorem protectedKinds_summary {compactionId : Option String}
    (h : entry.message.source = .plugin "compact" compactionId none none none) :
    ∀ kind ∈ protectedKinds, kind entry = false := by
  intro kind hkind
  rcases mem_protectedKinds.mp hkind with rfl | ⟨name, hname, rfl⟩
  · show isUserSource entry.message = false
    rw [isUserSource, h]
  · have hother : "compact" ≠ name := by
      rintro rfl
      exact absurd hname (by decide)
    show isPluginSource name entry.message = false
    rw [isPluginSource, h]
    exact beq_false_of_ne hother

theorem protectedKinds_tool (h : isToolSource entry.message = true) :
    ∀ kind ∈ protectedKinds, kind entry = false := by
  intro kind hkind
  unfold isToolSource at h
  split at h
  · rename_i hsource
    rcases mem_protectedKinds.mp hkind with rfl | ⟨name, _, rfl⟩
    · show isUserSource entry.message = false
      rw [isUserSource, hsource]
    · show isPluginSource name entry.message = false
      rw [isPluginSource, hsource]
  · cases h

/-! ## The last position with a property -/

theorem rposition_get : ∀ {xs : List α} {i : Nat},
    rposition p xs = some i → ∃ x, xs[i]? = some x ∧ p x = true
  | [], _, h => nomatch h
  | x :: rest, i, h => by
    rw [rposition] at h
    split at h
    · rename_i hrest
      obtain rfl := some.inj h
      have hlast := rposition_get hrest
      exact hlast
    · split at h
      · rename_i hx
        obtain rfl := some.inj h
        exact ⟨x, rfl, hx⟩
      · cases h

theorem rposition_ge : ∀ {xs : List α} {i : Nat} {x : α},
    xs[i]? = some x → p x = true → ∃ last, rposition p xs = some last ∧ i ≤ last
  | [], _, _, h, _ => nomatch h
  | y :: rest, i, x, h, hx => by
    rw [rposition]
    cases i with
    | zero =>
      obtain rfl := some.inj h
      split
      · exact ⟨_, rfl, Nat.zero_le _⟩
      · exact ⟨0, if_pos hx, le_refl 0⟩
    | succ i =>
      have hi : rest[i]? = some x := h
      obtain ⟨last, hlast, hle⟩ := rposition_ge hi hx
      rw [hlast]
      exact ⟨last + 1, rfl, Nat.succ_le_succ hle⟩

/-! ## Every step -/

theorem protectedAt_kind (h : protectedAt recovery surface recentStart i = false)
    (hkind : kind ∈ protectedKinds) : rposition kind surface ≠ some i := by
  unfold protectedAt at h
  simp only [or_eq_false_iff] at h
  obtain ⟨⟨⟨_, huser⟩, hcontext⟩, _⟩ := h
  rcases mem_protectedKinds.mp hkind with rfl | ⟨name, hname, rfl⟩
  · intro heq
    rw [heq] at huser
    simp at huser
  · intro heq
    have hmem : (contextPlugins.map fun name =>
      rposition (fun entry => isPluginSource name entry.message) surface).contains (some i)
        = true := by
      rw [contains_iff_mem]
      exact mem_map.mpr ⟨name, hname, heq⟩
    rw [hmem] at hcontext
    cases hcontext

theorem protectedAt_seeded (h : protectedAt recovery surface recentStart i = false) :
    seededAt recovery surface i = false := by
  unfold protectedAt at h
  simp only [or_eq_false_iff] at h
  exact h.1.1.1

theorem Selected.kind_behind {range : CompactionRange}
    (h : Selected service recovery surface recentStart range) (hkind : kind ∈ protectedKinds)
    (hmem : entry ∈ stretch surface range.start (range.last + 1)) (hentry : kind entry = true) :
    (surface.drop (range.last + 1)).any kind = true := by
  obtain ⟨i, hge, hlt, hi⟩ := exists_of_mem_stretch hmem
  obtain ⟨last, hlast, hle⟩ := rposition_ge hi hentry
  obtain ⟨found, hfound, hkindFound⟩ := rposition_get hlast
  have hbehind : range.last + 1 ≤ last := by
    by_contra hbefore
    exact protectedAt_kind (h.unprotected last (by omega) (by omega)) hkind hlast
  refine any_eq_true.mpr ⟨found, ?_, hkindFound⟩
  refine mem_of_getElem? (i := last - (range.last + 1)) ?_
  rw [getElem?_drop, Nat.add_sub_cancel' hbehind]
  exact hfound

/-- A surface step leaves the protected entries in their order. -/
theorem SurfaceStep.protected {surface' : List SurfaceMessage}
    (h : SurfaceStep service recovery surface surface') :
    (protectedEntries recovery.seedSeqs surface).Sublist
      (protectedEntries recovery.seedSeqs surface') := by
  cases h with
  | summary range hselected entry compactionId hsource =>
    have hle : range.start ≤ range.last + 1 := le_succ_of_le hselected.ordered
    have hseeds : ∀ old ∈ stretch surface range.start (range.last + 1),
        recovery.seedSeqs.contains old.eventSeq = false := by
      intro old hold
      obtain ⟨i, hge, hlt, hi⟩ := exists_of_mem_stretch hold
      have hseeded := protectedAt_seeded (hselected.unprotected i hge (by omega))
      rw [seededAt, hi] at hseeded
      simpa using hseeded
    have hreplaced := retained_replace (surface.take range.start) _
      (surface.drop (range.last + 1)) entry hseeds
      (fun kind hkind old hold => hselected.kind_behind hkind hold)
      (protectedKinds_summary hsource)
    rw [split_stretch surface hle] at hreplaced
    exact hreplaced
  | prune position old new hold hseed callId content isError output hresult htexts hnew hlarge
      hsmaller =>
      obtain ⟨holdTool, _⟩ := toolResult_source hresult
      have hnewTool : isToolSource new.message = true := by
        rw [hnew]
        rfl
      have hseeds : ∀ entry ∈ stretch surface position (position + 1),
          recovery.seedSeqs.contains entry.eventSeq = false := by
        rw [stretch_one hold]
        simpa using hseed
      have hkinds : ∀ kind ∈ protectedKinds, ∀ entry ∈ stretch surface position (position + 1),
          kind entry = true → (surface.drop (position + 1)).any kind = true := by
        intro kind hkind entry hentry hyes
        rw [stretch_one hold, mem_singleton] at hentry
        rw [hentry, protectedKinds_tool holdTool kind hkind] at hyes
        cases hyes
      have hreplaced := retained_replace (surface.take position) _ (surface.drop (position + 1))
        new hseeds hkinds (protectedKinds_tool hnewTool)
      rw [split_stretch surface (le_succ position)] at hreplaced
      exact hreplaced

/-! ## Calls and their results -/

/-- Every tool result answers a call that is still pending. -/
def Answered (surface : List SurfaceMessage) : Prop :=
  Along Bracket.Answers [] (brackets surface)

/-- Every tool result has a call with its id before it, answered or not. -/
def ResultsCalled : List String → List SurfaceMessage → Prop
  | _, [] => True
  | called, entry :: rest =>
    (∀ result ∈ toolResults entry.message, result ∈ called ++ toolCalls entry.message)
      ∧ ResultsCalled (called ++ toolCalls entry.message) rest

instance decidableResultsCalled : ∀ (called : List String) (surface : List SurfaceMessage),
    Decidable (ResultsCalled called surface)
  | _, [] => .isTrue trivial
  | called, entry :: rest =>
    have := decidableResultsCalled (called ++ toolCalls entry.message) rest
    inferInstanceAs (Decidable (_ ∧ ResultsCalled _ rest))

theorem Answered.resultsCalled : ∀ {surface : List SurfaceMessage} {pending called : List String},
    Along Bracket.Answers pending (brackets surface) → pending ⊆ called →
      ResultsCalled called surface
  | [], _, _, _, _ => trivial
  | entry :: rest, pending, called, h, hsubset => by
    obtain ⟨hanswers, hrest⟩ := h
    have hmade : pending ++ toolCalls entry.message ⊆ called ++ toolCalls entry.message :=
      append_subset.mpr ⟨fun call hcall => mem_append_left _ (hsubset hcall),
        fun call hcall => mem_append_right _ hcall⟩
    refine ⟨fun result hresult => ?_, ?_⟩
    · exact hmade (hanswers.subset hresult)
    · exact Answered.resultsCalled hrest fun call hcall =>
        hmade ((bracketOf entry).after_subset pending hcall)

/-- Automatic compaction leaves the protected context in place. For every live
session nobody else writes to, every service, request, trigger and window and
every sequence of answers of the model and the token, however the call returns:
the seed, the last message of the user and the last context messages that were
on the surface are on it unchanged and in their order; and where every tool
result answered a call still pending, every tool result does so afterwards, so
it has its call before it. -/
theorem protected_context_survives (S : Serde) (hS : S.RoundTrips) (P : Persistence σ)
    (hP : P.Lawful) (service : RecoveryService) (trigger : CompactionTrigger)
    (request : GenerateRequest) (contextWindow : Option Nat) (busy cancelled : Bool)
    (steps : Nat → StepEnvironment) (hquiet : ∀ turn, (steps turn).Quiet) (live : Live σ)
    (hlive : live.Replays S P) :
    let seeds := (live.state.events.take live.state.seedLength).map SessionEvent.seq
    let after := (compactForRequest S P service trigger request contextWindow busy cancelled steps
      live).2.state.surface
    (protectedEntries seeds live.state.surface).Sublist after
      ∧ (Answered live.state.surface → Answered after ∧ ResultsCalled [] after) := by
  intro seeds after
  have hprotected : (protectedEntries seeds live.state.surface).Sublist
      (protectedEntries seeds after) := by
    refine compactForRequest_invariant hS hP hlive trigger request contextWindow busy cancelled
      hquiet (fun surface => (protectedEntries seeds live.state.surface).Sublist
        (protectedEntries seeds surface)) (fun seq surface surface' hinv hstep => ?_)
      (List.Sublist.refl _)
    exact hinv.trans hstep.protected
  refine ⟨hprotected.trans (retained_sublist _ _ _), fun hanswered => ?_⟩
  have hafter : Answered after :=
    compactForRequest_invariant hS hP hlive trigger request contextWindow busy cancelled hquiet
      Answered (fun seq surface surface' hinv hstep => hstep.along trivial hinv) hanswered
  exact ⟨hafter, Answered.resultsCalled hafter (List.Subset.refl [])⟩

theorem protected_context_survives_greeting :
    let seeds := (answeredSession.state.events.take answeredSession.state.seedLength).map
      SessionEvent.seq
    let after := (compactForRequest wireSerde (memoryPersistence wireSerde)
      (sampleRecovery greetingService.config (by decide)) .manual sampleRequest none false false
      (fun _ => quietStep) answeredSession).2.state.surface
    (protectedEntries seeds answeredSession.state.surface).Sublist after
      ∧ (Answered answeredSession.state.surface → Answered after ∧ ResultsCalled [] after) :=
  protected_context_survives wireSerde wireSerde_roundTrips (memoryPersistence wireSerde)
    (memoryPersistence_lawful wireSerde) (sampleRecovery greetingService.config (by decide)) .manual
    sampleRequest none false false (fun _ => quietStep) (fun _ => quietStep_quiet) answeredSession
    answeredSession_replays

/-! ## A call of two turns -/

section Turns

variable {σ : Type} {S : Serde} {P : Persistence σ}
variable {plan : Plan} {run : Run σ}

variable {service : RecoveryService} {recovery : Recovery} {env : StepEnvironment}
  {progress : Progress σ}

theorem recoverStep_of_calm {outcome : CompactionOutcome} (hcancelled : env.cancelled = false)
    (hcalm : pressured service recovery progress = false)
    (houtcome : progress.outcome = some outcome) :
    recoverStep service recovery S P env progress = .returned (.ok outcome) progress.live := by
  rw [recoverStep, hcancelled, if_neg Bool.false_ne_true, hcalm, houtcome,
    if_pos (by simp), settledOutcome, houtcome, getD_some]

theorem compactForRequest_of_two {trigger : CompactionTrigger} {request : GenerateRequest}
    {live live' : Live σ} {seq turns : Nat} {result : Except CompactionError CompactionOutcome}
    (hseq : nextSeq live.state.events = .ok seq)
    (hrecovery : recoveryOf service trigger request none seq live = recovery)
    (hturns : maxSteps live.state.surface = turns + 2)
    (hfirst : recoverStep service recovery S P env { live, outcome := none, completed := 0 } =
      .again progress)
    (hsecond : recoverStep service recovery S P env progress = .returned result live') :
    compactForRequest S P service trigger request none false false (fun _ => env) live =
      (result, live') := by
  unfold compactForRequest
  rw [if_neg Bool.false_ne_true, if_neg Bool.false_ne_true, hseq]
  dsimp only
  rw [hrecovery, hturns, recoverLoop, hfirst]
  dsimp only
  rw [recoverLoop, hsecond]

end Turns

/-! ## A second result -/

theorem replaced_calm (outcome : Option CompactionOutcome) (completed : Nat) :
    pressured twiceService twiceRecovery
      { live := twiceReplaced.2.live, outcome, completed } = false := by
  obtain ⟨-, hresult, hsummary, -⟩ := twice_counts
  have hsizes : surfaceSizes twiceService replacedSurface = [140, 156] := by
    simp only [surfaceSizes, replacedSurface, map_cons, map_nil, messageSize, hresult,
      hsummary, getD_some]
  rw [pressured]
  simp only [twiceRecovery, twiceReplaced_run.2.2, hsizes]
  decide

theorem answeredTwice_recovered :
    (compactForRequest wireSerde (memoryPersistence wireSerde) twiceService .manual sampleRequest
      none false false (fun _ => quietStep) answeredTwice).2.state.surface = replacedSurface := by
  have hturns : maxSteps answeredTwice.state.surface = 5 + 2 := by
    rw [answeredTwice_run.2]
    rfl
  obtain ⟨result, hfirst⟩ := answeredTwice_turn
  rw [compactForRequest_of_two answeredTwice_run.1 twiceRecovery_eq hturns hfirst
    (recoverStep_of_calm rfl (replaced_calm _ _) rfl)]
  exact twiceReplaced_run.2.2

/-- The call and its first result are summarised; the second result stays, and
there is no call left before it. -/
theorem protected_context_second_result :
    ResultsCalled [] answeredTwice.state.surface
      ∧ ¬ ResultsCalled [] (compactForRequest wireSerde (memoryPersistence wireSerde)
          (sampleRecovery greetingService.config (by decide)) .manual sampleRequest none false false
          (fun _ => quietStep) answeredTwice).2.state.surface := by
  have hsurfaces : ResultsCalled [] twiceSurface ∧ ¬ ResultsCalled [] replacedSurface := by
    decide
  have hservice : sampleRecovery greetingService.config (by decide) = twiceService := rfl
  rw [hservice, answeredTwice_recovered, answeredTwice_run.2]
  exact hsurfaces

end Tessivum.Compaction
