/-
Tessivum.Compaction.ExecutableTheorems — the ranges the recovery loop selects
can be executed.

The loop knows complete tool groups as the stretches between positions with no
pending call; planning checks the calls and results of the whole surface
against the range. On a surface where every result answers a pending call and
no call is pending twice (`Paired`) the two agree: a range between boundaries
has both sides of each of its pairs, since the calls pending at a position were
made on the same side of the range (`Agrees`, `pairSurface_ok`).
-/
import Tessivum.Compaction.ProgressTheorems
import Tessivum.Library.Keyed

namespace Tessivum.Compaction

open Library Protocol Session List

variable {σ : Type} {S : Serde} {P : Persistence σ} {service : RecoveryService}
  {recovery : Recovery}

/-- Every tool result answers a pending call, and no call is pending twice. -/
def Paired (surface : List SurfaceMessage) : Prop := Along Bracket.Pairs [] (brackets surface)

instance (surface : List SurfaceMessage) : Decidable (Paired surface) :=
  inferInstanceAs (Decidable (Along _ _ _))

/-! ## The map of pending calls -/

theorem lookup_insert (call key : String) (index : Nat) (map : Pending) :
    (map.insert call index).lookup key = if key = call then some index else map.lookup key := by
  induction map with
  | nil =>
    by_cases hkey : key = call
    · simp [Pending.insert, hkey]
    · simp [Pending.insert, List.lookup, hkey, beq_false_of_ne hkey]
  | cons entry rest ih =>
    obtain ⟨other, _⟩ := entry
    rw [Pending.insert]
    by_cases hother : call = other
    · subst hother
      rw [if_pos rfl]
      by_cases hkey : key = call
      · simp [List.lookup, hkey]
      · simp [List.lookup, hkey, beq_false_of_ne hkey]
    · rw [if_neg hother]
      split
      · by_cases hkey : key = call
        · simp [List.lookup, hkey]
        · simp [List.lookup, hkey, beq_false_of_ne hkey]
      · by_cases hkey : key = other
        · have hne : key ≠ call := fun h => hother (h.symm.trans hkey)
          simp [List.lookup, hkey, Ne.symm hother]
        · rw [List.lookup, beq_false_of_ne hkey]
          dsimp only
          rw [ih, List.lookup, beq_false_of_ne hkey]

theorem mem_insert {call : String} {index : Nat} {entry : String × Nat} : ∀ {map : Pending},
    entry ∈ map.insert call index → entry = (call, index) ∨ entry ∈ map
  | [], h => .inl (mem_singleton.mp h)
  | (other, value) :: rest, h => by
    rw [Pending.insert] at h
    split at h
    · rcases mem_cons.mp h with h | h
      · exact .inl h
      · exact .inr (mem_cons_of_mem _ h)
    · split at h
      · rcases mem_cons.mp h with h | h
        · exact .inl h
        · exact .inr h
      · rcases mem_cons.mp h with h | h
        · exact .inr (mem_cons.mpr (.inl h))
        · rcases mem_insert h with h | h
          · exact .inl h
          · exact .inr (mem_cons_of_mem _ h)

theorem lookup_remove (call key : String) (map : Pending) :
    (map.remove call).lookup key = if key = call then none else map.lookup key := by
  induction map with
  | nil => simp [Pending.remove]
  | cons entry rest ih =>
    obtain ⟨other, _⟩ := entry
    rw [Pending.remove] at ih ⊢
    rw [filter_cons]
    by_cases hother : other = call
    · rw [if_neg (by simpa using hother), ih]
      by_cases hkey : key = call
      · rw [if_pos hkey, if_pos hkey]
      · rw [if_neg hkey, if_neg hkey, List.lookup,
          beq_false_of_ne (fun h => hkey (h.trans hother))]
    · rw [if_pos (by simpa using hother)]
      by_cases hkey : key = other
      · have hne : key ≠ call := fun h => hother (hkey.symm.trans h)
        simp [List.lookup, hkey, hother]
      · rw [List.lookup, List.lookup, beq_false_of_ne hkey]
        exact ih

/-! ## Planning against the boundaries -/

/-- The map of planning has the pending calls as its keys, all made on one
side of the range. -/
structure Agrees (range : CompactionRange) (inside : Bool) (map : Pending)
    (pending : List String) : Prop where
  keys : ∀ call, map.lookup call = none ↔ call ∉ pending
  side : ∀ entry ∈ map, inRange entry.2 range = inside

theorem Agrees.nil (range : CompactionRange) (inside : Bool) : Agrees range inside [] [] :=
  ⟨fun _ => by simp, nofun⟩

variable {range : CompactionRange} {surface : List SurfaceMessage} {α : Type}
  {err : CompactionError}

theorem Agrees.eq_nil {inside : Bool} {map : Pending} (h : Agrees range inside map []) :
    map = [] := by
  cases map with
  | nil => rfl
  | cons entry rest =>
    have hkey := (h.keys entry.1).mpr not_mem_nil
    simp [List.lookup] at hkey

section Pairs

variable {range : CompactionRange} {inside : Bool} {index : Nat}

theorem pairCalls_ok (hindex : inRange index range = inside) : ∀ (calls : List String)
    {map : Pending} {pending : List String}, Agrees range inside map pending →
      OpensFresh pending calls →
        ∃ map', pairCalls range index map calls = .ok map'
          ∧ Agrees range inside map' (pending ++ calls)
  | [], map, pending, hagrees, _ => ⟨map, rfl, by rwa [append_nil]⟩
  | call :: rest, map, pending, hagrees, hfresh => by
    have hnone := (hagrees.keys call).mpr hfresh.1
    have hnext : Agrees range inside (map.insert call index) (pending ++ [call]) := by
      refine ⟨fun key => ?_, fun entry hentry => ?_⟩
      · rw [lookup_insert]
        by_cases hkey : key = call
        · simp [hkey]
        · rw [if_neg hkey, hagrees.keys key]
          simp [hkey]
      · rcases mem_insert hentry with rfl | hentry
        · exact hindex
        · exact hagrees.side entry hentry
    obtain ⟨map', hmap, hagrees'⟩ := pairCalls_ok hindex rest hnext hfresh.2
    refine ⟨map', ?_, by rwa [append_assoc] at hagrees'⟩
    rw [pairCalls, hnone, failIf_eq_ok.mpr (by simp), ok_bind, hmap]

theorem pairResults_ok (hindex : inRange index range = inside) : ∀ (results : List String)
    {map : Pending} {pending : List String}, Agrees range inside map pending →
      ClosesPending pending results →
        ∃ map', pairResults range index map results = .ok map'
          ∧ Agrees range inside map' (closeAll pending results)
  | [], map, pending, hagrees, _ => ⟨map, rfl, hagrees⟩
  | result :: rest, map, pending, hagrees, hanswers => by
    obtain ⟨call, hcall⟩ : ∃ call, map.lookup result = some call := by
      cases hlookup : map.lookup result with
      | none => exact absurd hanswers.1 ((hagrees.keys result).mp hlookup)
      | some call => exact ⟨call, rfl⟩
    have hside : inRange call range = inside :=
      hagrees.side (result, call) (Keyed.mem_of_lookup hcall)
    have hnext : Agrees range inside (map.remove result)
        (pending.filter fun other => other ≠ result) := by
      refine ⟨fun key => ?_, fun entry hentry => ?_⟩
      · rw [lookup_remove]
        by_cases hkey : key = result
        · simp [hkey]
        · rw [if_neg hkey, hagrees.keys key]
          simp [hkey]
      · exact hagrees.side entry (mem_filter.mp hentry).1
    obtain ⟨map', hmap, hagrees'⟩ := pairResults_ok hindex rest hnext hanswers.2
    refine ⟨map', ?_, hagrees'⟩
    rw [pairResults, hcall, failIf_eq_ok.mpr (by simp [hindex, hside]), ok_bind,
      failIf_eq_ok.mpr (by simp), ok_bind, hmap]

theorem pairSurface_ok : ∀ (entries : List SurfaceMessage) (index : Nat) {map : Pending}
    {pending : List String},
    (∀ i, index ≤ i → i < index + entries.length → inRange i range = inside) →
      Agrees range inside map pending → Along Bracket.Pairs pending (brackets entries) →
        ∃ map', pairSurface range index map entries = .ok map'
          ∧ Agrees range inside map' (pendingOf pending (brackets entries))
  | [], _, map, _, _, hagrees, _ => ⟨map, rfl, hagrees⟩
  | entry :: rest, index, map, pending, hside, hagrees, halong => by
    have hindex := hside index (le_refl index) (by simp)
    obtain ⟨⟨hfresh, hanswers⟩, hrest⟩ := halong
    obtain ⟨called, hcalled, hagreesCalled⟩ := pairCalls_ok hindex _ hagrees hfresh
    obtain ⟨settled, hsettled, hagreesSettled⟩ := pairResults_ok hindex _ hagreesCalled hanswers
    obtain ⟨map', hmap, hagrees'⟩ := pairSurface_ok rest (index + 1)
      (fun i hle hlt => hside i (by omega) (by simp only [length_cons]; omega))
      hagreesSettled hrest
    refine ⟨map', ?_, hagrees'⟩
    have hcalled : pairCalls range index map (toolCalls entry.message) = .ok called := hcalled
    have hsettled : pairResults range index called (toolResults entry.message) = .ok settled :=
      hsettled
    rw [pairSurface, hcalled, ok_bind, hsettled, ok_bind, hmap]

end Pairs

theorem pairSurface_append (range : CompactionRange) : ∀ (front back : List SurfaceMessage)
    (index : Nat) (map : Pending), pairSurface range index map (front ++ back)
      = pairSurface range index map front >>= fun map' =>
        pairSurface range (index + front.length) map' back
  | [], back, index, map => rfl
  | entry :: rest, back, index, map => by
    have hlength : index + (entry :: rest).length = index + 1 + rest.length := by
      simp only [length_cons]
      omega
    rw [cons_append, pairSurface, pairSurface, hlength]
    cases pairCalls range index map (toolCalls entry.message) with
    | error err => rfl
    | ok called =>
      rw [ok_bind, ok_bind]
      cases pairResults range index called (toolResults entry.message) with
      | error err => rfl
      | ok settled =>
        rw [ok_bind, ok_bind]
        exact pairSurface_append range rest back (index + 1) settled

/-- On a paired surface every range between boundaries has both sides of each
of its pairs. -/
theorem validateToolPairs_ok (hpaired : Paired surface)
    (hstart : range.start ∈ completeBoundaries surface)
    (hstop : range.last + 1 ∈ completeBoundaries surface) (hordered : range.start ≤ range.last) :
    validateToolPairs surface range = .ok () := by
  obtain ⟨hstartLe, hstartNone⟩ := mem_completeBoundaries.mp hstart
  obtain ⟨hstopLe, hstopNone⟩ := mem_completeBoundaries.mp hstop
  have hle : range.start ≤ range.last + 1 := le_succ_of_le hordered
  have hmiddleNone : pendingOf [] (brackets (stretch surface range.start (range.last + 1))) = [] := by
    rw [← take_append_stretch hle, brackets_append, pendingOf_append, hstartNone] at hstopNone
    exact hstopNone
  have hsplit := split_stretch surface hle
  have halong : Along Bracket.Pairs [] (brackets (surface.take range.start
      ++ stretch surface range.start (range.last + 1) ++ surface.drop (range.last + 1))) := by
    rw [hsplit]
    exact hpaired
  rw [brackets_append, brackets_append, along_append, along_append, pendingOf_append, hstartNone,
    hmiddleNone] at halong
  obtain ⟨⟨hfront, hmiddle⟩, hback⟩ := halong
  have hfrontLength : (surface.take range.start).length = range.start :=
    length_take_of_le hstartLe
  have hmiddleLength : (stretch surface range.start (range.last + 1)).length
      = range.last + 1 - range.start := length_stretch hstopLe
  have hout : ∀ i, i < range.start ∨ range.last < i → inRange i range = false := by
    intro i hi
    simp only [inRange, and_eq_false_iff, decide_eq_false_iff_not]
    omega
  have hin : ∀ i, range.start ≤ i → i ≤ range.last → inRange i range = true := by
    intro i hfirst hlast
    simp [inRange, hfirst, hlast]
  -- before the range, in it and behind it the pending calls are all on one side
  obtain ⟨first, hfirst, hagrees⟩ := pairSurface_ok (surface.take range.start) 0
    (fun i _ hi => hout i (.inl (by rw [hfrontLength] at hi; omega))) (Agrees.nil range false) hfront
  rw [hstartNone] at hagrees
  obtain rfl := hagrees.eq_nil
  obtain ⟨second, hsecond, hagrees⟩ := pairSurface_ok
    (stretch surface range.start (range.last + 1)) range.start
    (fun i hge hi => hin i hge (by rw [hmiddleLength] at hi; omega)) (Agrees.nil range true) hmiddle
  rw [hmiddleNone] at hagrees
  obtain rfl := hagrees.eq_nil
  obtain ⟨third, hthird, hagrees⟩ := pairSurface_ok (surface.drop (range.last + 1))
    (range.last + 1) (fun i hge _ => hout i (.inr (by omega))) (Agrees.nil range false) hback
  have hpairs : pairSurface range 0 [] surface = .ok third := by
    have hsecondAt : 0 + (surface.take range.start).length = range.start := by omega
    have hthirdAt : range.start + (stretch surface range.start (range.last + 1)).length
        = range.last + 1 := by omega
    rw [← hsplit, append_assoc, pairSurface_append, hfirst, ok_bind, hsecondAt,
      pairSurface_append, hsecond, ok_bind, hthirdAt, hthird]
  have hnone : (third.find? fun entry => inRange entry.2 range) = none := by
    rw [find?_eq_none]
    intro entry hentry
    rw [hagrees.side entry hentry]
    exact Bool.false_ne_true
  rw [validateToolPairs, hpairs, ok_bind, hnone]

/-! ## Planning and executing a selected range -/

theorem inputCodepoints_eq (service : RecoveryService) : ∀ (messages : List Message),
    (messages.map (messageSize service.text)).sum < u64Bound →
      inputCodepoints service.text messages
        = some (messages.map (messageSize service.text)).sum
  | [], _ => rfl
  | m :: rest, h => by
    rw [map_cons, sum_cons] at h ⊢
    have hrest := inputCodepoints_eq service rest (by omega)
    rw [inputCodepoints, serializedCodepoints_eq, hrest]
    exact if_pos h

/-- A selected range of a paired surface is planned, within its token limit.
-/
theorem planFromSurface_selected (hpaired : Paired surface)
    (hlimit : recovery.inputCodepointLimit < u64Bound) {recentStart : Nat}
    (h : Selected service recovery surface recentStart range) :
    ∃ plan, planFromSurface service.config service.text surface range recovery.inputCodepointLimit
        = .ok plan
      ∧ ∀ limit ∈ recovery.summaryLimit,
          (plan.messages.map (messageTokenEstimate service.text)).sum ≤ limit := by
  have hstopLe := (mem_completeBoundaries.mp h.stop_mem).1
  have hordered := h.ordered
  have hslice : rangeSlice surface range = .ok (stretch surface range.start (range.last + 1)) := by
    rw [rangeSlice, failIf_eq_ok.mpr (by omega), ok_bind, drop_take_eq]
  have hlength : (stretch surface range.start (range.last + 1)).length
      ≤ service.config.maxSurfaceMessages := by
    rw [length_stretch hstopLe]
    exact h.messages
  have hpairs := validateToolPairs_ok hpaired h.start_mem h.stop_mem hordered
  have hcp : (((stretch surface range.start (range.last + 1)).map SurfaceMessage.message).map
      (messageSize service.text)).sum ≤ recovery.inputCodepointLimit := by
    have hsum := h.cp
    rw [sliceSum_sizes] at hsum
    rw [map_map]
    exact hsum
  have hcount := inputCodepoints_eq service
    ((stretch surface range.start (range.last + 1)).map SurfaceMessage.message) (by omega)
  have hplan := planFromSurface_of_count hslice hlength hpairs hcount hcp
  refine ⟨_, hplan, fun limit hmem => ?_⟩
  have htokens := h.tokens limit hmem
  rw [sliceSum_estimates] at htokens
  rw [(planFromSurface_eq_ok hplan).2.2.2.2, drop_take_eq, map_map]
  exact htokens

/-! ## Errors of a range that cannot be executed -/

/-- The codes planning and the check on entry of an execution refuse a range
with. -/
def selectionCodes : List String :=
  ["INVALID_COMPACTION_REGION", "COMPACTION_REGION_TOO_LARGE", "UNBALANCED_TOOL_PAIR",
   "INVALID_TOOL_PAIR_ORDER", "COMPACTION_INPUT_TOO_LARGE"]

def Rejected : CompactionError → Prop
  | .invalid err => err.code ∈ selectionCodes
  | _ => False

theorem not_rejected_invalid {code : String} (h : code ∉ selectionCodes) (message : String)
    (details : Value) : ¬ Rejected (invalidCompaction code message details) := h

def Accepts {α : Type} (x : Except CompactionError α) : Prop := ∀ err, x = .error err → ¬ Rejected err

theorem Accepts.ok (a : α) : Accepts (.ok a : Except CompactionError α) :=
  nofun

theorem Accepts.error (h : ¬ Rejected err) : Accepts (.error err : Except CompactionError α) := by
  intro other hother
  cases hother
  exact h

theorem Accepts.bind {β : Type} {x : Except CompactionError α} {f : α → Except CompactionError β}
    (hx : Accepts x) (hf : ∀ a, Accepts (f a)) : Accepts (x >>= f) := by
  cases x with
  | error err =>
    intro other hother
    cases hother
    exact hx err rfl
  | ok a => exact hf a

theorem Accepts.failIf {p : Prop} [Decidable p] (h : ¬ Rejected err) : Accepts (failIf p err) := by
  unfold Library.failIf
  split
  · exact .error h
  · exact .ok ()

/-! ### The summary attempt -/

theorem summaryText_accepts : ∀ blocks : List ContentBlock, Accepts (summaryText blocks)
  | [] => .ok _
  | .text _ :: rest => (summaryText_accepts rest).bind fun _ => .ok _
  | .reasoning _ :: rest => summaryText_accepts rest
  | .image _ :: _ | .toolCall _ _ _ :: _ | .toolResult _ _ _ :: _ =>
    .error (not_rejected_invalid (by decide) _ _)

theorem summaryBlocks_accepts (m : Message) (maxCodepoints : Nat) :
    Accepts (summaryBlocks m maxCodepoints) :=
  (summaryText_accepts m.content).bind fun _ =>
    (Accepts.failIf (not_rejected_invalid (by decide) _ _)).bind fun _ =>
      (Accepts.failIf (not_rejected_invalid (by decide) _ _)).bind fun _ => .ok _

theorem checkFinish_accepts : ∀ reason : FinishReason, Accepts (checkFinish reason)
  | .stop => .ok ()
  | .aborted _ => .error id
  | .error _ => .error id
  | .toolCalls | .maxTokens => .error (not_rejected_invalid (by decide) _ _)

theorem checkedSummary_accepts (service : Service) (env : Environment) :
    Accepts (checkedSummary service env) := by
  have hanswer : Accepts (env.outcome.mapError fun err =>
    if env.cancelledAfterModel then CompactionError.cancelled else .llm err) := by
    cases env.outcome with
    | ok generation => exact .ok generation
    | error err =>
      refine .error ?_
      split <;> exact id
  exact hanswer.bind fun generation => (Accepts.failIf id).bind fun _ =>
    (checkFinish_accepts generation.finishReason).bind fun _ =>
      (summaryBlocks_accepts generation.message _).bind fun _ => .ok _

section Attempt

variable {env : Environment}

theorem finishError_accepts {err : CompactionError} (h : ¬ Rejected err) (run : Run σ) :
    Accepts (finishError S P env run err).1 := by
  unfold finishError
  dsimp only
  split
  · exact .error id
  · exact .error h

theorem compactionSessionError_not_rejected (cancelled : Bool) (err : SessionError) :
    ¬ Rejected (compactionSessionError cancelled err) := by
  unfold compactionSessionError
  split <;> exact id

variable {plan : Plan}

theorem executeReplacement_accepts (trigger : CompactionTrigger)
    (hrange : plan.range.last + 1 < u64Bound) (turn : Option Nat) (startSeq summarySeq : Nat)
    (replacement : Message) (run : Run σ) :
    Accepts (executeReplacement S P env trigger plan turn startSeq summarySeq replacement run).1 := by
  unfold executeReplacement
  rw [exclusiveEnd, if_pos hrange]
  dsimp only
  split
  · exact finishError_accepts (compactionSessionError_not_rejected _ _) _
  · split
    · exact .error id
    · exact .ok _

theorem executeStarted_accepts (service : Service) (trigger : CompactionTrigger)
    (hrange : plan.range.last + 1 < u64Bound) (turn : Option Nat) (startSeq : Nat) (run : Run σ) :
    Accepts (executeStarted S P service env trigger plan turn startSeq run).1 := by
  unfold executeStarted
  split
  · rename_i err herr
    exact finishError_accepts (checkedSummary_accepts service env err herr) _
  · split
    · exact finishError_accepts (compactionSessionError_not_rejected _ _) _
    · unfold executeSummary
      dsimp only
      split
      · exact finishError_accepts id _
      · split
        · exact finishError_accepts (not_rejected_invalid (by decide) _ _) _
        · exact executeReplacement_accepts trigger hrange _ _ _ _ _

theorem execute_accepts (service : Service) (trigger : CompactionTrigger)
    (hrange : plan.range.last + 1 < u64Bound) (run : Run σ)
    (htokens : ∀ limit ∈ summaryTokenLimit service run.live.header.id,
      (plan.messages.map (messageTokenEstimate service.text)).sum ≤ limit) :
    Accepts (execute S P service env trigger plan run).1 := by
  unfold execute
  split
  · exact .error id
  · split
    · rename_i hexceeds
      obtain ⟨limit, hmem, hlarge⟩ := hexceeds
      exact absurd (htokens limit hmem) (Nat.not_le.mpr hlarge)
    · dsimp only
      split
      · exact .error id
      · exact executeStarted_accepts service trigger hrange _ _ _

end Attempt

/-! ### Pruning -/

theorem toolResult_accepts (entry : SurfaceMessage) : Accepts (toolResult entry) := by
  unfold toolResult
  split
  · split
    · split
      · exact .error (not_rejected_invalid (by decide) _ _)
      · exact .ok _
    · exact .error (not_rejected_invalid (by decide) _ _)
  · exact .error (not_rejected_invalid (by decide) _ _)

theorem prunePlan_accepts (text : Message → Option String) (valueText : Value → String)
    (surface : List SurfaceMessage) (sourceEventSeq maxCodepoints : Nat) :
    Accepts (prunePlan text valueText surface sourceEventSeq maxCodepoints) := by
  refine (Accepts.failIf (not_rejected_invalid (by decide) _ _)).bind fun _ => ?_
  split
  · exact .error (not_rejected_invalid (by decide) _ _)
  · refine (toolResult_accepts _).bind fun found => ?_
    refine (Accepts.failIf (not_rejected_invalid (by decide) _ _)).bind fun _ => ?_
    unfold pruneFound
    dsimp only
    split
    · exact .ok _
    · exact (Accepts.failIf (not_rejected_invalid (by decide) _ _)).bind fun _ =>
        (Accepts.failIf (not_rejected_invalid (by decide) _ _)).bind fun _ => .ok _

theorem pruneToolResultLocked_accepts (text : Message → Option String)
    (valueText : Value → String) (env : PruneEnvironment) (sourceEventSeq maxCodepoints : Nat)
    (run : Run σ) : Accepts (pruneToolResultLocked S P text valueText env sourceEventSeq
      maxCodepoints run).1 := by
  unfold pruneToolResultLocked
  split
  · exact .error id
  · dsimp only
    split
    · rename_i err herr
      exact .error (prunePlan_accepts text valueText _ _ _ err herr)
    · exact .ok _
    · split
      · exact .error id
      · exact .ok _

/-! ## Every turn, every run -/

theorem SurfaceStep.paired {surface' : List SurfaceMessage}
    (h : SurfaceStep service recovery surface surface') (hpaired : Paired surface) :
    Paired surface' :=
  h.along ⟨trivial, trivial⟩ hpaired

/-- A turn on a paired surface returns no refusal of a range. -/
theorem recoverStep_accepts (hlimit : recovery.inputCodepointLimit < u64Bound)
    {progress : Progress σ} (hlive : progress.live.Replays S P)
    (hsummary : recovery.summaryLimit = summaryTokenLimit service.toService progress.live.header.id)
    (hpaired : Paired progress.live.state.surface) (env : StepEnvironment) {live : Live σ}
    (h : recoverStep service recovery S P env progress = .returned (.error err) live) :
    ¬ Rejected err := by
  have hstuck : ∀ {err live}, stuck service recovery progress = .returned (.error err) live →
      ¬ Rejected err := by
    intro err live h
    unfold stuck at h
    split at h
    · cases h
    · cases h
      exact not_rejected_invalid (by decide) _ _
  obtain ⟨hrange, _⟩ := selection_spec service recovery progress.live.state.surface
  unfold recoverStep at h
  split at h
  · cases h
    exact id
  · split at h
    · cases h
    · split at h
      · rename_i range oversized hselection
        rw [hselection] at hrange
        obtain ⟨plan, hplan, htokens⟩ := planFromSurface_selected hpaired hlimit (hrange range rfl)
        obtain ⟨hplanRange, hlast, _⟩ := planFromSurface_eq_ok hplan
        have hlength := surface_length_lt hlive
        rw [hsummary] at htokens
        have haccepts : Accepts (execute S P service.toService env.attempt recovery.trigger plan
            { live := progress.live, attempts := [] }).1 :=
          execute_accepts service.toService recovery.trigger (by rw [hplanRange]; omega)
            { live := progress.live, attempts := [] } htokens
        unfold summarise at h
        rw [hplan] at h
        dsimp only at h
        split at h
        · rename_i hresult
          rw [hresult] at haccepts
          cases h
          exact haccepts _ rfl
        · cases h
      · rename_i oversized hselection
        unfold unblock at h
        split at h
        · exact hstuck h
        · rename_i entry _
          have haccepts : Accepts (pruneToolResultLocked S P service.text service.valueText
              env.prune entry.eventSeq (pruneCap service recovery)
              { live := progress.live, attempts := [] }).1 :=
            pruneToolResultLocked_accepts _ _ _ _ _ _
          split at h
          · rename_i hresult
            rw [hresult] at haccepts
            cases h
            exact haccepts _ rfl
          · cases h
          · exact hstuck h

/-- The surface stays paired, so no later turn returns one. -/
theorem recoverLoop_accepts (hS : S.RoundTrips) (hP : P.Lawful)
    (hlimit : recovery.inputCodepointLimit < u64Bound) (left : Nat) :
    ∀ {steps : Nat → StepEnvironment} {progress : Progress σ} {err : CompactionError}
      {live : Live σ}, (∀ turn, (steps turn).Quiet) → progress.live.Replays S P →
        recovery.summaryLimit = summaryTokenLimit service.toService progress.live.header.id →
        Paired progress.live.state.surface →
          recoverLoop service recovery S P left steps progress = .returned (.error err) live →
            ¬ Rejected err := by
  induction left with
  | zero =>
    intro steps progress err live _ _ _ _ h
    cases h
  | succ left ih =>
    intro steps progress err live hquiet hlive hsummary hpaired h
    have hspec : TurnSpec S P service recovery progress.live
        (recoverStep service recovery S P (steps 0) progress) :=
      recoverStep_spec hS hP (hquiet 0) hlive
    rw [recoverLoop] at h
    cases hturn : recoverStep service recovery S P (steps 0) progress with
    | returned result live' =>
      rw [hturn] at h
      cases h
      exact recoverStep_accepts hlimit hlive hsummary hpaired (steps 0) hturn
    | again next =>
      rw [hturn] at h hspec
      obtain ⟨hheader, hnext, hstep⟩ := hspec
      exact ih (fun turn => hquiet (turn + 1)) hnext (by rw [hheader]; exact hsummary)
        (hstep.paired hpaired) h

theorem recoveryOf_summaryLimit (service : RecoveryService) (trigger : CompactionTrigger)
    (request : GenerateRequest) (contextWindow : Option Nat) (seq : Nat) (live : Live σ) :
    (recoveryOf service trigger request contextWindow seq live).summaryLimit
      = summaryTokenLimit service.toService live.header.id := rfl

theorem inputCodepointLimit_lt (service : RecoveryService) (trigger : CompactionTrigger)
    (request : GenerateRequest) (contextWindow : Option Nat) (seq : Nat) (live : Live σ) :
    (recoveryOf service trigger request contextWindow seq live).inputCodepointLimit < u64Bound := by
  have hinput := service.maxInputCodepoints_lt
  unfold recoveryOf
  dsimp only
  split
  · unfold saturate u64Bound
    omega
  · exact hinput

/-- The recovery loop's own selections are executable. For every service,
request, trigger and window and every live session: a range the loop selects on
a paired surface, whichever it is, is planned without an error, and its plan is
within the token limit the execution checks again; and from a session with a
paired surface nobody else writes to, no sequence of answers of the model and
the token makes the call fail with one of the codes of a refused range. -/
theorem recovery_selections_executable (S : Serde) (hS : S.RoundTrips) (P : Persistence σ)
    (hP : P.Lawful) (service : RecoveryService) (trigger : CompactionTrigger)
    (request : GenerateRequest) (contextWindow : Option Nat) (live : Live σ)
    (hlive : live.Replays S P) :
    (∀ seq surface range, Paired surface →
      (selection service (recoveryOf service trigger request contextWindow seq live) surface).1
        = some range →
      ∃ plan, planFromSurface service.config service.text surface range
          (recoveryOf service trigger request contextWindow seq live).inputCodepointLimit = .ok plan
        ∧ ∀ limit ∈ summaryTokenLimit service.toService live.header.id,
            (plan.messages.map (messageTokenEstimate service.text)).sum ≤ limit)
    ∧ (Paired live.state.surface →
        ∀ (busy cancelled : Bool) (steps : Nat → StepEnvironment), (∀ turn, (steps turn).Quiet) →
          ∀ err, (compactForRequest S P service trigger request contextWindow busy cancelled steps
            live).1 = .error err → ¬ Rejected err) := by
  refine ⟨fun seq surface range hpaired hselected => ?_, ?_⟩
  · exact planFromSurface_selected hpaired
      (inputCodepointLimit_lt service trigger request contextWindow seq live)
      ((selection_spec service _ surface).1 range hselected)
  · intro hpaired busy cancelled steps hquiet err h
    unfold compactForRequest at h
    split at h
    · cases h
      exact id
    · split at h
      · cases h
        exact id
      · split at h
        · cases h
          exact id
        · rename_i seq _
          split at h
          · rename_i hloop
            dsimp only at h
            subst h
            have hlimit := inputCodepointLimit_lt service trigger request contextWindow seq live
            have hsummary := recoveryOf_summaryLimit service trigger request contextWindow seq live
            generalize recoveryOf service trigger request contextWindow seq live = recovery
              at hloop hlimit hsummary
            exact recoverLoop_accepts hS hP hlimit _ hquiet
              (show ({ live, outcome := none, completed := 0 } : Progress σ).live.Replays S P
                from hlive) hsummary hpaired hloop
          · cases h
            exact not_rejected_invalid (by decide) _ _

/-! ### A call and its result -/

/-- The calls on a session with a call, its result and a greeting. -/
def answeredCalls : List Call :=
  [.append (toolEvent "assistant/message" callMessage 0) .never,
   .append (toolEvent "tool/result" resultMessage 1) .never, .append (greetingEvent 2) .never]

def answeredSession : Live MemoryState :=
  runState (Live.call wireSerde (memoryPersistence wireSerde)) (memorySession (.plain ⟨"s"⟩ 0))
    answeredCalls

theorem answeredSession_replays :
    answeredSession.Replays wireSerde (memoryPersistence wireSerde) := memorySession_replays _

theorem recovery_selections_executable_answered :
    Paired answeredSession.state.surface
      ∧ ∀ err, (compactForRequest wireSerde (memoryPersistence wireSerde)
          (sampleRecovery greetingService.config (by decide)) .manual sampleRequest none false false
          (fun _ => quietStep) answeredSession).1 = .error err → ¬ Rejected err :=
  have hpaired : Paired answeredSession.state.surface := by decide +kernel
  ⟨hpaired, (recovery_selections_executable wireSerde wireSerde_roundTrips
    (memoryPersistence wireSerde) (memoryPersistence_lawful wireSerde)
    (sampleRecovery greetingService.config (by decide)) .manual sampleRequest none answeredSession
    answeredSession_replays).2 hpaired false false (fun _ => quietStep)
    fun _ => quietStep_quiet⟩

end Tessivum.Compaction
