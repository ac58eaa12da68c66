/-
Tessivum.Host.ForkTheorems — what a fork takes over.

§1 The new number of an event is its rank among the events kept, and the
   seed is the events kept with their numbers and citations replaced
   (`forkSeed_eq`).
§2 An event that was admitted passes the same checks under its new
   number, unless it replaces and has lost all its citations
   (`renumbered_validate`).
§3 The seed replays beside the prefix: the surfaces show the same
   messages, and the inbox is the same (`forkSeed_accepted`).
§4 The fork itself.

A replacement must cite something, and nothing keeps it from citing only
a seed boundary. The fork drops that citation, and then the store refuses
the seed.
-/
import Tessivum.Host.Fork

namespace Tessivum.Host

open Library Protocol Session List

/-! ## §1 New numbers -/

theorem forkSequences_snoc (log : List SessionEvent) (e : SessionEvent) :
    forkSequences (log ++ [e]) =
      if seedKeeps e then Keyed.set e.seq (forkSequences log).length (forkSequences log)
      else forkSequences log := by
  rw [forkSequences, foldl_append]
  rfl

/-- A kept event gets its rank for a number. -/
theorem forkSequences_spec {log : List SessionEvent} (hlog : Numbered log) :
    (forkSequences log).length = (log.filter seedKeeps).length
      ∧ ∀ k, (forkSequences log).lookup k
        = log[k]?.bind fun e => if seedKeeps e then some (rank seedKeeps log k) else none := by
  induction log using reverseRecOn with
  | nil => exact ⟨rfl, fun k => rfl⟩
  | append_singleton log e ih =>
    obtain ⟨hinit, hseq⟩ := numbered_snoc.mp hlog
    obtain ⟨hlength, hlookup⟩ := ih hinit
    -- The events before keep their numbers.
    have hbefore : ∀ k < log.length, (forkSequences log).lookup k
        = (log ++ [e])[k]?.bind fun x =>
          if seedKeeps x then some (rank seedKeeps (log ++ [e]) k) else none := by
      intro k hk
      rw [hlookup, getElem?_append_left hk, rank_append (le_of_lt hk)]
    have hafter : ∀ k, log.length < k → (log ++ [e])[k]? = none := fun k hk =>
      getElem?_eq_none (by rw [length_append, length_singleton]; exact hk)
    have hnone : ∀ k, log.length ≤ k → (forkSequences log).lookup k = none := by
      intro k hk
      rw [hlookup, getElem?_eq_none hk]
      rfl
    rw [forkSequences_snoc, filter_append]
    by_cases hkeeps : seedKeeps e = true
    · have hnew : e.seq ∉ (forkSequences log).map Prod.fst :=
        Keyed.lookup_eq_none.mp (hnone e.seq (le_of_eq hseq.symm))
      rw [if_pos hkeeps]
      refine ⟨?_, fun k => ?_⟩
      · rw [Keyed.length_set _ hnew, hlength, filter_cons_of_pos hkeeps,
          length_append]
        rfl
      · rw [Keyed.lookup_set]
        rcases Nat.lt_trichotomy k log.length with hk | rfl | hk
        · rw [if_neg (by omega), hbefore k hk]
        · rw [if_pos hseq.symm, getElem?_append_right (le_refl _), Nat.sub_self,
            rank_append (le_refl _), rank_length, hlength]
          simp [hkeeps]
        · rw [if_neg (by omega), hnone k (le_of_lt hk), hafter k hk]
          rfl
    · rw [if_neg hkeeps]
      refine ⟨?_, fun k => ?_⟩
      · rw [hlength, filter_cons_of_neg hkeeps, filter_nil, append_nil]
      · rcases Nat.lt_trichotomy k log.length with hk | rfl | hk
        · exact hbefore k hk
        · rw [hnone _ (le_refl _), getElem?_append_right (le_refl _), Nat.sub_self]
          simp [hkeeps]
        · rw [hnone k (le_of_lt hk), hafter k hk]
          rfl

section
variable {log : List SessionEvent} {e x : SessionEvent}
variable {n : Nat}

theorem lookup_forkSequences (hlog : Numbered log) {k : Nat} :
    (forkSequences log).lookup k = some n ↔
      ∃ e, log[k]? = some e ∧ seedKeeps e = true ∧ n = rank seedKeeps log k := by
  rw [(forkSequences_spec hlog).2, bind_eq_some_iff]
  refine exists_congr fun e => and_congr_right fun _ => ?_
  by_cases hkeeps : seedKeeps e = true
  · rw [if_pos hkeeps, some.injEq, and_iff_right hkeeps, eq_comm]
  · rw [if_neg hkeeps]
    exact ⟨nofun, fun h => absurd h.1 hkeeps⟩

/-- An event kept, with its new number and its citations under theirs. -/
def renumbered (log : List SessionEvent) (e : SessionEvent) : SessionEvent :=
  { e with
    seq := rank seedKeeps log e.seq
    sourceEventSeqs := mapSources (forkSequences log) e.sourceEventSeqs }

theorem filterMap_eq_map_filter {α β : Type} {f : α → Option β} {p : α → Bool} {g : α → β}
    {xs : List α} (h : ∀ x ∈ xs, f x = if p x then some (g x) else none) :
    xs.filterMap f = (xs.filter p).map g := by
  induction xs with
  | nil => rfl
  | cons x rest ih =>
    have hrest := ih fun y hy => h y (mem_cons_of_mem x hy)
    have hx := h x mem_cons_self
    by_cases hp : p x = true
    · rw [if_pos hp] at hx
      rw [filterMap_cons_some hx, filter_cons_of_pos hp, map_cons, hrest]
    · rw [if_neg hp] at hx
      rw [filterMap_cons_none hx, filter_cons_of_neg hp, hrest]

theorem forkSeed_eq (hlog : Numbered log) :
    forkSeed log = (log.filter seedKeeps).map (renumbered log) := by
  refine filterMap_eq_map_filter fun x hx => ?_
  rw [forkEvent, (forkSequences_spec hlog).2, hlog.getElem?_seq hx, bind_some]
  by_cases hkeeps : seedKeeps x = true
  · rw [if_pos hkeeps, if_pos hkeeps]
    rfl
  · rw [if_neg hkeeps, if_neg hkeeps]
    rfl

theorem length_forkSeed (hlog : Numbered log) :
    (forkSeed log).length = rank seedKeeps log log.length := by
  rw [forkSeed_eq hlog, length_map, rank_length]

def cited (e : SessionEvent) : List Nat := e.sourceEventSeqs.getD []

def CitesEarlier (log : List SessionEvent) : Prop := ∀ e ∈ log, ∀ k ∈ cited e, k < e.seq

theorem mapSources_congr {xs ys : List (Nat × Nat)} {sources : Option (List Nat)}
    (h : ∀ k ∈ sources.getD [], xs.lookup k = ys.lookup k) :
    mapSources xs sources = mapSources ys sources := by
  cases sources with
  | none => rfl
  | some sources =>
    have hmap : sources.filterMap (fun source => xs.lookup source)
        = sources.filterMap fun source => ys.lookup source :=
      filterMap_congr fun k hk => h k hk
    simp only [mapSources, hmap]

theorem renumbered_snoc (hlog : Numbered (log ++ [e])) (hcites : CitesEarlier (log ++ [e]))
    (hx : x ∈ log) : renumbered (log ++ [e]) x = renumbered log x := by
  have hinit := (numbered_snoc.mp hlog).1
  have hlt := hinit.seq_lt_length hx
  have hsources : mapSources (forkSequences (log ++ [e])) x.sourceEventSeqs
      = mapSources (forkSequences log) x.sourceEventSeqs := by
    refine mapSources_congr fun k hk => ?_
    have hk := hcites x (mem_append_left [e] hx) k hk
    rw [(forkSequences_spec hlog).2, (forkSequences_spec hinit).2,
      getElem?_append_left (by omega), rank_append (by omega)]
  rw [renumbered, renumbered, hsources, rank_append (le_of_lt hlt)]

theorem forkSeed_snoc (hlog : Numbered (log ++ [e])) (hcites : CitesEarlier (log ++ [e])) :
    forkSeed (log ++ [e])
      = forkSeed log ++ if seedKeeps e then [renumbered (log ++ [e]) e] else [] := by
  have hinit := (numbered_snoc.mp hlog).1
  have hsame : (log.filter seedKeeps).map (renumbered (log ++ [e]))
      = (log.filter seedKeeps).map (renumbered log) :=
    map_congr_left fun x hx => renumbered_snoc hlog hcites (mem_filter.mp hx).1
  rw [forkSeed_eq hlog, forkSeed_eq hinit, filter_append, map_append, hsame]
  congr 1
  by_cases hkeeps : seedKeeps e = true
  · rw [filter_cons_of_pos hkeeps, if_pos hkeeps]
    rfl
  · rw [filter_cons_of_neg hkeeps, if_neg hkeeps]
    rfl

theorem renumbered_last (hlog : Numbered (log ++ [e])) :
    (renumbered (log ++ [e]) e).seq = (forkSeed log).length := by
  obtain ⟨hinit, hseq⟩ := numbered_snoc.mp hlog
  rw [length_forkSeed hinit, renumbered, hseq, rank_append (le_refl _)]

theorem CitesEarlier.init (h : CitesEarlier (log ++ [e])) : CitesEarlier log :=
  fun x hx => h x (mem_append_left [e] hx)

theorem forkSeed_numbered (hlog : Numbered log) (hcites : CitesEarlier log) :
    Numbered (forkSeed log) := by
  induction log using reverseRecOn with
  | nil => exact fun i x h => by simp [forkSeed] at h
  | append_singleton log e ih =>
    have hinit := ih (numbered_snoc.mp hlog).1 hcites.init
    rw [forkSeed_snoc hlog hcites]
    split
    · exact numbered_snoc.mpr ⟨hinit, renumbered_last hlog⟩
    · rw [append_nil]
      exact hinit

theorem mem_cited_renumbered (hlog : Numbered log) :
    n ∈ cited (renumbered log e) ↔
      ∃ c ∈ log, c.seq ∈ cited e ∧ seedKeeps c = true ∧ n = (renumbered log c).seq := by
  have hmem : n ∈ cited (renumbered log e) ↔
      ∃ k ∈ cited e, (forkSequences log).lookup k = some n := by
    rw [cited, cited, renumbered]
    cases e.sourceEventSeqs with
    | none => simp [mapSources]
    | some sources =>
      rw [mapSources]
      split
      · rw [getD_some, getD_some, mem_filterMap]
      · rename_i hlost
        simp only [or_eq_true, not_eq_true', isEmpty_eq_false_iff,
          List.isEmpty_iff, not_or, not_not] at hlost
        rw [getD_none, getD_some, ← mem_filterMap, hlost.1]
  rw [hmem]
  constructor
  · rintro ⟨k, hk, hlookup⟩
    obtain ⟨c, hget, hkeeps, rfl⟩ := (lookup_forkSequences hlog).mp hlookup
    have hseq := hlog k c hget
    exact ⟨c, mem_of_getElem? hget, hseq ▸ hk, hkeeps, by rw [renumbered, hseq]⟩
  · rintro ⟨c, hc, hcited, hkeeps, rfl⟩
    exact ⟨c.seq, hcited, (lookup_forkSequences hlog).mpr ⟨c, hlog.getElem?_seq hc, hkeeps, rfl⟩⟩

end

/-! ## §2 The checks of one event -/

section
variable {S : Serde} {log : List SessionEvent} {e : SessionEvent}

theorem validateCitations_eq_ok :
    validateCitations e = .ok () ↔
      (e.sourceEventSeqs = some [] → e.eventType = "assistant/message")
        ∧ ∀ k ∈ cited e, k ≤ maxSafeInteger ∧ k < e.seq := by
  unfold validateCitations cited
  cases e.sourceEventSeqs with
  | none => simp
  | some sources =>
    rw [check_bind_eq_ok, failIf_eq_ok, forAllOk_eq_ok, getD_some, and_comm (a := _ ≠ _),
      not_and_not_right, some.injEq]
    refine and_congr_right fun _ => forall₂_congr fun k _ => ?_
    · rw [validateSourceSeq, check_bind_eq_ok, checkSafeInteger_eq_ok, failIf_eq_ok, not_le]

theorem validateSurfaceMetadata_eq_ok :
    validateSurfaceMetadata e = .ok () ↔
      if isSurfaceEventType e.eventType then
        ∃ op, e.surfaceOp = some op ∧ op.validate = .ok ()
          ∧ (e.sourceEventSeqs = some [] → e.eventType = "assistant/message")
          ∧ (∀ k ∈ cited e, k ≤ maxSafeInteger ∧ k < e.seq)
          ∧ (op ≠ .append → cited e ≠ [])
      else e.surfaceOp = none ∧ e.sourceEventSeqs = none := by
  unfold validateSurfaceMetadata
  by_cases hsurface : isSurfaceEventType e.eventType = true
  · rw [if_pos hsurface, if_pos hsurface]
    cases e.surfaceOp with
    | none => exact ⟨nofun, nofun⟩
    | some op =>
      have hcited : (e.sourceEventSeqs = none ∨ e.sourceEventSeqs = some []) ↔ cited e = [] := by
        unfold cited
        cases e.sourceEventSeqs <;> simp
      simp only [check_bind_eq_ok, validateCitations_eq_ok, failIf_eq_ok, hcited, not_and,
        some.injEq, exists_eq_left', and_assoc]
  · rw [if_neg hsurface, if_neg hsurface, failIf_eq_ok]
    simp

def isReplacement (e : SessionEvent) : Bool := e.surfaceOp.any (· != .append)

theorem cited_lt_of_validate (h : e.validate S = .ok ()) : ∀ k ∈ cited e, k < e.seq := by
  have hmeta := validateSurfaceMetadata_eq_ok.mp (SessionEvent.validate_eq_ok.mp h).2.2.2.2.2
  split at hmeta
  · obtain ⟨_, _, _, _, hcites, _⟩ := hmeta
    exact fun k hk => (hcites k hk).2
  · intro k hk
    rw [cited, hmeta.2] at hk
    cases hk

theorem isReplacement_cites (h : e.validate S = .ok ()) (hreplace : isReplacement e = true) :
    isSurfaceEventType e.eventType = true ∧ cited e ≠ [] := by
  have hmeta := validateSurfaceMetadata_eq_ok.mp (SessionEvent.validate_eq_ok.mp h).2.2.2.2.2
  unfold isReplacement at hreplace
  split at hmeta
  · rename_i hsurface
    obtain ⟨_, hop, _, _, _, hcites⟩ := hmeta
    rw [hop] at hreplace
    exact ⟨hsurface, hcites (by simpa using hreplace)⟩
  · rw [hmeta.1] at hreplace
    cases hreplace

def KeepsCitation (log : List SessionEvent) (e : SessionEvent) : Prop :=
  ∃ c ∈ log, c.seq ∈ cited e ∧ seedKeeps c = true

theorem cited_renumbered_ne_nil (hlog : Numbered log) :
    cited (renumbered log e) ≠ [] ↔ KeepsCitation log e := by
  constructor
  · intro hne
    obtain ⟨n, hn⟩ := exists_mem_of_ne_nil _ hne
    obtain ⟨c, hc, hcited, hkeeps, _⟩ := (mem_cited_renumbered hlog).mp hn
    exact ⟨c, hc, hcited, hkeeps⟩
  · rintro ⟨c, hc, hcited, hkeeps⟩
    exact ne_nil_of_mem ((mem_cited_renumbered hlog).mpr ⟨c, hc, hcited, hkeeps, rfl⟩)

/-- An admitted event passes the checks under its new number. -/
theorem renumbered_validate (hlog : Numbered log) (hvalid : e.validate S = .ok ())
    (hkept : isReplacement e = true → KeepsCitation log e) :
    (renumbered log e).validate S = .ok () := by
  obtain ⟨hseq, htime, hignorable, hknown, hworkflow, hmeta⟩ :=
    SessionEvent.validate_eq_ok.mp hvalid
  have hrank : rank seedKeeps log e.seq ≤ maxSafeInteger :=
    le_trans (rank_le seedKeeps log e.seq) hseq
  refine SessionEvent.validate_eq_ok.mpr ⟨hrank, htime, hignorable, hknown, hworkflow, ?_⟩
  have hearlier := cited_lt_of_validate hvalid
  rw [validateSurfaceMetadata_eq_ok] at hmeta ⊢
  by_cases hsurface : isSurfaceEventType e.eventType = true
  · rw [if_pos hsurface] at hmeta
    rw [if_pos (show isSurfaceEventType (renumbered log e).eventType = true from hsurface)]
    obtain ⟨op, hop, hopValid, hempty, _, _⟩ := hmeta
    refine ⟨op, hop, hopValid, fun hnil => ?_, fun n hn => ?_, fun hne => ?_⟩
    · -- An empty list was empty before.
      refine hempty ?_
      change mapSources (forkSequences log) e.sourceEventSeqs = some [] at hnil
      cases hsources : e.sourceEventSeqs with
      | none =>
        rw [hsources] at hnil
        cases hnil
      | some sources =>
        rw [hsources, mapSources] at hnil
        split at hnil
        · rename_i hkeeps
          rw [some.inj hnil] at hkeeps
          simpa using hkeeps
        · cases hnil
    · obtain ⟨c, hc, hcited, hkeeps, rfl⟩ := (mem_cited_renumbered hlog).mp hn
      have hlt : rank seedKeeps log c.seq < rank seedKeeps log e.seq :=
        rank_lt (hlog.getElem?_seq hc) hkeeps (hearlier c.seq hcited)
      exact ⟨le_trans (le_of_lt hlt) hrank, hlt⟩
    · refine (cited_renumbered_ne_nil hlog).mpr (hkept ?_)
      rw [isReplacement, hop]
      simpa using hne
  · rw [if_neg hsurface] at hmeta
    rw [if_neg (show ¬ isSurfaceEventType (renumbered log e).eventType = true from hsurface)]
    refine ⟨hmeta.1, ?_⟩
    rw [renumbered, hmeta.2]
    rfl

theorem decodeSurfaceEvent_renumbered (log : List SessionEvent)
    {projection : Option SurfaceMessage} (h : decodeSurfaceEvent S e = .ok projection) :
    ∃ projection', decodeSurfaceEvent S (renumbered log e) = .ok projection'
      ∧ projection'.map SurfaceMessage.message = projection.map SurfaceMessage.message := by
  unfold decodeSurfaceEvent at h ⊢
  rw [show (renumbered log e).eventType = e.eventType from rfl,
    show surfaceData (renumbered log e) = surfaceData e from rfl]
  cases hrole : expectedRole e.eventType with
  | none =>
    rw [hrole] at h
    exact ⟨projection, h, rfl⟩
  | some role =>
    rw [hrole] at h
    simp only [bind_eq_ok, exists_unit, failIf_eq_ok, ok.injEq] at h
    obtain ⟨data, hdata, message, hmessage, hsame, rfl⟩ := h
    refine ⟨some { eventSeq := (renumbered log e).seq, message
                   sourceEventSeqs := (renumbered log e).sourceEventSeqs }, ?_, rfl⟩
    simp only [bind_eq_ok, exists_unit, failIf_eq_ok, ok.injEq]
    exact ⟨data, hdata, message, hmessage, hsame, rfl⟩

end

/-! ## §3 The replay of the seed -/

section
variable {S : Serde} {header child : SessionHeader} {log : List SessionEvent}
variable {cut : SessionState} {e e' : SessionEvent} {projection projection' : Option SurfaceMessage}
  {surface surface' : List SurfaceMessage}

theorem citesEarlier_of_accepted (h : Accepted S header log cut) : CitesEarlier log :=
  fun e he => cited_lt_of_validate (h.event e he).1

theorem map_message_applySurfaceOperation (hop : e'.surfaceOp = e.surfaceOp)
    (hprojection : projection'.map SurfaceMessage.message = projection.map SurfaceMessage.message)
    (hsurface : surface'.map SurfaceMessage.message = surface.map SurfaceMessage.message) :
    (applySurfaceOperation e' projection' surface').map SurfaceMessage.message
      = (applySurfaceOperation e projection surface).map SurfaceMessage.message := by
  cases projection with
  | none =>
    rw [map_none, map_eq_none_iff] at hprojection
    rw [hprojection]
    exact hsurface
  | some m =>
    rw [map_some, map_eq_some_iff] at hprojection
    obtain ⟨_, rfl, hmessage⟩ := hprojection
    simp only [applySurfaceOperation, hop]
    cases e.surfaceOp with
    | none => exact hsurface
    | some op =>
      cases op with
      | append => simp [hsurface, hmessage]
      | replace start stop =>
        simp only [splice, map_append, map_cons, map_take, map_drop,
          hsurface, hmessage]

theorem validateSurfaceOperation_congr (hop : e'.surfaceOp = e.surfaceOp)
    (hprojection : projection'.isSome = projection.isSome)
    (hlength : surface'.length = surface.length) :
    validateSurfaceOperation e' projection' surface'
      = validateSurfaceOperation e projection surface := by
  unfold validateSurfaceOperation
  rw [hop, hlength]
  cases projection <;> cases projection' <;> first | rfl | cases hprojection

theorem seedBoundary_silent (h : ¬ seedKeeps e = true) :
    expectedRole e.eventType = none ∧ ∀ inbox, InboxReplay.apply S inbox e = .ok inbox := by
  have htype : e.eventType = "session/end-seed" := by simpa [seedKeeps] using h
  constructor
  · rw [htype]
    decide
  · intro inbox
    unfold InboxReplay.apply
    rw [htype, if_neg (by decide), if_neg (by decide), if_neg (by decide)]

/-- What replays of a prefix and of its seed have in common. -/
structure Copies (S : Serde) (log : List SessionEvent) (cut copy : SessionState) : Prop where
  messages : copy.surface.map SurfaceMessage.message = cut.surface.map SurfaceMessage.message
  inbox : replayInbox S (forkSeed log) = replayInbox S log

/-- The seed of an accepted log is accepted, if every replacement keeps a
citation, and both show the same messages. -/
theorem forkSeed_accepted (child : SessionHeader) (h : Accepted S header log cut)
    (hkept : ∀ e ∈ log, isReplacement e = true → KeepsCitation log e) :
    ∃ copy, Accepted S child (forkSeed log) copy ∧ Copies S log cut copy := by
  induction log using reverseRecOn generalizing cut with
  | nil =>
    cases h
    exact ⟨_, .nil, ⟨rfl, rfl⟩⟩
  | append_singleton log e ih =>
    have hnumbered := h.numbered
    have hcites := citesEarlier_of_accepted h
    obtain ⟨hinit, hlast⟩ := numbered_snoc.mp hnumbered
    obtain ⟨mid, hmid, hstep⟩ := accepted_snoc.mp h
    obtain ⟨hvalid, _, _, _, projection, hdecode, hoperation, rfl⟩ := replayEvent_eq_ok.mp hstep
    -- A citation in the log before is a citation of an event before.
    have hkeptInit : ∀ x ∈ log, isReplacement x = true → KeepsCitation log x := by
      intro x hx hreplace
      obtain ⟨c, hc, hcited, hkeeps⟩ := hkept x (mem_append_left [e] hx) hreplace
      have hlt := hcites x (mem_append_left [e] hx) c.seq hcited
      have hxlt := hinit.seq_lt_length hx
      rcases mem_append.mp hc with hc | hc
      · exact ⟨c, hc, hcited, hkeeps⟩
      · rw [mem_singleton.mp hc] at hlt
        omega
    obtain ⟨copy, hcopy, hmessages, hinbox⟩ := ih hmid hkeptInit
    have hinboxStep : replayInbox S (log ++ [e])
        = replayInbox S log >>= fun inbox => InboxReplay.apply S inbox e :=
      foldlM_append_one _ _ _ _
    have hsnoc := forkSeed_snoc hnumbered hcites
    by_cases hkeeps : seedKeeps e = true
    · rw [if_pos hkeeps] at hsnoc
      have hseq := renumbered_last hnumbered
      have hseedNumbered := hcopy.numbered
      obtain ⟨projection', hdecode', hsame⟩ := decodeSurfaceEvent_renumbered (log ++ [e]) hdecode
      have hlength : copy.surface.length = mid.surface.length := by
        simpa using congrArg List.length hmessages
      have hbound : (forkSeed log).length < u64Bound := by
        rw [length_forkSeed hinit]
        have hle := rank_le seedKeeps log log.length
        have hmax := (SessionEvent.validate_eq_ok.mp hvalid).1
        have : maxSafeInteger < u64Bound := by decide
        omega
      refine ⟨copy.record (renumbered (log ++ [e]) e) projection', ?_, ?_, ?_⟩
      · rw [hsnoc]
        refine accepted_snoc.mpr ⟨copy, hcopy, replayEvent_eq_ok.mpr
          ⟨?_, ?_, ?_, ?_, projection', hdecode', ?_, rfl⟩⟩
        · exact renumbered_validate hnumbered hvalid (hkept e (by simp))
        · rw [checkSeq_eq_ok, hcopy.events, hseedNumbered.nextSeq, if_pos hbound, hseq]
        · have htype : e.eventType ≠ "session/end-seed" := by simpa [seedKeeps] using hkeeps
          exact if_pos htype
        · rw [validateSources]
          split
          · rfl
          · rename_i hsources
            refine (forAllOk_eq_ok _ _).mpr fun n hn => ?_
            have hcited : n ∈ cited (renumbered (log ++ [e]) e) := by
              rw [cited, hsources]
              exact hn
            obtain ⟨c, hc, hcitedBefore, hckeeps, rfl⟩ :=
              (mem_cited_renumbered hnumbered).mp hcited
            have hlt : (renumbered (log ++ [e]) c).seq < (forkSeed log).length := by
              rw [← hseq]
              exact rank_lt (hnumbered.getElem?_seq hc) hckeeps
                (hcites e (by simp) c.seq hcitedBefore)
            rw [validateSource, failIf_eq_ok, hcopy.events, not_eq_true', not_eq_false]
            refine any_eq_true.mpr ⟨(forkSeed log)[_], getElem_mem hlt, ?_⟩
            rw [hseedNumbered _ _ (getElem?_eq_getElem hlt)]
            exact beq_self_eq_true _
        · rw [← hoperation]
          refine validateSurfaceOperation_congr rfl ?_ hlength
          simpa using congrArg Option.isSome hsame
      · exact map_message_applySurfaceOperation rfl hsame hmessages
      · rw [hinboxStep, hsnoc, replayInbox, foldlM_append_one, ← hinbox]
        rfl
    · rw [if_neg hkeeps, append_nil] at hsnoc
      obtain ⟨hrole, hsilent⟩ := seedBoundary_silent (S := S) hkeeps
      rw [decodeSurfaceEvent, hrole] at hdecode
      cases hdecode
      refine ⟨copy, by rw [hsnoc]; exact hcopy, hmessages, ?_⟩
      rw [hinboxStep, hsnoc, hinbox]
      cases replayInbox S log with
      | error err => rfl
      | ok inbox => exact (hsilent inbox).symm

theorem keepsCitation_of_forkSeed_accepted {copy : SessionState} (h : Accepted S header log cut)
    (hcopy : Accepted S child (forkSeed log) copy) :
    ∀ e ∈ log, isReplacement e = true → KeepsCitation log e := by
  intro e he hreplace
  have hsurface := (isReplacement_cites (h.event e he).1 hreplace).1
  have hkeeps : seedKeeps e = true := by
    rw [seedKeeps, bne_iff_ne]
    intro htype
    rw [htype] at hsurface
    exact absurd hsurface (by decide)
  have hmem : renumbered log e ∈ forkSeed log := by
    rw [forkSeed_eq h.numbered]
    exact mem_map.mpr ⟨e, mem_filter.mpr ⟨he, hkeeps⟩, rfl⟩
  exact (cited_renumbered_ne_nil h.numbered).mp
    (isReplacement_cites (hcopy.event _ hmem).1 hreplace).2

end

/-! ## §4 The fork -/

section
variable {S : Serde} {σ : Type} {P : Persistence σ} {store : Store σ}
variable {header : SessionHeader} {seed : List SessionEvent} {token : Cancellation}

theorem createSeeded_of_buildState {state : SessionState} {disk : σ}
    (hbuild : buildState S header seed = .ok state) (hlength : header.seedLength = some seed.length)
    (htoken : token 0 = false) (hlive : store.isLive header.id = false)
    (hdisk : P.createSeeded store.disk header seed (token.after 1) = (.ok (), disk)) :
    ∃ store', store.createSeeded S P header seed token = (.ok { header, state, disk }, store') := by
  have hheader := (buildState_eq_ok.mp hbuild).1
  have hnotLive : store.ensureNotLive header.id = .ok () := by
    rw [Store.ensureNotLive, failIf_eq_ok, hlive]
    exact Bool.false_ne_true
  have hchecks : (do
    checkCancellation token 0
    validateHeader header
    failIf (header.seedLength ≠ some seed.length)
      (.invalidSeedLength (header.seedLength.getD 0) seed.length)
    let state ← buildState S header seed
    store.ensureNotLive header.id
    .ok state : Except SessionError SessionState) = .ok state := by
    simp only [bind_eq_ok, exists_unit]
    refine ⟨?_, hheader, ?_, state, hbuild, hnotLive, rfl⟩
    · rw [checkCancellation, failIf_eq_ok, htoken]
      exact Bool.false_ne_true
    · rw [failIf_eq_ok, not_not]
      exact hlength
  simp only [Store.createSeeded, hchecks, hdisk, Store.insertLive]
  rw [show Store.ensureNotLive store header.id = .ok () from hnotLive]
  exact ⟨_, rfl⟩

theorem buildState_of_createSeeded {live : Live σ} {store' : Store σ}
    (h : store.createSeeded S P header seed token = (.ok live, store')) :
    buildState S header seed = .ok live.state := by
  simp only [Store.createSeeded] at h
  split at h
  · cases h
  · rename_i hchecks
    simp only [bind_eq_ok, exists_unit] at hchecks
    obtain ⟨_, _, _, _, hbuild, _, hstate⟩ := hchecks
    cases hstate
    split at h
    · cases h
    · rw [Store.insertLive_eq_ok h]
      exact hbuild

end

section
variable {S : Serde} {source : SessionHeader} {log : List SessionEvent}

def forkPrefix (log : List SessionEvent) (boundary : Nat) : List SessionEvent :=
  log.take (forkEnd log boundary)

theorem forkSession_eq {σ : Type} (S : Serde) (P : Persistence σ) (store : Store σ)
    (source : SessionHeader) {atSeq : Option Nat} {boundary : Nat}
    (hboundary : forkBoundary log atSeq = .ok boundary) (childId : SessionId) (createdAt : Nat)
    (mode : AgentModeId) (token : Cancellation) :
    forkSession S P store source log atSeq (.ok ()) childId createdAt (.ok mode) token =
      match store.createSeeded S P
          (forkHeader source childId createdAt mode (forkSeed (forkPrefix log boundary)))
          (forkSeed (forkPrefix log boundary)) token with
      | (.error err, store) => (.error (.session err), store)
      | (.ok child, store) => (.ok child, store) := by
  rw [forkSession, hboundary]
  rfl

/-- Over every backend that takes the seed, the fork makes a child with
the seed as its log and with the messages. -/
def ForkMakes (S : Serde) (source : SessionHeader) (log : List SessionEvent) (atSeq : Option Nat)
    (childId : SessionId) (createdAt : Nat) (mode : AgentModeId) (seed : List SessionEvent)
    (messages : List Message) : Prop :=
  ∀ (σ : Type) (P : Persistence σ) (store : Store σ) (token : Cancellation) (disk : σ),
    token 0 = false → store.isLive childId = false →
      P.createSeeded store.disk (forkHeader source childId createdAt mode seed) seed
        (token.after 1) = (.ok (), disk) →
        ∃ child store', forkSession S P store source log atSeq (.ok ()) childId createdAt
            (.ok mode) token = (.ok child, store')
          ∧ child.state.events = seed ∧ child.state.deriveMessages = messages

/-- The condition on the prefix: its seed can be counted, and every
replacement keeps a citation. -/
def Forkable (events : List SessionEvent) : Prop :=
  (events.filter seedKeeps).length ≤ maxSafeInteger
    ∧ ∀ e ∈ events, isReplacement e = true → KeepsCitation events e

variable {childId : SessionId} {createdAt : Nat}

theorem validateHeader_forkHeader (hsource : validateHeader source = .ok ())
    (hid : childId.asStr.isEmpty = false) (htime : createdAt ≤ maxSafeInteger) (mode : AgentModeId)
    (seed : List SessionEvent) :
    validateHeader (forkHeader source childId createdAt mode seed) = .ok ()
      ↔ seed.length ≤ maxSafeInteger := by
  simp only [validateHeader, SessionHeader.validate, check_bind_eq_ok, liftProtocol_eq_ok,
    failIf_eq_ok, not_not] at hsource
  simp only [validateHeader, SessionHeader.validate, check_bind_eq_ok, liftProtocol_eq_ok,
    forkHeader, validateOptional, checkSafeInteger_eq_ok]
  constructor
  · exact fun h => h.1.2.2.1
  · exact fun hlength =>
      ⟨⟨failIf_eq_ok.mpr (not_not.mpr rfl), htime, hlength, hsource.1.2.2.2⟩,
        failIf_eq_ok.mpr fun hempty => Bool.false_ne_true (hid.symm.trans hempty)⟩

def takesAll : Persistence Unit where
  create disk _ _ := (.ok (), disk)
  createSeeded disk _ _ _ := (.ok (), disk)
  append disk _ _ _ := (.ok (), disk)
  load _ _ _ := .ok none
  inspect _ _ _ := .ok none
  readFrom _ _ _ _ := .ok []
  delete disk _ _ := (.ok (), disk)

theorem buildState_forkSeed (hsource : validateHeader source = .ok ()) {events : List SessionEvent}
    {cut : SessionState} (hcut : Accepted S source events cut) {inbox : InboxReplay}
    (hinbox : replayInbox S events = .ok inbox) (hid : childId.asStr.isEmpty = false)
    (htime : createdAt ≤ maxSafeInteger) (mode : AgentModeId) (hforkable : Forkable events) :
    ∃ copy, buildState S (forkHeader source childId createdAt mode (forkSeed events))
        (forkSeed events) = .ok copy ∧ copy.deriveMessages = cut.deriveMessages := by
  obtain ⟨copy, hcopy, hmessages, hsame⟩ :=
    forkSeed_accepted (forkHeader source childId createdAt mode (forkSeed events)) hcut hforkable.2
  have hlength : (forkSeed events).length ≤ maxSafeInteger := by
    rw [forkSeed_eq hcut.numbered, length_map]
    exact hforkable.1
  refine ⟨copy, buildState_eq_ok.mpr ⟨?_, le_refl _, hcopy, inbox, ?_⟩, hmessages⟩
  · exact (validateHeader_forkHeader hsource hid htime mode _).mpr hlength
  · rw [hsame]
    exact hinbox

/-- A fork at a boundary: the seed is numbered from `0`, it is the events
of the prefix without the seed boundaries, each citation names the event
that was cited, and the child is made with the messages at the cut
exactly when the prefix is forkable. -/
theorem fork_reproduces_cut {state : SessionState} (hlog : buildState S source log = .ok state)
    {atSeq : Option Nat} {boundary : Nat} (hboundary : forkBoundary log atSeq = .ok boundary)
    {childId : SessionId} (hid : childId.asStr.isEmpty = false) {createdAt : Nat}
    (htime : createdAt ≤ maxSafeInteger) (mode : AgentModeId) :
    Numbered (forkSeed (forkPrefix log boundary))
      ∧ forkSeed (forkPrefix log boundary)
        = ((forkPrefix log boundary).filter seedKeeps).map (renumbered (forkPrefix log boundary))
      ∧ (∀ e ∈ forkPrefix log boundary, ∀ n ∈ cited (renumbered (forkPrefix log boundary) e),
          ∃ c ∈ forkPrefix log boundary, c.seq ∈ cited e ∧ seedKeeps c = true
            ∧ (forkSeed (forkPrefix log boundary))[n]?
              = some (renumbered (forkPrefix log boundary) c))
      ∧ ∃ cut, Accepted S source (forkPrefix log boundary) cut
        ∧ (ForkMakes S source log atSeq childId createdAt mode
            (forkSeed (forkPrefix log boundary)) cut.deriveMessages
          ↔ Forkable (forkPrefix log boundary)) := by
  obtain ⟨hsource, _, _, hinboxes⟩ := buildState_eq_ok.mp hlog
  obtain ⟨cut, hcut⟩ : ∃ cut, Accepted S source (forkPrefix log boundary) cut :=
    (accepted_of_buildState hlog).take _
  have hnumbered := hcut.numbered
  refine ⟨forkSeed_numbered hnumbered (citesEarlier_of_accepted hcut), forkSeed_eq hnumbered, ?_,
    cut, hcut, ?_, ?_⟩
  · intro e he n hn
    obtain ⟨c, hc, hcited, hkeeps, rfl⟩ := (mem_cited_renumbered hnumbered).mp hn
    refine ⟨c, hc, hcited, hkeeps, ?_⟩
    rw [forkSeed_eq hnumbered, getElem?_map, renumbered,
      getElem?_filter_rank (hnumbered.getElem?_seq hc) hkeeps, map_some, renumbered]
  · intro hmakes
    obtain ⟨_, _, hfork, _, _⟩ := hmakes Unit takesAll
      { isLive := fun _ => false, disk := () } .never () rfl rfl rfl
    rw [forkSession_eq _ _ _ _ hboundary] at hfork
    split at hfork
    · cases hfork
    · rename_i hcreate
      have hbuild := buildState_of_createSeeded hcreate
      have hheader := (buildState_eq_ok.mp hbuild).1
      have hlength := (validateHeader_forkHeader hsource hid htime mode _).mp hheader
      rw [forkSeed_eq hnumbered, length_map] at hlength
      exact ⟨hlength, keepsCitation_of_forkSeed_accepted hcut (accepted_of_buildState hbuild)⟩
  · intro hforkable σ P store token disk htoken hlive hdisk
    obtain ⟨inbox, hinbox⟩ := hinboxes
    have hprefix : ∃ inbox, replayInbox S (forkPrefix log boundary) = .ok inbox := by
      have hsplit := take_append_drop (forkEnd log boundary) log
      rw [← hsplit, replayInbox, foldlM_append] at hinbox
      exact (bind_eq_ok.mp hinbox).imp fun _ h => h.1
    obtain ⟨_, hinbox⟩ := hprefix
    obtain ⟨_, hbuild, hmessages⟩ :=
      buildState_forkSeed hsource hcut hinbox hid htime mode hforkable
    obtain ⟨store', hcreate⟩ := createSeeded_of_buildState hbuild rfl htoken hlive hdisk
    have hfork := forkSession_eq S P store source hboundary childId createdAt mode token
    rw [hcreate] at hfork
    exact ⟨_, store', hfork, buildState_events hbuild, hmessages⟩

end

/-! ### Two forks -/

def userMessage (id : String) : Value :=
  wireSerde.messageToValue
    { id := ⟨id⟩, role := .user, content := [.text id], source := .user none }

def appended (seq : Nat) (id : String) : SessionEvent :=
  { SessionEvent.plain "user/message" seq 1 (userMessage id) with surfaceOp := some .append }

def turnEnd (seq : Nat) : SessionEvent := .plain "turn/end" seq 1 .null

def endSeed (seq : Nat) : SessionEvent := .plain "session/end-seed" seq 1 .null

def forkedHeader (seedLength : Nat) : SessionHeader :=
  { SessionHeader.plain ⟨"fork"⟩ 1 with seedLength := some seedLength }

/-- A fork of one message, with a second one and a third that replaces
both. -/
def compactedFork : List SessionEvent :=
  [appended 0 "a", endSeed 1, appended 2 "b",
    { appended 3 "c" with surfaceOp := some (.replace 0 2), sourceEventSeqs := some [0, 2] },
    turnEnd 4]

theorem fork_reproduces_cut_compactedFork :
    ∃ cut child store', Accepted wireSerde (forkedHeader 1) compactedFork cut
      ∧ forkSession wireSerde (memoryPersistence wireSerde)
          { isLive := fun _ => false, disk := Memory.empty } (forkedHeader 1) compactedFork none
          (.ok ()) ⟨"child"⟩ 1 (.ok .standard) .never = (.ok child, store')
      ∧ child.state.events = [appended 0 "a", appended 1 "b",
          { appended 2 "c" with surfaceOp := some (.replace 0 2), sourceEventSeqs := some [0, 1] },
          turnEnd 3]
      ∧ child.state.deriveMessages = cut.deriveMessages := by
  have hlog : ∃ state, buildState wireSerde (forkedHeader 1) compactedFork = .ok state := ⟨_, rfl⟩
  obtain ⟨state, hlog⟩ := hlog
  have hboundary : forkBoundary compactedFork none = .ok 4 := by decide
  have hid : (SessionId.mk "child").asStr.isEmpty = false := by decide
  have htime : 1 ≤ maxSafeInteger := by decide
  obtain ⟨_, _, _, cut, hcut, hmakes⟩ := fork_reproduces_cut hlog hboundary hid htime .standard
  have hforkable : Forkable (forkPrefix compactedFork 4) := by
    unfold Forkable KeepsCitation
    decide
  obtain ⟨child, store', hfork, hevents, hmessages⟩ := hmakes.mpr hforkable _
    (memoryPersistence wireSerde) { isLive := fun _ => false, disk := Memory.empty } .never _ rfl
    rfl rfl
  exact ⟨cut, child, store', hcut, hfork, hevents, hmessages⟩

def boundaryCited : List SessionEvent :=
  [endSeed 0, appended 1 "a",
    { appended 2 "b" with surfaceOp := some (.replace 0 1), sourceEventSeqs := some [0] },
    turnEnd 3]

/-- The log is admitted and has a turn to fork at, but the store refuses
the seed. -/
theorem fork_of_boundaryCited_refused :
    (∃ state, buildState wireSerde (forkedHeader 0) boundaryCited = .ok state)
      ∧ forkBoundary boundaryCited none = .ok 3
      ∧ (forkSession wireSerde (memoryPersistence wireSerde)
          { isLive := fun _ => false, disk := Memory.empty } (forkedHeader 0) boundaryCited none
          (.ok ()) ⟨"child"⟩ 1 (.ok .standard) .never).1
        = .error (.session (.protocol (invalid "INVALID_SURFACE_REPLACEMENT"
            "surface replacements must cite shadowed source events" .null))) := by
  exact ⟨⟨_, rfl⟩, by decide, rfl⟩

end Tessivum.Host
