/-
Tessivum.Persistence.SqliteAgreement — the relational backend does what
the memory backend does.

The rows of one session are the slice of the database under its id. A
database mirrors the sessions of the memory backend when the slice of
every id is what the session says: nothing, or one header row, one state
row and the event rows in order. Every operation touches the slice of
one id only, so that each agreement is about one slice.
-/
import Tessivum.Persistence.JsonlAgreement
import Tessivum.Persistence.Sqlite

namespace Tessivum.Persistence

open Library Protocol Session List

namespace Sqlite

variable {C : Codec} {S : Serde}

/-! ## Rows -/

def headerRow (C : Codec) (header : SessionHeader) : SessionRow :=
  { id := header.id.asStr, version := header.version, createdAt := header.createdAt
    cwd := header.cwd, parentSessionId := header.parentSession.map SessionId.asStr
    seedLength := header.seedLength.map Nat.cast, originJson := header.origin.map C.originToText
    delegationDepth := header.delegationDepth.map Nat.cast
    agentMode := header.agentMode.map AgentModeId.asStr }

def eventRow (C : Codec) (id : SessionId) (e : SessionEvent) : EventRow :=
  { sessionId := id.asStr, seq := e.seq, eventType := e.eventType, time := e.time
    dataJson := C.valueToText e.data
    ignorable := e.ignorable.map fun value => if value then 1 else 0
    sourceEventSeqsJson := e.sourceEventSeqs.map C.seqsToText
    surfaceOpJson := e.surfaceOp.map C.surfaceOpToText }

def committedState (id : SessionId) (revision : Int) (nextSeq : Nat) : StateRow :=
  { sessionId := id.asStr, version := storageVersion, revision, incarnation := 1, nextSeq }

def slice (db : Database) (id : SessionId) : Database :=
  { sessions := db.sessions.filter fun row => row.id = id.asStr
    events := db.events.filter fun row => row.sessionId = id.asStr
    states := db.states.filter fun row => row.sessionId = id.asStr }

/-- What a slice holds for a session. -/
inductive Holds (C : Codec) (id : SessionId) : Option MemorySession → Database → Prop
  | none : Holds C id none empty
  | some (session : MemorySession) (revision : Int) (h : 0 ≤ revision) :
      Holds C id (some session)
        { sessions := [headerRow C session.header]
          events := session.events.map (eventRow C id)
          states := [committedState id revision session.events.length] }

/-- A database that holds exactly the given sessions. -/
structure Mirrors (C : Codec) (S : Serde) (sessions : MemoryState) (db : Database) : Prop where
  stored : ∀ id session, sessions id = some session →
    session.header.id = id ∧ WellStored C S session
  rows : ∀ id, Holds C id (sessions id) (slice db id)

variable {sessions : MemoryState} {db : Database}
variable {id : SessionId} {value : Nat} {events : List SessionEvent} {header : SessionHeader}
  {e : SessionEvent} {session : MemorySession}

theorem asStr_ne {other : SessionId} (h : other ≠ id) : other.asStr ≠ id.asStr := by
  intro hstr
  cases id
  cases other
  exact h (congrArg SessionId.mk hstr)

theorem exists_row_iff (db : Database) (id : SessionId) :
    (∃ row ∈ db.sessions, row.id = id.asStr) ↔ (slice db id).sessions ≠ [] := by
  simp [slice, filter_eq_nil_iff]

/-! ## Numbers -/

theorem toI64_of_lt (h : value < 2 ^ 63) (field : String) :
    toI64 value field = .ok value := if_pos h

theorem toI64_of_safe (h : value ≤ maxSafeInteger) (field : String) :
    toI64 value field = .ok value := by
  unfold maxSafeInteger at h
  exact toI64_of_lt (by omega) field

theorem length_lt_of_valid (hnum : Numbered events) (hvalid : ∀ e ∈ events, e.validate S = .ok ()) :
    events.length + 1 < 2 ^ 63 := by
  cases events using reverseRecOn with
  | nil => decide
  | append_singleton init last =>
    have hlast := (numbered_snoc.mp hnum).2
    have hsafe := (SessionEvent.validate_eq_ok.mp (hvalid last (by simp))).1
    unfold maxSafeInteger at hsafe
    rw [length_append, length_singleton]
    omega

theorem fromI64_natCast (value : Nat) (field : String) : fromI64 value field = .ok value := by
  simp [fromI64]

theorem columnI64_natCast (operation : String) (value : Nat) (field : String) :
    columnI64 operation value field = .ok value := by
  rw [columnI64, fromI64_natCast]

theorem toI64Opt_of_safe {value : Option Nat} (h : ∀ n ∈ value, n ≤ maxSafeInteger)
    (field : String) : toI64Opt value field = .ok (value.map Nat.cast) := by
  cases value with
  | none => rfl
  | some n => rw [toI64Opt, toI64_of_safe (h n rfl)]; rfl

theorem columnI64Opt_natCast (operation : String) (value : Option Nat) (field : String) :
    columnI64Opt operation (value.map Nat.cast) field = .ok value := by
  cases value with
  | none => rfl
  | some n => rw [map_some, columnI64Opt, columnI64_natCast]; rfl

theorem textColumn_map {α β : Type} {decode : β → Except String α} {encode : α → β}
    {value : Option α} (h : ∀ a, value = some a → decode (encode a) = .ok a)
    (err : String → SessionError) : textColumn decode (value.map encode) err = .ok value := by
  cases value with
  | none => rfl
  | some a => simp only [map_some, textColumn, h a rfl]

/-! ## Rows read back -/

theorem header_safe (h : header.validate = .ok ()) :
    header.version ≤ maxSafeInteger ∧ header.createdAt ≤ maxSafeInteger
      ∧ (∀ n ∈ header.seedLength, n ≤ maxSafeInteger)
      ∧ ∀ n ∈ header.delegationDepth, n ≤ maxSafeInteger := by
  simp only [SessionHeader.validate, check_bind_eq_ok, failIf_eq_ok, not_not,
    checkSafeInteger_eq_ok] at h
  obtain ⟨hversion, hcreated, hseed, hdepth⟩ := h
  refine ⟨by rw [hversion]; exact Nat.zero_le _, hcreated, fun n hn => ?_, fun n hn => ?_⟩
  · rw [Option.mem_def.mp hn] at hseed
    exact checkSafeInteger_eq_ok.mp hseed
  · rw [Option.mem_def.mp hn] at hdepth
    exact checkSafeInteger_eq_ok.mp hdepth

theorem insertHeader_eq (hvalid : header.validate = .ok ())
    (hfree : (slice db header.id).sessions = []) :
    insertHeader C db header = .ok { db with sessions := db.sessions ++ [headerRow C header] } := by
  obtain ⟨hversion, hcreated, hseed, hdepth⟩ := header_safe hvalid
  have hnone : ¬ ∃ row ∈ db.sessions, row.id = header.id.asStr := by
    rw [exists_row_iff, not_not]
    exact hfree
  rw [insertHeader, toI64_of_safe hversion, ok_bind, toI64_of_safe hcreated, ok_bind,
    toI64Opt_of_safe hseed, ok_bind, toI64Opt_of_safe hdepth, ok_bind, failIf, if_neg hnone,
    ok_bind]
  rfl

theorem decodeHeader_headerRow (h : C.KeepsHeader header) :
    decodeHeader C (headerRow C header) = .ok header := by
  have hmode : ∀ err, textColumn
      (fun text => (AgentModeId.new text).mapError TessivumError.display)
      (header.agentMode.map AgentModeId.asStr) err = .ok header.agentMode :=
    textColumn_map fun mode _ => by rw [AgentModeId.new, dif_pos mode.valid]; rfl
  have hparent : (header.parentSession.map SessionId.asStr).map SessionId.mk
      = header.parentSession := by
    cases header.parentSession <;> rfl
  simp only [decodeHeader, headerRow, columnI64_natCast, columnI64Opt_natCast, ok_bind,
    textColumn_map h.origin, hmode, hparent]

theorem eventRowAllowed_eventRow (C : Codec) (id : SessionId) (h : e.ignorable ≠ some false) :
    eventRowAllowed (eventRow C id e) = true := by
  have hflag : e.ignorable = none ∨ e.ignorable = some true := by
    rcases hi : e.ignorable with _ | (_ | _)
    · exact .inl rfl
    · exact absurd hi h
    · exact .inr rfl
  rcases hflag with hi | hi <;> simp [eventRowAllowed, eventRow, hi]

theorem insertEvent_eq (hvalid : e.validate S = .ok ()) (hrow : (slice db id).sessions ≠ [])
    (hfresh : ∀ row ∈ (slice db id).events, row.seq ≠ e.seq) :
    insertEvent C db id e = .ok { db with events := db.events ++ [eventRow C id e] } := by
  obtain ⟨hseq, htime, hflag, _⟩ := SessionEvent.validate_eq_ok.mp hvalid
  have hallowed := eventRowAllowed_eventRow C id hflag
  have hkey : ¬ ∃ old ∈ db.events, old.sessionId = id.asStr ∧ old.seq = e.seq := by
    rintro ⟨old, hold, hid, hsame⟩
    exact hfresh old (mem_filter.mpr ⟨hold, by simpa using hid⟩) hsame
  have hpasses : ¬ ((¬ ∃ row ∈ db.sessions, row.id = id.asStr)
      ∨ eventRowAllowed (eventRow C id e) = false
      ∨ ∃ old ∈ db.events, old.sessionId = id.asStr ∧ old.seq = e.seq) := by
    rintro (hmissing | hbad | hdup)
    · exact hmissing ((exists_row_iff db id).mpr hrow)
    · exact absurd (hallowed.symm.trans hbad) (by decide)
    · exact hkey hdup
  simp only [insertEvent, toI64_of_safe hseq, toI64_of_safe htime, ok_bind]
  exact check_bind_eq_ok.mpr ⟨failIf_eq_ok.mpr hpasses, rfl⟩

theorem decodeEvent_eventRow (h : Storable C e) : decodeEvent C (eventRow C id e) = .ok e := by
  have hflag : (e.ignorable.map fun value => if value then (1 : Int) else 0).map
      (fun value => value != 0) = e.ignorable := by
    rcases e.ignorable with _ | (_ | _) <;> rfl
  simp only [decodeEvent, eventRow, fromI64_natCast, ok_bind, h.keeps.data, mapError_ok,
    textColumn_map h.keeps.sources, textColumn_map h.keeps.surface, hflag]
  rw [migrateLegacySelection_of_ne C h.current]
  rfl

theorem mapM_decodeEvent : ∀ {events : List SessionEvent},
    (∀ e ∈ events, Storable C e) →
      (events.map (eventRow C id)).mapM (decodeEvent C) = .ok events
  | [], _ => rfl
  | e :: rest, h => by
    rw [map_cons, mapM_cons, decodeEvent_eventRow (h e mem_cons_self), ok_bind,
      mapM_decodeEvent fun x hx => h x (mem_cons_of_mem e hx), ok_bind]
    rfl

/-! ## Reading a slice -/

theorem mergeSort_eventRows (h : Numbered events) :
    (events.map (eventRow C id)).mergeSort (fun a b => a.seq ≤ b.seq)
      = events.map (eventRow C id) := by
  refine mergeSort_of_pairwise ?_
  rw [pairwise_map, pairwise_iff_getElem]
  intro i j hi hj hij
  have hseqi := h i _ (getElem?_eq_getElem hi)
  have hseqj := h j _ (getElem?_eq_getElem hj)
  simp only [eventRow, hseqi, hseqj, decide_eq_true_eq]
  omega

theorem validateContiguous_eq (id : SessionId) : ∀ {events : List SessionEvent} (start : Nat),
    (∀ e ∈ events, e.validate S = .ok ()) →
      (∀ (i : Nat) (e : SessionEvent), events[i]? = some e → e.seq = start + i) →
        validateContiguous S id start events = .ok (start + events.length)
  | [], _, _, _ => rfl
  | e :: rest, start, hvalid, hnum => by
    have he := hvalid e mem_cons_self
    have hseq : e.seq = start := hnum 0 e rfl
    have hsafe := (SessionEvent.validate_eq_ok.mp he).1
    have hroom : start + 1 < u64Bound := by
      unfold maxSafeInteger at hsafe
      unfold u64Bound
      omega
    have hrest := validateContiguous_eq id (start + 1)
      (fun x hx => hvalid x (mem_cons_of_mem e hx)) fun i x hx => by
        have hi := hnum (i + 1) x (by simpa using hx)
        omega
    rw [validateContiguous, he, failIf, failIf, if_neg (by simpa using hseq),
      if_neg (not_not.mpr hroom), hrest, length_cons]
    simp only [liftProtocol, ok_bind]
    congr 1
    omega

def storedSession (session : MemorySession) : StoredSession :=
  { header := session.header, events := session.events, nextSeq := session.events.length }

section

variable (h : Mirrors C S sessions db)

include h

/-- Reading the rows gives the session. -/
theorem Mirrors.readSession (id : SessionId) :
    readSession C S db id = .ok ((sessions id).map storedSession) := by
  have hrows := h.rows id
  have hevents : eventRows db id = (slice db id).events.mergeSort fun a b => a.seq ≤ b.seq := rfl
  have hsession : sessionRow db id = (slice db id).sessions.head? := rfl
  have hstate : stateRow db id = (slice db id).states.head? := rfl
  unfold Sqlite.readSession
  rw [hsession, hstate, hevents]
  generalize slice db id = rows at hrows
  cases hs : sessions id with
  | none =>
    rw [hs] at hrows
    cases hrows
    rfl
  | some session =>
    rw [hs] at hrows
    cases hrows with
    | some _ revision hrevision =>
    obtain ⟨hid, hstored⟩ := h.stored id session hs
    have hcontiguous := validateContiguous_eq id 0 hstored.events_valid
      fun i e he => by
        have hi := hstored.numbered i e he
        omega
    have hrev : columnI64 "read persistence state" revision "state revision"
        = .ok revision.toNat := by
      rw [columnI64, fromI64, if_pos hrevision]
    have hversion : columnI64 "read persistence state" storageVersion "state version" = .ok 1 :=
      rfl
    have hincarnation : columnI64 "read persistence state" 1 "state incarnation" = .ok 1 := rfl
    simp only [head?_cons, decodeHeader_headerRow hstored.header_storable.keeps, ok_bind,
      mergeSort_eventRows hstored.numbered, mapM_decodeEvent hstored.events_storable,
      committedState, hversion, hrev, hincarnation, columnI64_natCast, hstored.header_valid,
      validateCommitted, hcontiguous, hid, failIf, ne_eq, not_true_eq_false, if_false,
      Nat.zero_add, Nat.one_ne_zero, or_self, map_some, storedSession]

theorem Mirrors.requireSession (id : SessionId) :
    requireSession C S db id = match sessions id with
      | some session => .ok (storedSession session)
      | none => .error (.notFound id) := by
  rw [Sqlite.requireSession, h.readSession, ok_bind]
  cases sessions id <;> rfl

theorem Mirrors.slice_none (hnone : sessions id = none) :
    slice db id = empty := by
  have hrows := h.rows id
  rw [hnone] at hrows
  generalize slice db id = rows at hrows
  cases hrows
  rfl

theorem Mirrors.slice_some (hsome : sessions id = some session) :
    ∃ revision : Int, 0 ≤ revision ∧ slice db id =
      { sessions := [headerRow C session.header]
        events := session.events.map (eventRow C id)
        states := [committedState id revision session.events.length] } := by
  have hrows := h.rows id
  rw [hsome] at hrows
  generalize slice db id = rows at hrows
  cases hrows with
  | some _ revision hrevision => exact ⟨revision, hrevision, rfl⟩

theorem Mirrors.row_isSome (id : SessionId) :
    (sessionRow db id).isSome = (sessions id).isSome := by
  show ((slice db id).sessions.head?).isSome = _
  cases hs : sessions id with
  | none => rw [h.slice_none hs]; rfl
  | some session =>
    obtain ⟨_, _, hslice⟩ := h.slice_some hs
    rw [hslice]
    rfl

/-! ## One slice changes -/

theorem Mirrors.replace {db' : Database}
    (hstored : WellStored C S session)
    (hsame : ∀ other, other ≠ session.header.id → slice db' other = slice db other)
    (hnew : Holds C session.header.id (some session) (slice db' session.header.id)) :
    Mirrors C S (Memory.insert sessions session.header.id session) db' := by
  refine ⟨fun id s hs => ?_, fun id => ?_⟩
  · by_cases hid : id = session.header.id
    · rw [hid, Memory.insert_self, some.injEq] at hs
      subst hs
      exact ⟨hid.symm, hstored⟩
    · rw [Memory.insert_of_ne sessions hid] at hs
      exact h.stored id s hs
  · by_cases hid : id = session.header.id
    · rw [hid, Memory.insert_self]
      exact hnew
    · rw [Memory.insert_of_ne sessions hid, hsame id hid]
      exact h.rows id

end

theorem filter_eventRows (id other : SessionId) (events : List SessionEvent) :
    (events.map (eventRow C id)).filter (fun row => row.sessionId = other.asStr)
      = if other = id then events.map (eventRow C id) else [] := by
  by_cases hother : other = id
  · rw [if_pos hother, hother]
    refine filter_eq_self.mpr fun row hrow => ?_
    obtain ⟨e, _, rfl⟩ := mem_map.mp hrow
    exact decide_eq_true rfl
  · rw [if_neg hother]
    refine filter_eq_nil_iff.mpr fun row hrow htrue => ?_
    obtain ⟨e, _, rfl⟩ := mem_map.mp hrow
    exact asStr_ne (Ne.symm hother) (of_decide_eq_true htrue)

theorem slice_added (db : Database) (id : SessionId) (header : SessionHeader)
    (hid : header.id = id) (events : List SessionEvent) (state : StateRow)
    (hstate : state.sessionId = id.asStr) (other : SessionId) :
    slice { sessions := db.sessions ++ [headerRow C header]
            events := db.events ++ events.map (eventRow C id)
            states := db.states ++ [state] } other
      = if other = id then
        { sessions := (slice db id).sessions ++ [headerRow C header]
          events := (slice db id).events ++ events.map (eventRow C id)
          states := (slice db id).states ++ [state] }
        else slice db other := by
  have hheader : (headerRow C header).id = id.asStr := by rw [← hid]; rfl
  by_cases hother : other = id
  · subst hother
    rw [if_pos rfl]
    simp only [slice, filter_append, filter_eventRows, if_true, filter_cons,
      filter_nil, hheader, hstate, decide_true]
  · have hne := asStr_ne (Ne.symm hother)
    rw [if_neg hother]
    simp only [slice, filter_append, filter_eventRows, if_neg hother, filter_cons,
      filter_nil, hheader, hstate, hne, decide_false, false_eq_true, if_false,
      append_nil]

theorem Mirrors.added (h : Mirrors C S sessions db) (hstored : WellStored C S session)
    (hnone : sessions session.header.id = none) {revision : Int} (hrevision : 0 ≤ revision) :
    Mirrors C S (Memory.insert sessions session.header.id session)
      { sessions := db.sessions ++ [headerRow C session.header]
        events := db.events ++ session.events.map (eventRow C session.header.id)
        states := db.states ++
          [committedState session.header.id revision session.events.length] } := by
  have hslice := slice_added (C := C) db session.header.id session.header rfl session.events
    (committedState session.header.id revision session.events.length) rfl
  refine h.replace hstored (fun other hother => ?_) ?_
  · rw [hslice, if_neg hother]
  · rw [hslice, if_pos rfl, h.slice_none hnone]
    exact .some session revision hrevision

def StateRow.advance (row : StateRow) (nextSeq : Int) : StateRow :=
  { row with nextSeq, revision := row.revision + 1 }

theorem filter_advanced (states : List StateRow) (id other : SessionId) (nextSeq : Int) :
    (states.map fun row => if row.sessionId = id.asStr then StateRow.advance row nextSeq
        else row).filter (fun row => row.sessionId = other.asStr)
      = (states.filter fun row => row.sessionId = other.asStr).map fun row =>
        if other = id then StateRow.advance row nextSeq else row := by
  have hkey : ∀ row : StateRow, (if row.sessionId = id.asStr then StateRow.advance row nextSeq
      else row).sessionId = row.sessionId := by
    intro row
    split <;> rfl
  rw [filter_map]
  have hfilter : (fun row : StateRow => decide (row.sessionId = other.asStr)) ∘
      (fun row => if row.sessionId = id.asStr then StateRow.advance row nextSeq else row)
        = fun row => decide (row.sessionId = other.asStr) := by
    funext row
    simp only [Function.comp_apply, hkey]
  rw [hfilter]
  refine map_congr_left fun row hrow => ?_
  have hrow : row.sessionId = other.asStr := of_decide_eq_true (mem_filter.mp hrow).2
  by_cases hother : other = id
  · rw [if_pos hother, if_pos (by rw [hrow, hother])]
  · rw [if_neg hother, if_neg (by rw [hrow]; exact asStr_ne hother)]

theorem slice_advanced (db : Database) (id : SessionId) (e : SessionEvent) (nextSeq : Int)
    (other : SessionId) :
    slice (advanceState { db with events := db.events ++ [eventRow C id e] } id nextSeq) other
      = if other = id then
        { sessions := (slice db id).sessions
          events := (slice db id).events ++ [eventRow C id e]
          states := (slice db id).states.map fun row => StateRow.advance row nextSeq }
        else slice db other := by
  have hevents := filter_eventRows (C := C) id other [e]
  have hstates := filter_advanced db.states id other nextSeq
  simp only [map_cons, map_nil] at hevents
  have hslice : slice (advanceState { db with events := db.events ++ [eventRow C id e] } id nextSeq)
      other = { sessions := (slice db other).sessions
                events := (slice db other).events ++ (if other = id then [eventRow C id e] else [])
                states := (slice db other).states.map fun row =>
                  if other = id then StateRow.advance row nextSeq else row } := by
    simp only [slice, advanceState, filter_append, hevents]
    congr 1
  rw [hslice]
  by_cases hother : other = id
  · simp only [hother, if_true]
  · simp only [hother, if_false, append_nil, map_id']

theorem Mirrors.advanced (h : Mirrors C S sessions db)
    (hsession : sessions session.header.id = some session)
    (hstored : WellStored C S { session with events := session.events ++ [e] }) :
    Mirrors C S (Memory.insert sessions session.header.id
        { session with events := session.events ++ [e] })
      (advanceState { db with events := db.events ++ [eventRow C session.header.id e] }
        session.header.id ((session.events.length + 1 : Nat) : Int)) := by
  have hslice := slice_advanced (C := C) db session.header.id e
    ((session.events.length + 1 : Nat) : Int)
  obtain ⟨revision, hrevision, hold⟩ := h.slice_some hsession
  refine h.replace hstored (fun other hother => ?_) ?_
  · rw [hslice, if_neg hother]
  · have hnew : Holds C session.header.id _ _ :=
      .some { session with events := session.events ++ [e] } (revision + 1) (by omega)
    rw [hslice, if_pos rfl, hold]
    simpa [committedState, StateRow.advance] using hnew

/-- Deleting the rows deletes the session. -/
theorem Mirrors.erase (h : Mirrors C S sessions db) (id : SessionId) :
    Mirrors C S (Function.update sessions id none)
      { sessions := db.sessions.filter fun row => row.id ≠ id.asStr
        events := db.events.filter fun row => row.sessionId ≠ id.asStr
        states := db.states.filter fun row => row.sessionId ≠ id.asStr } := by
  refine ⟨fun other s hs => ?_, fun other => ?_⟩
  · by_cases hid : other = id
    · rw [hid, update_self] at hs
      cases hs
    · rw [update_of_ne hid] at hs
      exact h.stored other s hs
  · by_cases hid : other = id
    · subst hid
      rw [update_self]
      have hempty : ∀ {α : Type} (rows : List α) (key : α → String) (k : String),
          (rows.filter fun row => key row ≠ k).filter (fun row => key row = k) = [] := by
        intro α rows key k
        refine filter_eq_nil_iff.mpr fun row hrow htrue => ?_
        exact of_decide_eq_true (mem_filter.mp hrow).2 (of_decide_eq_true htrue)
      simp only [slice, hempty]
      exact .none
    · rw [update_of_ne hid]
      have hkept : ∀ {α : Type} (rows : List α) (key : α → String),
          (rows.filter fun row => key row ≠ id.asStr).filter (fun row => key row = other.asStr)
            = rows.filter fun row => key row = other.asStr := by
        intro α rows key
        rw [filter_filter]
        refine filter_congr fun row _ => ?_
        have hne := asStr_ne hid
        by_cases hkey : key row = other.asStr <;> simp [hkey, hne]
      have hrows := h.rows other
      simpa only [slice, hkept] using hrows

/-! ## Every call -/

theorem insertState_eq {nextSeq : Nat} {operation : String} (hrow : (slice db id).sessions ≠ [])
    (hfree : (slice db id).states = []) :
    insertState db id nextSeq operation = .ok { db with states := db.states ++
      [committedState id nextSeq nextSeq] } := by
  have hpasses : ¬ ((¬ ∃ row ∈ db.sessions, row.id = id.asStr) ∨ (nextSeq : Int) < 0
      ∨ ∃ old ∈ db.states, old.sessionId = id.asStr) := by
    rintro (hmissing | hneg | ⟨old, hold, hid⟩)
    · exact hmissing ((exists_row_iff db id).mpr hrow)
    · omega
    · have hmem : old ∈ (slice db id).states := mem_filter.mpr ⟨hold, by simpa using hid⟩
      rw [hfree] at hmem
      cases hmem
  exact check_bind_eq_ok.mpr ⟨failIf_eq_ok.mpr hpasses, rfl⟩

def withHeader (C : Codec) (db : Database) (header : SessionHeader) (nextSeq : Nat) : Database :=
  { db with sessions := db.sessions ++ [headerRow C header]
            states := db.states ++ [committedState header.id nextSeq nextSeq] }

theorem Mirrors.insertHeader (h : Mirrors C S sessions db) (hvalid : validateHeader header = .ok ())
    (hnone : sessions header.id = none) :
    insertHeader C db header = .ok { db with sessions := db.sessions ++ [headerRow C header] } := by
  obtain ⟨hheader, _⟩ := check_bind_eq_ok.mp hvalid
  rw [liftProtocol_eq_ok] at hheader
  exact insertHeader_eq hheader (by rw [h.slice_none hnone]; rfl)

theorem Mirrors.insertState (h : Mirrors C S sessions db) (hnone : sessions header.id = none)
    (nextSeq : Nat) (operation : String) :
    insertState { db with sessions := db.sessions ++ [headerRow C header] } header.id nextSeq
      operation = .ok (withHeader C db header nextSeq) := by
  have hfree : (slice db header.id).states = [] := by rw [h.slice_none hnone]; rfl
  rw [insertState_eq]
  · rfl
  · simp [slice, headerRow]
  · exact hfree

/-- Both backends create a session, or neither does. -/
theorem create_agrees (h : Mirrors C S sessions db) (hs : StorableHeader C header) :
    Agree (Mirrors C S) (Memory.create sessions header .never) (create C db header .never) := by
  unfold Memory.create Sqlite.create
  simp only [checkCancellation_never, ok_bind]
  refine Agree.check _ fun hvalid => ?_
  refine Agree.checks (by rw [h.row_isSome]) fun hfree => ?_
  rw [failIf_eq_ok, not_eq_true, isSome_eq_false_iff, isNone_iff_eq_none]
    at hfree
  have hstate := h.insertState hfree 0 "create persistence state"
  rw [h.insertHeader hvalid hfree, ok_bind]
  refine Eq.subst (motive := Agree _ _) hstate.symm ?_
  have hstored : WellStored C S { header, events := [] } :=
    wellStored_of_seed hvalid hs rfl fun _ he => (by cases he)
  have hadded := h.added hstored hfree (Int.le_refl 0)
  simp only [map_nil, append_nil, length_nil] at hadded
  exact .ok hadded

/-- The rows of a seed are put in one after another. -/
theorem insertSeed_never (C : Codec) (id : SessionId) : ∀ {events : List SessionEvent}
    (seen : List SessionEvent) (n : Nat) (db : Database), (slice db id).sessions ≠ [] →
      (slice db id).events = seen.map (eventRow C id) → Numbered (seen ++ events) →
        (∀ e ∈ events, e.validate S = .ok ()) →
          insertSeed C id .never n db events
            = .ok { db with events := db.events ++ events.map (eventRow C id) }
  | [], _, _, db, _, _, _, _ => by simp [insertSeed]
  | e :: rest, seen, n, db, hrow, hseen, hnum, hvalid => by
    have hfresh : ∀ row ∈ (slice db id).events, row.seq ≠ e.seq := by
      intro row hrow hsame
      rw [hseen] at hrow
      obtain ⟨x, hx, rfl⟩ := mem_map.mp hrow
      obtain ⟨i, hi, hget⟩ := getElem_of_mem hx
      have hxi := hnum i x (by rw [getElem?_append_left hi, getElem?_eq_getElem hi,
        hget])
      have hei := hnum seen.length e (by simp)
      have hseq : x.seq = e.seq := Int.ofNat.inj hsame
      omega
    have hslice := filter_eventRows (C := C) id id [e]
    rw [if_pos rfl] at hslice
    have hnext := insertSeed_never C id (seen ++ [e]) (n + 1)
      { db with events := db.events ++ [eventRow C id e] } hrow
      (by
        show (db.events ++ [eventRow C id e]).filter _ = _
        rw [filter_append, map_append]
        exact congrArg₂ _ hseen hslice)
      (by rwa [append_assoc]) fun x hx => hvalid x (mem_cons_of_mem e hx)
    rw [insertSeed, checkCancellation_never, ok_bind,
      insertEvent_eq (hvalid e mem_cons_self) hrow hfresh, ok_bind, hnext]
    simp

section

variable (h : Mirrors C S sessions db)

include h

/-- Both backends create a seeded session, or neither does. -/
theorem createSeeded_agrees (hs : StorableHeader C header)
    (hevents : ∀ e ∈ events, Storable C e) :
    Agree (Mirrors C S) (Memory.createSeeded S sessions header events .never)
      (createSeeded C S db header events .never) := by
  unfold Memory.createSeeded Sqlite.createSeeded
  simp only [checkCancellation_never, ok_bind]
  refine Agree.check _ fun hvalid => ?_
  refine Agree.check _ fun hseed => ?_
  refine Agree.checks (by rw [h.row_isSome]) fun hfree => ?_
  rw [failIf_eq_ok, not_eq_true, isSome_eq_false_iff, isNone_iff_eq_none]
    at hfree
  have hstored : WellStored C S { header, events } := wellStored_of_seed hvalid hs hseed hevents
  have hlength : events.length + 1 < 2 ^ 63 :=
    length_lt_of_valid hstored.numbered hstored.events_valid
  have hseeded := insertSeed_never C header.id (S := S) [] 2
    (withHeader C db header events.length) (by simp [slice, withHeader, headerRow])
    (by have hslice := h.slice_none hfree
        exact congrArg Database.events hslice)
    hstored.numbered hstored.events_valid
  rw [h.insertHeader hvalid hfree, ok_bind, toI64_of_lt (by omega), ok_bind,
    h.insertState hfree, ok_bind, hseeded, ok_bind]
  exact .ok (h.added hstored hfree (Int.natCast_nonneg events.length))

/-- Both backends append an event, or neither does. -/
theorem append_agrees (he : Storable C e) :
    Agree (Mirrors C S) (Memory.append S sessions id e .never) (append C S db id e .never) := by
  unfold Memory.append Sqlite.append
  simp only [checkCancellation_never, ok_bind, h.requireSession]
  refine Agree.check _ fun hvalid => ?_
  rw [liftProtocol_eq_ok] at hvalid
  cases hsession : sessions id with
  | none => exact .error _
  | some session =>
    obtain ⟨hid, hstored⟩ := h.stored id session hsession
    subst hid
    have hnext := nextSeq_of_valid hstored.numbered hstored.events_valid
    have hlength := length_lt_of_valid hstored.numbered hstored.events_valid
    have hroom : ¬ ¬ (storedSession session).nextSeq + 1 < u64Bound := by
      rw [not_not]
      show session.events.length + 1 < u64Bound
      unfold u64Bound
      omega
    simp only [ok_bind]
    refine Agree.checks ?_ fun hseq => ?_
    · rw [checkSeq, hnext, ok_bind]
      rfl
    rw [failIf_eq_ok.mpr hroom, ok_bind]
    have heseq := hstored.numbered.seq_of_nextSeq (checkSeq_eq_ok.mp hseq)
    obtain ⟨revision, _, hslice⟩ := h.slice_some hsession
    have hfresh : ∀ row ∈ (slice db session.header.id).events, row.seq ≠ e.seq := by
      intro row hrow hsame
      rw [hslice] at hrow
      obtain ⟨x, hx, rfl⟩ := mem_map.mp hrow
      obtain ⟨i, hi, hget⟩ := getElem_of_mem hx
      have hxi := hstored.numbered i x (by rw [getElem?_eq_getElem hi, hget])
      have hxe : x.seq = e.seq := Int.ofNat.inj hsame
      omega
    rw [insertEvent_eq hvalid (by rw [hslice]; simp) hfresh, ok_bind,
      toI64_of_lt (show (storedSession session).nextSeq + 1 < 2 ^ 63 from hlength), ok_bind]
    exact .ok (h.advanced hsession (hstored.snoc hvalid he hseq))

/-- Both backends delete a session, or neither does. -/
theorem delete_agrees :
    Agree (Mirrors C S) (Memory.delete sessions id .never) (delete db id .never) := by
  unfold Memory.delete Sqlite.delete
  simp only [checkCancellation_never, ok_bind]
  refine Agree.checks ?_ fun _ => .ok (h.erase id)
  have hiff : (¬ ∃ row ∈ db.sessions, row.id = id.asStr) ↔ (sessions id).isNone = true := by
    rw [exists_row_iff, not_not, ← Option.not_isSome, ← h.row_isSome]
    show (slice db id).sessions = [] ↔ (!((slice db id).sessions.head?).isSome) = true
    cases (slice db id).sessions <;> simp
  by_cases hnone : (sessions id).isNone = true
  · rw [failIf, failIf, if_pos hnone, if_pos (hiff.mpr hnone)]
  · rw [failIf, failIf, if_neg hnone, if_neg fun hmissing => hnone (hiff.mp hmissing)]

theorem load_agrees (id : SessionId) :
    Memory.load sessions id .never = load C S db id .never := by
  simp only [Memory.load, Sqlite.load, checkCancellation_never, ok_bind, h.readSession,
    Option.map_map]
  rfl

/-- An inspection says the same on both backends. -/
theorem inspect_agrees (id : SessionId) :
    Memory.inspect sessions id .never = inspect C S db id .never := by
  simp only [Memory.inspect, Sqlite.inspect, checkCancellation_never, ok_bind, h.readSession]
  cases hs : sessions id with
  | none => rfl
  | some session =>
    have hstored := (h.stored id session hs).2
    simp only [Memory.inspectMemorySession, nextSeq_of_valid hstored.numbered
      hstored.events_valid, ok_bind]
    rfl

theorem readFrom_agrees (id : SessionId) (fromSeq : Nat) :
    Memory.readFrom sessions id fromSeq .never = readFrom C S db id fromSeq .never := by
  simp only [Memory.readFrom, Sqlite.readFrom, checkCancellation_never, ok_bind,
    h.requireSession]
  cases sessions id <;> rfl

end

end Sqlite

/-- Every operation gives the same result on both backends. -/
theorem sqlite_step_agrees {C : Codec} {S : Serde} {sessions : MemoryState} {db : Database}
    (h : Sqlite.Mirrors C S sessions db) :
    ∀ op : StoreOp, op.Storable C →
      AgreesOn (memoryPersistence S) (sqlitePersistence C S) (Sqlite.Mirrors C S) sessions db op
  | .create _, hop => agree_orUnchanged h (Sqlite.create_agrees h hop)
  | .createSeeded _ _, hop => agree_orUnchanged h (Sqlite.createSeeded_agrees h hop.1 hop.2)
  | .append _ _, hop => agree_orUnchanged h (Sqlite.append_agrees h hop)
  | .load id, _ => ⟨congrArg StoreResult.header (Sqlite.load_agrees h id), h⟩
  | .inspect id, _ => ⟨congrArg StoreResult.inspection (Sqlite.inspect_agrees h id), h⟩
  | .readFrom id fromSeq, _ =>
    ⟨congrArg StoreResult.events (Sqlite.readFrom_agrees h id fromSeq), h⟩
  | .delete _, _ => agree_orUnchanged h (Sqlite.delete_agrees h)

end Tessivum.Persistence
