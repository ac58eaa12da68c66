/-
Tessivum.Persistence.JsonlAgreement — the file backend does what the
memory backend does.

`StoreOp` is one call of the persistence contract and `storeStep` the
machine a backend is for such calls. `Jsonl.Mirrors` relates the
sessions of the memory backend to a directory: a session that exists is
one file in the backend's encoding, one that does not has no file.
`jsonl_step_agrees` says that every call answers alike on related states
and keeps them related.
-/
import Tessivum.Persistence.JsonlTheorems

namespace Tessivum.Persistence

open Library Protocol Session

/-! ## Calls -/

/-- One call on a backend. -/
inductive StoreOp where
  | create (header : SessionHeader)
  | createSeeded (header : SessionHeader) (events : List SessionEvent)
  | append (id : SessionId) (e : SessionEvent)
  | load (id : SessionId)
  | inspect (id : SessionId)
  | readFrom (id : SessionId) (fromSeq : Nat)
  | delete (id : SessionId)

/-- What a call answers. -/
inductive StoreResult where
  | done (result : Except SessionError Unit)
  | header (result : Except SessionError (Option SessionHeader))
  | inspection (result : Except SessionError (Option SessionInspection))
  | events (result : Except SessionError (List SessionEvent))

def storeStep {σ : Type} (P : Persistence σ) (disk : σ) : StoreOp → StoreResult × σ
  | .create header =>
    let (result, disk') := P.create disk header .never
    (.done result, disk')
  | .createSeeded header events =>
    let (result, disk') := P.createSeeded disk header events .never
    (.done result, disk')
  | .append id e =>
    let (result, disk') := P.append disk id e .never
    (.done result, disk')
  | .load id => (.header (P.load disk id .never), disk)
  | .inspect id => (.inspection (P.inspect disk id .never), disk)
  | .readFrom id fromSeq => (.events (P.readFrom disk id fromSeq .never), disk)
  | .delete id =>
    let (result, disk') := P.delete disk id .never
    (.done result, disk')

def StoreOp.Storable (C : Codec) : StoreOp → Prop
  | .create header => StorableHeader C header
  | .createSeeded header events =>
    StorableHeader C header ∧ ∀ e ∈ events, Persistence.Storable C e
  | .append _ e => Persistence.Storable C e
  | _ => True

/-- Two backends in related states give one answer and stay related. -/
def AgreesOn {σ τ : Type} (P : Persistence σ) (Q : Persistence τ) (rel : σ → τ → Prop) (s : σ)
    (t : τ) (op : StoreOp) : Prop :=
  (storeStep P s op).1 = (storeStep Q t op).1
    ∧ rel (storeStep P s op).2 (storeStep Q t op).2

theorem agree_orUnchanged {σ τ : Type} {rel : σ → τ → Prop} {s : σ} {t : τ} (hst : rel s t)
    {x : Except SessionError σ} {y : Except SessionError τ} (h : Agree rel x y) :
    StoreResult.done (orUnchanged s x).1 = .done (orUnchanged t y).1 ∧
      rel (orUnchanged s x).2 (orUnchanged t y).2 := by
  cases h with
  | ok h => exact ⟨rfl, h⟩
  | error e => exact ⟨rfl, hst⟩

/-! ## Seeds -/

variable {C : Codec} {S : Serde}

theorem checkSeed_eq_ok : ∀ {events : List SessionEvent} {start : Nat},
    Memory.checkSeed S start events = .ok () →
      (∀ e ∈ events, e.validate S = .ok ())
        ∧ ∀ (i : Nat) (e : SessionEvent), events[i]? = some e → e.seq = start + i
  | [], _, _ => ⟨nofun, fun i e he => by simp at he⟩
  | x :: rest, start, h => by
    simp only [Memory.checkSeed, check_bind_eq_ok, liftProtocol_eq_ok, failIf_eq_ok,
      not_not] at h
    obtain ⟨hvalid, hseq, h⟩ := h
    obtain ⟨hrest, hnum⟩ := checkSeed_eq_ok h
    constructor
    · intro e he
      rcases mem_cons.mp he with rfl | he
      · exact hvalid
      · exact hrest e he
    · intro i e he
      cases i with
      | zero =>
        obtain rfl : x = e := by simpa using he
        exact hseq
      | succ i =>
        have hi := hnum i e (by simpa using he)
        omega

theorem wellStored_of_seed {header : SessionHeader} {events : List SessionEvent}
    (hheader : validateHeader header = .ok ()) (hstorable : StorableHeader C header)
    (hseed : Memory.checkSeed S 0 events = .ok ())
    (hevents : ∀ e ∈ events, Storable C e) : WellStored C S { header, events } := by
  obtain ⟨hvalid, hnum⟩ := checkSeed_eq_ok hseed
  refine ⟨hheader, hstorable, fun i e he => ?_, hvalid, hevents⟩
  have hi := hnum i e he
  omega

namespace Jsonl

/-! ## Related states -/

def logOf (F : Config) (session : Option MemorySession) (format : JsonlStorageFormat) :
    Option Bytes :=
  if format = F.format then session.map (encodedLog F.codec F.format) else none

/-- A directory that holds exactly the given sessions. -/
structure Mirrors (F : Config) (sessions : MemoryState) (files : Files) : Prop where
  stored : ∀ id session, sessions id = some session →
    session.header.id = id ∧ WellStored F.codec F.serde session
  file : ∀ id format, files (logName format id) = logOf F (sessions id) format

variable {F : Config} {sessions : MemoryState} {files : Files}

theorem Mirrors.existingFormat (h : Mirrors F sessions files) (id : SessionId) :
    existingFormat files id = (sessions id).map fun _ => F.format := by
  unfold Persistence.existingFormat
  rw [h.file, h.file]
  cases hs : sessions id with
  | none => simp [logOf]
  | some session => cases hf : F.format <;> simp [logOf, hf]

theorem Mirrors.readSession (hC : F.codec.KeepsFrames) (h : Mirrors F sessions files)
    (id : SessionId) : readSession F files id = .ok (sessions id) := by
  unfold Jsonl.readSession
  rw [h.existingFormat]
  cases hs : sessions id with
  | none => rfl
  | some session =>
    obtain ⟨hid, hstored⟩ := h.stored id session hs
    have hparse := parseSession_encodedLog hC F.format hstored
    rw [hid] at hparse
    simp only [map_some, h.file, hs, logOf, if_true, getD_some, hparse]

theorem Mirrors.requireSession (hC : F.codec.KeepsFrames) (h : Mirrors F sessions files)
    (id : SessionId) :
    requireSession F files id = match sessions id with
      | some session => .ok session
      | none => .error (.notFound id) := by
  cases hs : sessions id with
  | none | some session => simp only [Jsonl.requireSession, h.readSession hC, ok_bind, hs]

theorem Mirrors.update (h : Mirrors F sessions files) {session : MemorySession}
    (hstored : WellStored F.codec F.serde session) :
    Mirrors F (Memory.insert sessions session.header.id session)
      (Function.update files (logName F.format session.header.id)
        (some (encodedLog F.codec F.format session))) := by
  refine ⟨fun id s hs => ?_, fun id format => ?_⟩
  · by_cases hid : id = session.header.id
    · rw [hid, Memory.insert_self, some.injEq] at hs
      subst hs
      exact ⟨hid.symm, hstored⟩
    · rw [Memory.insert_of_ne sessions hid] at hs
      exact h.stored id s hs
  · by_cases hname : logName format id = logName F.format session.header.id
    · obtain ⟨rfl, rfl⟩ := logName_injective hname
      rw [update_self, Memory.insert_self, logOf, if_pos rfl]
      rfl
    · rw [update_of_ne hname, h.file]
      by_cases hid : id = session.header.id
      · have hformat : format ≠ F.format := fun hf => hname (by rw [hf, hid])
        rw [logOf, logOf, if_neg hformat, if_neg hformat]
      · rw [Memory.insert_of_ne sessions hid]

theorem Mirrors.erase (h : Mirrors F sessions files) (id : SessionId) :
    Mirrors F (Function.update sessions id none)
      (Function.update (Function.update files (logName .raw id) none) (logName .zstd id)
        none) := by
  refine ⟨fun other s hs => ?_, fun other format => ?_⟩
  · by_cases hid : other = id
    · rw [hid, update_self] at hs
      cases hs
    · rw [update_of_ne hid] at hs
      exact h.stored other s hs
  · by_cases hid : other = id
    · subst hid
      rw [update_self]
      cases format with
      | raw =>
        have hne : logName .raw other ≠ logName .zstd other := fun hname => by
          cases (logName_injective hname).1
        rw [update_of_ne hne, update_self]
        simp [logOf]
      | zstd =>
        rw [update_self]
        simp [logOf]
    · have hne : ∀ g, logName format other ≠ logName g id := fun g hname =>
        hid (logName_injective hname).2
      rw [update_of_ne (hne .zstd), update_of_ne (hne .raw), h.file,
        update_of_ne hid]

/-! ## Every call -/

variable {header : SessionHeader} {id : SessionId}

/-- Both backends create a session, or neither does. -/
theorem create_agrees (h : Mirrors F sessions files) (hs : StorableHeader F.codec header) :
    Agree (Mirrors F) (Memory.create sessions header .never) (create F files header .never) := by
  unfold Memory.create Jsonl.create
  simp only [checkCancellation_never, ok_bind]
  refine Agree.check _ fun hvalid => ?_
  refine Agree.checks (by rw [h.existingFormat]; cases sessions header.id <;> rfl) fun _ => ?_
  rw [encodeRecord_of_fits hs.fits, ok_bind]
  refine .ok ?_
  have hstored : WellStored F.codec F.serde { header, events := [] } :=
    wellStored_of_seed hvalid hs rfl fun _ he => (by cases he)
  have hlog : encoded F.codec F.format (headerRecord F.codec header)
      = encodedLog F.codec F.format { header, events := [] } := by
    simp [encodedLog, logLines, headerRecord]
  rw [hlog]
  exact h.update hstored

theorem encodeSeed_never : ∀ {events : List SessionEvent} {n : Nat},
    (∀ e ∈ events, Storable F.codec e) →
      encodeSeed F .never n events = .ok (events.flatMap fun e =>
        encoded F.codec F.format (eventRecord F.codec e))
  | [], _, _ => rfl
  | e :: rest, n, h => by
    rw [encodeSeed, checkCancellation_never, ok_bind,
      encodeRecord_of_fits (h e mem_cons_self).fits, ok_bind,
      encodeSeed_never fun x hx => h x (mem_cons_of_mem e hx), ok_bind, flatMap_cons]

/-- Both backends create a seeded session, or neither does. -/
theorem createSeeded_agrees (h : Mirrors F sessions files) {events : List SessionEvent}
    (hs : StorableHeader F.codec header) (hevents : ∀ e ∈ events, Storable F.codec e) :
    Agree (Mirrors F) (Memory.createSeeded F.serde sessions header events .never)
      (createSeeded F files header events .never) := by
  unfold Memory.createSeeded Jsonl.createSeeded
  simp only [checkCancellation_never, ok_bind]
  refine Agree.check _ fun hvalid => ?_
  refine Agree.check _ fun hseed => ?_
  refine Agree.checks (by rw [h.existingFormat]; cases sessions header.id <;> rfl) fun _ => ?_
  rw [encodeRecord_of_fits hs.fits, ok_bind, encodeSeed_never hevents, ok_bind]
  refine .ok ?_
  have hlog : encoded F.codec F.format (headerRecord F.codec header)
      ++ (events.flatMap fun e => encoded F.codec F.format (eventRecord F.codec e))
      = encodedLog F.codec F.format { header, events } := by
    simp [encodedLog, logLines, headerRecord, eventRecord, List.flatMap_map]
  rw [hlog]
  exact h.update (wellStored_of_seed hvalid hs hseed hevents)

/-- Both backends append an event, or neither does. -/
theorem append_agrees (hC : F.codec.KeepsFrames) (h : Mirrors F sessions files) {e : SessionEvent}
    (he : Storable F.codec e) :
    Agree (Mirrors F) (Memory.append F.serde sessions id e .never)
      (append F files id e .never) := by
  unfold Memory.append Jsonl.append
  simp only [checkCancellation_never, ok_bind, h.requireSession hC, h.existingFormat]
  refine Agree.check _ fun hvalid => ?_
  rw [liftProtocol_eq_ok] at hvalid
  cases hsession : sessions id with
  | none => exact .error _
  | some session =>
    obtain ⟨hid, hstored⟩ := h.stored id session hsession
    simp only [ok_bind, map_some, getD_some]
    refine Agree.check _ fun hseq => ?_
    rw [encodeRecord_of_fits he.fits, ok_bind]
    refine .ok ?_
    have hfile : (files (logName F.format id)).getD []
        ++ encoded F.codec F.format (eventRecord F.codec e)
        = encodedLog F.codec F.format { session with events := session.events ++ [e] } := by
      rw [h.file, hsession, logOf, if_pos rfl, map_some, getD_some,
        encodedLog_snoc]
    rw [hfile]
    have hnext := h.update (hstored.snoc hvalid he hseq)
    rw [hid] at hnext
    exact hnext

theorem delete_agrees (h : Mirrors F sessions files) :
    Agree (Mirrors F) (Memory.delete sessions id .never) (delete files id .never) := by
  unfold Memory.delete Jsonl.delete
  simp only [checkCancellation_never, ok_bind]
  refine Agree.checks (by rw [h.existingFormat]; cases sessions id <;> rfl) fun _ => ?_
  exact .ok (h.erase id)

theorem load_agrees (hC : F.codec.KeepsFrames) (h : Mirrors F sessions files) (id : SessionId) :
    Memory.load sessions id .never = load F files id .never := by
  simp only [Memory.load, Jsonl.load, checkCancellation_never, ok_bind, h.readSession hC]

theorem inspect_agrees (hC : F.codec.KeepsFrames) (h : Mirrors F sessions files)
    (id : SessionId) : Memory.inspect sessions id .never = inspect F files id .never := by
  have hread := h.readSession hC id
  cases hs : sessions id with
  | none | some session =>
    simp only [Memory.inspect, Jsonl.inspect, checkCancellation_never, ok_bind, hread, hs]

theorem readFrom_agrees (hC : F.codec.KeepsFrames) (h : Mirrors F sessions files)
    (id : SessionId) (fromSeq : Nat) :
    Memory.readFrom sessions id fromSeq .never = readFrom F files id fromSeq .never := by
  simp only [Memory.readFrom, Jsonl.readFrom, checkCancellation_never, ok_bind,
    h.requireSession hC]
  cases sessions id <;> rfl

end Jsonl

/-- Every operation gives the same result on both backends. -/
theorem jsonl_step_agrees {F : Jsonl.Config} (hC : F.codec.KeepsFrames) {sessions : MemoryState}
    {files : Files} (h : Jsonl.Mirrors F sessions files) :
    ∀ op : StoreOp, op.Storable F.codec →
      AgreesOn (memoryPersistence F.serde) (jsonlPersistence F) (Jsonl.Mirrors F) sessions files op
  | .create _, hop => agree_orUnchanged h (Jsonl.create_agrees h hop)
  | .createSeeded _ _, hop => agree_orUnchanged h (Jsonl.createSeeded_agrees h hop.1 hop.2)
  | .append _ _, hop => agree_orUnchanged h (Jsonl.append_agrees hC h hop)
  | .load id, _ => ⟨congrArg StoreResult.header (Jsonl.load_agrees hC h id), h⟩
  | .inspect id, _ => ⟨congrArg StoreResult.inspection (Jsonl.inspect_agrees hC h id), h⟩
  | .readFrom id fromSeq, _ =>
    ⟨congrArg StoreResult.events (Jsonl.readFrom_agrees hC h id fromSeq), h⟩
  | .delete _, _ => agree_orUnchanged h (Jsonl.delete_agrees h)

end Tessivum.Persistence
