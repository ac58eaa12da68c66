/-
Tessivum.Persistence.TornTheorems — appending after a torn write.

A crash in the middle of an append leaves a proper part of a record at the end
of a log. Readers skip it; the next append does not, and writes its record
behind the torn bytes. The append keeps the log readable exactly when nothing
was torn, or when the bytes of two frames happen to spell a frame of the new
event (`torn_append_iff`).
-/
import Tessivum.Library.JsonScan
import Tessivum.Persistence.Agreement

namespace Tessivum.Persistence

open Library Protocol Session List

/-! ## What is relied on for texts -/

/-- A text that opens an object is JSON only if its brackets close. -/
def Codec.ReadsObjects (C : Codec) : Prop :=
  ∀ bytes, (C.valueFromSlice bytes).isSome = true → bytes.head? = some openBrace →
    ScansObject bytes

/-- The bytes `{"type":`, the first field of every event. -/
def eventOpening : Bytes := utf8 "\x7b\"type\":"

/-- An event whose record reads back; its type may be a legacy one, which
reading migrates. -/
structure Recorded (C : Codec) (e : SessionEvent) : Prop where
  keeps : C.KeepsEvent e
  fits : C.FrameFits (eventRecord C e)
  opening : eventOpening <+: C.eventToString e

variable {C : Codec} {e : SessionEvent}

theorem Recorded.goodLine (h : Recorded C e) : GoodLine C (C.eventToString e) :=
  ⟨h.keeps.value, h.keeps.nonempty, h.keeps.one_line, h.fits⟩

theorem Recorded.text (h : Recorded C e) :
    ∃ rest, C.eventToString e = openBrace :: quote :: 116 :: rest := by
  obtain ⟨_, hrest⟩ := h.opening
  exact ⟨_, hrest.symm⟩

def StoreOp.Recorded (C : Codec) : StoreOp → Prop
  | .create header => StorableHeader C header
  | .createSeeded header events =>
    StorableHeader C header ∧ ∀ e ∈ events, Persistence.Recorded C e
  | .append _ e => Persistence.Recorded C e
  | _ => True

namespace Jsonl

variable {F : Config} {files files' : Files}

/-! ## Directories the backend writes -/

def recordBytes (F : Config) (lines : List Bytes) : Bytes :=
  lines.flatMap fun line => encoded F.codec F.format (line ++ [newline])

def IsLog (F : Config) (bytes : Bytes) : Prop :=
  ∃ first rest, (∀ line ∈ first :: rest, GoodLine F.codec line)
    ∧ bytes = recordBytes F (first :: rest)

/-- Every session has at most one file, in the configured encoding. -/
def OneFormat (F : Config) (files : Files) : Prop :=
  ∀ id format, format ≠ F.format → files (logName format id) = none

/-- And the file is a log. -/
structure LogDir (F : Config) (files : Files) : Prop where
  one_format : OneFormat F files
  log : ∀ id bytes, files (logName F.format id) = some bytes → IsLog F bytes

theorem OneFormat.existingFormat (h : OneFormat F files) (id : SessionId) :
    existingFormat files id = (files (logName F.format id)).map fun _ => F.format := by
  unfold Persistence.existingFormat
  cases hf : F.format with
  | raw =>
    rw [h id .zstd (by rw [hf]; decide)]
    cases files (logName .raw id) <;> rfl
  | zstd =>
    rw [h id .raw (by rw [hf]; decide)]
    cases files (logName .zstd id) <;> rfl

theorem OneFormat.write (h : OneFormat F files) (id : SessionId) (contents : Option Bytes) :
    OneFormat F (Function.update files (logName F.format id) contents) := by
  intro other format hformat
  have hne : logName format other ≠ logName F.format id := fun hname =>
    hformat (logName_injective hname).1
  rw [update_of_ne hne]
  exact h other format hformat

variable {bytes first record missing p : Bytes} {header : SessionHeader} {token : Cancellation}
  {events : List SessionEvent} {e : SessionEvent} {id : SessionId} {rest : List Bytes} {C : Codec}
  {S : Serde}

theorem LogDir.write (h : LogDir F files) (id : SessionId) (hlog : IsLog F bytes) :
    LogDir F (Function.update files (logName F.format id) (some bytes)) := by
  refine ⟨h.one_format.write id _, fun other bytes' hbytes => ?_⟩
  by_cases hid : other = id
  · rw [hid, update_self, some.injEq] at hbytes
    exact hbytes ▸ hlog
  · have hne : logName F.format other ≠ logName F.format id := fun hname =>
      hid (logName_injective hname).2
    rw [update_of_ne hne] at hbytes
    exact h.log other bytes' hbytes

theorem LogDir.remove (h : LogDir F files) (name : String) :
    LogDir F (Function.update files name none) := by
  have hkept : ∀ other bytes, Function.update files name none other = some bytes →
      files other = some bytes := by
    intro other bytes hbytes
    by_cases hname : other = name
    · rw [hname, update_self] at hbytes
      cases hbytes
    · rwa [update_of_ne hname] at hbytes
  refine ⟨fun id format hformat => ?_, fun id bytes hbytes => h.log id bytes (hkept _ _ hbytes)⟩
  by_cases hname : logName format id = name
  · rw [hname, update_self]
  · rw [update_of_ne hname]
    exact h.one_format id format hformat

theorem recordBytes_snoc (F : Config) (lines : List Bytes) (line : Bytes) :
    recordBytes F (lines ++ [line])
      = recordBytes F lines ++ encoded F.codec F.format (line ++ [newline]) := by
  simp [recordBytes]

theorem IsLog.snoc {line : Bytes} (h : IsLog F bytes) (hline : GoodLine F.codec line) :
    IsLog F (bytes ++ encoded F.codec F.format (line ++ [newline])) := by
  obtain ⟨first, rest, hgood, rfl⟩ := h
  refine ⟨first, rest ++ [line], fun x hx => ?_, ?_⟩
  · rw [← cons_append] at hx
    rcases mem_append.mp hx with hold | hnew
    · exact hgood x hold
    · rw [mem_singleton.mp hnew]
      exact hline
  · rw [← recordBytes_snoc, cons_append]

theorem create_logDir (h : LogDir F files) (hs : StorableHeader F.codec header)
    (hok : create F files header token = .ok files') : LogDir F files' := by
  simp only [create, check_bind_eq_ok, encodeRecord_of_fits hs.fits, ok_bind] at hok
  obtain ⟨_, _, _, _, hok⟩ := hok
  rw [← ok.inj hok]
  refine h.write header.id ⟨headerLine F.codec header, [], fun line hline => ?_, ?_⟩
  · rw [mem_singleton.mp hline]
    exact hs.goodLine
  · simp [recordBytes, headerRecord]

theorem encodeSeed_eq_ok : ∀ {events : List SessionEvent} {n : Nat}
    {bytes : Bytes}, (∀ e ∈ events, Recorded F.codec e) →
      encodeSeed F token n events = .ok bytes →
        bytes = recordBytes F (events.map F.codec.eventToString)
  | [], _, _, _, h => (ok.inj h).symm
  | e :: rest, n, bytes, hevents, h => by
    simp only [encodeSeed, bind_eq_ok, encodeRecord_of_fits (hevents e mem_cons_self).fits,
      ok_bind] at h
    obtain ⟨_, _, _, hrecords, h⟩ := h
    rw [← ok.inj h, encodeSeed_eq_ok (fun x hx => hevents x (mem_cons_of_mem e hx))
      hrecords]
    rfl

theorem createSeeded_logDir (h : LogDir F files) (hs : StorableHeader F.codec header)
    (hevents : ∀ e ∈ events, Recorded F.codec e)
    (hok : createSeeded F files header events token = .ok files') : LogDir F files' := by
  simp only [createSeeded, check_bind_eq_ok, bind_eq_ok (x := encodeSeed _ _ _ _),
    encodeRecord_of_fits hs.fits, ok_bind] at hok
  obtain ⟨_, _, _, _, _, _, hrecords, hok⟩ := hok
  rw [← ok.inj hok, encodeSeed_eq_ok hevents hrecords]
  refine h.write header.id
    ⟨headerLine F.codec header, events.map F.codec.eventToString, fun line hline => ?_, rfl⟩
  rcases mem_cons.mp hline with rfl | hline
  · exact hs.goodLine
  · obtain ⟨e, he, rfl⟩ := mem_map.mp hline
    exact (hevents e he).goodLine

theorem append_eq_ok (hfits : F.codec.FrameFits (eventRecord F.codec e))
    (hok : append F files id e token = .ok files') :
    ∃ session, readSession F files id = .ok (some session) ∧ e.validate F.serde = .ok ()
      ∧ nextSeq session.events = .ok e.seq
      ∧ files' = Function.update files (logName ((existingFormat files id).getD .raw) id)
          (some ((files (logName ((existingFormat files id).getD .raw) id)).getD []
            ++ encoded F.codec ((existingFormat files id).getD .raw) (eventRecord F.codec e))) := by
  simp only [append, check_bind_eq_ok, bind_eq_ok (x := requireSession _ _ _),
    encodeRecord_of_fits hfits, ok_bind, liftProtocol_eq_ok, checkSeq_eq_ok] at hok
  obtain ⟨_, hvalid, _, session, hsession, hseq, hok⟩ := hok
  refine ⟨session, ?_, hvalid, hseq, (ok.inj hok).symm⟩
  obtain ⟨found, hread, hfound⟩ := bind_eq_ok.mp hsession
  cases found with
  | none => cases hfound
  | some found => rw [hread, ok.inj hfound]

theorem append_logDir (h : LogDir F files) (he : Recorded F.codec e)
    (hok : append F files id e token = .ok files') : LogDir F files' := by
  obtain ⟨_, hread, _, _, rfl⟩ := append_eq_ok he.fits hok
  rw [h.one_format.existingFormat]
  cases hfile : files (logName F.format id) with
  | none =>
    -- there is no session to append to
    rw [readSession, h.one_format.existingFormat, hfile] at hread
    cases hread
  | some bytes =>
    rw [map_some, getD_some, hfile, getD_some]
    exact h.write id ((h.log id bytes hfile).snoc he.goodLine)

/-- Every operation leaves the logs whole. -/
theorem storeStep_logDir (h : LogDir F files) : ∀ op : StoreOp, op.Recorded F.codec →
    LogDir F (storeStep (jsonlPersistence F) files op).2
  | .create header, hop => by
    show LogDir F (orUnchanged files (create F files header .never)).2
    cases hok : create F files header .never with
    | error err => exact h
    | ok files' => exact create_logDir h hop hok
  | .createSeeded header events, hop => by
    show LogDir F (orUnchanged files (createSeeded F files header events .never)).2
    cases hok : createSeeded F files header events .never with
    | error err => exact h
    | ok files' => exact createSeeded_logDir h hop.1 hop.2 hok
  | .append id e, hop => by
    show LogDir F (orUnchanged files (append F files id e .never)).2
    cases hok : append F files id e .never with
    | error err => exact h
    | ok files' => exact append_logDir h hop hok
  | .load id, _ => h
  | .inspect id, _ => h
  | .readFrom id fromSeq, _ => h
  | .delete id, _ => by
    show LogDir F (orUnchanged files (delete files id .never)).2
    cases hok : delete files id .never with
    | error err => exact h
    | ok files' =>
      simp only [delete, check_bind_eq_ok] at hok
      rw [← ok.inj hok.2.2.2]
      exact (h.remove _).remove _

def written (F : Config) (ops : List StoreOp) : Files :=
  runState (storeStep (jsonlPersistence F)) emptyRoot ops

theorem emptyRoot_logDir (F : Config) : LogDir F emptyRoot :=
  ⟨fun _ _ _ => rfl, nofun⟩

theorem written_logDir {ops : List StoreOp} (hops : ∀ op ∈ ops, op.Recorded F.codec) :
    LogDir F (written F ops) :=
  runState_invariant_of_allowed (LogDir F) (fun _ op hop h => storeStep_logDir h op hop) ops
    emptyRoot hops (emptyRoot_logDir F)

/-! ## Reading -/

theorem OneFormat.readSession (h : OneFormat F files)
    (hfile : files (logName F.format id) = some bytes) {session : MemorySession} :
    readSession F files id = .ok (some session)
      ↔ parseSession F.codec F.serde bytes F.format id = .ok session := by
  rw [Jsonl.readSession, h.existingFormat, hfile]
  simp only [map_some, hfile, getD_some]
  cases parseSession F.codec F.serde bytes F.format id <;> simp

theorem OneFormat.readFrom (h : OneFormat F files)
    (hfile : files (logName F.format id) = some bytes) (events : List SessionEvent) :
    readFrom F files id 0 .never = .ok events
      ↔ ∃ header, parseSession F.codec F.serde bytes F.format id = .ok { header, events } := by
  have hread : ∀ session, Jsonl.readSession F files id = .ok (some session) ↔ _ :=
    fun _ => h.readSession hfile
  simp only [Jsonl.readFrom, Jsonl.requireSession, checkCancellation_never, ok_bind]
  constructor
  · intro hok
    obtain ⟨_, hsession, hok⟩ := bind_eq_ok.mp hok
    obtain ⟨found, hfound, hsession⟩ := bind_eq_ok.mp hsession
    cases found with
    | none => cases hsession
    | some found =>
      obtain rfl := ok.inj hsession
      have hevents : found.events = events := by simpa using hok
      exact ⟨found.header, hevents ▸ (hread found).mp hfound⟩
  · rintro ⟨_, hparse⟩
    rw [(hread _).mpr hparse]
    simp

theorem sessionOfRecords_append (C : Codec) (S : Serde) (id : SessionId) (first : Bytes)
    (rest extra : List Bytes) :
    sessionOfRecords C S id (first :: rest ++ extra) = .ok { header, events }
      ↔ ∃ old, sessionOfRecords C S id (first :: rest) = .ok { header, events := old }
        ∧ extra.foldlM (parseEvent C S) old = .ok events := by
  simp only [cons_append, sessionOfRecords, bind_eq_ok, exists_unit, foldlM_append,
    ok.injEq, MemorySession.mk.injEq]
  constructor
  · rintro ⟨h, hheader, hempty, hvalid, hid, _, ⟨old, hold, hall⟩, rfl, rfl⟩
    exact ⟨old, ⟨h, hheader, hempty, hvalid, hid, old, hold, rfl, rfl⟩, hall⟩
  · rintro ⟨_, ⟨h, hheader, hempty, hvalid, hid, old', hold, rfl, rfl⟩, hall⟩
    exact ⟨h, hheader, hempty, hvalid, hid, events, ⟨old', hold, hall⟩, rfl, rfl⟩

theorem parseSession_tail (hC : F.codec.KeepsFrames)
    (hgood : ∀ line ∈ first :: rest, GoodLine F.codec line) (id : SessionId) (tail : Bytes) :
    parseSession F.codec F.serde (recordBytes F (first :: rest) ++ tail) F.format id
        = .ok { header, events }
      ↔ ∃ old records, sessionOfRecords F.codec F.serde id (first :: rest)
            = .ok { header, events := old }
          ∧ parseRecords F.codec F.format tail = .ok records
          ∧ records.foldlM (parseEvent F.codec F.serde) old = .ok events := by
  rw [parseSession, recordBytes, parseRecords_log hC F.format hgood tail]
  cases htail : parseRecords F.codec F.format tail with
  | error err => simp [Except.map, Except.mapError]
  | ok records =>
    simp only [Except.map, mapError_ok, ok_bind, sessionOfRecords_append, ok.injEq]
    constructor
    · rintro ⟨old, hold, hall⟩
      exact ⟨old, records, hold, rfl, hall⟩
    · rintro ⟨old, _, hold, rfl, hall⟩
      exact ⟨old, hold, hall⟩

/-! ## One more event -/

theorem parseEvent_eq_ok {events' : List SessionEvent} :
    parseEvent C S events record = .ok events' ↔
      ∃ stored e, C.eventFromSlice record = .ok stored ∧ migrateLegacySelection C stored = .ok e
        ∧ e.validate S = .ok () ∧ nextSeq events = .ok e.seq ∧ events' = events ++ [e] := by
  simp only [parseEvent, bind_eq_ok, mapError_eq_ok, failIf_eq_ok, exists_unit, not_not,
    ok.injEq]
  constructor
  · rintro ⟨stored, hstored, e, hmigrate, hvalid, n, hn, rfl, rfl⟩
    exact ⟨stored, e, hstored, hmigrate, hvalid, hn, rfl⟩
  · rintro ⟨stored, e, hstored, hmigrate, hvalid, hn, rfl⟩
    exact ⟨stored, hstored, e, hmigrate, hvalid, e.seq, hn, rfl, rfl⟩

theorem length_foldlM_parseEvent : ∀ {records : List Bytes}
    {events events' : List SessionEvent}, records.foldlM (parseEvent C S) events = .ok events' →
      events'.length = events.length + records.length
  | [], _, _, h => by rw [← ok.inj h]; rfl
  | record :: rest, events, events', h => by
    rw [foldlM_cons] at h
    obtain ⟨mid, hmid, h⟩ := bind_eq_ok.mp h
    obtain ⟨_, _, _, _, _, _, rfl⟩ := parseEvent_eq_ok.mp hmid
    have hlength := length_foldlM_parseEvent h
    simp only [length_append, length_cons, length_nil] at hlength ⊢
    omega

def ReadsAs (C : Codec) (record : Bytes) (e : SessionEvent) : Prop :=
  ∃ stored, C.eventFromSlice record = .ok stored ∧ migrateLegacySelection C stored = .ok e

theorem foldlM_parseEvent_one (hvalid : e.validate S = .ok ()) (hseq : nextSeq events = .ok e.seq)
    {records : List Bytes} :
    records.foldlM (parseEvent C S) events = .ok (events ++ [e])
      ↔ ∃ record, records = [record] ∧ ReadsAs C record e := by
  constructor
  · intro h
    have hlength := length_foldlM_parseEvent h
    rw [length_append, length_singleton] at hlength
    obtain ⟨record, rfl⟩ := length_eq_one_iff.mp (by omega : records.length = 1)
    rw [foldlM_cons] at h
    obtain ⟨_, hmid, h⟩ := bind_eq_ok.mp h
    obtain rfl := ok.inj h
    obtain ⟨stored, e', hstored, hmigrate, _, _, hevents⟩ := parseEvent_eq_ok.mp hmid
    obtain rfl : e = e' := by simpa using hevents
    exact ⟨record, rfl, stored, hstored, hmigrate⟩
  · rintro ⟨_, rfl, stored, hstored, hmigrate⟩
    have hone := parseEvent_eq_ok.mpr
      ⟨stored, e, hstored, hmigrate, hvalid, hseq, rfl⟩
    rw [foldlM_cons, hone, ok_bind]
    rfl

theorem readsAs_eventToString (h : C.KeepsEvent e) :
    ReadsAs C (C.eventToString e) e ↔ e.eventType ≠ legacySelectionEvent :=
  ⟨fun ⟨_, _, hmigrate⟩ => migrateLegacySelection_not_legacy hmigrate,
    fun hne => ⟨e, h.event, migrateLegacySelection_of_ne C hne⟩⟩

/-! ## Torn tails -/

def IncompleteFrame (bytes : Bytes) : Prop :=
  bytes.length < frameHeaderLen ∨ (bytes.drop frameHeaderLen).length < beWord (bytes.drop 4)

theorem parseZstdRecords_incomplete (C : Codec) (h : IncompleteFrame bytes) :
    parseZstdRecords C bytes = .ok [] := by
  rw [parseZstdRecords]
  rcases h with hshort | hbody
  · rw [if_pos hshort]
  · by_cases hshort : bytes.length < frameHeaderLen
    · rw [if_pos hshort]
    · rw [if_neg hshort, if_pos hbody]

theorem parseZstdRecords_complete (C : Codec) (h : ¬ IncompleteFrame bytes) :
    parseZstdRecords C bytes = (do
      let record ← frameRecord C
        ((bytes.drop frameHeaderLen).take (beWord (bytes.drop 4))) (beWord bytes)
      let records ← parseZstdRecords C
        ((bytes.drop frameHeaderLen).drop (beWord (bytes.drop 4)))
      .ok (record :: records)) := by
  obtain ⟨hshort, hbody⟩ := not_or.mp h
  rw [parseZstdRecords, if_neg hshort, if_neg hbody]

theorem parseZstdRecords_nil_iff : parseZstdRecords C bytes = .ok [] ↔ IncompleteFrame bytes := by
  refine ⟨fun h => ?_, parseZstdRecords_incomplete C⟩
  by_contra hcomplete
  rw [parseZstdRecords_complete C hcomplete] at h
  obtain ⟨_, _, h⟩ := bind_eq_ok.mp h
  obtain ⟨_, _, h⟩ := bind_eq_ok.mp h
  cases h

/-- The frame that the bytes begin with is whole and holds `record`, and
what follows it is not a whole frame. -/
def OneFrame (C : Codec) (bytes record : Bytes) : Prop :=
  ¬ IncompleteFrame bytes
    ∧ frameRecord C ((bytes.drop frameHeaderLen).take (beWord (bytes.drop 4))) (beWord bytes)
      = .ok record
    ∧ IncompleteFrame ((bytes.drop frameHeaderLen).drop (beWord (bytes.drop 4)))

/-- Which bytes are a single frame. -/
theorem parseZstdRecords_one_iff :
    parseZstdRecords C bytes = .ok [record] ↔ OneFrame C bytes record := by
  constructor
  · intro h
    by_cases hcomplete : IncompleteFrame bytes
    · rw [parseZstdRecords_incomplete C hcomplete] at h
      cases h
    · rw [parseZstdRecords_complete C hcomplete] at h
      obtain ⟨_, hfirst, h⟩ := bind_eq_ok.mp h
      obtain ⟨_, hrest, h⟩ := bind_eq_ok.mp h
      cases h
      exact ⟨hcomplete, hfirst, parseZstdRecords_nil_iff.mp hrest⟩
  · rintro ⟨hcomplete, hfirst, hrest⟩
    rw [parseZstdRecords_complete C hcomplete, hfirst, ok_bind,
      parseZstdRecords_incomplete C hrest, ok_bind]

def TornRecord (F : Config) (p : Bytes) : Prop :=
  ∃ torn missing, Recorded F.codec torn ∧ missing ≠ []
    ∧ p ++ missing = encoded F.codec F.format (eventRecord F.codec torn)

theorem incompleteFrame_of_torn (hfits : C.FrameFits record) (hmissing : missing ≠ [])
    (h : p ++ missing = encoded C .zstd record) : IncompleteFrame p := by
  have hfits : (C.encodeAll record).length < 2 ^ 32 := hfits
  have hpos := length_pos_iff.mpr hmissing
  have hlength := congrArg List.length h
  simp only [encoded, length_append, be32_length] at hlength
  by_cases hshort : p.length < frameHeaderLen
  · exact .inl hshort
  right
  unfold frameHeaderLen at hshort
  have hword : beWord (p.drop 4) = (C.encodeAll record).length := by
    have hdrop := congrArg (List.drop 4) h
    rw [drop_append_of_le_length (by omega)] at hdrop
    have hbytes : p.drop 4 ++ missing
        = be32 (C.encodeAll record).length ++ C.encodeAll record := by
      rw [hdrop, encoded, append_assoc]
      rfl
    have hprior : beWord (p.drop 4) = beWord (p.drop 4 ++ missing) := by
      have hlong : 4 ≤ (p.drop 4).length := by rw [length_drop]; omega
      generalize p.drop 4 = word at hlong
      rcases word with _ | ⟨a, _ | ⟨b, _ | ⟨c, _ | ⟨d, word⟩⟩⟩⟩
      iterate 4 exact absurd hlong (by simp)
      rfl
    rw [hprior, hbytes, beWord_be32 hfits]
  rw [hword, length_drop, frameHeaderLen]
  omega

/-- A record behind a torn line is read as part of it. -/
theorem parseRawRecords_torn (hC : C.ReadsObjects) {torn : SessionEvent} (he : Recorded C e)
    (htorn : Recorded C torn) (hp : p ≠ []) (hmissing : missing ≠ [])
    (h : p ++ missing = eventRecord C torn) (records : List Bytes) :
    parseRawRecords C [] (p ++ eventRecord C e) ≠ .ok records := by
  obtain ⟨tornRest, htornText⟩ := htorn.text
  obtain ⟨rest, htext⟩ := he.text
  -- the torn bytes are part of the torn event's text, without its newline
  have hprior : p <+: C.eventToString torn := by
    have hp : p <+: C.eventToString torn ++ [newline] := ⟨missing, h⟩
    rcases prefix_concat_iff.mp hp with heq | hprior
    · rw [heq] at h
      exact absurd (append_right_eq_self.mp h) hmissing
    · exact hprior
  have hline : newline ∉ p := fun hmem => htorn.keeps.one_line (hprior.subset hmem)
  obtain ⟨before, rfl⟩ : ∃ before, p = openBrace :: before := by
    obtain ⟨_, htail⟩ := hprior
    rw [htornText] at htail
    cases p with
    | nil => exact absurd rfl hp
    | cons b before => exact ⟨before, by rw [(cons.inj htail).1]⟩
  have hscan : ScansObject (C.eventToString e) :=
    hC _ he.keeps.value (by rw [htext]; rfl)
  have hbad : C.valueFromSlice (openBrace :: before ++ C.eventToString e) = none := by
    rw [← not_isSome_iff_eq_none]
    intro hsome
    rw [htext] at hscan hsome
    exact not_scansObject_append before (by decide) hscan (hC _ hsome rfl)
  rw [eventRecord, ← append_assoc, parseRawRecords_append C, nil_append]
  · rw [parseRawRecords, if_neg (by simp), failIf_eq_ok.mpr (by simp), ok_bind, hbad, failIf,
      if_pos Option.isNone_none]
    intro hok
    cases hok
  · intro hmem
    rcases mem_append.mp hmem with hmem | hmem
    · exact hline hmem
    · exact he.keeps.one_line hmem

/-! ## The append after a torn write -/

/-- The directory after a crash that left `p` at the end of a log. -/
def tear (F : Config) (files : Files) (id : SessionId) (p : Bytes) : Files :=
  Function.update files (logName F.format id)
    ((files (logName F.format id)).map fun bytes => bytes ++ p)

/-- Reading still works after the append, and gives what it gave before
followed by the new event. -/
def Recovered (F : Config) (torn files' : Files) (id : SessionId) (e : SessionEvent) : Prop :=
  ∃ events, readFrom F torn id 0 .never = .ok events
    ∧ readFrom F files' id 0 .never = .ok (events ++ [e])

/-- The torn frame and the new one spell a frame of the new event. -/
def Realigned (F : Config) (p : Bytes) (e : SessionEvent) : Prop :=
  F.format = .zstd ∧ ∃ record,
    OneFrame F.codec (p ++ encoded F.codec .zstd (eventRecord F.codec e)) record
      ∧ ReadsAs F.codec record e

/-- The bytes of a torn write, unless they are a raw line, read as
nothing. -/
theorem parseRecords_torn (C : Codec) (format : JsonlStorageFormat) (hfits : C.FrameFits record)
    (hmissing : missing ≠ []) (h : p ++ missing = encoded C format record)
    (hskipped : p = [] ∨ format = .zstd) : parseRecords C format p = .ok [] := by
  cases format with
  | raw =>
    obtain rfl := hskipped.resolve_right (by decide)
    simp [parseRecords, parseRawRecords]
  | zstd => exact parseZstdRecords_incomplete C (incompleteFrame_of_torn hfits hmissing h)

/-- The tail of a log after a torn write that reads as nothing, and one
more append: it gives exactly the new event. -/
theorem tail_one_iff (hC : F.codec.KeepsFrames) (hp : TornRecord F p)
    (hskipped : p = [] ∨ F.format = .zstd) (he : Recorded F.codec e) :
    (∃ record, parseRecords F.codec F.format
          (p ++ encoded F.codec F.format (eventRecord F.codec e)) = .ok [record]
        ∧ ReadsAs F.codec record e)
      ↔ (p = [] ∧ e.eventType ≠ legacySelectionEvent) ∨ (p ≠ [] ∧ Realigned F p e) := by
  by_cases hnil : p = []
  · obtain ⟨_, _, htorn, hmissing, htear⟩ := hp
    have hempty := parseRecords_torn F.codec F.format htorn.fits hmissing htear hskipped
    have hone := parseRecords_encoded hC F.format he.goodLine []
    subst hnil
    rw [append_nil, hempty] at hone
    rw [nil_append, show eventRecord F.codec e = F.codec.eventToString e ++ [newline] from rfl,
      hone]
    simp [Except.map, readsAs_eventToString he.keeps]
  · have hformat := hskipped.resolve_left hnil
    simp only [hnil, false_and, ne_eq, not_false_eq_true, true_and, false_or, Realigned, hformat,
      parseRecords, parseZstdRecords_one_iff]

/-- When a log reads on after an append behind a torn record. -/
theorem parseSession_torn (hO : F.codec.ReadsObjects) (hC : F.codec.KeepsFrames)
    (hgood : ∀ line ∈ first :: rest, GoodLine F.codec line) (hp : TornRecord F p)
    (he : Recorded F.codec e) (hvalid : e.validate F.serde = .ok ())
    (htorn : parseSession F.codec F.serde (recordBytes F (first :: rest) ++ p) F.format id
      = .ok { header, events }) (hseq : nextSeq events = .ok e.seq) :
    (∃ header', parseSession F.codec F.serde (recordBytes F (first :: rest) ++
        (p ++ encoded F.codec F.format (eventRecord F.codec e))) F.format id
          = .ok { header := header', events := events ++ [e] })
      ↔ (p = [] ∧ e.eventType ≠ legacySelectionEvent) ∨ (p ≠ [] ∧ Realigned F p e) := by
  obtain ⟨torn, missing, hrecorded, hmissing, htear⟩ := hp
  obtain ⟨old, _, hold, hrecords, hevents⟩ := (parseSession_tail hC hgood id p).mp htorn
  simp only [parseSession_tail hC hgood id]
  by_cases hskipped : p = [] ∨ F.format = .zstd
  · -- the torn bytes gave nothing, so the new event follows the log's events
    rw [parseRecords_torn F.codec F.format hrecorded.fits hmissing htear hskipped] at hrecords
    obtain rfl := ok.inj hrecords
    obtain rfl := ok.inj hevents
    have hone := tail_one_iff hC ⟨torn, missing, hrecorded, hmissing, htear⟩ hskipped he
    rw [← hone]
    constructor
    · rintro ⟨_, _, _, hold', htail, hfold⟩
      rw [hold, ok.injEq, MemorySession.mk.injEq] at hold'
      obtain ⟨rfl, rfl⟩ := hold'
      obtain ⟨record, rfl, hreads⟩ := (foldlM_parseEvent_one hvalid hseq).mp hfold
      exact ⟨record, htail, hreads⟩
    · rintro ⟨record, htail, hreads⟩
      exact ⟨header, old, [record], hold, htail,
        (foldlM_parseEvent_one hvalid hseq).mpr ⟨record, rfl, hreads⟩⟩
  · -- the torn line and the new one are one malformed line
    obtain ⟨hnil, hformat⟩ := not_or.mp hskipped
    have hraw : F.format = .raw := by
      cases hf : F.format with
      | raw => rfl
      | zstd => exact absurd hf hformat
    rw [hraw] at htear
    constructor
    · rintro ⟨_, _, tail, _, htail, _⟩
      rw [hraw] at htail
      exact absurd htail (parseRawRecords_torn hO he hrecorded hnil hmissing htear tail)
    · rintro (⟨hp, _⟩ | ⟨_, hzstd, _⟩)
      · exact absurd hp hnil
      · exact absurd hzstd hformat

/-- After any run of the backend and any torn write, an append that
succeeds keeps the log readable exactly when nothing was torn, and the
event is not of the type that reading migrates; or when the bytes of two
compressed frames spell a frame of the event. -/
theorem torn_append_iff (hO : F.codec.ReadsObjects) (hC : F.codec.KeepsFrames)
    {ops : List StoreOp} (hops : ∀ op ∈ ops, op.Recorded F.codec) {id : SessionId} {p : Bytes}
    (hp : TornRecord F p) {e : SessionEvent} (he : Recorded F.codec e) {token : Cancellation}
    (hok : append F (tear F (written F ops) id p) id e token = .ok files') :
    Recovered F (tear F (written F ops) id p) files' id e
      ↔ (p = [] ∧ e.eventType ≠ legacySelectionEvent) ∨ (p ≠ [] ∧ Realigned F p e) := by
  have hdir := written_logDir hops
  generalize written F ops = files at hdir hok
  have hone : OneFormat F (tear F files id p) := hdir.one_format.write id _
  have htorn : tear F files id p (logName F.format id)
      = (files (logName F.format id)).map fun bytes => bytes ++ p := update_self _ _ _
  obtain ⟨⟨header, events⟩, hread, hvalid, hseq, rfl⟩ := append_eq_ok he.fits hok
  have hformat := hone.existingFormat id
  cases hfile : files (logName F.format id) with
  | none =>
    -- there is no log to append to
    rw [hfile] at htorn
    rw [readSession, hformat, htorn] at hread
    cases hread
  | some bytes =>
    obtain ⟨first, rest, hgood, rfl⟩ := hdir.log id bytes hfile
    rw [hfile, map_some] at htorn
    rw [htorn, map_some] at hformat
    have hparse := (hone.readSession htorn).mp hread
    have hevents : readFrom F (tear F files id p) id 0 .never = .ok events :=
      (hone.readFrom htorn events).mpr ⟨header, hparse⟩
    rw [hformat, getD_some, htorn, getD_some, append_assoc]
    have hafter := (hone.write id (some (recordBytes F (first :: rest) ++
      (p ++ encoded F.codec F.format (eventRecord F.codec e))))).readFrom
      (update_self _ _ _) (events ++ [e])
    rw [← parseSession_torn hO hC hgood hp he hvalid hparse hseq, ← hafter]
    constructor
    · rintro ⟨_, hfound, hnext⟩
      rw [hevents] at hfound
      rwa [← ok.inj hfound] at hnext
    · intro hnext
      exact ⟨events, hevents, hnext⟩

/-! ## A torn line -/

def sampleRaw : Config :=
  { codec := Sample.codec, serde := wireSerde, root := "root", format := .raw }

def headerOnly : List StoreOp := [.create Sample.header]

theorem headerOnly_recorded : ∀ op ∈ headerOnly, op.Recorded Sample.codec := by
  intro op hop
  rw [mem_singleton.mp hop]
  exact Sample.header_storable

theorem sample_readsObjects : Sample.codec.ReadsObjects := by
  intro bytes hsome _
  by_cases hheader : bytes = Sample.headerRecordText
  · rw [hheader]
    decide
  · by_cases hevent : bytes = Sample.eventText
    · rw [hevent]
      decide
    · simp [Sample.codec, hheader, hevent] at hsome

theorem sample_recorded : Recorded Sample.codec Sample.event where
  keeps := Sample.event_storable.keeps
  fits := Sample.event_storable.fits
  opening := ⟨(Sample.eventText).drop 8, by decide⟩

theorem brace_torn : TornRecord sampleRaw [openBrace] :=
  ⟨Sample.event, (eventRecord Sample.codec Sample.event).tail, sample_recorded, by decide,
    by decide⟩

/-- The directory after a crash that left the first byte of a record. -/
def tornBrace : Files := tear sampleRaw (written sampleRaw headerOnly) ⟨"s"⟩ [openBrace]

def afterTornBrace : Files :=
  Function.update tornBrace (logName .raw ⟨"s"⟩)
    (some ((tornBrace (logName .raw ⟨"s"⟩)).getD [] ++ eventRecord Sample.codec Sample.event))

theorem append_tornBrace :
    append sampleRaw tornBrace ⟨"s"⟩ Sample.event .never = .ok afterTornBrace := rfl

/-- Appending the event succeeds, and the log cannot be read any more. -/
theorem not_recovered_tornBrace :
    TornRecord sampleRaw [openBrace]
      ∧ append sampleRaw tornBrace ⟨"s"⟩ Sample.event .never = .ok afterTornBrace
      ∧ readFrom sampleRaw tornBrace ⟨"s"⟩ 0 .never = .ok []
      ∧ readFrom sampleRaw afterTornBrace ⟨"s"⟩ 0 .never = .error
        (corrupt "malformed JSONL record in committed prefix"
          (.object [("path", .string "root/session-73.jsonl")]))
      ∧ ¬ Recovered sampleRaw tornBrace afterTornBrace ⟨"s"⟩ Sample.event := by
  have hafter : readFrom sampleRaw afterTornBrace ⟨"s"⟩ 0 .never = .error
      (corrupt "malformed JSONL record in committed prefix"
        (.object [("path", .string "root/session-73.jsonl")])) := by
    decide
  refine ⟨brace_torn, append_tornBrace, by decide, hafter, ?_⟩
  rintro ⟨_, _, hread⟩
  rw [hafter] at hread
  cases hread

theorem torn_append_iff_brace :
    Recovered sampleRaw tornBrace afterTornBrace ⟨"s"⟩ Sample.event
      ↔ ([openBrace] = [] ∧ Sample.event.eventType ≠ legacySelectionEvent)
        ∨ ([openBrace] ≠ [] ∧ Realigned sampleRaw [openBrace] Sample.event) :=
  torn_append_iff sample_readsObjects Sample.codec_keepsFrames headerOnly_recorded brace_torn
    sample_recorded append_tornBrace

end Jsonl

end Tessivum.Persistence
