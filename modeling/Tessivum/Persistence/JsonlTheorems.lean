/-
Tessivum.Persistence.JsonlTheorems — a log file reads back as the session it
was written from.

A log is the encoding of a header record and of the event records, one after
the other. `parseRecords_encoded` is the step rule of both encodings: one whole
record in front of any rest is read and the rest is read after it.

File names do not collide (`logName_injective`), so the file of one session is
untouched by what happens to the others.
-/
import Tessivum.Persistence.Jsonl
import Tessivum.Session.LogTheorems

namespace Tessivum.Persistence

open Library Protocol Session List

variable {C : Codec} {S : Serde}

/-! ## What the codecs are relied on for -/

/-- An event reads back from its own texts: the JSON text of a log
record, and the text columns of a row. -/
structure Codec.KeepsEvent (C : Codec) (e : SessionEvent) : Prop where
  event : C.eventFromSlice (C.eventToString e) = .ok e
  value : (C.valueFromSlice (C.eventToString e)).isSome = true
  nonempty : C.eventToString e ≠ []
  one_line : newline ∉ C.eventToString e
  data : C.valueFromText (C.valueToText e.data) = .ok e.data
  sources : ∀ seqs, e.sourceEventSeqs = some seqs → C.seqsFromText (C.seqsToText seqs) = .ok seqs
  surface : ∀ op, e.surfaceOp = some op → C.surfaceOpFromText (C.surfaceOpToText op) = .ok op

/-- A header reads back from its own texts. -/
structure Codec.KeepsHeader (C : Codec) (header : SessionHeader) : Prop where
  value : ∃ fields, C.valueFromSlice (headerLine C header) = some (.object fields)
    ∧ fields.lookup "type" = some (.string "session")
    ∧ C.headerWireFromValue (.object (fields.filter fun f => f.1 ≠ "type"))
        = .ok { header, agentPreset := none }
  one_line : newline ∉ headerLine C header
  origin : ∀ origin, header.origin = some origin →
    C.originFromText (C.originToText origin) = .ok origin

def Codec.KeepsFrames (C : Codec) : Prop := ∀ record, C.decodeAll (C.encodeAll record) = .ok record

/-- A compressed record whose length a frame can state; the encoder
reports an I/O failure otherwise. -/
def Codec.FrameFits (C : Codec) (record : Bytes) : Prop := (C.encodeAll record).length < 2 ^ 32

/-! ## One record -/

/-- A line both encodings can hold. -/
structure GoodLine (C : Codec) (line : Bytes) : Prop where
  value : (C.valueFromSlice line).isSome = true
  nonempty : line ≠ []
  one_line : newline ∉ line
  fits : C.FrameFits (line ++ [newline])

def encoded (C : Codec) : JsonlStorageFormat → Bytes → Bytes
  | .raw, record => record
  | .zstd, record => be32 (C.crc32 (C.encodeAll record)).toNat
      ++ be32 (C.encodeAll record).length ++ C.encodeAll record

theorem encodeRecord_of_fits {record : Bytes} (h : C.FrameFits record)
    (format : JsonlStorageFormat) :
    encodeRecord C format record = .ok (encoded C format record) := by
  cases format with
  | raw => rfl
  | zstd => exact if_pos h

theorem parseRawRecords_append (C : Codec) : ∀ {line : Bytes}, newline ∉ line →
    ∀ (record rest : Bytes),
      parseRawRecords C record (line ++ rest) = parseRawRecords C (record ++ line) rest
  | [], _, record, rest => by rw [nil_append, append_nil]
  | b :: line, h, record, rest => by
    have hb : b ≠ newline := fun hb => h (hb ▸ mem_cons_self)
    have hline : newline ∉ line := fun hmem => h (mem_cons_of_mem b hmem)
    rw [cons_append, parseRawRecords, if_pos hb, parseRawRecords_append C hline,
      append_assoc]
    rfl

/-- A line both encodings can hold as a record, whatever its length. -/
structure LineText (C : Codec) (line : Bytes) : Prop where
  value : (C.valueFromSlice line).isSome = true
  nonempty : line ≠ []
  one_line : newline ∉ line

variable {line : Bytes} {e : SessionEvent} {header : SessionHeader} {session : MemorySession}
  {events : List SessionEvent}

theorem GoodLine.text (h : GoodLine C line) : LineText C line :=
  ⟨h.value, h.nonempty, h.one_line⟩

theorem parseRawRecords_text (h : LineText C line) (rest : Bytes) :
    parseRawRecords C [] ((line ++ [newline]) ++ rest)
      = (parseRawRecords C [] rest).map (line :: ·) := by
  rw [append_assoc, parseRawRecords_append C h.one_line, nil_append,
    singleton_append, parseRawRecords, if_neg (by simp)]
  have hvalue : (C.valueFromSlice line).isNone = false := by
    rw [Option.isNone_eq_false_iff]
    exact h.value
  rw [failIf, if_neg h.nonempty, ok_bind, failIf, if_neg (by simp [hvalue]), ok_bind]
  cases parseRawRecords C [] rest <;> rfl

theorem parseRawRecords_line (h : GoodLine C line) (rest : Bytes) :
    parseRawRecords C [] ((line ++ [newline]) ++ rest)
      = (parseRawRecords C [] rest).map (line :: ·) :=
  parseRawRecords_text h.text rest

theorem frameRecord_encoded (hC : C.KeepsFrames) (h : GoodLine C line) :
    frameRecord C (C.encodeAll (line ++ [newline]))
      (C.crc32 (C.encodeAll (line ++ [newline]))).toNat = .ok line := by
  have hvalue : (C.valueFromSlice line).isNone = false := by
    rw [Option.isNone_eq_false_iff]
    exact h.value
  rw [frameRecord, failIf, if_neg (by simp), ok_bind, hC, mapError_ok, ok_bind, failIf,
    if_neg (by simp [h.one_line]), ok_bind, failIf, if_neg (by simp [h.nonempty, hvalue]), ok_bind,
    dropLast_concat]

theorem parseZstdRecords_frame (hC : C.KeepsFrames) (h : GoodLine C line) (rest : Bytes) :
    parseZstdRecords C (encoded C .zstd (line ++ [newline]) ++ rest)
      = (parseZstdRecords C rest).map (line :: ·) := by
  have hfits : (C.encodeAll (line ++ [newline])).length < 2 ^ 32 := h.fits
  have hcrc := (C.crc32 (C.encodeAll (line ++ [newline]))).toNat_lt
  rw [parseZstdRecords]
  simp only [encoded, append_assoc]
  have hlen : ¬ (be32 (C.crc32 (C.encodeAll (line ++ [newline]))).toNat
      ++ (be32 (C.encodeAll (line ++ [newline])).length
        ++ (C.encodeAll (line ++ [newline]) ++ rest))).length < frameHeaderLen := by
    simp only [length_append, be32_length, frameHeaderLen]
    omega
  have hword : (be32 (C.crc32 (C.encodeAll (line ++ [newline]))).toNat
      ++ (be32 (C.encodeAll (line ++ [newline])).length
        ++ (C.encodeAll (line ++ [newline]) ++ rest))).drop 4
      = be32 (C.encodeAll (line ++ [newline])).length
        ++ (C.encodeAll (line ++ [newline]) ++ rest) := rfl
  have hbody : (be32 (C.crc32 (C.encodeAll (line ++ [newline]))).toNat
      ++ (be32 (C.encodeAll (line ++ [newline])).length
        ++ (C.encodeAll (line ++ [newline]) ++ rest))).drop frameHeaderLen
      = C.encodeAll (line ++ [newline]) ++ rest := rfl
  rw [if_neg hlen, hword, hbody, beWord_be32 hfits, beWord_be32 hcrc, if_neg (by simp),
    take_left, drop_left, frameRecord_encoded hC h, ok_bind]
  cases parseZstdRecords C rest <;> rfl

/-- The step rule of both encodings: a whole record in front of any rest
is read, and the rest after it. -/
theorem parseRecords_encoded (hC : C.KeepsFrames) (format : JsonlStorageFormat)
    (h : GoodLine C line) (rest : Bytes) :
    parseRecords C format (encoded C format (line ++ [newline]) ++ rest)
      = (parseRecords C format rest).map (line :: ·) := by
  cases format with
  | raw => exact parseRawRecords_line h rest
  | zstd => exact parseZstdRecords_frame hC h rest

/-- Records are read one after another. -/
theorem parseRecords_of_step (C : Codec) (format : JsonlStorageFormat) :
    ∀ {lines : List Bytes},
      (∀ line ∈ lines, ∀ rest, parseRecords C format (encoded C format (line ++ [newline]) ++ rest)
        = (parseRecords C format rest).map (line :: ·)) → ∀ rest : Bytes,
      parseRecords C format
          ((lines.flatMap fun line => encoded C format (line ++ [newline])) ++ rest)
        = (parseRecords C format rest).map (lines ++ ·)
  | [], _, rest => by
    rw [flatMap_nil, nil_append]
    cases parseRecords C format rest <;> rfl
  | line :: lines, h, rest => by
    have hrest := parseRecords_of_step C format
      (fun x hx => h x (mem_cons_of_mem line hx)) rest
    rw [flatMap_cons, append_assoc, h line mem_cons_self, hrest]
    cases parseRecords C format rest <;> rfl

theorem parseRecords_log (hC : C.KeepsFrames) (format : JsonlStorageFormat) {lines : List Bytes}
    (h : ∀ line ∈ lines, GoodLine C line) (rest : Bytes) :
      parseRecords C format
          ((lines.flatMap fun line => encoded C format (line ++ [newline])) ++ rest)
        = (parseRecords C format rest).map (lines ++ ·) :=
  parseRecords_of_step C format (fun line hline => parseRecords_encoded hC format (h line hline)) rest

/-! ## One session -/

/-- An event a backend can store and read back as it is. -/
structure Storable (C : Codec) (e : SessionEvent) : Prop where
  keeps : C.KeepsEvent e
  fits : C.FrameFits (eventRecord C e)
  current : e.eventType ≠ legacySelectionEvent

/-- A header a backend can store and read back. -/
structure StorableHeader (C : Codec) (header : SessionHeader) : Prop where
  keeps : C.KeepsHeader header
  fits : C.FrameFits (headerRecord C header)

theorem Storable.goodLine (h : Storable C e) : GoodLine C (C.eventToString e) :=
  ⟨h.keeps.value, h.keeps.nonempty, h.keeps.one_line, h.fits⟩

theorem StorableHeader.goodLine (h : StorableHeader C header) :
    GoodLine C (headerLine C header) := by
  obtain ⟨fields, hvalue, _⟩ := h.keeps.value
  refine ⟨by rw [hvalue]; rfl, ?_, h.keeps.one_line, h.fits⟩
  intro hnil
  have hopening := (append_eq_nil_iff.mp hnil).1
  exact absurd hopening (by decide)

/-- A session as every backend keeps it: valid, numbered from `0`, with
nothing the codecs cannot hold. -/
structure WellStored (C : Codec) (S : Serde) (session : MemorySession) : Prop where
  header_valid : validateHeader session.header = .ok ()
  header_storable : StorableHeader C session.header
  numbered : Numbered session.events
  events_valid : ∀ e ∈ session.events, e.validate S = .ok ()
  events_storable : ∀ e ∈ session.events, Storable C e

theorem WellStored.snoc (h : WellStored C S session) (hvalid : e.validate S = .ok ())
    (hstorable : Storable C e) (hseq : checkSeq session.events e = .ok ()) :
    WellStored C S { session with events := session.events ++ [e] } := by
  have hlast : e.seq = session.events.length :=
    h.numbered.seq_of_nextSeq (checkSeq_eq_ok.mp hseq)
  refine ⟨h.header_valid, h.header_storable, numbered_snoc.mpr ⟨h.numbered, hlast⟩, ?_, ?_⟩
  · intro x hx
    rcases mem_append.mp hx with hold | hnew
    · exact h.events_valid x hold
    · rw [mem_singleton.mp hnew]
      exact hvalid
  · intro x hx
    rcases mem_append.mp hx with hold | hnew
    · exact h.events_storable x hold
    · rw [mem_singleton.mp hnew]
      exact hstorable

theorem nextSeq_of_valid (hnum : Numbered events) (hvalid : ∀ e ∈ events, e.validate S = .ok ()) :
    nextSeq events = .ok events.length := by
  rw [hnum.nextSeq]
  cases events using reverseRecOn with
  | nil => rfl
  | append_singleton init last =>
    have hlast := (numbered_snoc.mp hnum).2
    have hsafe := (SessionEvent.validate_eq_ok.mp (hvalid last (by simp))).1
    rw [if_pos]
    unfold maxSafeInteger at hsafe
    unfold u64Bound
    rw [length_append, length_singleton]
    omega

theorem parseEvent_storable (hnum : Numbered events) (hvalid : ∀ x ∈ events, x.validate S = .ok ())
    (he : e.validate S = .ok ()) (hseq : e.seq = events.length) (hs : Storable C e) :
    parseEvent C S events (C.eventToString e) = .ok (events ++ [e]) := by
  rw [parseEvent, hs.keeps.event, mapError_ok, ok_bind, migrateLegacySelection_of_ne C hs.current,
    mapError_ok, ok_bind, he, mapError_ok, ok_bind, nextSeq_of_valid hnum hvalid, mapError_ok,
    ok_bind, failIf, if_neg (by simp [hseq]), ok_bind]

theorem foldlM_parseEvent : ∀ {events : List SessionEvent}, Numbered events →
    (∀ e ∈ events, e.validate S = .ok ()) → (∀ e ∈ events, Storable C e) →
      (events.map C.eventToString).foldlM (parseEvent C S) [] = .ok events := by
  intro events
  induction events using reverseRecOn with
  | nil => intro _ _ _; rfl
  | append_singleton init last ih =>
    intro hnum hvalid hstorable
    obtain ⟨hinit, hseq⟩ := numbered_snoc.mp hnum
    have hvalid' : ∀ e ∈ init, e.validate S = .ok () := fun e he =>
      hvalid e (mem_append_left _ he)
    rw [map_append, map_singleton, foldlM_append_one,
      ih hinit hvalid' fun e he => hstorable e (mem_append_left _ he), ok_bind]
    exact parseEvent_storable hinit hvalid' (hvalid last (by simp)) hseq
      (hstorable last (by simp))

theorem parseHeader_of_value
    (h : ∃ fields, C.valueFromSlice (headerLine C header) = some (.object fields)
      ∧ fields.lookup "type" = some (.string "session")
      ∧ C.headerWireFromValue (.object (fields.filter fun f => f.1 ≠ "type"))
          = .ok { header, agentPreset := none }) :
    parseHeader C (headerLine C header) = .ok header := by
  obtain ⟨_, hvalue, htype, hwire⟩ := h
  have hfrom : headerFromWire C { header, agentPreset := none } = .ok header := by
    unfold headerFromWire
    cases header.agentMode <;> rfl
  unfold parseHeader
  rw [hvalue]
  simp only [htype, if_true, headerFromJsonValue, hwire, hfrom]

theorem parseHeader_storable (h : StorableHeader C header) :
    parseHeader C (headerLine C header) = .ok header :=
  parseHeader_of_value h.keeps.value

/-- The records of a session's log, without their newlines. -/
def logLines (C : Codec) (session : MemorySession) : List Bytes :=
  headerLine C session.header :: session.events.map C.eventToString

def encodedLog (C : Codec) (format : JsonlStorageFormat) (session : MemorySession) : Bytes :=
  (logLines C session).flatMap fun line => encoded C format (line ++ [newline])

theorem WellStored.goodLines (h : WellStored C S session) :
    ∀ line ∈ logLines C session, GoodLine C line := by
  intro line hline
  rcases mem_cons.mp hline with rfl | hline
  · exact h.header_storable.goodLine
  · obtain ⟨e, he, rfl⟩ := mem_map.mp hline
    exact (h.events_storable e he).goodLine

theorem sessionOfRecords_logLines (h : WellStored C S session) :
    sessionOfRecords C S session.header.id (logLines C session) = .ok session := by
  obtain ⟨hheader, hid⟩ := check_bind_eq_ok.mp h.header_valid
  rw [liftProtocol_eq_ok] at hheader
  rw [failIf_eq_ok] at hid
  rw [logLines, sessionOfRecords, parseHeader_storable h.header_storable, ok_bind, failIf,
    if_neg hid, ok_bind, hheader, mapError_ok, ok_bind, failIf, if_neg (by simp), ok_bind,
    foldlM_parseEvent h.numbered h.events_valid h.events_storable, ok_bind]

theorem parseSession_encodedLog (hC : C.KeepsFrames) (format : JsonlStorageFormat)
    (h : WellStored C S session) :
    parseSession C S (encodedLog C format session) format session.header.id = .ok session := by
  have hempty : parseRecords C format [] = .ok [] := by
    cases format with
    | raw => simp [parseRecords, parseRawRecords]
    | zstd =>
      rw [parseRecords, parseZstdRecords]
      rfl
  have hrecords := parseRecords_log hC format h.goodLines []
  rw [append_nil, hempty] at hrecords
  rw [parseSession, encodedLog, hrecords]
  simp only [Except.map, append_nil, mapError_ok, ok_bind]
  exact sessionOfRecords_logLines h

theorem encodedLog_snoc (C : Codec) (format : JsonlStorageFormat) (session : MemorySession)
    (e : SessionEvent) :
    encodedLog C format { session with events := session.events ++ [e] }
      = encodedLog C format session ++ encoded C format (eventRecord C e) := by
  simp [encodedLog, logLines, eventRecord]

/-! ## Names -/

/-- The last letter of a log's name tells the encodings apart. -/
def suffixEnd : JsonlStorageFormat → Char
  | .raw => 'l'
  | .zstd => 't'

theorem getLast?_suffix (format : JsonlStorageFormat) (xs : List Char) :
    (xs ++ (fileSuffix format).toList).getLast? = some (suffixEnd format) := by
  have hsuffix : (fileSuffix format).toList.getLast? = some (suffixEnd format) := by
    cases format <;> decide
  rw [getLast?_append, hsuffix]
  rfl

/-- A name belongs to one session and one format. -/
theorem logName_injective {f g : JsonlStorageFormat} {id id' : SessionId}
    (h : logName f id = logName g id') : f = g ∧ id = id' := by
  unfold logName at h
  have hchars := String.ofList_injective h
  have hformat : f = g := by
    have hlast := congrArg List.getLast? hchars
    rw [getLast?_suffix, getLast?_suffix] at hlast
    cases f <;> cases g <;> first | rfl | exact absurd hlast (by decide)
  subst hformat
  have hhex := append_cancel_left (append_cancel_right hchars)
  refine ⟨rfl, ?_⟩
  cases id with
  | mk s =>
    cases id' with
    | mk t => exact congrArg SessionId.mk (hexUtf8_injective hhex)

end Tessivum.Persistence
