/-
Tessivum.Persistence.CrashTheorems — what a crash leaves of a log reads back as
a prefix of its events.

A crash keeps some first bytes of a log. Wherever they end, they are a number
of whole records and a proper part of the next one (`Library.Cuts`). That part
reads as nothing, in either encoding, unless it is a whole line without its
newline, which reads as the record it is (`parseRecords_torn`). So the reader
gets a prefix of the records, and with it the header and a prefix of the events
(`crash_prefix_reads_prefix`).
-/
import Tessivum.Library.Cuts
import Tessivum.Persistence.TornTheorems

namespace Tessivum.Persistence

open Library Protocol Session Jsonl List

variable {C : Codec} {S : Serde} {format : JsonlStorageFormat}

/-! ## What is relied on for texts -/

/-- A line that is JSON only as a whole, and in the compressed encoding one
whose length a frame can state. -/
structure RecordText (C : Codec) (format : JsonlStorageFormat) (line : Bytes) : Prop
    extends LineText C line where
  whole : ∀ part, part <+: line → part ≠ line → C.valueFromSlice part = none
  fits : format = .zstd → C.FrameFits (line ++ [newline])

def asRead (C : Codec) (e : SessionEvent) : SessionEvent :=
  match migrateLegacySelection C e with
  | .ok e' => e'
  | .error _ => e

/-- An event whose text reads back, as an event that is valid. -/
structure ReadsBack (C : Codec) (S : Serde) (e : SessionEvent) : Prop where
  event : C.eventFromSlice (C.eventToString e) = .ok e
  migrates : migrateLegacySelection C e = .ok (asRead C e)
  valid : (asRead C e).validate S = .ok ()

/-- A session that a log was written from: its header is valid and reads back,
its events are contiguous and read back. -/
structure Logged (C : Codec) (S : Serde) (format : JsonlStorageFormat) (session : MemorySession) :
    Prop where
  header_valid : validateHeader session.header = .ok ()
  header_text : RecordText C format (headerLine C session.header)
  header_back : ∃ fields, C.valueFromSlice (headerLine C session.header) = some (.object fields)
    ∧ fields.lookup "type" = some (.string "session")
    ∧ C.headerWireFromValue (.object (fields.filter fun f => f.1 ≠ "type"))
        = .ok { header := session.header, agentPreset := none }
  contiguous : Numbered session.events
  event_text : ∀ e ∈ session.events, RecordText C format (C.eventToString e)
  event_back : ∀ e ∈ session.events, ReadsBack C S e

variable {session : MemorySession} {line : Bytes}

theorem Logged.lines (h : Logged C S format session) :
    ∀ line ∈ logLines C session, RecordText C format line := by
  intro line hline
  rcases mem_cons.mp hline with rfl | hline
  · exact h.header_text
  · obtain ⟨e, he, rfl⟩ := mem_map.mp hline
    exact h.event_text e he

theorem seq_asRead (C : Codec) (e : SessionEvent) : (asRead C e).seq = e.seq := by
  unfold asRead
  cases hread : migrateLegacySelection C e with
  | error err => rfl
  | ok e' =>
    unfold migrateLegacySelection at hread
    split at hread
    · cases hread
      rfl
    · split at hread
      · cases hread
      · obtain ⟨_, _, hread⟩ := bind_eq_ok.mp hread
        cases hread
        rfl

/-! ## Records -/

theorem RecordText.goodLine (h : RecordText C .zstd line) : GoodLine C line :=
  ⟨h.value, h.nonempty, h.one_line, h.fits rfl⟩

theorem parseRecords_step (hC : C.KeepsFrames) (h : RecordText C format line) (rest : Bytes) :
    parseRecords C format (encoded C format (line ++ [newline]) ++ rest)
      = (parseRecords C format rest).map (line :: ·) := by
  cases format with
  | raw => exact parseRawRecords_text h.toLineText rest
  | zstd => exact parseZstdRecords_frame hC h.goodLine rest

theorem parseRecords_nil (C : Codec) (format : JsonlStorageFormat) :
    parseRecords C format [] = .ok [] := by
  cases format with
  | raw => simp [parseRecords, parseRawRecords]
  | zstd => exact parseZstdRecords_incomplete C (.inl (by decide))

/-- A torn record reads as nothing, or whole. -/
theorem parseRecords_torn {part : Bytes} (h : RecordText C format line)
    (hpart : ProperPart (fun line => encoded C format (line ++ [newline])) line part) :
    parseRecords C format part = .ok [] ∨ parseRecords C format part = .ok [line] := by
  obtain ⟨⟨missing, hmissing⟩, hne⟩ := hpart
  have hleft : missing ≠ [] := by
    rintro rfl
    rw [append_nil] at hmissing
    exact hne hmissing
  cases format with
  | zstd =>
    left
    exact parseZstdRecords_incomplete C (incompleteFrame_of_torn (h.fits rfl) hleft hmissing)
  | raw =>
    -- without its newline the record is the line, and `part` is part of it
    have hfront : part <+: line := by
      have hcut : part <+: line ++ [newline] := ⟨missing, hmissing⟩
      rcases prefix_concat_iff.mp hcut with rfl | hline
      · exact absurd rfl hne
      · exact hline
    have hone : newline ∉ part := fun hmem => h.one_line (hfront.subset hmem)
    have hread : parseRecords C .raw part = parseRawRecords C part [] := by
      have happend := parseRawRecords_append C hone [] []
      rwa [append_nil, nil_append] at happend
    rw [hread, parseRawRecords]
    by_cases hline : part = line
    · right
      rw [hline, if_pos ⟨h.value, h.nonempty⟩]
    · left
      rw [h.whole part hfront hline]
      rfl

/-- What a cut leaves of a log of records reads as a prefix of them, with every
record that is whole. -/
theorem parseRecords_cut (hC : C.KeepsFrames) {lines : List Bytes}
    (h : ∀ line ∈ lines, RecordText C format line) {bytes : Bytes}
    (hbytes : bytes <+: lines.flatMap fun line => encoded C format (line ++ [newline])) :
    ∃ k ≤ lines.length, parseRecords C format bytes = .ok (lines.take k)
      ∧ ∀ m ≤ lines.length,
        ((lines.take m).flatMap fun line => encoded C format (line ++ [newline])) <+: bytes →
          m ≤ k := by
  obtain ⟨k, part, rfl, hcut⟩ := cut_records _ lines hbytes
  have hlog := parseRecords_of_step C format (fun line (hline : line ∈ lines.take k) =>
    parseRecords_step hC (h line (mem_of_mem_take hline))) part
  have hwhole : ∀ m ≤ lines.length, _ → m ≤ k := fun m hm hfile => le_of_whole hcut hm hfile
  rw [hlog]
  rcases hcut with ⟨rfl, rfl⟩ | ⟨line, hline, hpart⟩
  · refine ⟨lines.length, le_refl _, ?_, hwhole⟩
    rw [parseRecords_nil]
    exact congrArg Except.ok (append_nil _)
  · obtain ⟨hlt, hget⟩ := List.getElem?_eq_some_iff.mp hline
    rcases parseRecords_torn (h line (hget ▸ getElem_mem hlt)) hpart with hnone | hone
    · refine ⟨k, le_of_lt hlt, ?_, hwhole⟩
      rw [hnone]
      exact congrArg Except.ok (append_nil _)
    · refine ⟨k + 1, hlt, ?_, fun m hm hfile => le_succ_of_le (hwhole m hm hfile)⟩
      rw [hone, take_add_one, hline]
      rfl

/-! ## The session of the records -/

theorem parseEvent_readsBack {events : List SessionEvent} {e : SessionEvent}
    (hnum : Numbered (events.map (asRead C)))
    (hvalid : ∀ x ∈ events.map (asRead C), x.validate S = .ok ()) (h : ReadsBack C S e)
    (hseq : e.seq = events.length) :
    parseEvent C S (events.map (asRead C)) (C.eventToString e)
      = .ok ((events ++ [e]).map (asRead C)) := by
  refine parseEvent_eq_ok.mpr ⟨e, asRead C e, h.event, h.migrates, h.valid, ?_, by simp⟩
  rw [nextSeq_of_valid hnum hvalid, seq_asRead, hseq, length_map]

theorem foldlM_parseEvent_readsBack : ∀ {events : List SessionEvent}, Numbered events →
    (∀ e ∈ events, ReadsBack C S e) →
      (events.map C.eventToString).foldlM (parseEvent C S) [] = .ok (events.map (asRead C))
        ∧ Numbered (events.map (asRead C)) := by
  intro events
  induction events using reverseRecOn with
  | nil => intro _ _; exact ⟨rfl, nofun⟩
  | append_singleton init last ih =>
    intro hnum hback
    obtain ⟨hinit, hseq⟩ := numbered_snoc.mp hnum
    have hback' : ∀ e ∈ init, ReadsBack C S e := fun e he => hback e (mem_append_left _ he)
    obtain ⟨hfold, hnumbered⟩ := ih hinit hback'
    have hvalid : ∀ x ∈ init.map (asRead C), x.validate S = .ok () := by
      intro x hx
      obtain ⟨e, he, rfl⟩ := mem_map.mp hx
      exact (hback' e he).valid
    have hlast := parseEvent_readsBack hnumbered hvalid (hback last (by simp)) hseq
    constructor
    · rw [map_append, map_singleton, foldlM_append_one, hfold, ok_bind]
      exact hlast
    · rw [map_append, map_singleton]
      refine numbered_snoc.mpr ⟨hnumbered, ?_⟩
      rw [seq_asRead, hseq, length_map]

theorem sessionOfRecords_take (h : Logged C S format session) (n : Nat) :
    sessionOfRecords C S session.header.id ((logLines C session).take (n + 1))
      = .ok { session with events := (session.events.take n).map (asRead C) } := by
  obtain ⟨hheader, hid⟩ := check_bind_eq_ok.mp h.header_valid
  rw [liftProtocol_eq_ok] at hheader
  rw [failIf_eq_ok] at hid
  have hfold := (foldlM_parseEvent_readsBack (h.contiguous.take n) fun e he =>
    h.event_back e (mem_of_mem_take he)).1
  rw [logLines, take_succ_cons, ← map_take, sessionOfRecords,
    parseHeader_of_value h.header_back, ok_bind, failIf, if_neg hid, ok_bind, hheader, mapError_ok,
    ok_bind, failIf, if_neg (by simp), ok_bind, hfold, ok_bind]

theorem parseSession_logged (hC : C.KeepsFrames) (h : Logged C S format session) :
    parseSession C S (encodedLog C format session) format session.header.id
      = .ok { session with events := session.events.map (asRead C) } := by
  have hlog := parseRecords_of_step C format (fun line hline => parseRecords_step hC
    (h.lines line hline)) []
  have hall : (logLines C session).take (session.events.length + 1) = logLines C session :=
    take_of_length_le (by simp [logLines])
  have hsession := sessionOfRecords_take h session.events.length
  rw [hall, take_length] at hsession
  rw [append_nil, parseRecords_nil] at hlog
  rw [parseSession, encodedLog, hlog]
  simp only [Except.map, append_nil, mapError_ok, ok_bind]
  exact hsession

/-- Whatever a crash leaves of a log, as long as its header record is there,
reads back: as the header and a prefix of the events, with every event whose
record is whole. -/
theorem crash_prefix_reads_prefix (C : Codec) (S : Serde) (hC : C.KeepsFrames)
    (format : JsonlStorageFormat) (session : MemorySession) (h : Logged C S format session)
    (bytes : Bytes) (hbytes : bytes <+: encodedLog C format session)
    (hheader : encoded C format (headerRecord C session.header) <+: bytes) :
    ∃ n ≤ session.events.length,
      parseSession C S bytes format session.header.id
          = .ok { session with events := (session.events.take n).map (asRead C) }
        ∧ ∀ m ≤ session.events.length,
          encodedLog C format { session with events := session.events.take m } <+: bytes → m ≤ n := by
  obtain ⟨k, hk, hrecords, hwhole⟩ := parseRecords_cut hC h.lines hbytes
  have hlength : (logLines C session).length = session.events.length + 1 := by simp [logLines]
  have hone : 1 ≤ k := by
    refine hwhole 1 (by omega) ?_
    simpa [logLines, headerRecord] using hheader
  obtain ⟨n, rfl⟩ := Nat.exists_eq_add_of_le' hone
  refine ⟨n, by omega, ?_, fun m hm hfile => ?_⟩
  · rw [parseSession, hrecords, mapError_ok, ok_bind]
    exact sessionOfRecords_take h n
  · have hlines : (logLines C session).take (m + 1)
        = logLines C { session with events := session.events.take m } := by
      simp [logLines]
    have hle := hwhole (m + 1) (by omega) (by rw [hlines]; exact hfile)
    omega

/-! ## A log with a legacy event -/

namespace Sample

def legacyEvent : SessionEvent :=
  { SessionEvent.plain legacySelectionEvent 0 0 (.object [("agentPreset", .string "code")])
    with ignorable := some true }

def legacyText : Bytes :=
  utf8 ("\x7b\"type\":\"agent-preset/selected\",\"seq\":0,\"time\":0,"
    ++ "\"data\":\x7b\"agentPreset\":\"code\"\x7d,\"ignorable\":true\x7d")

def legacyFields : List (String × Value) :=
  [("data", .object [("agentPreset", .string "code")]), ("ignorable", .bool true),
   ("seq", .ofNat 0), ("time", .ofNat 0), ("type", .string legacySelectionEvent)]

def legacyCodec : Codec :=
  { codec with
    eventToString := fun e => if e = legacyEvent then legacyText else []
    valueFromSlice := fun bytes =>
      if bytes = headerRecordText then some (.object headerRecordFields)
      else if bytes = legacyText then some (.object legacyFields)
      else none
    eventFromSlice := fun bytes =>
      if bytes = legacyText then .ok legacyEvent else .error unknownText }

def legacySession : MemorySession := { header, events := [legacyEvent] }

theorem legacyCodec_keepsFrames : legacyCodec.KeepsFrames := fun _ => rfl

theorem legacySession_logged : Logged legacyCodec wireSerde .raw legacySession where
  header_valid := rfl
  header_text :=
    { value := by decide
      nonempty := by decide
      one_line := by decide
      whole := by
        intro part hpart hne
        have hline : headerLine legacyCodec header = headerRecordText := by decide
        have hother : part ≠ legacyText := fun heq =>
          absurd (heq ▸ hpart : legacyText <+: headerLine legacyCodec header) (by decide)
        exact (if_neg (hline ▸ hne)).trans (if_neg hother)
      fits := nofun }
  header_back := ⟨headerRecordFields, by decide, by decide, by decide⟩
  contiguous := by
    intro i e he
    cases i with
    | zero =>
      cases he
      rfl
    | succ i => cases he
  event_text := by
    intro e he
    rw [mem_singleton.mp he]
    refine ⟨⟨by decide, by decide, by decide⟩, ?_, nofun⟩
    intro part hpart hne
    have hline : legacyCodec.eventToString legacyEvent = legacyText := by decide
    have hother : part ≠ headerRecordText := fun heq =>
      absurd (heq ▸ hpart : headerRecordText <+: legacyCodec.eventToString legacyEvent) (by decide)
    exact (if_neg hother).trans (if_neg (hline ▸ hne))
  event_back := by
    intro e he
    rw [mem_singleton.mp he]
    exact ⟨by decide, by decide, by decide⟩

theorem encodedLog_legacySession : encodedLog legacyCodec .raw legacySession
    = headerRecord legacyCodec header ++ (legacyText ++ [newline]) := by
  have htext : legacyCodec.eventToString legacyEvent = legacyText := by
    simp [legacyCodec]
  simp [encodedLog, logLines, encoded, headerRecord, legacySession, htext]

end Sample

open Sample in
/-- The whole log of a session with a legacy event, which is valid as it was
written, reads as no prefix of its events. -/
theorem legacySelection_not_prefix :
    legacyCodec.KeepsFrames ∧ Logged legacyCodec wireSerde .raw legacySession
      ∧ legacyEvent.validate wireSerde = .ok ()
      ∧ ∀ n, parseSession legacyCodec wireSerde (encodedLog legacyCodec .raw legacySession) .raw
            header.id
          ≠ .ok { legacySession with events := legacySession.events.take n } := by
  refine ⟨legacyCodec_keepsFrames, legacySession_logged, rfl, fun n hread => ?_⟩
  have hmigrated : parseSession legacyCodec wireSerde (encodedLog legacyCodec .raw legacySession)
      .raw header.id = .ok { legacySession with events := [asRead legacyCodec legacyEvent] } :=
    parseSession_logged legacyCodec_keepsFrames legacySession_logged
  have hevents : [asRead legacyCodec legacyEvent] = [legacyEvent].take n :=
    congrArg MemorySession.events (ok.inj (hmigrated.symm.trans hread))
  have hmem : asRead legacyCodec legacyEvent ∈ [legacyEvent] := by
    refine mem_of_mem_take (i := n) ?_
    rw [← hevents]
    exact mem_singleton_self _
  exact absurd (mem_singleton.mp hmem) (by decide)

open Sample in
/-- The log stops before the newline of its only event: the event is read. -/
theorem crash_prefix_reads_prefix_unterminated :
    ∃ n ≤ 1, parseSession legacyCodec wireSerde (headerRecord legacyCodec header ++ legacyText) .raw
        header.id = .ok { legacySession with
          events := (legacySession.events.take n).map (asRead legacyCodec) }
      ∧ ∀ m ≤ 1, encodedLog legacyCodec .raw
          { legacySession with events := legacySession.events.take m }
          <+: headerRecord legacyCodec header ++ legacyText → m ≤ n :=
  crash_prefix_reads_prefix legacyCodec wireSerde legacyCodec_keepsFrames .raw legacySession
    legacySession_logged (headerRecord legacyCodec header ++ legacyText)
    ⟨[newline], by rw [encodedLog_legacySession, append_assoc]⟩ (prefix_append _ _)

end Tessivum.Persistence
