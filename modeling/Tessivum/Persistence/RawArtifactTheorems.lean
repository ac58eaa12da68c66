/-
Tessivum.Persistence.RawArtifactTheorems — the artifact of a log is the log's
committed records.

A log that reads back is whole records and at most a torn tail: lines and a
rest without a newline, or frames and an incomplete one (`Exports`). The
artifact's bytes are the records' lines, with nothing of the tail, and these
read back as the same records. Only a last raw line without its newline stays
as it is.
-/
import Tessivum.Persistence.RawArtifact

namespace Tessivum.Persistence

open Library Protocol Session Jsonl List

variable {C : Codec} {S : Serde}

def recordText (records : List Bytes) : Bytes := records.flatMap fun line => line ++ [newline]

theorem recordText_cons (line : Bytes) (records : List Bytes) :
    recordText (line :: records) = line ++ newline :: recordText records := by
  simp [recordText]

/-! ## What reads back -/

/-- Whole frames, one for each record. -/
inductive FramesOf (C : Codec) : Bytes → List Bytes → Prop
  | nil : FramesOf C [] []
  | cons {frame record rest : Bytes} {records : List Bytes}
      (hframe : frame.length = frameHeaderLen + beWord (frame.drop 4))
      (hrecord : frameRecord C (frame.drop frameHeaderLen) (beWord frame) = .ok record)
      (hrest : FramesOf C rest records) : FramesOf C (frame ++ rest) (record :: records)

/-- A stored log of the records, and the bytes of its artifact. -/
inductive Exports (C : Codec) (records : List Bytes) : JsonlStorageFormat → Bytes → Bytes → Prop
  /-- Lines, and behind them nothing that is JSON. -/
  | lines (torn : Bytes) (hone : newline ∉ torn) (htorn : torn ≠ [] → C.valueFromSlice torn = none) :
      Exports C records .raw (recordText records ++ torn) (recordText records)
  /-- Lines, the last one without its newline. -/
  | unterminated (stored : Bytes) (hstored : stored ++ [newline] = recordText records) :
      Exports C records .raw stored stored
  /-- Frames, and behind them an incomplete one. -/
  | frames (whole torn : Bytes) (hwhole : FramesOf C whole records) (htorn : IncompleteFrame torn) :
      Exports C records .zstd (whole ++ torn) (recordText records)

/-! ## Raw logs -/

/-- A raw log of the records: their lines, and a tail without a newline that is
no JSON, or is the last record. -/
def RawLog (C : Codec) (records : List Bytes) (bytes : Bytes) : Prop :=
  ∃ init tail, bytes = recordText init ++ tail ∧ newline ∉ tail
    ∧ ((records = init ∧ (tail ≠ [] → C.valueFromSlice tail = none))
      ∨ (records = init ++ [tail] ∧ tail ≠ [] ∧ (C.valueFromSlice tail).isSome = true))

/-- The lines of a raw log that is read, and its rest. -/
theorem rawLog_of_parse : ∀ {bytes record : Bytes} {records : List Bytes}, newline ∉ record →
    parseRawRecords C record bytes = .ok records →
      RawLog C records (record ++ bytes) ∧ ∀ line ∈ records, LineText C line
  | [], record, records, hone, h => by
    rw [parseRawRecords] at h
    rw [append_nil]
    split at h
    · rename_i hjson
      cases h
      refine ⟨⟨[], record, rfl, hone, .inr ⟨rfl, hjson.2, hjson.1⟩⟩, fun line hline => ?_⟩
      rw [mem_singleton.mp hline]
      exact ⟨hjson.1, hjson.2, hone⟩
    · rename_i hjson
      cases h
      refine ⟨⟨[], record, rfl, hone, .inl ⟨rfl, fun hne => ?_⟩⟩, fun _ hline => (by cases hline)⟩
      by_contra hvalue
      exact hjson ⟨Option.isSome_iff_ne_none.mpr hvalue, hne⟩
  | b :: rest, record, records, hone, h => by
    rw [parseRawRecords] at h
    by_cases hb : b ≠ newline
    · rw [if_pos hb] at h
      have hnext : newline ∉ record ++ [b] := by
        simp [hone, hb.symm]
      have hread := rawLog_of_parse hnext h
      rwa [append_assoc] at hread
    · rw [if_neg hb] at h
      obtain rfl : b = newline := not_not.mp hb
      obtain ⟨hne, h⟩ := check_bind_eq_ok.mp h
      obtain ⟨hvalue, h⟩ := check_bind_eq_ok.mp h
      obtain ⟨_, hmore, h⟩ := bind_eq_ok.mp h
      cases h
      rw [failIf_eq_ok] at hne hvalue
      obtain ⟨⟨init, tail, hrest, htail, hrecords⟩, hlines⟩ :=
        rawLog_of_parse not_mem_nil hmore
      have hline : LineText C record :=
        ⟨by simpa [Option.isSome_iff_ne_none] using hvalue, hne, hone⟩
      constructor
      · refine ⟨record :: init, tail, ?_, htail, ?_⟩
        · rw [nil_append] at hrest
          rw [recordText_cons, hrest]
          simp
        · rcases hrecords with ⟨rfl, hnone⟩ | ⟨rfl, hsome⟩
          · exact .inl ⟨rfl, hnone⟩
          · exact .inr ⟨rfl, hsome⟩
      · intro line hmem
        rcases mem_cons.mp hmem with rfl | hmem
        · exact hline
        · exact hlines line hmem

variable {tail bytes line stored : Bytes} {records : List Bytes} {format : JsonlStorageFormat}

theorem rposition_none (h : newline ∉ tail) : rposition (fun b => b == newline) tail = none := by
  rw [rposition, map_eq_none_iff, findIdx?_eq_none_iff]
  intro b hb
  have hne : b ≠ newline := fun heq => h (heq ▸ mem_reverse.mp hb)
  simpa using hne

theorem rposition_last (front : Bytes) (h : newline ∉ tail) :
    rposition (fun b => b == newline) (front ++ newline :: tail) = some front.length := by
  have htail : tail.reverse.findIdx? (fun b => b == newline) = none :=
    map_eq_none_iff.mp (rposition_none h)
  have hfind : (front ++ newline :: tail).reverse.findIdx? (fun b => b == newline)
      = some tail.length := by
    rw [reverse_append, reverse_cons, append_assoc, findIdx?_append, htail]
    simp [findIdx?_cons]
  rw [rposition, hfind, map_some]
  simp

theorem lastLineStart_recordText (init : List Bytes) (h : newline ∉ tail) :
    lastLineStart (recordText init ++ tail) = (recordText init).length := by
  rcases eq_nil_or_concat init with rfl | ⟨before, last, rfl⟩
  · rw [recordText, flatMap_nil, nil_append, lastLineStart, rposition_none h]
    rfl
  · have hlast : recordText (before.concat last) ++ tail
        = (recordText before ++ last) ++ newline :: tail := by
      simp [recordText]
    rw [hlast, lastLineStart, rposition_last _ h]
    simp [recordText, Nat.add_assoc]

theorem committedRawBytes_split (C : Codec) (init : List Bytes) (h : newline ∉ tail) :
    committedRawBytes C (recordText init ++ tail)
      = if tail ≠ [] ∧ C.valueFromSlice tail = none then recordText init
        else recordText init ++ tail := by
  unfold committedRawBytes
  simp only [lastLineStart_recordText init h, length_append, Nat.lt_add_right_iff_pos,
    drop_left, take_left, length_pos_iff, isNone_iff_eq_none]

theorem RawLog.exports (h : RawLog C records bytes) :
    Exports C records .raw bytes (committedRawBytes C bytes) := by
  obtain ⟨init, tail, rfl, htail, hrecords⟩ := h
  rw [committedRawBytes_split C init htail]
  rcases hrecords with ⟨rfl, hnone⟩ | ⟨rfl, _, hsome⟩
  · by_cases hnil : tail = []
    · subst hnil
      rw [if_neg (by simp)]
      have hexport : Exports C records .raw (recordText records ++ []) (recordText records) :=
        .lines [] htail hnone
      rwa [append_nil] at hexport ⊢
    · rw [if_pos ⟨hnil, hnone hnil⟩]
      exact .lines tail htail hnone
  · rw [if_neg (by simp [Option.isSome_iff_ne_none.mp hsome])]
    exact .unterminated _ (by simp [recordText])

/-! ## Compressed logs -/

theorem rawFrame_of_frameRecord {compressed : Bytes} {checksum : Nat}
    (h : frameRecord C compressed checksum = .ok line) :
    rawFrame C compressed checksum = .ok (line ++ [newline]) ∧ LineText C line := by
  unfold frameRecord at h
  obtain ⟨hcrc, h⟩ := check_bind_eq_ok.mp h
  obtain ⟨_, hrecord, h⟩ := bind_eq_ok.mp h
  obtain ⟨hends, h⟩ := check_bind_eq_ok.mp h
  obtain ⟨hjson, h⟩ := check_bind_eq_ok.mp h
  cases h
  rw [rawFrame, hcrc, ok_bind, hrecord, ok_bind, hends, ok_bind]
  rw [failIf_eq_ok, not_or] at hends hjson
  obtain ⟨hlast, hone⟩ := hends
  obtain ⟨hne, hvalue⟩ := hjson
  constructor
  · have hsplit := dropLast_append_getLast? newline (not_not.mp hlast)
    rw [hsplit]
  · exact ⟨by simpa [Option.isSome_iff_ne_none] using hvalue, hne, hone⟩

theorem framesOf_cons {rest : Bytes} (hshort : ¬ bytes.length < frameHeaderLen)
    (hbody : ¬ (bytes.drop frameHeaderLen).length < beWord (bytes.drop 4))
    (hrecord : frameRecord C ((bytes.drop frameHeaderLen).take (beWord (bytes.drop 4)))
      (beWord bytes) = .ok line) (hrest : FramesOf C rest records) :
    FramesOf C (bytes.take (frameHeaderLen + beWord (bytes.drop 4)) ++ rest) (line :: records) := by
  generalize hlen : beWord (bytes.drop 4) = n at hbody hrecord ⊢
  have hword : beWord ((bytes.take (frameHeaderLen + n)).drop 4) = n := by
    rw [drop_take, beWord_take _ (by unfold frameHeaderLen; omega), hlen]
  have hcrc : beWord (bytes.take (frameHeaderLen + n)) = beWord bytes :=
    beWord_take bytes (by unfold frameHeaderLen; omega)
  rw [length_drop] at hbody
  refine .cons ?_ ?_ hrest
  · rw [hword, length_take]
    omega
  · rw [hcrc, drop_take, Nat.add_sub_cancel_left]
    exact hrecord

/-- The frames of a compressed log that is read, and its rest. -/
theorem frames_of_parse {bytes : Bytes} {records : List Bytes}
    (h : parseZstdRecords C bytes = .ok records) :
    (∃ whole torn, bytes = whole ++ torn ∧ FramesOf C whole records ∧ IncompleteFrame torn)
      ∧ decodeZstdRaw C bytes = .ok (recordText records) ∧ ∀ line ∈ records, LineText C line := by
  by_cases hcomplete : IncompleteFrame bytes
  · rw [parseZstdRecords_incomplete C hcomplete] at h
    cases h
    refine ⟨⟨[], bytes, rfl, .nil, hcomplete⟩, ?_, nofun⟩
    rw [decodeZstdRaw]
    by_cases hshort : bytes.length < frameHeaderLen
    · rw [if_pos hshort]
      rfl
    · rw [if_neg hshort, if_pos (hcomplete.resolve_left hshort)]
      rfl
  · rw [parseZstdRecords_complete C hcomplete] at h
    obtain ⟨_, hrecord, h⟩ := bind_eq_ok.mp h
    obtain ⟨_, hmore, h⟩ := bind_eq_ok.mp h
    cases h
    obtain ⟨hshort, hbody⟩ := not_or.mp hcomplete
    obtain ⟨⟨_, torn, hrest, hframes, htorn⟩, hdecode, hlines⟩ := frames_of_parse hmore
    obtain ⟨hraw, hline⟩ := rawFrame_of_frameRecord hrecord
    refine ⟨?_, ?_, ?_⟩
    · refine ⟨_, torn, ?_, framesOf_cons hshort hbody hrecord hframes, htorn⟩
      rw [append_assoc, ← hrest, drop_drop, take_append_drop]
    · rw [decodeZstdRaw, if_neg hshort, if_neg hbody]
      rw [hraw, ok_bind, hdecode, ok_bind, recordText_cons]
      simp
    · intro line hmem
      rcases mem_cons.mp hmem with rfl | hmem
      · exact hline
      · exact hlines line hmem
  termination_by bytes.length
  decreasing_by
    have hlong := (not_or.mp hcomplete).1
    simp only [length_drop, frameHeaderLen] at hlong ⊢
    omega

/-! ## The artifact -/

theorem exports_of_parse (h : parseRecords C format stored = .ok records) :
    ∃ bytes, artifactBytes C format stored = .ok bytes ∧ Exports C records format stored bytes
      ∧ ∀ line ∈ records, LineText C line := by
  cases format with
  | raw =>
    obtain ⟨hlog, hlines⟩ := rawLog_of_parse not_mem_nil h
    exact ⟨_, rfl, hlog.exports, hlines⟩
  | zstd =>
    obtain ⟨⟨whole, torn, rfl, hframes, htorn⟩, hdecode, hlines⟩ := frames_of_parse h
    exact ⟨_, hdecode, .frames whole torn hframes htorn, hlines⟩

theorem Exports.parse (h : Exports C records format stored bytes)
    (hlines : ∀ line ∈ records, LineText C line)
    (hread : parseRecords C format stored = .ok records) :
    parseRecords C .raw bytes = .ok records := by
  have htext : parseRecords C .raw (recordText records) = .ok records := by
    have hlog := parseRecords_of_step C .raw (fun line hline rest =>
      parseRawRecords_text (hlines line hline) rest) []
    have hnil : parseRecords C .raw [] = .ok [] := by simp [parseRecords, parseRawRecords]
    rw [append_nil, hnil] at hlog
    refine hlog.trans ?_
    exact congrArg Except.ok (append_nil records)
  cases h with
  | lines => exact htext
  | unterminated stored hstored => exact hread
  | frames => exact htext

/-- The artifact of a log that reads back is its committed records and nothing
of a torn tail. Read as a raw log it is the same session, and a raw and a
compressed log of the same records have the same artifact, but for the newline
that a last raw line may lack. -/
theorem raw_artifact_is_committed_log (F : Config) (files : Files) (id : SessionId)
    (format : JsonlStorageFormat) (stored : Bytes) (session : MemorySession)
    (hformat : existingFormat files id = some format)
    (hstored : files (logName format id) = some stored)
    (haccepted : parseSession F.codec F.serde stored format id = .ok session) :
    ∃ bytes records, parseRecords F.codec format stored = .ok records
      ∧ readRaw F files id .never = .ok (some { filename := "session.jsonl", bytes })
      ∧ parseSession F.codec F.serde bytes .raw id = .ok session
      ∧ Exports F.codec records format stored bytes
      ∧ ∀ other, parseRecords F.codec .zstd other = .ok records →
          ∃ text, artifactBytes F.codec .zstd other = .ok text
            ∧ (bytes = text ∨ format = .raw ∧ bytes ++ [newline] = text) := by
  obtain ⟨records, hrecords, hsession⟩ := bind_eq_ok.mp haccepted
  rw [mapError_eq_ok] at hrecords
  obtain ⟨bytes, hbytes, hexports, hlines⟩ := exports_of_parse hrecords
  refine ⟨bytes, records, hrecords, ?_, ?_, hexports, ?_⟩
  · simp only [readRaw, checkCancellation_never, ok_bind, hformat, hstored, getD_some,
      haccepted, mapError_ok, hbytes]
  · rw [parseSession, hexports.parse hlines hrecords, mapError_ok, ok_bind]
    exact hsession
  · intro other hother
    refine ⟨recordText records, (frames_of_parse hother).2.1, ?_⟩
    cases hexports with
    | lines => exact .inl rfl
    | unterminated stored hlast => exact .inr ⟨rfl, hlast⟩
    | frames => exact .inl rfl

/-! ## A torn log and its compressed form -/

/-- A log of one event, with the first byte of another record behind it. -/
def tornEvent : Files := tear sampleRaw (written sampleRaw (oneEventOps.take 2)) ⟨"s"⟩ [openBrace]

/-- The same records, each in a frame of its own. -/
def framedEvent : Bytes :=
  encodedLog Sample.codec .zstd { header := Sample.header, events := [Sample.event] }

def eventLines : List Bytes := [headerLine Sample.codec Sample.header, Sample.eventText]

/-- The torn byte is not part of the artifact, which is that of the frames. -/
theorem raw_artifact_is_committed_log_torn :
    ∃ bytes, readRaw sampleRaw tornEvent ⟨"s"⟩ .never
        = .ok (some { filename := "session.jsonl", bytes })
      ∧ parseSession Sample.codec wireSerde bytes .raw ⟨"s"⟩
        = .ok { header := Sample.header, events := [Sample.event] }
      ∧ ∃ text, artifactBytes Sample.codec .zstd framedEvent = .ok text
        ∧ (bytes = text ∨ bytes ++ [newline] = text) := by
  let stored := headerRecord Sample.codec Sample.header ++ eventRecord Sample.codec Sample.event
  have hstored : parseRecords Sample.codec .raw (stored ++ [openBrace]) = .ok eventLines := by
    decide +kernel
  have hframed : parseRecords Sample.codec .zstd framedEvent = .ok eventLines := by
    decide +kernel
  obtain ⟨bytes, records, hrecords, hread, hparse, _, hsame⟩ :=
    raw_artifact_is_committed_log sampleRaw tornEvent ⟨"s"⟩ .raw (stored ++ [openBrace])
      { header := Sample.header, events := [Sample.event] } rfl rfl rfl
  obtain rfl := ok.inj (hrecords.symm.trans hstored)
  obtain ⟨text, htext, heq⟩ := hsame framedEvent hframed
  exact ⟨bytes, hread, hparse, text, htext, heq.imp_right And.right⟩

end Tessivum.Persistence
