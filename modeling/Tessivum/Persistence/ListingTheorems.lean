/-
Tessivum.Persistence.ListingTheorems — when a listing agrees with opening.

§1 reads the names of logs back. §2 lists a directory of well-formed logs: of
every session it gives the log that is enumerated first, in the order of the ids.
Opening prefers the raw log, so the two agree exactly when no compressed log that
is enumerated before the raw one of its session says something else
(`listing_agrees_iff`).
-/
import Tessivum.Persistence.Listing

namespace Tessivum.Persistence.Jsonl

open Library Protocol Session List

/-! ## §1 Names -/

def hexByte (n : Nat) : UInt8 := UInt8.ofNat (hexDigit n).toNat

theorem utf8EncodeChar_hexDigit :
    ∀ n < 16, String.utf8EncodeChar (hexDigit n) = [hexByte n] := by decide

theorem hexValue_hexByte : ∀ n < 16, hexValue (hexByte n) = some (UInt8.ofNat n) := by decide

theorem nibbles_toNat : ∀ high < 16, ∀ low < 16,
    (UInt8.ofNat high <<< 4 ||| UInt8.ofNat low).toNat = high * 16 + low := by decide

theorem encode_hexDigits (byte : UInt8) :
    (hexDigits byte).flatMap String.utf8EncodeChar
      = [hexByte (byte.toNat / 16), hexByte (byte.toNat % 16)] := by
  have hbyte := byte.toNat_lt
  simp only [hexDigits, flatMap_cons, flatMap_nil, append_nil,
    utf8EncodeChar_hexDigit (byte.toNat / 16) (by omega),
    utf8EncodeChar_hexDigit (byte.toNat % 16) (by omega), cons_append, nil_append]

theorem decodePairs_hexDigits (bytes : Bytes) :
    decodePairs ((bytes.flatMap hexDigits).flatMap String.utf8EncodeChar) = some bytes := by
  induction bytes with
  | nil => rfl
  | cons byte rest ih =>
    have hbyte := byte.toNat_lt
    have hvalue :
        UInt8.ofNat (byte.toNat / 16) <<< 4 ||| UInt8.ofNat (byte.toNat % 16) = byte := by
      apply UInt8.toNat_inj.mp
      rw [nibbles_toNat _ (by omega) _ (by omega)]
      omega
    rw [flatMap_cons, flatMap_append, encode_hexDigits, cons_append,
      cons_append, nil_append, decodePairs, hexValue_hexByte _ (by omega),
      hexValue_hexByte _ (by omega), ih]
    simp only [bind_eq_bind, bind_some, hvalue]

theorem length_hexDigits (bytes : Bytes) :
    ((bytes.flatMap hexDigits).flatMap String.utf8EncodeChar).length = 2 * bytes.length := by
  induction bytes with
  | nil => rfl
  | cons byte rest ih =>
    rw [flatMap_cons, flatMap_append, encode_hexDigits, length_append, ih,
      length_cons]
    simp only [length_cons, length_nil]
    omega

theorem fromUTF8?_utf8 (s : String) : String.fromUTF8? (utf8 s).toByteArray = some s := by
  have hbytes : (utf8 s).toByteArray = s.toByteArray := String.utf8Encode_toList
  rw [hbytes]
  exact dif_pos s.isValidUTF8

theorem utf8_eq_nil {s : String} (h : utf8 s = []) : s = "" :=
  utf8_injective (h.trans rfl)

theorem decodeId_hexUtf8 {id : String} (h : id ≠ "") : decodeId (hexUtf8 id) = some id := by
  have hlen : ((hexUtf8 id).flatMap String.utf8EncodeChar).length = 2 * (utf8 id).length :=
    length_hexDigits (utf8 id)
  have hpos : (utf8 id).length ≠ 0 := fun hnil => h (utf8_eq_nil (length_eq_zero_iff.mp hnil))
  have hpairs : decodePairs ((hexUtf8 id).flatMap String.utf8EncodeChar) = some (utf8 id) :=
    decodePairs_hexDigits (utf8 id)
  unfold decodeId
  dsimp only
  rw [if_neg, hpairs, bind_some, fromUTF8?_utf8]
  rintro (hnil | hodd)
  · rw [hnil, length_nil] at hlen
    omega
  · omega

theorem stripFront_append (front rest : List Char) :
    stripFront front (front ++ rest) = some rest := by
  rw [stripFront, if_pos (List.isPrefixOf_iff_prefix.mpr (prefix_append front rest)),
    drop_left]

theorem stripEnd_append (text ending : List Char) :
    stripEnd ending (text ++ ending) = some text := by
  rw [stripEnd, if_pos (isSuffixOf_iff_suffix.mpr (suffix_append text ending)),
    length_append, Nat.add_sub_cancel, take_left]

theorem stripEnd_other (text : List Char) :
    stripEnd (fileSuffix .zstd).toList (text ++ (fileSuffix .raw).toList) = none := by
  rw [stripEnd, if_neg]
  intro h
  obtain ⟨front, hfront⟩ := isSuffixOf_iff_suffix.mp h
  have hlast := congrArg List.getLast? hfront
  rw [getLast?_suffix, getLast?_suffix] at hlast
  exact absurd hlast (by decide)

variable {id : SessionId} {C : Codec} {S : Serde} {bytes : Bytes} {format : JsonlStorageFormat}
  {session : MemorySession} {entry entry' : String × Bytes} {directory : Option Directory}

theorem idFromPath_logName (h : id.asStr ≠ "") (format : JsonlStorageFormat) :
    idFromPath (logName format id) = some (id, format) := by
  have hname : (logName format id).toList =
      "session-".toList ++ (hexUtf8 id.asStr ++ (fileSuffix format).toList) :=
    String.toList_ofList.trans (append_assoc _ _ _)
  unfold idFromPath
  rw [hname, stripFront_append]
  cases format with
  | zstd =>
    simp only [bind_eq_bind, bind_some, stripEnd_append, decodeId_hexUtf8 h]
  | raw =>
    simp only [bind_eq_bind, bind_some, stripEnd_other, stripEnd_append,
      map_some, decodeId_hexUtf8 h]

/-! ## §2 Logs -/

/-- The events that are read are numbered and valid. -/
theorem foldlM_parseEvent_sound : ∀ {records : List Bytes}
    {events events' : List SessionEvent}, records.foldlM (parseEvent C S) events = .ok events' →
      Numbered events ∧ (∀ e ∈ events, e.validate S = .ok ()) →
        Numbered events' ∧ ∀ e ∈ events', e.validate S = .ok ()
  | [], _, _, h, hevents => by rw [← ok.inj h]; exact hevents
  | record :: rest, events, events', h, hevents => by
    rw [foldlM_cons] at h
    obtain ⟨_, hmid, h⟩ := bind_eq_ok.mp h
    obtain ⟨_, e, _, _, hvalid, hseq, rfl⟩ := parseEvent_eq_ok.mp hmid
    refine foldlM_parseEvent_sound h ⟨?_, fun x hx => ?_⟩
    · exact numbered_snoc.mpr ⟨hevents.1, hevents.1.seq_of_nextSeq hseq⟩
    · rcases mem_append.mp hx with hold | hnew
      · exact hevents.2 x hold
      · rw [mem_singleton.mp hnew]
        exact hvalid

def inspectionOf (session : MemorySession) : SessionInspection :=
  { header := session.header, eventCount := session.events.length
    nextSeq := session.events.length }

/-- A session that is read has the id it was asked for. -/
theorem parseSession_sound (h : parseSession C S bytes format id = .ok session) :
    id.asStr ≠ "" ∧ session.header.id = id ∧
      Memory.inspectMemorySession session = .ok (inspectionOf session) := by
  obtain ⟨records, -, h⟩ := bind_eq_ok.mp h
  cases records with
  | nil => cases h
  | cons first rest =>
    simp only [sessionOfRecords, bind_eq_ok, failIf_eq_ok, exists_unit, not_not,
      ok.injEq] at h
    obtain ⟨_, -, hempty, -, rfl, _, hevents, rfl⟩ := h
    have hsound := foldlM_parseEvent_sound hevents
      ⟨fun _ _ he => (by cases he), fun _ he => (by cases he)⟩
    refine ⟨fun hid => hempty (by rw [hid]; rfl), rfl, ?_⟩
    rw [Memory.inspectMemorySession, nextSeq_of_valid hsound.1 hsound.2]
    rfl

/-- An entry is a session's log: it bears the session's name and is read. -/
def LogOf (F : Config) (entry : String × Bytes) (format : JsonlStorageFormat) (id : SessionId)
    (session : MemorySession) : Prop :=
  entry.1 = logName format id ∧ parseSession F.codec F.serde entry.2 format id = .ok session

def Stray (name : String) : Prop :=
  idFromPath name = none ∧ ∀ format id, name ≠ logName format id

/-- A directory of well-formed logs under their names, and of strays. -/
structure WellFormed (F : Config) (directory : Directory) : Prop where
  names : Keyed.Distinct directory
  logs : ∀ entry ∈ directory,
    Stray entry.1 ∨ ∃ format id session, LogOf F entry format id session

variable {F : Config} {counts : SessionId → Nat}

theorem listEntry_stray (h : Stray entry.1) : listEntry F counts entry = .ok none := by
  rw [listEntry, h.1]

theorem listEntry_log (h : LogOf F entry format id session) :
    listEntry F counts entry =
      .ok (some { inspection := inspectionOf session, flushCount := counts id }) := by
  obtain ⟨hname, hparse⟩ := h
  obtain ⟨hid, -, hinspect⟩ := parseSession_sound hparse
  rw [listEntry, hname, idFromPath_logName hid]
  dsimp only
  rw [hparse, mapError_ok, ok_bind, hinspect, ok_bind]

def entryListing (F : Config) (counts : SessionId → Nat) (entry : String × Bytes) :
    Option FlushedInspection :=
  (listEntry F counts entry).toOption.join

theorem entryListing_log (h : LogOf F entry format id session) :
    entryListing F counts entry =
      some { inspection := inspectionOf session, flushCount := counts id } := by
  rw [entryListing, listEntry_log h]
  rfl

theorem entryListing_stray (h : Stray entry.1) : entryListing F counts entry = none := by
  rw [entryListing, listEntry_stray h]
  rfl

theorem listEntries_eq : ∀ {directory : Directory} (n : Nat),
    (∀ entry ∈ directory, Stray entry.1 ∨ ∃ format id session, LogOf F entry format id session) →
      listEntries F counts .never n directory = .ok (directory.filterMap (entryListing F counts))
  | [], _, _ => rfl
  | entry :: rest, n, h => by
    have hrest := listEntries_eq (n + 1) fun e he => h e (mem_cons_of_mem _ he)
    rw [listEntries, checkCancellation_never, ok_bind, hrest]
    rcases h entry mem_cons_self with hstray | ⟨_, _, _, hlog⟩
    · rw [listEntry_stray hstray, filterMap_cons_none (entryListing_stray hstray)]
      rfl
    · rw [listEntry_log hlog, filterMap_cons_some (entryListing_log hlog)]
      rfl

def Names (id : SessionId) (entry : String × Bytes) : Prop :=
  entry.1 = logName .raw id ∨ entry.1 = logName .zstd id

instance (id : SessionId) : DecidablePred (Names id) := fun _ => instDecidableOr

theorem names_log {id' : SessionId} (h : LogOf F entry format id session) :
    Names id' entry ↔ id = id' := by
  unfold Names
  rw [h.1]
  constructor
  · rintro (heq | heq) <;> exact (logName_injective heq).2
  · rintro rfl
    cases format
    · exact .inl rfl
    · exact .inr rfl

theorem find?_listing (id : SessionId) : ∀ {directory : Directory},
    (∀ entry ∈ directory, Stray entry.1 ∨ ∃ format id session, LogOf F entry format id session) →
      (directory.filterMap (entryListing F counts)).find? (fun listed => listed.id = id) =
        (directory.find? fun entry => Names id entry).bind (entryListing F counts)
  | [], _ => rfl
  | entry :: rest, h => by
    have hrest := find?_listing id fun e he => h e (mem_cons_of_mem _ he)
    rcases h entry mem_cons_self with hstray | ⟨_, id', session, hlog⟩
    · have hnot : ¬ Names id entry := by
        rintro (heq | heq)
        · exact hstray.2 _ _ heq
        · exact hstray.2 _ _ heq
      rw [filterMap_cons_none (entryListing_stray hstray), hrest,
        find?_cons_of_neg (by simpa using hnot)]
    · rw [filterMap_cons_some (entryListing_log hlog)]
      have hheader : session.header.id = id' := (parseSession_sound hlog.2).2.1
      by_cases hid : id' = id
      · have hnames : Names id entry := (names_log hlog).mpr hid
        rw [find?_cons_of_pos (by simpa [FlushedInspection.id, inspectionOf, hheader]),
          find?_cons_of_pos (by simpa using hnames), bind_some, entryListing_log hlog]
      · have hnames : ¬ Names id entry := fun hnames => hid ((names_log hlog).mp hnames)
        rw [find?_cons_of_neg (by simpa [FlushedInspection.id, inspectionOf, hheader]),
          hrest, find?_cons_of_neg (by simpa using hnames)]

theorem list_eq (h : WellFormed F (directory.getD [])) :
    list F directory counts .never = .ok (firstOfKeys (·.id.asStr)
      ((directory.getD []).filterMap (entryListing F counts))) := by
  unfold list
  rw [checkCancellation_never, ok_bind]
  cases directory with
  | none =>
    rw [getD_none, filterMap_nil, firstOfKeys_nil]
  | some directory =>
    rw [getD_some] at h ⊢
    dsimp only
    rw [listEntries_eq 1 h.logs, ok_bind]
    rfl

theorem find?_list (counts : SessionId → Nat) {directory : Directory}
    (h : WellFormed F directory) (id : SessionId) :
    (firstOfKeys (·.id.asStr) (directory.filterMap (entryListing F counts))).find?
        (fun listed => listed.id = id) =
      (directory.find? fun entry => Names id entry).bind (entryListing F counts) := by
  have hkey : (fun listed : FlushedInspection => decide (listed.id = id)) =
      fun listed => decide (listed.id.asStr = id.asStr) := by
    funext listed
    cases listed.id
    cases id
    simp
  rw [← find?_listing id h.logs, hkey, find?_firstOfKeys]

/-! ## §3 Agreement -/

theorem filesOf_mem (h : WellFormed F (directory.getD [])) (hentry : entry ∈ directory.getD []) :
    filesOf directory entry.1 = some entry.2 :=
  Keyed.lookup_of_mem h.names hentry

theorem filesOf_eq_some {name : String} (h : filesOf directory name = some bytes) :
    (name, bytes) ∈ directory.getD [] :=
  Keyed.mem_of_lookup h

theorem inspectFlushed_log (h : WellFormed F (directory.getD []))
    (hentry : entry ∈ directory.getD []) (hlog : LogOf F entry format id session)
    (hformat : existingFormat (filesOf directory) id = some format) :
    inspectFlushed F directory counts id .never
      = .ok (some { inspection := inspectionOf session, flushCount := counts id }) := by
  obtain ⟨-, -, hinspect⟩ := parseSession_sound hlog.2
  have hbytes : filesOf directory (logName format id) = some entry.2 :=
    hlog.1 ▸ filesOf_mem h hentry
  have hread : readSession F (filesOf directory) id = .ok (some session) := by
    rw [readSession, hformat]
    dsimp only
    rw [hbytes, getD_some, hlog.2]
  rw [inspectFlushed, inspect, checkCancellation_never, ok_bind, hread, ok_bind]
  dsimp only
  rw [hinspect, ok_bind, ok_bind]
  rfl

theorem inspectFlushed_none (h : ∀ entry ∈ directory.getD [], ¬ Names id entry) :
    inspectFlushed F directory counts id .never = .ok none := by
  have hnone : ∀ format, filesOf directory (logName format id) = none := by
    intro format
    cases hfile : filesOf directory (logName format id) with
    | none => rfl
    | some bytes =>
      refine absurd ?_ (h _ (filesOf_eq_some hfile))
      cases format
      · exact .inl rfl
      · exact .inr rfl
  have hformat : existingFormat (filesOf directory) id = none := by
    unfold existingFormat
    rw [hnone, hnone]
    rfl
  rw [inspectFlushed, inspect, checkCancellation_never, ok_bind, readSession, hformat]
  rfl

/-- A listing that has strictly increasing ids and says of every session, and of
every id without one, what opening it says. -/
def ListingAgrees (F : Config) (directory : Option Directory) (counts : SessionId → Nat) : Prop :=
  ∃ listed, list F directory counts .never = .ok listed ∧
    listed.Pairwise (fun a b => a.id.asStr < b.id.asStr) ∧
    ∀ id, inspectFlushed F directory counts id .never
      = .ok (listed.find? fun listing => listing.id = id)

/-- The raw log of a session is enumerated with no compressed one before it. -/
def RawFirst (directory : Directory) (id : SessionId) : Prop :=
  ∃ before raw after, directory = before ++ raw :: after ∧ raw.1 = logName .raw id ∧
    ∀ entry ∈ before, entry.1 ≠ logName .zstd id

/-- The two logs of a session hold the same header and as many events. -/
def Alike (session session' : MemorySession) : Prop :=
  session.header = session'.header ∧ session.events.length = session'.events.length

theorem inspectionOf_eq {session' : MemorySession} :
    inspectionOf session = inspectionOf session' ↔ Alike session session' := by
  simp only [inspectionOf, SessionInspection.mk.injEq, Alike]
  tauto

theorem WellFormed.entry_unique {directory : Directory} (h : WellFormed F directory)
    (hentry : entry ∈ directory) (hentry' : entry' ∈ directory) (hname : entry.1 = entry'.1) :
    entry = entry' := by
  have hbytes : directory.lookup entry.1 = some entry.2 := Keyed.lookup_of_mem h.names hentry
  have hbytes' : directory.lookup entry'.1 = some entry'.2 := Keyed.lookup_of_mem h.names hentry'
  rw [hname, hbytes'] at hbytes
  exact Prod.ext hname (some.inj hbytes).symm

theorem WellFormed.log_of_names {directory : Directory} (h : WellFormed F directory)
    (hentry : entry ∈ directory) (hnames : Names id entry) :
    ∃ format session, LogOf F entry format id session := by
  rcases h.logs entry hentry with hstray | ⟨format, _, session, hlog⟩
  · rcases hnames with heq | heq
    · exact absurd heq (hstray.2 _ _)
    · exact absurd heq (hstray.2 _ _)
  · obtain rfl := (names_log hlog).mp hnames
    exact ⟨format, session, hlog⟩

theorem RawFirst.find? {directory : Directory} (h : RawFirst directory id) :
    ∃ raw, directory.find? (fun entry => Names id entry) = some raw ∧ raw.1 = logName .raw id := by
  obtain ⟨before, raw, _, rfl, hraw, hbefore⟩ := h
  rw [find?_append]
  cases hfind : before.find? fun entry => Names id entry with
  | some entry =>
    refine ⟨entry, rfl, ?_⟩
    have hnames : Names id entry := by simpa using find?_some hfind
    exact hnames.resolve_right (hbefore entry (mem_of_find?_eq_some hfind))
  | none =>
    have hnames : Names id raw := .inl hraw
    exact ⟨raw, by rw [find?_cons_of_pos (by simpa using hnames)]; rfl, hraw⟩

theorem existingFormat_raw (h : WellFormed F (directory.getD []))
    (hentry : entry ∈ directory.getD []) (hname : entry.1 = logName .raw id) :
    existingFormat (filesOf directory) id = some .raw := by
  rw [existingFormat, ← hname, filesOf_mem h hentry]
  rfl

theorem existingFormat_zstd (h : WellFormed F (directory.getD []))
    (hentry : entry ∈ directory.getD []) (hname : entry.1 = logName .zstd id)
    (hraw : ∀ raw ∈ directory.getD [], raw.1 ≠ logName .raw id) :
    existingFormat (filesOf directory) id = some .zstd := by
  have hnone : filesOf directory (logName .raw id) = none := by
    cases hfile : filesOf directory (logName .raw id) with
    | none => rfl
    | some bytes => exact absurd rfl (hraw _ (filesOf_eq_some hfile))
  rw [existingFormat, hnone, ← hname, filesOf_mem h hentry]
  rfl

/-- When the listing says of a session what opening it says. -/
def AgreesAt (F : Config) (directory : Directory) (id : SessionId) : Prop :=
  ∀ raw ∈ directory, ∀ zstd ∈ directory, ∀ session session',
    LogOf F raw .raw id session → LogOf F zstd .zstd id session' →
      RawFirst directory id ∨ Alike session session'

/-- When the log enumerated first says what opening would. -/
theorem agreesAt_iff (counts : SessionId → Nat) (h : WellFormed F (directory.getD []))
    (id : SessionId) :
    inspectFlushed F directory counts id .never
        = .ok (((directory.getD []).find? fun entry => Names id entry).bind
            (entryListing F counts))
      ↔ AgreesAt F (directory.getD []) id := by
  cases hfind : (directory.getD []).find? fun entry => Names id entry with
  | none =>
    have hnames : ∀ entry ∈ directory.getD [], ¬ Names id entry := by
      simpa using find?_eq_none.mp hfind
    rw [Option.bind_none]
    refine iff_of_true (inspectFlushed_none hnames) fun raw hraw _ _ _ _ hlog _ => ?_
    exact absurd (Or.inl hlog.1) (hnames raw hraw)
  | some first =>
    have hfirst : first ∈ directory.getD [] := mem_of_find?_eq_some hfind
    have hnames : Names id first := by simpa using find?_some hfind
    obtain ⟨format, session, hlog⟩ := h.log_of_names hfirst hnames
    rw [bind_some, entryListing_log hlog]
    cases format with
    | raw =>
      refine iff_of_true ?_ fun _ _ _ _ _ _ _ _ => .inl ?_
      · exact inspectFlushed_log h hfirst hlog (existingFormat_raw h hfirst hlog.1)
      · obtain ⟨-, before, after, hsplit, hbefore⟩ := find?_eq_some_iff_append.mp hfind
        refine ⟨before, first, after, hsplit, hlog.1, fun entry hentry heq => ?_⟩
        have hnot : ¬ Names id entry := by simpa using hbefore entry hentry
        exact hnot (.inr heq)
    | zstd =>
      have hnotfirst : ¬ RawFirst (directory.getD []) id := by
        intro hraw
        obtain ⟨raw, hraw, hname⟩ := hraw.find?
        rw [hfind] at hraw
        rw [← some.inj hraw, hlog.1] at hname
        exact absurd (logName_injective hname).1 (by decide)
      by_cases hraw : ∃ raw ∈ directory.getD [], raw.1 = logName .raw id
      · -- opening prefers the raw log to the one that is listed
        obtain ⟨raw, hmem, hname⟩ := hraw
        obtain ⟨format, session', hlog'⟩ := h.log_of_names hmem (.inl hname)
        obtain rfl : format = .raw := (logName_injective (hlog'.1.symm.trans hname)).1
        rw [inspectFlushed_log h hmem hlog' (existingFormat_raw h hmem hname)]
        simp only [ok.injEq, some.injEq, FlushedInspection.mk.injEq, and_true]
        rw [inspectionOf_eq]
        constructor
        · rintro halike _ hmem' _ hzstd' s _ hs hs'
          obtain rfl := h.entry_unique hmem hmem' (hlog'.1.trans hs.1.symm)
          obtain rfl := h.entry_unique hfirst hzstd' (hlog.1.trans hs'.1.symm)
          obtain rfl := ok.inj (hlog'.2.symm.trans hs.2)
          obtain rfl := ok.inj (hlog.2.symm.trans hs'.2)
          exact .inr halike
        · intro hagrees
          have hat := hagrees raw hmem first hfirst session' session hlog' hlog
          exact hat.resolve_left hnotfirst
      · have hraw' : ∀ raw ∈ directory.getD [], raw.1 ≠ logName .raw id :=
          fun raw hmem hname => hraw ⟨raw, hmem, hname⟩
        refine iff_of_true ?_ fun raw hmem _ _ _ _ hlog' _ => ?_
        · exact inspectFlushed_log h hfirst hlog (existingFormat_zstd h hfirst hlog.1 hraw')
        · exact absurd hlog'.1 (hraw' raw hmem)

theorem ListingAgrees.agreesAt (hagrees : ListingAgrees F directory counts)
    (h : WellFormed F (directory.getD [])) (id : SessionId) :
    AgreesAt F (directory.getD []) id := by
  obtain ⟨_, hlisted, -, hopened⟩ := hagrees
  rw [list_eq h] at hlisted
  obtain rfl := ok.inj hlisted
  rw [← agreesAt_iff counts h id, ← find?_list counts h id]
  exact hopened id

/-- A listing agrees with opening if and only if, of every session with both logs, the
raw one is enumerated first or the two hold the same header and as many events. -/
theorem listing_agrees_iff (F : Config) (counts : SessionId → Nat) {directory : Option Directory}
    (h : WellFormed F (directory.getD [])) :
    ListingAgrees F directory counts ↔ ∀ id, AgreesAt F (directory.getD []) id := by
  refine ⟨fun hagrees => hagrees.agreesAt h, fun hagrees => ?_⟩
  refine ⟨_, list_eq h, firstOfKeys_increasing _ _, fun id => ?_⟩
  rw [find?_list counts h id]
  exact (agreesAt_iff counts h id).mpr (hagrees id)

/-! ## §4 Two logs of one session -/

def sampleConfig : Config :=
  { codec := Sample.codec, serde := wireSerde, root := "sessions", format := .raw }

def sampleStart : MemorySession := { header := Sample.header, events := [] }

def sampleNext : MemorySession := { header := Sample.header, events := [Sample.event] }

theorem sampleStart_stored : WellStored Sample.codec wireSerde sampleStart where
  header_valid := by decide
  header_storable := Sample.header_storable
  numbered := nofun
  events_valid := nofun
  events_storable := nofun

theorem sampleNext_stored : WellStored Sample.codec wireSerde sampleNext :=
  sampleStart_stored.snoc rfl Sample.event_storable rfl

/-- The compressed log holds the session of before its event, the raw one that of
after it. -/
def staleLog : String × Bytes :=
  (logName .zstd ⟨"s"⟩, encodedLog Sample.codec .zstd sampleStart)

def currentLog : String × Bytes :=
  (logName .raw ⟨"s"⟩, encodedLog Sample.codec .raw sampleNext)

theorem staleLog_logOf : LogOf sampleConfig staleLog .zstd ⟨"s"⟩ sampleStart :=
  ⟨rfl, parseSession_encodedLog Sample.codec_keepsFrames .zstd sampleStart_stored⟩

theorem currentLog_logOf : LogOf sampleConfig currentLog .raw ⟨"s"⟩ sampleNext :=
  ⟨rfl, parseSession_encodedLog Sample.codec_keepsFrames .raw sampleNext_stored⟩

theorem logs_distinct : staleLog.1 ≠ currentLog.1 := fun heq =>
  absurd (logName_injective heq).1 (by decide)

theorem wellFormed_pair (hne : entry.1 ≠ entry'.1)
    (h : ∃ format id session, LogOf sampleConfig entry format id session)
    (h' : ∃ format id session, LogOf sampleConfig entry' format id session) :
    WellFormed sampleConfig [entry, entry'] := by
  refine ⟨?_, fun e he => .inr ?_⟩
  · simpa [Keyed.Distinct] using hne
  · rcases mem_pair.mp he with rfl | rfl
    · exact h
    · exact h'

/-- The raw log is enumerated first, and the listing agrees. -/
theorem listing_agrees_current :
    ListingAgrees sampleConfig (some [currentLog, staleLog]) fun _ => 0 := by
  have hwell : WellFormed sampleConfig ((some [currentLog, staleLog]).getD []) :=
    wellFormed_pair logs_distinct.symm ⟨_, _, _, currentLog_logOf⟩ ⟨_, _, _, staleLog_logOf⟩
  refine (listing_agrees_iff sampleConfig (fun _ => 0) hwell).mpr ?_
  intro id raw hraw _ _ _ _ hlog _
  refine .inl ⟨[], currentLog, [staleLog], rfl, ?_, nofun⟩
  rcases mem_pair.mp hraw with rfl | rfl
  · exact hlog.1
  · exact absurd (logName_injective (staleLog_logOf.1.symm.trans hlog.1)).1 (by decide)

/-- A stale compressed log that is enumerated first is listed in place of the raw one
that is opened. -/
theorem stale_log_listed :
    WellFormed sampleConfig [staleLog, currentLog] ∧
      ¬ ListingAgrees sampleConfig (some [staleLog, currentLog]) fun _ => 0 := by
  have hwell : WellFormed sampleConfig [staleLog, currentLog] :=
    wellFormed_pair logs_distinct ⟨_, _, _, staleLog_logOf⟩ ⟨_, _, _, currentLog_logOf⟩
  refine ⟨hwell, fun hagrees => ?_⟩
  rcases hagrees.agreesAt hwell ⟨"s"⟩ currentLog (by simp) staleLog (by simp) sampleNext sampleStart
    currentLog_logOf staleLog_logOf with hfirst | ⟨-, hlen⟩
  · obtain ⟨_, hraw, hname⟩ := hfirst.find?
    have hstale : Names ⟨"s"⟩ staleLog := .inr rfl
    rw [getD_some, find?_cons_of_pos (by simpa using hstale)] at hraw
    rw [← some.inj hraw] at hname
    exact logs_distinct hname
  · exact absurd hlen (by decide)

end Tessivum.Persistence.Jsonl
