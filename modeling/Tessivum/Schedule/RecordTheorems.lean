/-
Tessivum.Schedule.RecordTheorems — records survive the log.

`Record.Valid` says what every record the tools build satisfies. A valid
record reads back from its own JSON (`decodeRecord_value`), what reads back
is valid (`decodeRecord_valid`), and the next record of an `every` schedule
is valid and later (`everyNext_spec`). `Record.new` builds valid records
(`Record.new_valid`), and an allocated id is free and well formed
(`allocateId_spec`).
-/
import Tessivum.Schedule.CalendarTheorems
import Tessivum.Schedule.Ledger

namespace Tessivum.Schedule

open Library Protocol List

/-! ## Trimmed text -/

variable {cs : List Char} {n millis accepted : Int} {r : Record} {text : String} {α : Type} {a : α}
  {x : Option α}

theorem trimChars_eq_self (hfirst : ∀ c ∈ cs.head?, isWhitespace c = false)
    (hlast : ∀ c ∈ cs.getLast?, isWhitespace c = false) : trimChars cs = cs := by
  have hdrop : cs.dropWhile isWhitespace = cs := by
    cases cs with
    | nil => rfl
    | cons c rest => simp [hfirst c rfl]
  have hback : cs.reverse.dropWhile isWhitespace = cs.reverse := by
    cases hreverse : cs.reverse with
    | nil => rfl
    | cons c rest =>
      have hc : cs.getLast? = some c := by
        rw [← head?_reverse, hreverse]
        rfl
      simp [hlast c hc]
  rw [trimChars, hdrop, hback, reverse_reverse]

theorem trimChars_head : ∀ c ∈ (trimChars cs).head?, isWhitespace c = false := by
  intro c hc
  have hprefix : trimChars cs <+: cs.dropWhile isWhitespace := by
    unfold trimChars
    rw [← reverse_suffix, reverse_reverse]
    exact dropWhile_suffix _
  obtain ⟨_, hrest⟩ := hprefix
  have hhead : (cs.dropWhile isWhitespace).head? = some c := by
    rw [← hrest, head?_append, hc]
    rfl
  have hnot := head?_dropWhile_not isWhitespace cs
  rw [hhead] at hnot
  simpa using hnot

theorem trimChars_last : ∀ c ∈ (trimChars cs).getLast?, isWhitespace c = false := by
  intro c hc
  unfold trimChars at hc
  rw [getLast?_reverse] at hc
  have hnot := head?_dropWhile_not isWhitespace (cs.dropWhile isWhitespace).reverse
  rw [hc] at hnot
  simpa using hnot

theorem trim_trim (s : String) : trim (trim s) = trim s := by
  have h : trimChars (trimChars s.toList) = trimChars s.toList :=
    trimChars_eq_self trimChars_head trimChars_last
  simp only [trim, String.toList_ofList, h]

theorem isTrimmed_trim {s : String} (h : isBlank s = false) : isTrimmed (trim s) = true := by
  have hne : trimChars s.toList ≠ [] := by
    intro hnil
    unfold trimChars at hnil
    rw [reverse_eq_nil_iff, dropWhile_eq_nil_iff] at hnil
    have hall : s.toList.all isWhitespace = true := by
      rw [all_eq_true]
      intro c hc
      by_cases hdrop : s.toList.dropWhile isWhitespace = []
      · exact dropWhile_eq_nil_iff.mp hdrop c hc
      · -- The first character that is left is no blank.
        obtain ⟨d, _, hd⟩ := exists_cons_of_ne_nil hdrop
        have hnot := head?_dropWhile_not isWhitespace s.toList
        rw [hd] at hnot
        have hblank := hnil d (by rw [hd]; simp)
        simp [hblank] at hnot
    rw [isBlank, hall] at h
    cases h
  rw [isTrimmed, trim_trim]
  simp only [and_eq_true, not_eq_true', beq_self_eq_true, and_true]
  rw [trim]
  cases hcs : trimChars s.toList with
  | nil => exact absurd hcs hne
  | cons c rest => simp

/-! ## Allocated ids -/

theorem isWhitespace_of_isDigit {c : Char} (h : c.isDigit = true) : isWhitespace c = false := by
  simp only [Char.isDigit, and_eq_true, decide_eq_true_eq, ge_iff_le] at h
  have hlow : 48 ≤ c.toNat := UInt32.le_iff_toNat_le.mp h.1
  have hhigh : c.toNat ≤ 57 := UInt32.le_iff_toNat_le.mp h.2
  simp only [isWhitespace, or_eq_false_iff, and_eq_false_iff, decide_eq_false_iff_not,
    beq_eq_false_iff_ne]
  omega

theorem scheduleId_toList (number : Nat) :
    (scheduleId number).toList = "schedule-".toList ++ Nat.toDigits 10 number := by
  rw [scheduleId, String.toList_append, Nat.toString_eq_repr, Nat.toList_repr]

theorem scheduleId_injective {m n : Nat} (h : scheduleId m = scheduleId n) : m = n := by
  have hlists := congrArg String.toList h
  rw [scheduleId_toList, scheduleId_toList] at hlists
  have hdigits := append_cancel_left hlists
  have hm := @Nat.ofDigitChars_ten_toDigits m
  rw [hdigits, Nat.ofDigitChars_ten_toDigits] at hm
  exact hm.symm

theorem isTrimmed_scheduleId (number : Nat) : isTrimmed (scheduleId number) = true := by
  have hlist := scheduleId_toList number
  have hdigits : Nat.toDigits 10 number ≠ [] := Nat.toDigits_ne_nil
  have htrim : trimChars (scheduleId number).toList = (scheduleId number).toList := by
    apply trimChars_eq_self
    · intro c hc
      rw [hlist] at hc
      have hs : c = 's' := by simpa [eq_comm] using hc
      rw [hs]
      rfl
    · intro c hc
      rw [hlist, getLast?_append, getLast?_eq_some_getLast hdigits] at hc
      have hlast : c = (Nat.toDigits 10 number).getLast hdigits := by simpa [eq_comm] using hc
      exact isWhitespace_of_isDigit (Nat.isDigit_of_mem_toDigits (by decide) (by decide)
        (hlast ▸ getLast_mem hdigits))
  have hnonempty : (scheduleId number).isEmpty = false := by
    rw [← not_eq_true, String.isEmpty_iff]
    intro hempty
    rw [hempty] at hlist
    simp at hlist
  rw [isTrimmed, hnonempty, trim, htrim, String.ofList_toList]
  simp

/-- An allocated id is new and has no blanks around it. -/
theorem allocateId_spec (folded : Folded) :
    folded.allocateId ∉ folded.seen ∧ isTrimmed folded.allocateId = true := by
  unfold Folded.allocateId
  dsimp only
  split
  · rename_i number hfind
    exact ⟨by simpa using find?_some hfind, isTrimmed_scheduleId number⟩
  · rename_i hnone
    exfalso
    -- More numbers than ids: the map into the ids is not injective.
    have hall : ∀ number ∈ List.range' (folded.seen.length + 1) (folded.seen.length + 1),
        scheduleId number ∈ folded.seen := by
      intro number hnumber
      simpa using find?_eq_none.mp hnone number hnumber
    have hnodup : ((List.range' (folded.seen.length + 1) (folded.seen.length + 1)).map
        scheduleId).Nodup :=
      List.Nodup.map (fun _ _ h => scheduleId_injective h) nodup_range'
    have hsub : (List.range' (folded.seen.length + 1) (folded.seen.length + 1)).map scheduleId
        ⊆ folded.seen := by
      intro id hid
      obtain ⟨number, hnumber, rfl⟩ := mem_map.mp hid
      exact hall number hnumber
    have hlength := (subperm_of_subset hnodup hsub).length_le
    rw [length_map, length_range'] at hlength
    omega

/-! ## Valid records -/

/-- What every record built by the tools satisfies. -/
structure Record.Valid (r : Record) : Prop where
  id : isTrimmed r.id = true
  prompt : isTrimmed r.prompt = true
  scheduled : formatInstant r.scheduledMs = some r.scheduledAt
  after : r.kind = .after → ∃ seconds, r.afterSeconds = some seconds ∧ acceptsAfter seconds = true
  notAfter : r.kind ≠ .after → r.afterSeconds = none
  every : r.kind = .every → ∃ seconds, r.everySeconds = some seconds ∧ acceptsEvery seconds = true
  notEvery : r.kind ≠ .every → r.everySeconds = none

theorem asI64_ofI64 {n : Int} (h0 : 0 ≤ n) (h : n < 2 ^ 63) : asI64 (ofI64 n) = some n := by
  rw [ofI64, if_pos h0]
  have hlt : n.toNat < 2 ^ 63 := by omega
  rw [asI64, if_pos hlt, Int.toNat_of_nonneg h0]

theorem acceptsAfter_bounds (h : acceptsAfter n = true) : 0 ≤ n ∧ n < 2 ^ 63 := by
  simp only [acceptsAfter, and_eq_true, decide_eq_true_eq] at h
  have hmax : (maxSafeInteger : Int) = 9007199254740991 := rfl
  omega

theorem acceptsEvery_bounds (h : acceptsEvery n = true) : 300 ≤ n ∧ n ≤ 9007199254740991 := by
  simp only [acceptsEvery, and_eq_true, decide_eq_true_eq] at h
  have hmax : (maxSafeInteger : Int) = 9007199254740991 := rfl
  have hmin : minEverySeconds = 300 := rfl
  omega

/-- A valid record reads back as it was written. -/
theorem decodeRecord_value (h : r.Valid) : decodeRecord r.value = some r := by
  have hparse := parse_formatInstant h.scheduled
  obtain ⟨id, kind, prompt, scheduledAt, scheduledMs, afterSeconds, everySeconds⟩ := r
  have hid : isTrimmed id = true := h.id
  have hprompt : isTrimmed prompt = true := h.prompt
  have hparse : parseInstant scheduledAt = some scheduledMs := hparse
  cases kind with
  | after =>
    obtain ⟨seconds, hseconds, haccepts⟩ := h.after rfl
    have hnone : everySeconds = none := h.notEvery fun hkind => (by cases hkind)
    have hseconds : afterSeconds = some seconds := hseconds
    subst hnone hseconds
    obtain ⟨h0, hmax⟩ := acceptsAfter_bounds haccepts
    simp [decodeRecord, Record.value, asObject, decodeKind, stringField, i64Field, secondsOf,
      List.lookup, Option.filter,
      hid, hprompt, hparse, ofOptI64, asI64_ofI64 h0 hmax, haccepts, Value.asStr]
  | «at» =>
    have hafter : afterSeconds = none := h.notAfter fun hkind => (by cases hkind)
    have hevery : everySeconds = none := h.notEvery fun hkind => (by cases hkind)
    subst hafter hevery
    simp [decodeRecord, Record.value, asObject, decodeKind, stringField, secondsOf, List.lookup, Option.filter,
      hid, hprompt, hparse, Value.asStr]
  | every =>
    obtain ⟨seconds, hseconds, haccepts⟩ := h.every rfl
    have hnone : afterSeconds = none := h.notAfter fun hkind => (by cases hkind)
    have hseconds : everySeconds = some seconds := hseconds
    subst hnone hseconds
    obtain ⟨h0, hmax⟩ := acceptsEvery_bounds haccepts
    have hi64 := @asI64_ofI64 seconds (by omega) (by omega)
    simp [decodeRecord, Record.value, asObject, decodeKind, stringField, i64Field, secondsOf,
      List.lookup, Option.filter,
      hid, hprompt, hparse, ofOptI64, hi64, haccepts, Value.asStr]

theorem format_parseInstant (h : parseInstant text = some millis) :
    formatInstant millis = some text := by
  unfold parseInstant at h
  dsimp only at h
  split at h
  · cases h
  · simp only [bind_eq_bind, bind_eq_some_iff] at h
    obtain ⟨_, _, _, _, _, _, _, _, _, _, _, _, _, _, _, _, h⟩ := h
    split at h
    · rename_i hformat
      cases h
      exact hformat
    · cases h

theorem formatInstant_range (h : formatInstant millis = some text) :
    minInstantMs ≤ millis ∧ millis ≤ maxInstantMs := by
  unfold formatInstant at h
  split at h
  · cases h
  · rename_i hrange
    exact not_not.mp hrange

theorem filter_eq_some {p : α → Bool} (h : x.filter p = some a) : x = some a ∧ p a = true := by
  simpa using Option.filter_eq_some_iff.mp h

theorem secondsOf_eq_some {fields : List (String × Value)} {key : String} {accepts : Int → Bool}
    {wanted : Bool} {seconds : Option Int} (h : secondsOf fields key accepts wanted = some seconds) :
    (wanted = true → ∃ s, seconds = some s ∧ accepts s = true) ∧
      (wanted = false → seconds = none) := by
  cases wanted with
  | true =>
    obtain ⟨s, hs, heq⟩ := map_eq_some_iff.mp h
    exact ⟨fun _ => ⟨s, heq.symm, (filter_eq_some hs).2⟩, nofun⟩
  | false => exact ⟨nofun, fun _ => (some.inj h).symm⟩

theorem decodeRecord_valid {value : Value} (h : decodeRecord value = some r) : r.Valid := by
  unfold decodeRecord at h
  simp only [bind_eq_bind, bind_eq_some_iff] at h
  obtain ⟨_, _, _, _, _, hid, _, hprompt, _, _, _, hparse,
    _, hafter, _, hevery, h⟩ := h
  cases h
  exact ⟨(filter_eq_some hid).2, (filter_eq_some hprompt).2, format_parseInstant hparse,
    fun hkind => (secondsOf_eq_some hafter).1 (by simpa using hkind),
    fun hkind => (secondsOf_eq_some hafter).2 (by simpa using hkind),
    fun hkind => (secondsOf_eq_some hevery).1 (by simpa using hkind),
    fun hkind => (secondsOf_eq_some hevery).2 (by simpa using hkind)⟩

/-! ## Building records -/

theorem okOr_eq_ok {ε : Type} {error : ε} : okOr x error = .ok a ↔ x = some a := by
  cases x <;> simp [okOr]

def SecondsFit (kind : Kind) (afterSeconds everySeconds : Option Int) : Prop :=
  match kind with
  | .after => (∃ s, afterSeconds = some s ∧ acceptsAfter s = true) ∧ everySeconds = none
  | .at => afterSeconds = none ∧ everySeconds = none
  | .every => afterSeconds = none ∧ ∃ s, everySeconds = some s ∧ acceptsEvery s = true

theorem Record.new_valid {id prompt : String} {kind : Kind} {target now : Int}
    {afterSeconds everySeconds : Option Int}
    (h : Record.new id kind prompt target afterSeconds everySeconds now = .ok r)
    (hid : isTrimmed id = true) (hprompt : isTrimmed prompt = true)
    (hseconds : SecondsFit kind afterSeconds everySeconds) : r.Valid ∧ r.id = id := by
  replace h := after_check h
  obtain ⟨_, hformat, h⟩ := bind_eq_ok.mp h
  cases h
  have hformat := okOr_eq_ok.mp hformat
  cases kind with
  | after =>
    exact ⟨⟨hid, hprompt, hformat, fun _ => hseconds.1, fun hne => absurd rfl hne, nofun,
      fun _ => hseconds.2⟩, rfl⟩
  | «at» =>
    exact ⟨⟨hid, hprompt, hformat, nofun, fun _ => hseconds.1, nofun, fun _ => hseconds.2⟩, rfl⟩
  | every =>
    exact ⟨⟨hid, hprompt, hformat, nofun, fun _ => hseconds.1, fun _ => hseconds.2,
      fun hne => absurd rfl hne⟩, rfl⟩

/-! ## The next time of an `every` schedule -/

theorem Record.Valid.interval (h : r.Valid) (hkind : r.kind = .every) :
    ∃ interval, r.interval = some interval ∧ 300000 ≤ interval
      ∧ interval ≤ 9007199254740991000 := by
  obtain ⟨seconds, hseconds, haccepts⟩ := h.every hkind
  obtain ⟨h0, hmax⟩ := acceptsEvery_bounds haccepts
  refine ⟨seconds * 1000, ?_, by omega, by omega⟩
  rw [Record.interval, hseconds, bind_some]
  exact checkedI64_eq (by omega)

theorem elapsed_bounds {interval elapsed : Int} (h : 0 < interval) (h0 : 0 ≤ elapsed) :
    0 ≤ elapsed / interval ∧ elapsed / interval ≤ elapsed ∧ 0 ≤ elapsed / interval * interval ∧
      elapsed / interval * interval ≤ elapsed ∧ elapsed < (elapsed / interval + 1) * interval := by
  have hquotient : 0 ≤ elapsed / interval := Int.ediv_nonneg h0 (by omega)
  exact ⟨hquotient, Int.ediv_le_self _ h0, Int.mul_nonneg hquotient (by omega),
    Int.ediv_mul_le _ (by omega), Int.lt_ediv_add_one_mul_self _ h⟩

/-- The occurrence a reminder of a valid `every` record is for: at or after
the record's time, and not in the future. -/
theorem everyOccurrenceMs_spec (h : r.Valid) (hkind : r.kind = .every)
    (hdue : r.scheduledMs ≤ accepted) (hmax : accepted ≤ maxInstantMs) :
    ∃ occurrence, everyOccurrenceMs r accepted = some occurrence ∧ r.scheduledMs ≤ occurrence ∧
      occurrence ≤ accepted := by
  obtain ⟨interval, hinterval, hlow, hhigh⟩ := h.interval hkind
  obtain ⟨hmin, _⟩ := formatInstant_range h.scheduled
  obtain ⟨_, _, hlow', hhigh', _⟩ :=
    @elapsed_bounds interval (accepted - r.scheduledMs) (by omega) (by omega)
  unfold minInstantMs at hmin
  unfold maxInstantMs at hmax
  refine ⟨r.scheduledMs + (accepted - r.scheduledMs) / interval * interval, ?_, by omega,
    by omega⟩
  rw [everyOccurrenceMs, hinterval]
  simp only [bind_eq_bind, bind_some, if_neg (Int.not_lt.mpr hdue)]
  rw [checkedI64_eq (by omega), bind_some, checkedI64_eq (by omega)]

/-- An accepted `every` record moves past the time it was accepted at, or
ends. -/
theorem everyNext_spec (h : r.Valid) (hkind : r.kind = .every) (hdue : r.scheduledMs ≤ accepted)
    (hmax : accepted ≤ maxInstantMs) :
    ∃ next, everyNext r accepted = some next ∧ ∀ n, next = some n →
      n.Valid ∧ n.id = r.id ∧ n.kind = r.kind ∧ accepted < n.scheduledMs := by
  obtain ⟨interval, hinterval, hlow, hhigh⟩ := h.interval hkind
  obtain ⟨hmin, _⟩ := formatInstant_range h.scheduled
  obtain ⟨hquotient, hquotient', hlow', hhigh', hlater⟩ :=
    @elapsed_bounds interval (accepted - r.scheduledMs) (by omega) (by omega)
  have hexpand : ((accepted - r.scheduledMs) / interval + 1) * interval
      = (accepted - r.scheduledMs) / interval * interval + interval := by
    rw [Int.add_mul, Int.one_mul]
  unfold minInstantMs at hmin
  unfold maxInstantMs at hmax
  rw [everyNext, hinterval]
  simp only [bind_eq_bind, bind_some, if_neg (Int.not_lt.mpr hdue)]
  rw [checkedI64_eq (by omega), bind_some, checkedI64_eq (by omega), bind_some,
    checkedI64_eq (by omega), bind_some]
  split
  · rename_i hformat
    refine ⟨_, rfl, fun n hn => ?_⟩
    cases hn
    exact ⟨{ h with scheduled := hformat }, rfl, rfl, by dsimp only; omega⟩
  · exact ⟨none, rfl, nofun⟩

end Tessivum.Schedule
