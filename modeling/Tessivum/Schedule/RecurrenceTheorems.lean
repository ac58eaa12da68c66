/-
Tessivum.Schedule.RecurrenceTheorems — recurring schedules stay aligned.

§1 compares `every_occurrence` and `every_next` with the times of a progression
(`Library.Calendar`): neither fails on a record that was read, the one is the
last time up to the accepted one and the other the first after it. §2 follows a
schedule through a log. Its occurrences are times of the progression it was created
with, each later than the one before (`Recurs.read`). §3 is about what is due.
-/
import Tessivum.Library.Calendar
import Tessivum.Schedule.LogTheorems

namespace Tessivum.Schedule

open Library Protocol List

/-! ## §1 Occurrences -/

def Representable (millis : Int) : Prop := minInstantMs ≤ millis ∧ millis ≤ maxInstantMs

variable {millis accepted interval now : Int} {r : Record} {folded : Folded} {target : Option Int}

theorem formatInstant_of_representable (h : Representable millis) :
    ∃ text, formatInstant millis = some text := by
  unfold Representable at h
  unfold formatInstant
  rw [if_neg (not_not.mpr h)]
  exact ⟨_, rfl⟩

theorem formatInstant_eq_none : formatInstant millis = none ↔ ¬ Representable millis := by
  constructor
  · intro h hrange
    obtain ⟨_, htext⟩ := formatInstant_of_representable hrange
    rw [h] at htext
    cases htext
  · intro h
    unfold formatInstant
    exact if_pos h

/-- The times of an `every` record from its next one on. -/
def Record.times (r : Record) (interval : Int) : Set Int := progression r.scheduledMs interval

theorem Record.Valid.recurs (h : r.Valid) (hkind : r.kind = .every) :
    ∃ interval, r.interval = some interval ∧ 0 < interval ∧ interval ≤ 9007199254740991000 ∧
      Representable r.scheduledMs := by
  obtain ⟨interval, hinterval, hlow, hhigh⟩ := h.interval hkind
  exact ⟨interval, hinterval, by omega, by omega, formatInstant_range h.scheduled⟩

theorem everyOccurrenceMs_eq (hinterval : r.interval = some interval) (hpos : 0 < interval)
    (hscheduled : Representable r.scheduledMs) (haccepted : Representable accepted)
    (hdue : r.scheduledMs ≤ accepted) :
    everyOccurrenceMs r accepted
      = some (r.scheduledMs + (accepted - r.scheduledMs) / interval * interval) := by
  obtain ⟨_, _, hlow, hhigh, _⟩ :=
    @elapsed_bounds interval (accepted - r.scheduledMs) hpos (by omega)
  unfold Representable minInstantMs maxInstantMs at hscheduled haccepted
  rw [everyOccurrenceMs, hinterval]
  simp only [bind_eq_bind, bind_some, if_neg (Int.not_lt.mpr hdue)]
  rw [checkedI64_eq (by omega), bind_some, checkedI64_eq (by omega)]

def Record.movedTo (r : Record) (time : Int) : Option Record :=
  (formatInstant time).map fun scheduledAt => { r with scheduledMs := time, scheduledAt }

theorem everyNext_eq (hinterval : r.interval = some interval) (hpos : 0 < interval)
    (hsmall : interval ≤ 9007199254740991000) (hscheduled : Representable r.scheduledMs)
    (haccepted : Representable accepted) (hdue : r.scheduledMs ≤ accepted) :
    everyNext r accepted
      = some (r.movedTo
          (r.scheduledMs + ((accepted - r.scheduledMs) / interval + 1) * interval)) := by
  obtain ⟨hquotient, hquotient', hlow, hhigh, hlater⟩ :=
    @elapsed_bounds interval (accepted - r.scheduledMs) hpos (by omega)
  have hexpand : ((accepted - r.scheduledMs) / interval + 1) * interval
      = (accepted - r.scheduledMs) / interval * interval + interval := by
    rw [Int.add_mul, Int.one_mul]
  unfold Representable minInstantMs maxInstantMs at hscheduled haccepted
  rw [everyNext, hinterval]
  simp only [bind_eq_bind, bind_some, if_neg (Int.not_lt.mpr hdue)]
  rw [checkedI64_eq (by omega), bind_some, checkedI64_eq (by omega), bind_some,
    checkedI64_eq (by omega), bind_some, Record.movedTo]
  cases formatInstant (r.scheduledMs + ((accepted - r.scheduledMs) / interval + 1) * interval) <;>
    rfl

/-! ## §2 The occurrences of a log -/

def acceptedAt (e : SessionEvent) : Option Int :=
  (changeFields "dispatch" e).bind fun fields =>
    (stringField fields "acceptedAt").bind parseInstant

def occurrenceOf (st : FoldState) (id : String) (e : SessionEvent) : Option Int :=
  if dispatchedId e = some id then
    (st.find id).bind fun r => (acceptedAt e).bind (everyOccurrenceMs r)
  else none

def readOccurrence (id : String) (state : FoldState × List Int) (e : SessionEvent) :
    Option (FoldState × List Int) :=
  (state.1.read e).map fun st => (st, state.2 ++ (occurrenceOf state.1 id e).toList)

def occurrences (id : String) (log : List SessionEvent) : Option (FoldState × List Int) :=
  log.foldlM (readOccurrence id) (FoldState.empty, [])

/-- The occurrence a dispatch event records. -/
theorem dispatch_of_read {st st' : FoldState} {e : SessionEvent} {id : String}
    (h : st.read e = some st') (hid : dispatchedId e = some id) :
    ∃ r, st.find id = some r ∧
      ((r.kind ≠ .every ∧ st'.active = st.without id) ∨
        (r.kind = .every ∧ ∃ accepted next, acceptedAt e = some accepted ∧
          Representable accepted ∧ r.scheduledMs ≤ accepted ∧ everyNext r accepted = some next ∧
          st'.active = next.toList ++ st.without id)) := by
  obtain ⟨fields, hchange, hfield⟩ := bind_eq_some_iff.mp hid
  have htype : e.eventType = scheduleChange := by
    by_contra hother
    rw [changeFields, if_neg hother] at hchange
    cases hchange
  have hfields := hchange
  rw [changeFields, if_pos htype] at hfields
  obtain ⟨hdata, hoperation⟩ := filter_eq_some hfields
  have hoperation : stringField fields "operation" = some "dispatch" := by simpa using hoperation
  rw [FoldState.read, if_pos htype, FoldState.apply, hdata] at h
  simp only [bind_eq_bind, bind_some, hoperation] at h
  split at h
  · cases h
  rw [if_neg (by decide), if_neg (by decide), if_pos trivial] at h
  unfold FoldState.dispatch at h
  obtain ⟨id', hid', h⟩ := bind_eq_some_iff.mp h
  obtain ⟨r, hactive, h⟩ := bind_eq_some_iff.mp h
  obtain rfl : id' = id := some.inj ((filter_eq_some hid').1.symm.trans hfield)
  refine ⟨r, hactive, ?_⟩
  split at h
  next hkind =>
    split at h
    · cases h
    obtain ⟨accepted, haccepted, h⟩ := bind_eq_some_iff.mp h
    obtain ⟨_, _, hparse⟩ := bind_eq_some_iff.mp haccepted
    obtain ⟨next, hnext, h⟩ := bind_eq_some_iff.mp h
    have hdue : r.scheduledMs ≤ accepted := by
      by_contra hnot
      unfold everyNext at hnext
      obtain ⟨_, _, hnext⟩ := bind_eq_some_iff.mp hnext
      rw [if_pos (Int.not_le.mp hnot)] at hnext
      cases hnext
    refine .inr ⟨hkind, accepted, next, ?_, formatInstant_range (format_parseInstant hparse),
      hdue, hnext, ?_⟩
    · rw [acceptedAt, hchange, bind_some, haccepted]
    · cases next <;> cases h <;> rfl
  next hkind =>
    split at h
    · cases h
    cases h
    exact .inl ⟨hkind, rfl⟩

/-- What a log guarantees of the occurrences of a schedule. -/
structure Recurs (id : String) (log : List SessionEvent) (st : FoldState) (occs : List Int) :
    Prop where
  seen : occs ≠ [] → id ∈ st.seen
  rising : occs.Pairwise (· < ·)
  ahead : ∀ r ∈ st.active, r.id = id → ∀ o ∈ occs, o < r.scheduledMs
  aligned : ∀ c ∈ createdRecords log, c.id = id → c.kind = .every →
    ∀ interval, c.interval = some interval →
      occs.length = (dispatchedIds log).count id ∧ (∀ o ∈ occs, o ∈ c.times interval) ∧
        ∀ r ∈ st.active, r.id = id →
          r.interval = some interval ∧ r.scheduledMs ∈ c.times interval

theorem recurs_empty (id : String) : Recurs id [] FoldState.empty [] where
  seen := fun h => absurd rfl h
  rising := List.Pairwise.nil
  ahead := fun _ h => (by cases h)
  aligned := fun _ h => (by cases h)

/-- An accepted occurrence is the last one up to its instant. -/
theorem accepted_spec (hvalid : r.Valid) (hkind : r.kind = .every)
    (haccepted : Representable accepted) (hdue : r.scheduledMs ≤ accepted) :
    ∃ interval occurrence time, r.interval = some interval ∧ 0 < interval ∧
      everyOccurrenceMs r accepted = some occurrence ∧
      IsGreatest (r.times interval ∩ Set.Iic accepted) occurrence ∧
      everyNext r accepted = some (r.movedTo time) ∧
      IsLeast (r.times interval ∩ Set.Ioi accepted) time := by
  obtain ⟨interval, hinterval, hpos, hsmall, hscheduled⟩ := hvalid.recurs hkind
  exact ⟨interval, _, _, hinterval, hpos,
    everyOccurrenceMs_eq hinterval hpos hscheduled haccepted hdue,
    progression_isGreatest hpos hdue,
    everyNext_eq hinterval hpos hsmall hscheduled haccepted hdue, progression_isLeast hpos hdue⟩

theorem movedTo_eq_some {n : Record} {time : Int} (h : r.movedTo time = some n) :
    n.id = r.id ∧ n.interval = r.interval ∧ n.scheduledMs = time := by
  obtain ⟨_, -, rfl⟩ := map_eq_some_iff.mp h
  exact ⟨rfl, rfl, rfl⟩

theorem everyOccurrenceMs_none (h : r.everySeconds = none) (accepted : Int) :
    everyOccurrenceMs r accepted = none := by
  rw [everyOccurrenceMs, Record.interval, h]
  rfl

variable {id : String} {log : List SessionEvent} {st st' : FoldState} {e : SessionEvent}
  {occs : List Int}

/-- An event about another record. -/
theorem Recurs.other (h : Recurs id log st occs) (hhistory : History log st)
    (hreads : Reads st e st') (hid : dispatchedId e ≠ some id) :
    Recurs id (log ++ [e]) st' occs := by
  have hunseen : id ∉ st.seen → occs = [] := fun hid => by
    by_contra hne
    exact hid (h.seen hne)
  have hcount : (dispatchedIds (log ++ [e])).count id = (dispatchedIds log).count id := by
    rw [dispatchedIds_snoc, count_append, Nat.add_eq_left, count_eq_zero,
      mem_toList]
    exact hid
  refine ⟨fun hne => (hreads.seen id).mpr (.inl (h.seen hne)), h.rising, fun r hr hrid => ?_,
    fun c hc hcid hkind interval hinterval => ?_⟩
  · rcases hreads.active hhistory.valid hr with ⟨hr, -⟩ | ⟨-, hnew, -⟩ |
      ⟨_, _, _, _, _, _, _, hdisp⟩
    · exact h.ahead r hr hrid
    · rw [hunseen (hrid ▸ hnew)]
      exact nofun
    · exact absurd (hrid ▸ hdisp) hid
  · rw [hcount]
    rw [createdRecords_snoc] at hc
    rcases mem_snoc_toList.mp hc with hc | hc
    · have hseen : id ∈ st.seen := (hhistory.seen id).mpr ⟨c, hc, hcid⟩
      obtain ⟨hlen, hoccs, hactive⟩ := h.aligned c hc hcid hkind interval hinterval
      refine ⟨hlen, hoccs, fun r hr hrid => ?_⟩
      rcases hreads.active hhistory.valid hr with ⟨hr, -⟩ | ⟨-, hnew, -⟩ |
        ⟨_, _, _, _, _, _, _, hdisp⟩
      · exact hactive r hr hrid
      · exact absurd (hrid ▸ hseen) hnew
      · exact absurd (hrid ▸ hdisp) hid
    · -- the schedule is created here
      have hnew : id ∉ st.seen := hcid ▸ (hreads.created_new hc).1
      have hnone : id ∉ dispatchedIds log := fun hin => hnew (hhistory.dispatched id hin)
      rw [hunseen hnew, count_eq_zero.mpr hnone]
      refine ⟨rfl, nofun, fun r hr hrid => ?_⟩
      rcases hreads.active hhistory.valid hr with ⟨hr, -⟩ | ⟨hr, -⟩ | ⟨_, _, _, _, _, _, _, hdisp⟩
      · exact absurd (hrid ▸ hhistory.active_seen hr) hnew
      · rw [hc] at hr
        obtain rfl := some.inj hr
        exact ⟨hinterval, start_mem_progression _ _⟩
      · exact absurd (hrid ▸ hdisp) hid

/-- An occurrence more. -/
theorem Recurs.dispatch (h : Recurs id log st occs) (hhistory : History log st)
    (hread : st.read e = some st') (hid : dispatchedId e = some id) :
    Recurs id (log ++ [e]) st' (occs ++ (occurrenceOf st id e).toList) := by
  have hreads := reads_of_read hread
  obtain ⟨hcreated, -⟩ := hreads.named (.inr hid)
  have hrecords : createdRecords (log ++ [e]) = createdRecords log := by
    rw [createdRecords_snoc, hcreated, toList_none, append_nil]
  obtain ⟨r, hfind, hdispatch⟩ := dispatch_of_read hread hid
  obtain ⟨hr, hrid⟩ := find_eq_some hfind
  have hseen : id ∈ st'.seen := (hreads.seen id).mpr (.inl (hrid ▸ hhistory.active_seen hr))
  obtain ⟨c, hc, hcid, hckind⟩ := hhistory.active r hr
  rcases hdispatch with ⟨hkind, hactive⟩ |
    ⟨hkind, accepted, next, haccepted, hrepresentable, hdue, hnext, hactive⟩
  · -- a one-shot schedule has no occurrences and ends
    have hnone : occurrenceOf st id e = none := by
      rw [occurrenceOf, if_pos hid, hfind, bind_some]
      cases acceptedAt e with
      | none => rfl
      | some accepted =>
        exact everyOccurrenceMs_none ((hhistory.valid r hr).notEvery hkind) accepted
    rw [hnone, toList_none, append_nil]
    refine ⟨fun _ => hseen, h.rising, fun x hx hxid => ?_, fun c' hc' hcid' hkind' => ?_⟩
    · rw [hactive] at hx
      exact absurd hxid (mem_without.mp hx).2
    · rw [hrecords] at hc'
      have hsame := hhistory.created_unique hc hc' (hcid.trans (hrid.trans hcid'.symm))
      exact absurd (hckind.symm.trans (hsame ▸ hkind')) hkind
  · obtain ⟨interval, occurrence, time, hinterval, hpos, hoccurrence, hgreatest, hmoved, hleast⟩ :=
      accepted_spec (hhistory.valid r hr) hkind hrepresentable hdue
    obtain rfl : next = r.movedTo time := some.inj (hnext.symm.trans hmoved)
    have hsome : occurrenceOf st id e = some occurrence := by
      rw [occurrenceOf, if_pos hid, hfind, bind_some, haccepted, bind_some,
        hoccurrence]
    have hlow : r.scheduledMs ≤ occurrence :=
      hgreatest.2 ⟨start_mem_progression _ _, Set.mem_Iic.mpr hdue⟩
    have hhigh : occurrence ≤ accepted := hgreatest.1.2
    have hlater : accepted < time := hleast.1.2
    have hold := h.ahead r hr hrid
    have hmember : ∀ x ∈ st'.active, x.id = id →
        x.interval = some interval ∧ x.scheduledMs = time := by
      intro x hx hxid
      rw [hactive] at hx
      rcases mem_append.mp hx with hx | hx
      · obtain ⟨-, hxinterval, hxtime⟩ := movedTo_eq_some (mem_toList.mp hx)
        exact ⟨hxinterval.trans hinterval, hxtime⟩
      · exact absurd hxid (mem_without.mp hx).2
    rw [hsome, toList_some]
    refine ⟨fun _ => hseen, ?_, fun x hx hxid o ho => ?_, fun c' hc' hcid' hkind' i hi => ?_⟩
    · refine pairwise_append.mpr ⟨h.rising, pairwise_singleton _ _, fun o ho o' ho' => ?_⟩
      rw [mem_singleton.mp ho']
      have hlt := hold o ho
      omega
    · rw [(hmember x hx hxid).2]
      rcases mem_append.mp ho with ho | ho
      · have hlt := hold o ho
        omega
      · rw [mem_singleton.mp ho]
        omega
    · rw [hrecords] at hc'
      obtain ⟨hlen, hoccs, halign⟩ := h.aligned c' hc' hcid' hkind' i hi
      obtain ⟨hri, hstart⟩ := halign r hr hrid
      obtain rfl : interval = i := some.inj (hinterval.symm.trans hri)
      refine ⟨?_, fun o ho => ?_, fun x hx hxid => ?_⟩
      · rw [length_append, hlen, dispatchedIds_snoc, hid, count_append]
        simp
      · rcases mem_append.mp ho with ho | ho
        · exact hoccs o ho
        · rw [mem_singleton.mp ho]
          exact mem_progression_trans hstart hgreatest.1.1
      · obtain ⟨hxinterval, hxtime⟩ := hmember x hx hxid
        exact ⟨hxinterval, hxtime ▸ mem_progression_trans hstart hleast.1.1⟩

theorem Recurs.read (h : Recurs id log st occs) (hhistory : History log st)
    (hread : st.read e = some st') :
    Recurs id (log ++ [e]) st' (occs ++ (occurrenceOf st id e).toList) := by
  by_cases hid : dispatchedId e = some id
  · exact h.dispatch hhistory hread hid
  · rw [occurrenceOf, if_neg hid, toList_none, append_nil]
    exact h.other hhistory (reads_of_read hread) hid

theorem createdRecords_valid {c : Record} (h : c ∈ createdRecords log) : c.Valid := by
  obtain ⟨e, -, hcreated⟩ := mem_filterMap.mp h
  obtain ⟨_, -, hrecord⟩ := bind_eq_some_iff.mp hcreated
  obtain ⟨_, -, hdecode⟩ := bind_eq_some_iff.mp hrecord
  exact decodeRecord_valid hdecode

theorem recurs_of_foldlM (id : String) : ∀ (events log : List SessionEvent) {st st' : FoldState}
    {occs : List Int}, Recurs id log st occs → History log st →
      events.foldlM FoldState.read st = some st' →
        ∃ occs', events.foldlM (readOccurrence id) (st, occs) = some (st', occs') ∧
          Recurs id (log ++ events) st' occs'
  | [], log, st, st', occs, h, _, hfold => by
    cases hfold
    exact ⟨occs, rfl, by rwa [append_nil]⟩
  | e :: rest, log, st, st', occs, h, hhistory, hfold => by
    rw [foldlM_cons] at hfold
    obtain ⟨_, hread, hfold⟩ := bind_eq_some_iff.mp hfold
    obtain ⟨occs', hrun, hrecurs⟩ :=
      recurs_of_foldlM id rest (log ++ [e]) (h.read hhistory hread) (hhistory.read hread) hfold
    refine ⟨occs', ?_, ?_⟩
    · rw [foldlM_cons, readOccurrence, hread]
      exact hrun
    · rwa [append_assoc, singleton_append] at hrecurs

/-! ## §3 What is due -/

def DueDecision.records : DueDecision → List Record
  | .wait _ => []
  | .oneShot r => [r]
  | .every records => records

/-- What a waiting owner waits for: the first time there is, if any. -/
def WaitsFor (active : List Record) : Option Int → Prop
  | none => active = []
  | some time => IsLeast {t | ∃ r ∈ active, r.scheduledMs = t} time

theorem due_eq_nil {every : Bool} :
    folded.due every now = [] ↔
      ∀ r ∈ folded.active, (r.kind = .every ↔ every = true) → now < r.scheduledMs := by
  constructor
  · intro h r hr hkind
    by_contra hnot
    have hmem : r ∈ folded.due every now := by
      unfold Folded.due
      rw [mem_insertionSort, mem_filter]
      refine ⟨hr, ?_⟩
      simp only [and_eq_true, beq_iff_eq, decide_eq_true_eq]
      refine ⟨?_, by omega⟩
      rw [Bool.eq_iff_iff, decide_eq_true_eq]
      exact hkind
    rw [h] at hmem
    cases hmem
  · intro h
    by_contra hne
    obtain ⟨r, rest, hcons⟩ := exists_cons_of_ne_nil hne
    obtain ⟨hr, hkind, hdue⟩ := mem_due (hcons ▸ mem_cons_self : r ∈ folded.due every now)
    have hlater := h r hr hkind
    omega

theorem mem_decide (h : r ∈ (folded.decide now).records) :
    r ∈ folded.active ∧ r.scheduledMs ≤ now := by
  unfold Folded.decide at h
  split at h
  next found rest hdue =>
    obtain rfl := mem_singleton.mp h
    obtain ⟨hr, -, htime⟩ := mem_due (hdue ▸ mem_cons_self : r ∈ folded.due false now)
    exact ⟨hr, htime⟩
  next =>
    split at h
    next => cases h
    next =>
      obtain ⟨hr, -, htime⟩ := mem_due h
      exact ⟨hr, htime⟩

theorem waitsFor_min (active : List Record) :
    WaitsFor active (active.map (·.scheduledMs)).min? := by
  cases hmin : (active.map (·.scheduledMs)).min? with
  | none => exact map_eq_nil_iff.mp (List.min?_eq_none_iff.mp hmin)
  | some time =>
    obtain ⟨hmem, hle⟩ := List.min?_eq_some_iff.mp hmin
    refine ⟨mem_map.mp hmem, ?_⟩
    rintro _ ⟨r, hr, rfl⟩
    exact hle _ (mem_map_of_mem hr)

theorem waitsFor_unique {active : List Record} {target' : Option Int} (h : WaitsFor active target)
    (h' : WaitsFor active target') : target = target' := by
  cases target with
  | none =>
    obtain rfl : active = [] := h
    cases target' with
    | none => rfl
    | some time =>
      obtain ⟨r, hr, -⟩ := h'.1
      cases hr
  | some time =>
    cases target' with
    | none =>
      obtain rfl : active = [] := h'
      obtain ⟨r, hr, -⟩ := h.1
      cases hr
    | some time' => rw [h.unique h']

theorem decide_eq_wait :
    folded.decide now = .wait target ↔
      (∀ r ∈ folded.active, now < r.scheduledMs) ∧ WaitsFor folded.active target := by
  have hfuture : (∀ r ∈ folded.active, now < r.scheduledMs) →
      (folded.active.filter fun r => decide (now < r.scheduledMs)) = folded.active := fun h =>
    filter_eq_self.mpr fun r hr => decide_eq_true (h r hr)
  unfold Folded.decide
  constructor
  · intro h
    split at h
    next => cases h
    next honce =>
      split at h
      next hevery =>
        have hnone : ∀ r ∈ folded.active, now < r.scheduledMs := by
          intro r hr
          by_cases hkind : r.kind = .every
          · exact due_eq_nil.mp hevery r hr (by simp [hkind])
          · exact due_eq_nil.mp honce r hr (by simp [hkind])
        rw [hfuture hnone] at h
        obtain rfl := DueDecision.wait.inj h
        exact ⟨hnone, waitsFor_min folded.active⟩
      next => cases h
  · rintro ⟨hnone, hwaits⟩
    rw [due_eq_nil.mpr fun r hr _ => hnone r hr, due_eq_nil.mpr fun r hr _ => hnone r hr,
      hfuture hnone, waitsFor_unique hwaits (waitsFor_min folded.active)]

/-- A record that was just dispatched is not decided on again. -/
theorem dispatch_not_due {seedLength : Nat} {log : List SessionEvent} {e : SessionEvent}
    (hseed : seedLength ≤ log.length) (hfold : fold seedLength (log ++ [e]) = some folded)
    {id : String} (hid : dispatchedId e = some id)
    (haccepted : acceptedAt e = some accepted ∨ acceptedAt e = none) :
    ∀ r ∈ (folded.decide accepted).records, r.id ≠ id := by
  obtain ⟨st', hreplay, rfl⟩ := map_eq_some_iff.mp hfold
  have hdrop : (log ++ [e]).drop seedLength = log.drop seedLength ++ [e] :=
    drop_append_of_le_length hseed
  have hlen : ¬ (log ++ [e]).length < seedLength := by
    rw [length_append]
    omega
  rw [replay, if_neg hlen, hdrop, foldlM_append] at hreplay
  obtain ⟨st, hst, hreplay⟩ := bind_eq_some_iff.mp hreplay
  rw [foldlM_cons] at hreplay
  obtain ⟨mid, hread, hmid⟩ := bind_eq_some_iff.mp hreplay
  obtain rfl : mid = st' := some.inj hmid
  have hhistory : History ([] ++ log.drop seedLength) st :=
    history_of_foldlM _ [] history_empty hst
  intro r hr hrid
  obtain ⟨hactive, hdue⟩ := mem_decide hr
  have hmem := (mem_takeInOrder hactive).1
  obtain ⟨old, hfind, hdispatch⟩ := dispatch_of_read hread hid
  obtain ⟨hold, -⟩ := find_eq_some hfind
  rcases hdispatch with ⟨-, hgone⟩ | ⟨hkind, time, next, htime, hrepresentable, hpast, hnext, hgone⟩
  · rw [hgone] at hmem
    exact (mem_without.mp hmem).2 hrid
  · rw [htime] at haccepted
    obtain rfl : time = accepted := by simpa using haccepted
    obtain ⟨_, _, later, -, -, -, -, hmoved, hleast⟩ :=
      accepted_spec (hhistory.valid old hold) hkind hrepresentable hpast
    obtain rfl : next = old.movedTo later := some.inj (hnext.symm.trans hmoved)
    rw [hgone] at hmem
    rcases mem_append.mp hmem with hmem | hmem
    · obtain ⟨-, -, hr⟩ := movedTo_eq_some (mem_toList.mp hmem)
      have hlater : time < later := hleast.1.2
      omega
    · exact (mem_without.mp hmem).2 hrid

/-- Recurring schedules stay aligned and never stall. -/
theorem recurring_schedules_aligned :
    (∀ value r accepted, decodeRecord value = some r → r.kind = .every → Representable accepted →
      r.scheduledMs ≤ accepted →
        ∃ interval occurrence text time, r.interval = some interval ∧ 0 < interval ∧
          checkedI64 (accepted - r.scheduledMs) = some (accepted - r.scheduledMs) ∧
          everyOccurrence r accepted = some text ∧ formatInstant occurrence = some text ∧
          IsGreatest (r.times interval ∩ Set.Iic accepted) occurrence ∧
          IsLeast (r.times interval ∩ Set.Ioi accepted) time ∧
          everyNext r accepted = some (r.movedTo time) ∧
          (r.movedTo time = none ↔ ¬ Representable time)) ∧
    (∀ seedLength log st id, replay seedLength log = some st →
      ∃ occs, occurrences id (log.drop seedLength) = some (st, occs) ∧ occs.Pairwise (· < ·) ∧
        ∀ c ∈ createdRecords (log.drop seedLength), c.id = id → c.kind = .every →
          occs.length = (dispatchedIds (log.drop seedLength)).count id ∧
            ∃ interval, c.interval = some interval ∧
              ∀ first ∈ occs.head?, ∀ o ∈ occs, Int.ModEq interval o first) ∧
    (∀ seedLength log e folded id accepted, seedLength ≤ log.length →
      fold seedLength (log ++ [e]) = some folded → dispatchedId e = some id →
        acceptedAt e = some accepted ∨ acceptedAt e = none →
          ∀ r ∈ (folded.decide accepted).records, r.id ≠ id) ∧
    ∀ folded now target, Folded.decide folded now = .wait target ↔
      (∀ r ∈ folded.active, now < r.scheduledMs) ∧ WaitsFor folded.active target := by
  refine ⟨?_, ?_, fun _ _ _ _ _ _ hseed hfold hid => dispatch_not_due hseed hfold hid,
    fun _ _ _ => decide_eq_wait⟩
  · intro value r accepted hdecode hkind hrepresentable hdue
    have hvalid := decodeRecord_valid hdecode
    obtain ⟨interval, occurrence, time, hinterval, hpos, hoccurrence, hgreatest, hmoved, hleast⟩ :=
      accepted_spec hvalid hkind hrepresentable hdue
    have hscheduled : Representable r.scheduledMs := formatInstant_range hvalid.scheduled
    have hlow : r.scheduledMs ≤ occurrence :=
      hgreatest.2 ⟨start_mem_progression _ _, Set.mem_Iic.mpr hdue⟩
    have hhigh : occurrence ≤ accepted := hgreatest.1.2
    obtain ⟨text, htext⟩ := formatInstant_of_representable
      ⟨hscheduled.1.trans hlow, hhigh.trans hrepresentable.2⟩
    refine ⟨interval, occurrence, text, time, hinterval, hpos, checkedI64_eq ?_, ?_, htext,
      hgreatest, hleast, hmoved, ?_⟩
    · unfold Representable minInstantMs maxInstantMs at hscheduled hrepresentable
      omega
    · rw [everyOccurrence, hoccurrence, bind_some, htext]
    · rw [Record.movedTo, map_eq_none_iff, formatInstant_eq_none]
  · intro seedLength log st id hreplay
    have hhistory := history_of_replay hreplay
    unfold replay at hreplay
    split at hreplay
    · cases hreplay
    obtain ⟨occs, hrun, hrecurs⟩ := recurs_of_foldlM id _ [] (recurs_empty id) history_empty hreplay
    rw [nil_append] at hrecurs
    refine ⟨occs, hrun, hrecurs.rising, fun c hc hcid hkind => ?_⟩
    obtain ⟨interval, hinterval, -⟩ := (createdRecords_valid hc).interval hkind
    obtain ⟨hlen, hoccs, -⟩ := hrecurs.aligned c hc hcid hkind interval hinterval
    refine ⟨hlen, interval, hinterval, fun first hfirst o ho => ?_⟩
    exact modEq_of_mem_progression (hoccs o ho) (hoccs first (mem_of_mem_head? hfirst))

end Tessivum.Schedule
