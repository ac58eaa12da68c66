/-
Tessivum.Schedule.DeliveryTheorems — how often a reminder reaches the inbox.

A pass enqueues its reminders first and appends the changes that accept them
afterwards. Whatever fails, the log keeps folding: every change a pass writes
was planned on the state of the log it meets (`Sound`), because nobody else
writes schedule changes while it holds the gate.

That a reminder is enqueued once holds only when a pass that has enqueued its
reminders comes to its end. If the delivery to the agent or a dispatch change
fails, or the process stops in between, the schedule is still due and the next
pass enqueues it again (`reminder_enqueued_twice`). `reminders_delivered_once`
is the rest: in a run without such an interruption everything is enqueued at
most once.
-/
import Tessivum.Library.Machine
import Tessivum.Protocol.Wire
import Tessivum.Schedule.LogTheorems
import Tessivum.Schedule.Owner

namespace Tessivum.Schedule

open Library Protocol Session Agent List

/-! ## Changes to come -/

theorem read_changeEvent (st : FoldState) (data : Value) (time seq : Nat) :
    st.read (changeEvent data time seq) = st.apply data := if_pos rfl

def applyAll (st : FoldState) (changes : List Value) : Option FoldState :=
  changes.foldlM FoldState.apply st

/-- A reminder of a schedule that has ended, or whose time is past the
occurrence the reminder was for. -/
def Settled (st : FoldState) (x : Reminder) : Prop :=
  x.id ∈ st.seen ∧ ∀ r ∈ st.active, r.id = x.id →
    x.kind = .every ∧ r.kind = .every ∧ x.occurrence < r.scheduledMs

variable {e : SessionEvent} {st st' : FoldState} {x : Reminder} {log : List SessionEvent}
  {now : Int} {r : Record} {plan : DrivePlan} {seedLength : Nat} {arguments data : Value}
  {prompt id : String} {selector : Selector} {instantOf : Value → Except Value Int}
  {pass : Option Pass} {s : ScheduleSystem} {changes : List Value} {reminders : List Reminder}

theorem Settled.read (h : Settled st x) (hvalid : ∀ r ∈ st.active, r.Valid)
    (hreads : Reads st e st') : Settled st' x := by
  refine ⟨(hreads.seen x.id).mpr (.inl h.1), fun r hr hid => ?_⟩
  rcases hreads.active hvalid hr with ⟨hr, _⟩ | ⟨_, hnew, _⟩ | ⟨old, hold, holdid, hkind, hkind',
    _, _⟩
  · exact h.2 r hr hid
  · exact absurd (hid ▸ h.1) hnew
  · obtain ⟨hx, _, hpast⟩ := h.2 old hold (holdid.trans hid)
    exact ⟨hx, hkind', by omega⟩

theorem Settled.applyAll : ∀ {changes : List Value} {log : List SessionEvent} {st st' : FoldState}
    {x : Reminder}, Settled st x → History log st → Schedule.applyAll st changes = some st' →
      Settled st' x
  | [], _, _, _, _, h, _, hall => by
    cases hall
    exact h
  | data :: rest, log, st, st', x, h, hhistory, hall => by
    obtain ⟨mid, happly, hrest⟩ := bind_eq_some_iff.mp hall
    have hread : st.read (changeEvent data 0 0) = some mid := by
      rw [read_changeEvent]
      exact happly
    exact (h.read hhistory.valid (reads_of_read hread)).applyAll (hhistory.read hread) hrest

/-! ## Plans -/

/-- A plan fits the state it was made on: each of its reminders is for an
active schedule and due, no schedule is in it twice, and its changes will
be accepted and settle every one of them. -/
structure PlanFits (st : FoldState) (now : Int) (reminders : List Reminder)
    (changes : List Value) : Prop where
  active : ∀ x ∈ reminders, ∃ r ∈ st.active, r.id = x.id ∧ r.kind = x.kind ∧
    r.scheduledMs ≤ x.occurrence ∧ x.occurrence ≤ now
  nodup : (reminders.map (·.id)).Nodup
  settles : ∃ st', applyAll st changes = some st' ∧ ∀ x ∈ reminders, Settled st' x

theorem oneShotPlan_fits (h : History log st) (hr : r ∈ st.active) (hkind : r.kind ≠ .every)
    (hdue : r.scheduledMs ≤ now) :
    PlanFits st now (oneShotPlan r).reminders (oneShotPlan r).changes := by
  refine ⟨fun x hx => ?_, nodup_singleton _, { st with active := st.without r.id }, ?_,
    fun x hx => ?_⟩
  · rw [oneShotPlan, mem_singleton] at hx
    subst hx
    exact ⟨r, hr, rfl, rfl, Int.le_refl _, hdue⟩
  · rw [oneShotPlan, applyAll, foldlM_cons,
      apply_dispatchChange (h.valid r hr) (find_of_mem h.nodup hr) hkind]
    rfl
  · rw [oneShotPlan, mem_singleton] at hx
    subst hx
    exact ⟨h.active_seen hr, fun r' hr' hid => absurd hid (mem_without.mp hr').2⟩

/-- The entries of a batch are those of the due records. -/
theorem batchEntries_spec (hmax : now ≤ maxInstantMs) : ∀ {records : List Record}
    {entries : List (Record × Int × String)}, records.mapM (batchEntry now) = some entries →
      (∀ r ∈ records, r.Valid ∧ r.kind = .every ∧ r.scheduledMs ≤ now) →
      entries.map (·.1) = records ∧
        ∀ entry ∈ entries, entry.1.scheduledMs ≤ entry.2.1 ∧ entry.2.1 ≤ now
  | [], entries, h, _ => by
    cases h
    exact ⟨rfl, fun _ h => (by cases h)⟩
  | r :: rest, entries, h, hdue => by
    obtain ⟨hvalid, hkind, hrdue⟩ := hdue r mem_cons_self
    obtain ⟨_, hoccurrence, hlow, hhigh⟩ :=
      everyOccurrenceMs_spec hvalid hkind hrdue hmax
    rw [mapM_cons, batchEntry, hoccurrence] at h
    simp only [bind_eq_bind, bind_some, bind_eq_some_iff] at h
    obtain ⟨entry, ⟨_, _, hentry⟩, _, hothers, h⟩ := h
    cases hentry
    cases h
    obtain ⟨hmap, hall⟩ := batchEntries_spec hmax hothers fun other hother =>
      hdue other (mem_cons_of_mem _ hother)
    refine ⟨by rw [map_cons, hmap], fun entry hentry => ?_⟩
    rcases mem_cons.mp hentry with rfl | hentry
    · exact ⟨hlow, hhigh⟩
    · exact hall entry hentry

/-- Accepting the entries of a batch settles each of them. -/
theorem batch_settles {acceptedAt : String} (hnow : formatInstant now = some acceptedAt) :
    ∀ (entries : List (Record × Int × String)) {log : List SessionEvent} {st : FoldState},
      History log st →
      (∀ entry ∈ entries, entry.1 ∈ st.active ∧ entry.1.kind = .every ∧
        entry.1.scheduledMs ≤ now ∧ entry.2.1 ≤ now) →
      (entries.map fun entry => entry.1.id).Nodup →
      ∃ st', applyAll st (entries.map fun entry => acceptChange entry.1.id acceptedAt) = some st' ∧
        ∀ entry ∈ entries,
          Settled st' { id := entry.1.id, kind := entry.1.kind, occurrence := entry.2.1 }
  | [], _, st, _, _, _ => ⟨st, rfl, fun _ h => (by cases h)⟩
  | (r, occurrence, text) :: rest, log, st, h, hdue, hnodup => by
    obtain ⟨hr, hkind, hrdue, hpast⟩ := hdue _ mem_cons_self
    have hvalid := h.valid r hr
    obtain ⟨hnotin, hnodup⟩ := nodup_cons.mp hnodup
    obtain ⟨next, hnext, hspec⟩ :=
      everyNext_spec hvalid hkind hrdue (formatInstant_range hnow).2
    have happly := apply_acceptChange hvalid (find_of_mem h.nodup hr) hkind hnow hnext
    -- The head's change is accepted and settles the head.
    have hread : st.read (changeEvent (acceptChange r.id acceptedAt) 0 0)
        = some { st with active := next.toList ++ st.without r.id } := by
      rw [read_changeEvent]
      exact happly
    have hhead : Settled { st with active := next.toList ++ st.without r.id }
        { id := r.id, kind := r.kind, occurrence } := by
      refine ⟨h.active_seen hr, fun n hn hid => ?_⟩
      rcases mem_append.mp hn with hn | hn
      · obtain ⟨_, _, hnkind, hlater⟩ := hspec n (mem_toList.mp hn)
        exact ⟨hkind, hnkind.trans hkind, Int.lt_of_le_of_lt hpast hlater⟩
      · exact absurd hid (mem_without.mp hn).2
    -- The others are still as they were.
    have hrest : ∀ entry ∈ rest, entry.1 ∈ next.toList ++ st.without r.id ∧
        entry.1.kind = .every ∧ entry.1.scheduledMs ≤ now ∧ entry.2.1 ≤ now := by
      intro entry hentry
      obtain ⟨hmem, hfacts⟩ := hdue entry (mem_cons_of_mem _ hentry)
      have hne : entry.1.id ≠ r.id := fun heq =>
        hnotin (mem_map.mpr ⟨entry, hentry, heq⟩)
      exact ⟨mem_append_right _ (mem_without.mpr ⟨hmem, hne⟩), hfacts⟩
    obtain ⟨st', hall, hsettled⟩ := batch_settles hnow rest (h.read hread) hrest hnodup
    refine ⟨st', ?_, fun entry hentry => ?_⟩
    · rw [map_cons, applyAll, foldlM_cons, happly]
      exact hall
    · rcases mem_cons.mp hentry with rfl | hentry
      · exact hhead.applyAll (h.read hread) hall
      · exact hsettled entry hentry

theorem batchPlan_fits (h : History log st) {records : List Record}
    (hdue : ∀ r ∈ records, r ∈ st.active ∧ r.kind = .every ∧ r.scheduledMs ≤ now)
    (hnodup : (records.map (·.id)).Nodup) (hplan : batchPlan now records = some plan) :
    PlanFits st now plan.reminders plan.changes := by
  obtain ⟨_, hnow, hplan⟩ := bind_eq_some_iff.mp hplan
  obtain ⟨entries, hentries, hplan⟩ := bind_eq_some_iff.mp hplan
  cases hplan
  obtain ⟨hrecords, hbounds⟩ := batchEntries_spec (formatInstant_range hnow).2 hentries
    fun r hr => ⟨h.valid r (hdue r hr).1, (hdue r hr).2⟩
  subst hrecords
  rw [map_map] at hnodup
  have hentry : ∀ entry ∈ entries, entry.1 ∈ st.active ∧ entry.1.kind = .every ∧
      entry.1.scheduledMs ≤ now := fun entry hentry =>
    hdue entry.1 (mem_map_of_mem hentry)
  refine ⟨fun x hx => ?_, ?_, ?_⟩
  · obtain ⟨entry, hmem, rfl⟩ := mem_map.mp hx
    exact ⟨entry.1, (hentry entry hmem).1, rfl, rfl, hbounds entry hmem⟩
  · rw [map_map]
    exact hnodup
  · obtain ⟨st', hall, hsettled⟩ := batch_settles hnow entries h
      (fun entry hmem => ⟨(hentry entry hmem).1, (hentry entry hmem).2.1, (hentry entry hmem).2.2,
        (hbounds entry hmem).2⟩) hnodup
    refine ⟨st', ?_, fun x hx => ?_⟩
    · rw [map_map]
      exact hall
    · obtain ⟨entry, hmem, rfl⟩ := mem_map.mp hx
      exact hsettled entry hmem

/-- What a drive plans fits the log it was planned on. -/
theorem planDrive_fits (hreplay : replay seedLength log = some st)
    (h : planDrive seedLength log now = some plan) :
    PlanFits st now plan.reminders plan.changes := by
  have hhistory := history_of_replay hreplay
  unfold planDrive fold at h
  rw [hreplay, map_some] at h
  simp only [bind_eq_bind, bind_some] at h
  have hactive : ∀ {r : Record}, r ∈ takeInOrder st.order st.active → r ∈ st.active := fun hr =>
    (mem_takeInOrder hr).1
  unfold Folded.decide at h
  split at h
  · cases h
  · rename_i hdecide
    cases h
    split at hdecide
    · rename_i hdue
      cases hdecide
      obtain ⟨hr, hkind, hrdue⟩ := mem_due (hdue ▸ mem_cons_self)
      exact oneShotPlan_fits hhistory (hactive hr) (by simpa using hkind) hrdue
    · split at hdecide <;> cases hdecide
  · rename_i hdecide
    split at hdecide
    · cases hdecide
    · split at hdecide
      · cases hdecide
      · cases hdecide
        refine batchPlan_fits hhistory (fun r hr => ?_) (due_nodup (takeInOrder_nodup _ _) _ _) h
        obtain ⟨hr, hkind, hrdue⟩ := mem_due hr
        exact ⟨hactive hr, hkind.mpr rfl, hrdue⟩

theorem checkArguments_ok (h : checkArguments arguments = .ok (prompt, selector)) :
    isBlank prompt = false := by
  replace h := after_check h
  obtain ⟨hblank, h⟩ := check_bind_eq_ok.mp h
  replace h := after_check h
  replace h := after_check h
  have hblank := not_eq_true _ ▸ failIf_eq_ok.mp hblank
  split at h <;> cases h <;> exact hblank

theorem buildRecord_valid (h : buildRecord instantOf id prompt selector now = .ok r)
    (hid : isTrimmed id = true) (hprompt : isBlank prompt = false) : r.Valid ∧ r.id = id := by
  have hprompt := isTrimmed_trim hprompt
  have hmax : (maxSafeInteger : Int) = 9007199254740991 := rfl
  cases selector with
  | after seconds =>
    obtain ⟨hrange, h⟩ := check_bind_eq_ok.mp h
    obtain ⟨target, _, h⟩ := bind_eq_ok.mp h
    have hrange := failIf_eq_ok.mp hrange
    refine Record.new_valid h hid hprompt ⟨⟨seconds, rfl, ?_⟩, rfl⟩
    simp only [acceptsAfter, and_eq_true, decide_eq_true_eq]
    omega
  | every seconds =>
    obtain ⟨hrange, h⟩ := check_bind_eq_ok.mp h
    obtain ⟨hmin, h⟩ := check_bind_eq_ok.mp h
    obtain ⟨target, _, h⟩ := bind_eq_ok.mp h
    have hrange := failIf_eq_ok.mp hrange
    have hmin := failIf_eq_ok.mp hmin
    refine Record.new_valid h hid hprompt ⟨rfl, seconds, rfl, ?_⟩
    simp only [acceptsEvery, and_eq_true, decide_eq_true_eq]
    rw [checkedI64_eq (by omega)]
    exact ⟨⟨Int.not_lt.mp hmin, by omega⟩, rfl⟩
  | «at» value =>
    obtain ⟨_, _, h⟩ := bind_eq_ok.mp h
    exact Record.new_valid h hid hprompt ⟨rfl, rfl⟩

theorem planCreate_fits (hreplay : replay seedLength log = some st)
    (h : planCreate instantOf seedLength log arguments now = .ok data) :
    (st.apply data).isSome = true := by
  have hhistory := history_of_replay hreplay
  obtain ⟨⟨_, _⟩, harguments, h⟩ := bind_eq_ok.mp h
  obtain ⟨_, hfold, h⟩ := bind_eq_ok.mp h
  obtain ⟨r, hr, h⟩ := bind_eq_ok.mp h
  cases h
  have hfold := okOr_eq_ok.mp hfold
  rw [fold, hreplay] at hfold
  cases hfold
  obtain ⟨hnew, htrimmed⟩ :=
    allocateId_spec { active := takeInOrder st.order st.active, seen := st.seen }
  obtain ⟨hvalid, hid⟩ := buildRecord_valid hr htrimmed (checkArguments_ok harguments)
  have hnew : r.id ∉ st.seen := hid ▸ hnew
  exact apply_createChange hvalid hnew fun other hother heq =>
    hnew (heq ▸ hhistory.active_seen hother)

theorem planDelete_fits (hreplay : replay seedLength log = some st)
    (h : planDelete seedLength log id = .ok (some data)) : (st.apply data).isSome = true := by
  have hhistory := history_of_replay hreplay
  replace h := after_check h
  obtain ⟨_, hfold, h⟩ := bind_eq_ok.mp h
  have hfold := okOr_eq_ok.mp hfold
  rw [fold, hreplay] at hfold
  cases hfold
  split at h
  · rename_i hany
    cases h
    obtain ⟨r, hr, hid⟩ := any_eq_true.mp hany
    have hid : r.id = id := by simpa using hid
    have hr := (mem_takeInOrder hr).1
    exact hid ▸ apply_deleteChange (hhistory.valid r hr) hr
  · cases h

/-! ## What holds whatever fails -/

/-- What the holder of the gate still has to write fits the state of the
log. -/
def PassFits (st : FoldState) : Option Pass → Prop
  | none => True
  | some (.change data) => (st.apply data).isSome = true
  | some (.enqueue now _ reminders changes) => PlanFits st now reminders changes
  | some (.accept changes) => (applyAll st changes).isSome = true
  | some (.dispatch changes) => (applyAll st changes).isSome = true

/-- A reminder in the inbox: its event is in the log, it was not early, and
its schedule had not been deleted. -/
structure Delivered (s : ScheduleSystem) (d : Delivery) : Prop where
  logged : ∃ e, s.log[d.position]? = some e ∧ e.eventType = "agent/inbox/enqueued"
  onTime : d.reminder.occurrence ≤ d.now
  live : d.reminder.id ∉ deletedIds ((s.log.take d.position).drop s.seedLength)

/-- What holds of a session in every state, with the state its log folds
to. -/
structure Sound (s : ScheduleSystem) (st : FoldState) : Prop where
  length : s.seedLength ≤ s.log.length
  replays : replay s.seedLength s.log = some st
  pass : PassFits st s.pass
  delivered : ∀ d ∈ s.delivered, Delivered s d

theorem start_sound (seed : List SessionEvent) : Sound (.start seed) FoldState.empty where
  length := le_refl _
  replays := by
    simp only [ScheduleSystem.start, replay, lt_irrefl, if_false, drop_length,
      foldlM_nil]
    rfl
  pass := trivial
  delivered := nofun

theorem Sound.withPass (h : Sound s st) (hpass : PassFits st pass) : Sound { s with pass } st where
  length := h.length
  replays := h.replays
  pass := hpass
  delivered d hd :=
    { logged := (h.delivered d hd).logged
      onTime := (h.delivered d hd).onTime
      live := (h.delivered d hd).live }

theorem replay_snoc (hlength : seedLength ≤ log.length) (h : replay seedLength log = some st)
    (e : SessionEvent) : replay seedLength (log ++ [e]) = st.read e := by
  unfold replay at h ⊢
  rw [if_neg (by omega)] at h
  rw [if_neg (by rw [length_append]; omega), drop_append_of_le_length hlength,
    foldlM_append, h]
  simp

theorem Delivered.snoc {d : Delivery} (h : Delivered s d) (e : SessionEvent) (pass : Option Pass)
    (delivered : List Delivery) :
    Delivered { s with log := s.log ++ [e], pass, delivered } d where
  logged := by
    obtain ⟨found, hfound, htype⟩ := h.logged
    exact ⟨found, by rw [getElem?_append_left (List.getElem?_eq_some_iff.mp hfound).1, hfound],
      htype⟩
  onTime := h.onTime
  live := by
    obtain ⟨_, hfound, _⟩ := h.logged
    have hle : d.position ≤ s.log.length := le_of_lt (List.getElem?_eq_some_iff.mp hfound).1
    show d.reminder.id ∉ deletedIds (((s.log ++ [e]).take d.position).drop s.seedLength)
    rw [take_append_of_le_length hle]
    exact h.live

theorem Sound.snoc (h : Sound s st) (hread : st.read e = some st') (hpass : PassFits st' pass) :
    Sound { s with log := s.log ++ [e], pass } st' where
  length := by
    rw [length_append]
    exact Nat.le_add_right_of_le h.length
  replays := (replay_snoc h.length h.replays e).trans hread
  pass := hpass
  delivered d hd := (h.delivered d hd).snoc e pass s.delivered

theorem appendNext_eq_some {log' : List SessionEvent} {succeeds : Bool} {build : Nat → SessionEvent}
    (h : appendNext log succeeds build = some log') : ∃ seq, log' = log ++ [build seq] := by
  unfold appendNext at h
  split at h
  · cases h
    exact ⟨_, rfl⟩
  · cases h

theorem read_inboxEnqueued (S : Serde) (st : FoldState) (message : Message) (time seq : Nat) :
    st.read (inboxEnqueued S .followup message time seq) = some st := by
  unfold FoldState.read
  rw [if_neg (by simp [inboxEnqueued, SessionEvent.plain, scheduleChange])]

section

variable {S : Serde} {instantOf : Value → Except Value Int}

/-- A planned batch is put into the inbox. -/
theorem Sound.enqueue {s : ScheduleSystem} {st : FoldState} (h : Sound s st) {now : Int}
    {message : Message} {reminders : List Reminder} {changes : List Value}
    (hplan : PlanFits st now reminders changes) (time seq : Nat) :
    Sound { s with
      log := s.log ++ [inboxEnqueued S .followup message time seq], pass := some (.accept changes)
      delivered := s.delivered ++ reminders.map fun reminder =>
        { reminder, now, position := s.log.length } } st := by
  have hhistory := history_of_replay h.replays
  obtain ⟨_, hall, _⟩ := hplan.settles
  refine ⟨?_, (replay_snoc h.length h.replays _).trans (read_inboxEnqueued S st message time seq),
    by rw [PassFits, hall]; rfl, fun d hd => ?_⟩
  · rw [length_append]
    exact Nat.le_add_right_of_le h.length
  · rcases mem_append.mp hd with hd | hd
    · exact (h.delivered d hd).snoc _ _ _
    · obtain ⟨x, hx, rfl⟩ := mem_map.mp hd
      obtain ⟨r, hr, hid, _, _, hpast⟩ := hplan.active x hx
      refine ⟨⟨_, getElem?_concat_length, rfl⟩, hpast, fun hdeleted => ?_⟩
      simp only [take_left'] at hdeleted
      rw [← hid] at hdeleted
      exact (hhistory.deleted r.id hdeleted).2 r hr rfl

end

/-! ## What holds while nothing is interrupted -/

def owed : Option Pass → List Value
  | some (.accept changes) => changes
  | some (.dispatch changes) => changes
  | _ => []

/-- Two reminders are for different things: other schedules, or two
occurrences of one `every` schedule. -/
def Distinct (x y : Reminder) : Prop :=
  x.id = y.id → x.kind = .every ∧ y.kind = .every ∧ x.occurrence ≠ y.occurrence

/-- No reminder was enqueued twice, and the changes still owed settle every
one of them. -/
structure Exact (s : ScheduleSystem) (st : FoldState) : Prop where
  settles : ∃ st', applyAll st (owed s.pass) = some st' ∧ ∀ d ∈ s.delivered, Settled st' d.reminder
  once : s.delivered.Pairwise fun d d' => Distinct d.reminder d'.reminder

/-- The condition on a step: a pass that has enqueued its reminders is not
interrupted. Neither the delivery to the agent nor a dispatch change fails,
and the process does not stop before the last of them. -/
def uninterrupted (s : ScheduleSystem) (i : ScheduleStep) : Bool :=
  match s.pass, i with
  | some (.accept _), .followup succeeds => succeeds
  | some (.accept _), .restart => false
  | some (.dispatch (_ :: _)), .append succeeds _ => succeeds && (nextSeq s.log).toOption.isSome
  | some (.dispatch (_ :: _)), .restart => false
  | _, _ => true

def Uninterrupted (s : ScheduleSystem) (i : ScheduleStep) : Prop := uninterrupted s i = true

instance (s : ScheduleSystem) (i : ScheduleStep) : Decidable (Uninterrupted s i) :=
  inferInstanceAs (Decidable (_ = true))

theorem Exact.withPass (h : Exact s st) (howed : owed pass = owed s.pass) :
    Exact { s with pass } st where
  settles := by
    show ∃ st', applyAll st (owed pass) = some st' ∧ _
    rw [howed]
    exact h.settles
  once := h.once

theorem Exact.settled (h : Exact s st) (howed : owed s.pass = []) :
    ∀ d ∈ s.delivered, Settled st d.reminder := by
  obtain ⟨_, hall, hsettled⟩ := h.settles
  rw [howed] at hall
  cases hall
  exact hsettled

theorem PlanFits.distinct (h : PlanFits st now reminders changes) {y : Reminder} (hx : Settled st x)
    (hy : y ∈ reminders) : Distinct x y := by
  intro hid
  obtain ⟨r, hr, hrid, hkind, hlow, _⟩ := h.active y hy
  obtain ⟨hevery, hrevery, hpast⟩ := hx.2 r hr (hrid.trans hid.symm)
  exact ⟨hevery, hkind ▸ hrevery, by omega⟩

/-- Enqueueing a plan keeps the deliveries exact: its changes are owed now,
and will settle what was settled and what is new. -/
theorem Exact.enqueue (hsound : Sound s st) (h : Exact s st) (howed : owed s.pass = [])
    (hplan : PlanFits st now reminders changes) (log : List SessionEvent) :
    Exact { s with
      log, pass := some (.accept changes)
      delivered := s.delivered ++ reminders.map fun reminder =>
        { reminder, now, position := s.log.length } } st := by
  have hsettled := h.settled howed
  obtain ⟨st', hall, hnew⟩ := hplan.settles
  refine ⟨⟨st', hall, fun d hd => ?_⟩, pairwise_append.mpr ⟨h.once, ?_, fun d hd d' hd' => ?_⟩⟩
  · rcases mem_append.mp hd with hd | hd
    · exact (hsettled d hd).applyAll (history_of_replay hsound.replays) hall
    · obtain ⟨x, hx, rfl⟩ := mem_map.mp hd
      exact hnew x hx
  · rw [pairwise_map]
    exact (pairwise_map.mp hplan.nodup).imp fun hne hid => absurd hid hne
  · obtain ⟨x, hx, rfl⟩ := mem_map.mp hd'
    exact hplan.distinct (hsettled d hd) hx

theorem appendNext_isSome {log : List SessionEvent} {build : Nat → SessionEvent}
    (h : (nextSeq log).toOption.isSome = true) : (appendNext log true build).isSome = true := by
  unfold appendNext
  cases hseq : nextSeq log with
  | ok seq => rfl
  | error e =>
    rw [hseq] at h
    cases h

section

variable {S : Serde} {instantOf : Value → Except Value Int}

/-- What one step does: it keeps the log sound, and if it meets the
condition the deliveries exact. -/
theorem Sound.step {s : ScheduleSystem} {st : FoldState} (h : Sound s st) (i : ScheduleStep) :
    ∃ st', Sound (s.step S instantOf i) st' ∧
      (Exact s st → Uninterrupted s i → Exact (s.step S instantOf i) st') := by
  have hhistory := history_of_replay h.replays
  -- A tool or a drive pass only starts when the gate is free.
  have hfree : ¬ s.pass.isSome = true → owed s.pass = [] := by
    intro hpass
    rw [not_isSome_iff_eq_none.mp hpass]
    rfl
  have hkept : ∃ st', Sound s st' ∧ (Exact s st → Uninterrupted s i → Exact s st') :=
    ⟨st, h, fun hexact _ => hexact⟩
  cases i with
  | create arguments now =>
    simp only [ScheduleSystem.step]
    split
    · exact hkept
    · rename_i hpass
      split
      · rename_i hplan
        exact ⟨st, h.withPass (planCreate_fits h.replays hplan),
          fun hexact _ => hexact.withPass (hfree hpass).symm⟩
      · exact hkept
  | list => exact hkept
  | delete id =>
    simp only [ScheduleSystem.step]
    split
    · exact hkept
    · rename_i hpass
      split
      · rename_i hplan
        exact ⟨st, h.withPass (planDelete_fits h.replays hplan),
          fun hexact _ => hexact.withPass (hfree hpass).symm⟩
      · exact hkept
      · exact hkept
  | drive now message =>
    simp only [ScheduleSystem.step]
    split
    · exact hkept
    · rename_i hpass
      split
      · rename_i hplan
        exact ⟨st, h.withPass (planDrive_fits h.replays hplan),
          fun hexact _ => hexact.withPass (hfree hpass).symm⟩
      · exact hkept
  | append succeeds time =>
    have hpass := h.pass
    simp only [ScheduleSystem.step, ScheduleSystem.append]
    split
    · -- The change of a tool.
      rename_i data hdata
      rw [hdata] at hpass
      have howed : owed s.pass = [] := by rw [hdata]; rfl
      split
      · rename_i hlog
        obtain ⟨seq, rfl⟩ := appendNext_eq_some hlog
        obtain ⟨st', happly⟩ := isSome_iff_exists.mp hpass
        have hread : st.read (changeEvent data time seq) = some st' := by
          rw [read_changeEvent]
          exact happly
        refine ⟨st', h.snoc hread trivial, fun hexact _ => ⟨⟨st', rfl, fun d hd => ?_⟩,
          hexact.once⟩⟩
        exact (hexact.settled howed d hd).read hhistory.valid (reads_of_read hread)
      · exact ⟨st, h.withPass trivial, fun hexact _ => hexact.withPass howed.symm⟩
    · -- The inbox event of a drive pass.
      rename_i hdata
      rw [hdata] at hpass
      have howed : owed s.pass = [] := by rw [hdata]; rfl
      split
      · rename_i hlog
        obtain ⟨seq, rfl⟩ := appendNext_eq_some hlog
        exact ⟨st, h.enqueue hpass time seq, fun hexact _ => hexact.enqueue h howed hpass _⟩
      · exact ⟨st, h.withPass trivial, fun hexact _ => hexact.withPass howed.symm⟩
    · -- A dispatch change of a drive pass.
      rename_i data rest hdata
      rw [hdata] at hpass
      split
      · rename_i hlog
        obtain ⟨seq, rfl⟩ := appendNext_eq_some hlog
        obtain ⟨final, hall⟩ := isSome_iff_exists.mp hpass
        obtain ⟨st', happly, hrest⟩ := bind_eq_some_iff.mp hall
        have hread : st.read (changeEvent data time seq) = some st' := by
          rw [read_changeEvent]
          exact happly
        refine ⟨st', h.snoc hread ?_, fun hexact _ => ⟨⟨final, ?_, fun d hd => ?_⟩, hexact.once⟩⟩
        · split
          · trivial
          · exact isSome_iff_exists.mpr ⟨final, hrest⟩
        · cases rest with
          | nil => exact hrest
          | cons => exact hrest
        · obtain ⟨_, hfound, hsettled⟩ := hexact.settles
          rw [hdata, owed, hall] at hfound
          cases hfound
          exact hsettled d hd
      · rename_i hfailed
        refine ⟨st, h.withPass trivial, fun _ hi => ?_⟩
        simp only [Uninterrupted, uninterrupted, hdata] at hi
        rw [and_eq_true] at hi
        have hsome := @appendNext_isSome s.log (changeEvent data time) hi.2
        rw [hi.1] at hfailed
        rw [hfailed] at hsome
        cases hsome
    · rename_i hdata
      exact ⟨st, h.withPass trivial, fun hexact _ => hexact.withPass (by rw [hdata]; rfl)⟩
    · exact hkept
    · exact hkept
  | followup succeeds =>
    have hpass := h.pass
    simp only [ScheduleSystem.step]
    split
    · rename_i hdata
      rw [hdata] at hpass
      refine ⟨st, h.withPass ?_, fun hexact hi => hexact.withPass ?_⟩
      · split
        · exact hpass
        · trivial
      · simp only [Uninterrupted, uninterrupted, hdata] at hi
        rw [hi, hdata]
        rfl
    · exact hkept
  | other e =>
    simp only [ScheduleSystem.step]
    split
    · exact hkept
    · rename_i hother
      exact ⟨st, h.snoc (if_neg hother) h.pass, fun hexact _ => ⟨hexact.settles, hexact.once⟩⟩
  | restart =>
    refine ⟨st, h.withPass trivial, fun hexact hi => hexact.withPass ?_⟩
    -- A stop is allowed only while nothing is owed.
    cases hdata : s.pass with
    | none => rfl
    | some pass =>
      simp only [Uninterrupted, uninterrupted, hdata] at hi
      cases pass with
      | change data => rfl
      | enqueue => rfl
      | accept changes => cases hi
      | dispatch changes =>
        cases changes with
        | nil => rfl
        | cons data rest => cases hi

/-! ## Runs -/

/-- The invariant over every run. -/
theorem run_sound (seed : List SessionEvent) (steps : List ScheduleStep) :
    ∃ st, Sound ((ScheduleSystem.start seed).run S instantOf steps) st := by
  induction steps using reverseRecOn with
  | nil => exact ⟨_, start_sound seed⟩
  | append_singleton steps i ih =>
    obtain ⟨_, h⟩ := ih
    obtain ⟨st', h', _⟩ := h.step i
    rw [ScheduleSystem.run, foldl_append]
    exact ⟨st', h'⟩

/-- What the log of a session says, whatever failed: it folds, no id is
reused, a one-shot schedule is dispatched at most once, and the reminders
in the inbox are on time and of schedules that were not deleted. -/
structure LogSound (s : ScheduleSystem) : Prop where
  folds : (fold s.seedLength s.log).isSome = true
  fresh : ((createdRecords (s.log.drop s.seedLength)).map (·.id)).Nodup
  dispatched : ∀ c ∈ createdRecords (s.log.drop s.seedLength), c.kind ≠ .every →
    (dispatchedIds (s.log.drop s.seedLength)).count c.id ≤ 1
  delivered : ∀ d ∈ s.delivered, Delivered s d

/-- Scheduled reminders are delivered exactly once: the log is sound, and
no one-shot schedule and no occurrence of an `every` schedule was enqueued
twice. -/
structure DeliveredOnce (s : ScheduleSystem) : Prop extends LogSound s where
  once : s.delivered.Pairwise fun d d' => Distinct d.reminder d'.reminder

/-- The log of every run is sound. -/
theorem run_logSound (seed : List SessionEvent) (steps : List ScheduleStep) :
    LogSound ((ScheduleSystem.start seed).run S instantOf steps) := by
  obtain ⟨_, h⟩ := @run_sound S instantOf seed steps
  have hhistory := history_of_replay h.replays
  exact {
    folds := by
      rw [fold, h.replays]
      rfl
    fresh := hhistory.created
    dispatched := fun c hc hkind => (hhistory.once c hc hkind).1
    delivered := h.delivered }

end

/-- In a run in which no pass is interrupted between its reminders and
their dispatch changes, every reminder is delivered once. -/
theorem reminders_delivered_once (S : Serde) (instantOf : Value → Except Value Int)
    (seed : List SessionEvent) (steps : List ScheduleStep)
    (hsteps : Meets Uninterrupted (ScheduleSystem.step S instantOf) (.start seed) steps) :
    DeliveredOnce ((ScheduleSystem.start seed).run S instantOf steps) := by
  have hrun : ∃ st, Sound ((ScheduleSystem.start seed).run S instantOf steps) st ∧
      Exact ((ScheduleSystem.start seed).run S instantOf steps) st :=
    foldl_invariant_of_meets (fun s => ∃ st, Sound s st ∧ Exact s st)
      (fun s i hi ⟨st, hsound, hexact⟩ =>
        let ⟨st', hsound', hexact'⟩ := hsound.step i
        ⟨st', hsound', hexact' hexact hi⟩)
      steps (.start seed) hsteps ⟨_, start_sound seed, ⟨_, rfl, nofun⟩, List.Pairwise.nil⟩
  obtain ⟨_, _, hexact⟩ := hrun
  exact { run_logSound seed steps with once := hexact.once }

/-! ## A sample session -/

def second (n : Nat) (h : n < 1000000 := by decide) : Instant :=
  ⟨n * 1000, by
    unfold minInstantMs maxInstantMs
    omega⟩

/-- The arguments of a reminder in one second, and of one every five
minutes. -/
def onceArguments : Value := .object [("after_seconds", .ofNat 1), ("prompt", .string "stretch")]
def everyArguments : Value := .object [("every_seconds", .ofNat 300), ("prompt", .string "drink")]

/-- A reader of `at` arguments that knows none. -/
def noInstant : Value → Except Value Int := fun _ => .error .null

/-- A one-shot reminder and a repeated one, each delivered. -/
def calmSteps : List ScheduleStep :=
  [ .create onceArguments (second 0), .append true 0
  , .create everyArguments (second 0), .append true 0
  , .drive (second 1) ⟨"m1"⟩, .append true 1000, .followup true, .append true 1000
  , .drive (second 700) ⟨"m2"⟩, .append true 700000, .followup true, .append true 700000
  , .delete "schedule-2", .append true 700000 ]

theorem reminders_delivered_once_calmSteps :
    DeliveredOnce ((ScheduleSystem.start []).run wireSerde noInstant calmSteps) ∧
      ((ScheduleSystem.start []).run wireSerde noInstant calmSteps).delivered.map (·.reminder)
        = [ { id := "schedule-1", kind := .after, occurrence := 1000 }
          , { id := "schedule-2", kind := .every, occurrence := 600000 } ] :=
  ⟨reminders_delivered_once wireSerde noInstant [] calmSteps (by decide +kernel), by
    decide +kernel⟩

/-- A one-shot reminder whose first dispatch change cannot be written. -/
def failingSteps : List ScheduleStep :=
  [ .create onceArguments (second 0), .append true 0
  , .drive (second 1) ⟨"m1"⟩, .append true 1000, .followup true, .append false 1000
  , .drive (second 2) ⟨"m2"⟩, .append true 2000, .followup true, .append true 2000 ]

/-- The reminder is in the inbox twice. -/
theorem reminder_enqueued_twice :
    ((ScheduleSystem.start []).run wireSerde noInstant failingSteps).delivered.map (·.reminder)
        = [ { id := "schedule-1", kind := .after, occurrence := 1000 }
          , { id := "schedule-1", kind := .after, occurrence := 1000 } ] ∧
      ¬ DeliveredOnce ((ScheduleSystem.start []).run wireSerde noInstant failingSteps) := by
  have hdelivered : ((ScheduleSystem.start []).run wireSerde noInstant failingSteps).delivered.map
      (·.reminder) = [ { id := "schedule-1", kind := .after, occurrence := 1000 }
        , { id := "schedule-1", kind := .after, occurrence := 1000 } ] := by decide +kernel
  refine ⟨hdelivered, fun h => ?_⟩
  have honce := pairwise_map.mpr h.once
  rw [hdelivered] at honce
  have hdistinct := (pairwise_cons.mp honce).1 _ mem_cons_self rfl
  cases hdistinct.1

end Tessivum.Schedule
