/-
Tessivum.Schedule.LogTheorems — what a schedule log that folds says.

`Reads` is everything one event can do to the state `fold` keeps: nothing, or
one of the four changes with the conditions it was accepted under. `History` is
what a whole log that folds guarantees. It is kept by every accepted event
(`History.read`), so it holds of every log that folds (`history_of_replay`).
-/
import Tessivum.Schedule.RecordTheorems

namespace Tessivum.Schedule

open Library Protocol List FoldState

/-! ## Reading the changes of a log -/

def changeFields (operation : String) (e : SessionEvent) : Option (List (String × Value)) :=
  if e.eventType = scheduleChange then
    (asObject e.data).filter fun fields => stringField fields "operation" == some operation
  else none

def createdRecord (e : SessionEvent) : Option Record :=
  (changeFields "create" e).bind fun fields => (fields.lookup "schedule").bind decodeRecord

/-- The schedule an event deletes, and the one it dispatches. -/
def deletedId (e : SessionEvent) : Option String :=
  (changeFields "delete" e).bind fun fields => stringField fields "id"
def dispatchedId (e : SessionEvent) : Option String :=
  (changeFields "dispatch" e).bind fun fields => stringField fields "id"

def createdRecords (log : List SessionEvent) : List Record := log.filterMap createdRecord
def deletedIds (log : List SessionEvent) : List String := log.filterMap deletedId
def dispatchedIds (log : List SessionEvent) : List String := log.filterMap dispatchedId

/-- Everything one event can do to the state of a fold. -/
inductive Reads (st : FoldState) (e : SessionEvent) : FoldState → Prop
  | other (hcreated : createdRecord e = none) (hdeleted : deletedId e = none)
      (hdispatched : dispatchedId e = none) : Reads st e st
  | create (r : Record) (hcreated : createdRecord e = some r) (hdeleted : deletedId e = none)
      (hdispatched : dispatchedId e = none) (hvalid : r.Valid) (hnew : r.id ∉ st.seen)
      (hfree : st.find r.id = none) :
      Reads st e { active := r :: st.without r.id, order := st.order ++ [r.id]
                   seen := r.id :: st.seen }
  | delete (id : String) (r : Record) (hcreated : createdRecord e = none)
      (hdeleted : deletedId e = some id) (hdispatched : dispatchedId e = none)
      (hactive : st.find id = some r) : Reads st e { st with active := st.without id }
  | dispatch (id : String) (r : Record) (hcreated : createdRecord e = none)
      (hdeleted : deletedId e = none) (hdispatched : dispatchedId e = some id)
      (hactive : st.find id = some r) : Reads st e { st with active := st.without id }
  | next (id : String) (r n : Record) (accepted : Int) (hcreated : createdRecord e = none)
      (hdeleted : deletedId e = none) (hdispatched : dispatchedId e = some id)
      (hactive : st.find id = some r) (hkind : r.kind = .every)
      (hdue : r.scheduledMs ≤ accepted) (hmax : accepted ≤ maxInstantMs)
      (hnext : everyNext r accepted = some (some n)) :
      Reads st e { st with active := n :: st.without id }

variable {e : SessionEvent} {st st' : FoldState} {id : String} {r c : Record}
  {log : List SessionEvent} {now : Int} {folded : Folded}

theorem changeFields_eq {fields : List (String × Value)} {operation : String}
    (htype : e.eventType = scheduleChange) (hdata : asObject e.data = some fields)
    (hoperation : stringField fields "operation" = some operation) (other : String) :
    changeFields other e = if operation = other then some fields else none := by
  rw [changeFields, if_pos htype, hdata]
  by_cases h : operation = other
  · simp [Option.filter, hoperation, h]
  · simp [Option.filter, hoperation, h]

/-- What a schedule event does to the folded records. -/
theorem reads_of_read (h : st.read e = some st') : Reads st e st' := by
  unfold FoldState.read at h
  split at h
  case isFalse hother =>
    cases h
    have hnone : ∀ operation, changeFields operation e = none := fun _ => if_neg hother
    exact .other (by simp [createdRecord, hnone]) (by simp [deletedId, hnone])
      (by simp [dispatchedId, hnone])
  case isTrue htype =>
    unfold apply at h
    obtain ⟨_, hdata, h⟩ := bind_eq_some_iff.mp h
    split at h
    · cases h
    split at h
    · -- A creation.
      rename_i hoperation
      have hfields := changeFields_eq htype hdata hoperation
      unfold create at h
      split at h
      · cases h
      obtain ⟨r, hr, h⟩ := bind_eq_some_iff.mp h
      split at h
      · cases h
      rename_i hfresh
      rw [not_or, not_isSome_iff_eq_none] at hfresh
      cases h
      obtain ⟨_, _, hdecode⟩ := bind_eq_some_iff.mp hr
      exact .create r (by simp [createdRecord, hfields, hr]) (by simp [deletedId, hfields])
        (by simp [dispatchedId, hfields]) (decodeRecord_valid hdecode) hfresh.1 hfresh.2
    split at h
    · -- A deletion.
      rename_i hoperation
      have hfields := changeFields_eq htype hdata hoperation
      unfold delete at h
      split at h
      · cases h
      obtain ⟨id, hid, h⟩ := bind_eq_some_iff.mp h
      obtain ⟨r, hactive, h⟩ := bind_eq_some_iff.mp h
      cases h
      exact .delete id r (by simp [createdRecord, hfields])
        (by simp [deletedId, hfields, (filter_eq_some hid).1]) (by simp [dispatchedId, hfields])
        hactive
    split at h
    · -- A dispatch, of a one-shot schedule or of one that goes on.
      rename_i hoperation
      have hfields := changeFields_eq htype hdata hoperation
      unfold dispatch at h
      obtain ⟨id, hid, h⟩ := bind_eq_some_iff.mp h
      obtain ⟨r, hactive, h⟩ := bind_eq_some_iff.mp h
      have hcreated : createdRecord e = none := by simp [createdRecord, hfields]
      have hdeleted : deletedId e = none := by simp [deletedId, hfields]
      have hdispatched : dispatchedId e = some id := by
        simp [dispatchedId, hfields, (filter_eq_some hid).1]
      split at h
      · rename_i hkind
        split at h
        · cases h
        obtain ⟨accepted, haccepted, h⟩ := bind_eq_some_iff.mp h
        obtain ⟨_, _, hparse⟩ := bind_eq_some_iff.mp haccepted
        obtain ⟨next, hnext, h⟩ := bind_eq_some_iff.mp h
        cases next with
        | none =>
          cases h
          exact .dispatch id r hcreated hdeleted hdispatched hactive
        | some n =>
          cases h
          have hdue : r.scheduledMs ≤ accepted := by
            by_contra hnot
            unfold everyNext at hnext
            obtain ⟨_, _, hnext⟩ := bind_eq_some_iff.mp hnext
            rw [if_pos (Int.not_le.mp hnot)] at hnext
            cases hnext
          exact .next id r n accepted hcreated hdeleted hdispatched hactive hkind hdue
            (formatInstant_range (format_parseInstant hparse)).2 hnext
      · split at h
        · cases h
        cases h
        exact .dispatch id r hcreated hdeleted hdispatched hactive
    · cases h

/-! ## The active records -/

theorem find_eq_some (h : st.find id = some r) : r ∈ st.active ∧ r.id = id :=
  ⟨mem_of_find?_eq_some h, by simpa using find?_some h⟩

theorem find_isSome (h : r ∈ st.active) : ∃ found, st.find r.id = some found := by
  rw [find, ← isSome_iff_exists, find?_isSome]
  exact ⟨r, h, by simp⟩

theorem mem_without : r ∈ st.without id ↔ r ∈ st.active ∧ r.id ≠ id := by
  simp [without]

theorem without_nodup (h : (st.active.map (·.id)).Nodup) (id : String) :
    ((st.without id).map (·.id)).Nodup :=
  h.sublist (filter_sublist.map _)

theorem cons_without_nodup (h : (st.active.map (·.id)).Nodup) (hid : r.id = id) :
    ((r :: st.without id).map (·.id)).Nodup := by
  rw [map_cons, nodup_cons]
  refine ⟨fun hmem => ?_, without_nodup h id⟩
  obtain ⟨_, hother, heq⟩ := mem_map.mp hmem
  exact (mem_without.mp hother).2 (heq.trans hid)

/-- Where an active record after an event comes from: it was active, it was
created, or it is a later time of an active `every` schedule. -/
theorem Reads.active {st st' : FoldState} {e : SessionEvent} (h : Reads st e st')
    (hvalid : ∀ r ∈ st.active, r.Valid) {r : Record} (hr : r ∈ st'.active) :
    (r ∈ st.active ∧ deletedId e ≠ some r.id ∧ dispatchedId e ≠ some r.id) ∨
      (createdRecord e = some r ∧ r.id ∉ st.seen ∧ r.Valid) ∨
      (∃ old ∈ st.active, old.id = r.id ∧ old.kind = .every ∧ r.kind = .every ∧
        old.scheduledMs < r.scheduledMs ∧ r.Valid ∧ dispatchedId e = some r.id) := by
  cases h with
  | other hcreated hdeleted hdispatched =>
    exact .inl ⟨hr, by simp [hdeleted], by simp [hdispatched]⟩
  | create c hcreated hdeleted hdispatched hcvalid hnew =>
    rcases mem_cons.mp hr with rfl | hr
    · exact .inr (.inl ⟨hcreated, hnew, hcvalid⟩)
    · exact .inl ⟨(mem_without.mp hr).1, by simp [hdeleted], by simp [hdispatched]⟩
  | delete id c hcreated hdeleted hdispatched =>
    obtain ⟨hr, hne⟩ := mem_without.mp hr
    exact .inl ⟨hr, by simpa [hdeleted] using hne.symm, by simp [hdispatched]⟩
  | dispatch id c hcreated hdeleted hdispatched =>
    obtain ⟨hr, hne⟩ := mem_without.mp hr
    exact .inl ⟨hr, by simp [hdeleted], by simpa [hdispatched] using hne.symm⟩
  | next id c n accepted hcreated hdeleted hdispatched hactive hkind hdue hmax hnext =>
    obtain ⟨hc, rfl⟩ := find_eq_some hactive
    obtain ⟨found, hfound, hspec⟩ := everyNext_spec (hvalid c hc) hkind hdue hmax
    rw [hnext] at hfound
    obtain ⟨hnvalid, hnid, hnkind, hlater⟩ := hspec n (some.inj hfound).symm
    rcases mem_cons.mp hr with rfl | hr
    · exact .inr (.inr ⟨c, hc, hnid.symm, hkind, hnkind.trans hkind, by omega, hnvalid,
        by rw [hdispatched, hnid]⟩)
    · obtain ⟨hr, hne⟩ := mem_without.mp hr
      exact .inl ⟨hr, by simp [hdeleted], by simpa [hdispatched] using hne.symm⟩

theorem Reads.nodup (h : Reads st e st') (hvalid : ∀ r ∈ st.active, r.Valid)
    (hnodup : (st.active.map (·.id)).Nodup) : (st'.active.map (·.id)).Nodup := by
  cases h with
  | other => exact hnodup
  | create c => exact cons_without_nodup hnodup rfl
  | delete id | dispatch id => exact without_nodup hnodup id
  | next id c n accepted _ _ _ hactive hkind hdue hmax hnext =>
    obtain ⟨hc, rfl⟩ := find_eq_some hactive
    obtain ⟨_, hfound, hspec⟩ := everyNext_spec (hvalid c hc) hkind hdue hmax
    rw [hnext] at hfound
    exact cons_without_nodup hnodup (hspec n (some.inj hfound).symm).2.1

theorem Reads.seen (h : Reads st e st') (id : String) :
    id ∈ st'.seen ↔ id ∈ st.seen ∨ ∃ r, createdRecord e = some r ∧ r.id = id := by
  cases h with
  | create c hcreated =>
    simp only [mem_cons, hcreated, some.injEq, exists_eq_left']
    constructor
    · rintro (rfl | h)
      · exact .inr rfl
      · exact .inl h
    · rintro (h | rfl)
      · exact .inr h
      · exact .inl rfl
  | other hcreated | delete id c hcreated | dispatch id c hcreated
  | next id c n accepted hcreated => simp [hcreated]

/-! ## Histories -/

/-- What a log that folds to a state guarantees. -/
structure History (log : List SessionEvent) (st : FoldState) : Prop where
  valid : ∀ r ∈ st.active, r.Valid
  nodup : (st.active.map (·.id)).Nodup
  seen : ∀ id, id ∈ st.seen ↔ ∃ c ∈ createdRecords log, c.id = id
  created : ((createdRecords log).map (·.id)).Nodup
  active : ∀ r ∈ st.active, ∃ c ∈ createdRecords log, c.id = r.id ∧ c.kind = r.kind
  deleted : ∀ id ∈ deletedIds log, id ∈ st.seen ∧ ∀ r ∈ st.active, r.id ≠ id
  dispatched : ∀ id ∈ dispatchedIds log, id ∈ st.seen
  once : ∀ c ∈ createdRecords log, c.kind ≠ .every →
    (dispatchedIds log).count c.id ≤ 1 ∧
      (c.id ∈ dispatchedIds log → ∀ r ∈ st.active, r.id ≠ c.id)

theorem history_empty : History [] empty where
  valid := fun _ h => (by cases h)
  nodup := nodup_nil
  seen := by simp [empty, createdRecords]
  created := nodup_nil
  active := fun _ h => (by cases h)
  deleted := nofun
  dispatched := nofun
  once := nofun

theorem createdRecords_snoc (log : List SessionEvent) (e : SessionEvent) :
    createdRecords (log ++ [e]) = createdRecords log ++ (createdRecord e).toList := by
  rw [createdRecords, filterMap_append, createdRecords]
  cases h : createdRecord e <;> simp [h]

theorem deletedIds_snoc (log : List SessionEvent) (e : SessionEvent) :
    deletedIds (log ++ [e]) = deletedIds log ++ (deletedId e).toList := by
  rw [deletedIds, filterMap_append, deletedIds]
  cases h : deletedId e <;> simp [h]

theorem dispatchedIds_snoc (log : List SessionEvent) (e : SessionEvent) :
    dispatchedIds (log ++ [e]) = dispatchedIds log ++ (dispatchedId e).toList := by
  rw [dispatchedIds, filterMap_append, dispatchedIds]
  cases h : dispatchedId e <;> simp [h]

theorem mem_snoc_toList {α : Type} {xs : List α} {x : Option α} {a : α} :
    a ∈ xs ++ x.toList ↔ a ∈ xs ∨ x = some a := by
  rw [mem_append, mem_toList]

theorem History.active_seen (h : History log st) (hr : r ∈ st.active) : r.id ∈ st.seen := by
  obtain ⟨c, hc, hid, _⟩ := h.active r hr
  exact (h.seen r.id).mpr ⟨c, hc, hid⟩

theorem History.created_unique (h : History log st) {c' : Record} (hc : c ∈ createdRecords log)
    (hc' : c' ∈ createdRecords log) (hid : c.id = c'.id) : c = c' :=
  inj_on_of_nodup_map h.created hc hc' hid

theorem Reads.gone {st st' : FoldState} {e : SessionEvent} (h : Reads st e st')
    (hvalid : ∀ r ∈ st.active, r.Valid) {id : String} (hseen : id ∈ st.seen)
    (hgone : ∀ r ∈ st.active, r.id ≠ id) : ∀ r ∈ st'.active, r.id ≠ id := by
  intro r hr hid
  rcases h.active hvalid hr with ⟨hr, _⟩ | ⟨_, hnew, _⟩ | ⟨old, hold, holdid, _⟩
  · exact hgone r hr hid
  · exact hnew (hid ▸ hseen)
  · exact hgone old hold (holdid.trans hid)

theorem Reads.named (h : Reads st e st') (hid : deletedId e = some id ∨ dispatchedId e = some id) :
    createdRecord e = none ∧ ∃ r ∈ st.active, r.id = id := by
  cases h with
  | other _ hdeleted hdispatched | create _ _ hdeleted hdispatched =>
    simp [hdeleted, hdispatched] at hid
  | delete other r hcreated hdeleted hdispatched hactive
  | dispatch other r hcreated hdeleted hdispatched hactive
  | next other r n accepted hcreated hdeleted hdispatched hactive =>
    have heq : other = id := by simpa [hdeleted, hdispatched] using hid
    obtain ⟨hr, hrid⟩ := find_eq_some hactive
    exact ⟨hcreated, r, hr, hrid.trans heq⟩

theorem Reads.created_new (h : Reads st e st') (hcreated : createdRecord e = some c) :
    c.id ∉ st.seen ∧ dispatchedId e = none := by
  cases h with
  | create r hr _ hdispatched _ hnew =>
    rw [hcreated] at hr
    exact ⟨some.inj hr ▸ hnew, hdispatched⟩
  | other hr | delete _ _ hr | dispatch _ _ hr | next _ _ _ _ hr => rw [hcreated] at hr; cases hr

theorem Reads.dispatched_gone (h : Reads st e st') (hid : dispatchedId e = some id)
    (hkind : ∀ r ∈ st.active, r.id = id → r.kind ≠ .every) : ∀ r ∈ st'.active, r.id ≠ id := by
  cases h with
  | dispatch other r _ _ hdispatched =>
    rw [hid] at hdispatched
    cases hdispatched
    exact fun r' hr' => (mem_without.mp hr').2
  | next other r n accepted _ _ hdispatched hactive hevery =>
    rw [hid] at hdispatched
    cases hdispatched
    obtain ⟨hr, hrid⟩ := find_eq_some hactive
    exact absurd hevery (hkind r hr hrid)
  | other _ _ hr | create _ _ _ hr | delete _ _ _ _ hr => rw [hid] at hr; cases hr

/-- A record that does not recur is dispatched at most once. -/
theorem History.once_read (h : History log st) (hreads : Reads st e st')
    (hc : c ∈ createdRecords (log ++ [e])) (hkind : c.kind ≠ .every) :
    (dispatchedIds (log ++ [e])).count c.id ≤ 1 ∧
      (c.id ∈ dispatchedIds (log ++ [e]) → ∀ r ∈ st'.active, r.id ≠ c.id) := by
  rw [dispatchedIds_snoc]
  rw [createdRecords_snoc] at hc
  rcases mem_snoc_toList.mp hc with hc | hc
  · obtain ⟨hcount, hgone⟩ := h.once c hc hkind
    have hseen : c.id ∈ st.seen := (h.seen c.id).mpr ⟨c, hc, rfl⟩
    by_cases hid : dispatchedId e = some c.id
    · -- The first dispatch of a one-shot schedule takes it away.
      obtain ⟨_, r, hr, hrid⟩ := hreads.named (.inr hid)
      have hnot : c.id ∉ dispatchedIds log := fun hin => hgone hin r hr hrid
      have hone : ∀ r ∈ st.active, r.id = c.id → r.kind ≠ .every := by
        intro r' hr' hid' hevery
        obtain ⟨_, hc', hcid, hck⟩ := h.active r' hr'
        have hsame := h.created_unique hc' hc (hcid.trans hid')
        exact hkind (hsame ▸ hck.trans hevery)
      refine ⟨?_, fun _ => hreads.dispatched_gone hid hone⟩
      rw [count_append, count_eq_zero.mpr hnot, hid]
      simp
    · have hrest : (dispatchedId e).toList.count c.id = 0 := by
        rw [count_eq_zero, mem_toList]
        exact hid
      refine ⟨by rw [count_append, hrest]; exact hcount, fun hin => ?_⟩
      rcases mem_snoc_toList.mp hin with hin | hin
      · exact hreads.gone h.valid hseen (hgone hin)
      · exact absurd hin hid
  · obtain ⟨hnew, hnone⟩ := hreads.created_new hc
    have hnot : c.id ∉ dispatchedIds log := fun hin => hnew (h.dispatched c.id hin)
    rw [hnone, toList_none, append_nil, count_eq_zero.mpr hnot]
    exact ⟨by omega, fun hin => absurd hin hnot⟩

/-- One event more of the history. -/
theorem History.read {log : List SessionEvent} {st st' : FoldState} {e : SessionEvent}
    (h : History log st) (hread : st.read e = some st') : History (log ++ [e]) st' := by
  have hreads := reads_of_read hread
  have hseen : ∀ {id : String}, id ∈ st.seen → id ∈ st'.seen := fun hid =>
    (hreads.seen _).mpr (.inl hid)
  refine ⟨fun r hr => ?_, hreads.nodup h.valid h.nodup, fun id => ?_, ?_, fun r hr => ?_,
    fun id hid => ?_, fun id hid => ?_, fun c hc hkind => ?_⟩
  · rcases hreads.active h.valid hr with ⟨hr, _⟩ | ⟨_, _, hr⟩ | ⟨_, _, _, _, _, _, hr, _⟩
    · exact h.valid r hr
    · exact hr
    · exact hr
  · rw [hreads.seen, h.seen, createdRecords_snoc]
    constructor
    · rintro (⟨c, hc, hid⟩ | ⟨c, hc, hid⟩)
      · exact ⟨c, mem_snoc_toList.mpr (.inl hc), hid⟩
      · exact ⟨c, mem_snoc_toList.mpr (.inr hc), hid⟩
    · rintro ⟨c, hc, hid⟩
      rcases mem_snoc_toList.mp hc with hc | hc
      · exact .inl ⟨c, hc, hid⟩
      · exact .inr ⟨c, hc, hid⟩
  · rw [createdRecords_snoc, map_append]
    cases hcreated : createdRecord e with
    | none => simpa using h.created
    | some c =>
      have hnew : ∀ c' ∈ createdRecords log, c'.id ≠ c.id := by
        intro c' hc' heq
        exact (hreads.created_new hcreated).1 ((h.seen c.id).mpr ⟨c', hc', heq⟩)
      rw [toList_some, map_singleton, nodup_append]
      refine ⟨h.created, nodup_singleton _, fun a ha b hb heq => ?_⟩
      obtain ⟨c', hc', rfl⟩ := mem_map.mp ha
      exact hnew c' hc' (heq.trans (mem_singleton.mp hb))
  · rw [createdRecords_snoc]
    rcases hreads.active h.valid hr with ⟨hr, _⟩ | ⟨hcreated, _⟩ | ⟨old, hold, hid, hk, hk', _⟩
    · obtain ⟨c, hc, hid, hkind⟩ := h.active r hr
      exact ⟨c, mem_snoc_toList.mpr (.inl hc), hid, hkind⟩
    · exact ⟨r, mem_snoc_toList.mpr (.inr hcreated), rfl, rfl⟩
    · obtain ⟨c, hc, hcid, hkind⟩ := h.active old hold
      exact ⟨c, mem_snoc_toList.mpr (.inl hc), hcid.trans hid, hkind.trans (hk.trans hk'.symm)⟩
  · rw [deletedIds_snoc] at hid
    rcases mem_snoc_toList.mp hid with hid | hid
    · obtain ⟨hin, hgone⟩ := h.deleted id hid
      exact ⟨hseen hin, hreads.gone h.valid hin hgone⟩
    · obtain ⟨_, r, hr, rfl⟩ := hreads.named (.inl hid)
      refine ⟨hseen (h.active_seen hr), fun r' hr' heq => ?_⟩
      cases hreads with
      | delete other _ _ hdeleted =>
        rw [hid] at hdeleted
        exact (mem_without.mp hr').2 (heq.trans (some.inj hdeleted))
      | other _ hdeleted | create _ _ hdeleted | dispatch _ _ _ hdeleted
      | next _ _ _ _ _ hdeleted => rw [hid] at hdeleted; cases hdeleted
  · rw [dispatchedIds_snoc] at hid
    rcases mem_snoc_toList.mp hid with hid | hid
    · exact hseen (h.dispatched id hid)
    · obtain ⟨_, r, hr, rfl⟩ := hreads.named (.inr hid)
      exact hseen (h.active_seen hr)
  · exact h.once_read hreads hc hkind

theorem history_of_foldlM : ∀ (events log : List SessionEvent) {st st' : FoldState},
    History log st → events.foldlM FoldState.read st = some st' → History (log ++ events) st'
  | [], log, st, st', h, hfold => by
    cases hfold
    simpa using h
  | e :: rest, log, st, st', h, hfold => by
    rw [foldlM_cons] at hfold
    obtain ⟨_, hread, hrest⟩ := bind_eq_some_iff.mp hfold
    have := history_of_foldlM rest (log ++ [e]) (h.read hread) hrest
    simpa using this

theorem history_of_replay {seedLength : Nat} (h : replay seedLength log = some st) :
    History (log.drop seedLength) st := by
  unfold replay at h
  split at h
  · cases h
  · simpa using history_of_foldlM (log.drop seedLength) [] history_empty h

/-! ## The changes the source writes -/

theorem apply_createChange (hvalid : r.Valid) (hnew : r.id ∉ st.seen)
    (hfree : ∀ other ∈ st.active, other.id ≠ r.id) : (st.apply (createChange r)).isSome = true := by
  have hfind : st.find r.id = none := by
    rw [find, find?_eq_none]
    intro other hother
    simpa using hfree other hother
  simp [apply, createChange, asObject, stringField, List.lookup, create,
    decodeRecord_value hvalid, hnew, hfind, Value.asStr]

theorem apply_deleteChange (hvalid : r.Valid) (hr : r ∈ st.active) :
    (st.apply (deleteChange r.id)).isSome = true := by
  obtain ⟨_, hfound⟩ := find_isSome hr
  simp [apply, deleteChange, asObject, stringField, List.lookup, delete,
    hvalid.id, hfound, Value.asStr, Option.filter]

theorem apply_dispatchChange (hvalid : r.Valid) (hfind : st.find r.id = some r)
    (hkind : r.kind ≠ .every) :
    (st.apply (dispatchChange r.id)) = some { st with active := st.without r.id } := by
  simp [apply, dispatchChange, asObject, stringField, List.lookup, dispatch,
    hvalid.id, hfind, hkind, Value.asStr, Option.filter]

theorem apply_acceptChange (hvalid : r.Valid) (hfind : st.find r.id = some r)
    (hkind : r.kind = .every) {acceptedAt : String} (hnow : formatInstant now = some acceptedAt)
    {next : Option Record} (hnext : everyNext r now = some next) :
    st.apply (acceptChange r.id acceptedAt)
      = some { st with active := next.toList ++ st.without r.id } := by
  have hparse := parse_formatInstant hnow
  cases next <;>
    simp [apply, acceptChange, asObject, stringField, List.lookup, dispatch,
      hvalid.id, hfind, hkind, hparse, hnext, Value.asStr, Option.filter]

theorem find_of_mem (hnodup : (st.active.map (·.id)).Nodup) (hr : r ∈ st.active) :
    st.find r.id = some r := by
  obtain ⟨_, hfound⟩ := find_isSome hr
  obtain ⟨hmem, hid⟩ := find_eq_some hfound
  rw [hfound, inj_on_of_nodup_map hnodup hmem hr hid]

/-! ## The records of a fold -/

theorem mem_takeInOrder : ∀ {order : List String} {active : List Record},
    r ∈ takeInOrder order active → r ∈ active ∧ r.id ∈ order
  | [], _, h => by cases h
  | id :: rest, active, h => by
    rw [takeInOrder] at h
    split at h
    · rename_i hfound
      rcases mem_cons.mp h with rfl | h
      · have hid : r.id = id := by simpa using find?_some hfound
        exact ⟨mem_of_find?_eq_some hfound, hid ▸ mem_cons_self⟩
      · obtain ⟨hr, hin⟩ := mem_takeInOrder h
        exact ⟨mem_of_mem_filter hr, mem_cons_of_mem _ hin⟩
    · obtain ⟨hr, hin⟩ := mem_takeInOrder h
      exact ⟨hr, mem_cons_of_mem _ hin⟩

theorem takeInOrder_nodup : ∀ (order : List String) (active : List Record),
    ((takeInOrder order active).map (·.id)).Nodup
  | [], _ => nodup_nil
  | id :: rest, active => by
    rw [takeInOrder]
    split
    · rename_i found hfound
      have hid : found.id = id := by simpa using find?_some hfound
      rw [map_cons, nodup_cons]
      refine ⟨fun hmem => ?_, takeInOrder_nodup rest _⟩
      obtain ⟨_, hother, heq⟩ := mem_map.mp hmem
      have hne := (mem_takeInOrder hother).1
      simp [heq, hid] at hne
    · exact takeInOrder_nodup rest active

theorem mem_due {every : Bool} (h : r ∈ folded.due every now) :
    r ∈ folded.active ∧ (r.kind = .every ↔ every = true) ∧ r.scheduledMs ≤ now := by
  unfold Folded.due at h
  rw [mem_insertionSort, mem_filter] at h
  obtain ⟨hr, hdue⟩ := h
  simp only [and_eq_true, beq_iff_eq, decide_eq_true_eq] at hdue
  exact ⟨hr, by rw [← hdue.1, decide_eq_true_eq], hdue.2⟩

theorem due_nodup (h : (folded.active.map (·.id)).Nodup) (every : Bool) (now : Int) :
    ((folded.due every now).map (·.id)).Nodup := by
  unfold Folded.due
  exact ((perm_insertionSort _ _).map _).nodup_iff.mpr (h.sublist (filter_sublist.map _))

end Tessivum.Schedule
