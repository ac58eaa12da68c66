/-
Tessivum.Session.InboxProvenance — where the messages of the durable
inbox come from.

A message is in the replayed queues only because some inbox event of the
log carried it: `inboxMessages` lists what one event carries, and
`InboxReplay.apply_mem` says that replaying an event brings in nothing
else.
-/
import Tessivum.Session.Log

namespace Tessivum.Session

open Library Protocol List

variable {S : Serde}

/-- The messages an inbox event can bring into the durable queues. -/
def inboxMessages (S : Serde) (e : SessionEvent) : List Message :=
  if isInboxEvent e then
    ((e.data.get "message").bind S.messageFromValue).toList
      ++ (((e.data.get "inserted").bind Value.asArray).getD []).filterMap S.messageFromValue
  else []

variable {m : Message}

theorem decodeMessage_eq_ok {v : Value} {err : SessionError} (h : decodeMessage S v err = .ok m) :
    S.messageFromValue v = some m := by
  unfold decodeMessage at h
  cases hv : S.messageFromValue v with
  | none => rw [hv] at h; cases h
  | some m' =>
    rw [hv] at h
    dsimp only at h
    split at h
    · cases h; rfl
    · cases h

theorem inboxMessage_mem {e : SessionEvent} (he : isInboxEvent e = true)
    (h : inboxMessage S e = .ok m) : m ∈ inboxMessages S e := by
  unfold inboxMessage at h
  rw [inboxMessages, if_pos he]
  cases hv : e.data.get "message" with
  | none => rw [hv] at h; cases h
  | some v =>
    rw [hv] at h
    simp [decodeMessage_eq_ok h]

theorem decodeInserted_mem {values : List Value} {inserted : List Message}
    (h : InboxReplay.decodeInserted S values = .ok inserted) :
    ∀ m ∈ inserted, m ∈ values.filterMap S.messageFromValue := by
  intro m hm
  obtain ⟨v, hv, hdecode⟩ := exists_of_mem_mapM h m hm
  exact mem_filterMap.mpr ⟨v, hv, decodeMessage_eq_ok hdecode⟩

namespace InboxReplay

def pending (inbox : InboxReplay) : List Message := inbox.followups ++ inbox.steps

variable {inbox inbox' : InboxReplay} {m : Message} {q : List Message} {target : InboxReplayTarget}
  {e : SessionEvent}

theorem mem_setQueue (h : m ∈ (inbox.setQueue target q).pending) : m ∈ q ∨ m ∈ inbox.pending := by
  cases target <;> simp only [setQueue, pending, mem_append] at h ⊢ <;> tauto

theorem queue_subset (h : m ∈ inbox.queue target) : m ∈ inbox.pending := by
  cases target
  · exact mem_append_left _ h
  · exact mem_append_right _ h

theorem mem_dropId {id : MessageId} (h : m ∈ dropId id q) : m ∈ q := by
  unfold dropId at h
  split at h
  · exact mem_of_mem_eraseIdx h
  · exact h

theorem applyEnqueued_mem (he : isInboxEvent e = true) (h : inbox.applyEnqueued S e = .ok inbox')
    (hm : m ∈ inbox'.pending) : m ∈ inbox.pending ∨ m ∈ inboxMessages S e := by
  unfold applyEnqueued at h
  simp only [bind_eq_ok, exists_unit] at h
  obtain ⟨_, _, _, hmessage, _, h⟩ := h
  cases h
  rcases mem_setQueue hm with hm | hm
  · rcases mem_append.mp hm with hm | hm
    · exact .inl (queue_subset hm)
    · rw [mem_singleton.mp hm]
      exact .inr (inboxMessage_mem he hmessage)
  · exact .inl hm

theorem applySplice_mem (he : isInboxEvent e = true) (h : inbox.applySplice S e = .ok inbox')
    (hm : m ∈ inbox'.pending) : m ∈ inbox.pending ∨ m ∈ inboxMessages S e := by
  unfold applySplice at h
  simp only [bind_eq_ok, exists_unit] at h
  obtain ⟨_, _, _, _, values, hvalues, inserted, hinserted, _, _, h⟩ := h
  cases h
  rcases mem_setQueue hm with hm | hm
  · rcases mem_append.mp hm with hm | hm
    · rcases mem_append.mp hm with hm | hm
      · exact .inl (queue_subset (mem_of_mem_take hm))
      · refine .inr ?_
        have harray : (e.data.get "inserted").bind Value.asArray = some values := by
          unfold requireField at hvalues
          split at hvalues
          · rename_i hfound
            cases hvalues
            exact hfound
          · cases hvalues
        rw [inboxMessages, if_pos he, harray]
        exact mem_append_right _ (decodeInserted_mem hinserted m hm)
    · exact .inl (queue_subset (mem_of_mem_drop hm))
  · exact .inl hm

theorem applySteer_mem {current : InboxReplayTarget} {index : Nat} {message : Message}
    (h : inbox.applySteer current target index message = .ok inbox') (hm : m ∈ inbox'.pending) :
    m ∈ inbox.pending ∨ m = message := by
  unfold applySteer at h
  simp only [bind_eq_ok, exists_unit] at h
  obtain ⟨_, _, h⟩ := h
  cases h
  rcases mem_append.mp hm with hm | hm
  · exact .inl (mem_append_left _ (mem_of_mem_eraseIdx hm))
  · rcases mem_append.mp hm with hm | hm
    · exact .inl (mem_append_right _ hm)
    · exact .inr (mem_singleton.mp hm)

/-- What is pending after an item event was pending or is named by it. -/
theorem applyItem_mem (he : isInboxEvent e = true) (h : inbox.applyItem S e = .ok inbox')
    (hm : m ∈ inbox'.pending) : m ∈ inbox.pending ∨ m ∈ inboxMessages S e := by
  unfold applyItem at h
  simp only [bind_eq_ok, exists_unit] at h
  obtain ⟨_, _, _, _, _, hmessage, _, _, _, h⟩ := h
  have hcarried := inboxMessage_mem he hmessage
  split at h
  · cases h
  · split at h
    · rcases applySteer_mem h hm with hm | rfl
      · exact .inl hm
      · exact .inr hcarried
    · split at h
      · cases h
      · split at h
        · cases h
          rcases mem_setQueue hm with hm | hm
          · rcases mem_or_eq_of_mem_set hm with hm | rfl
            · exact .inl (queue_subset hm)
            · exact .inr hcarried
          · exact .inl hm
        · split at h
          · replace h := after_check h
            cases h
            rcases mem_setQueue hm with hm | hm
            · exact .inl (queue_subset (mem_of_mem_eraseIdx hm))
            · exact .inl hm
          · cases h

theorem apply_mem (h : inbox.apply S e = .ok inbox') (hm : m ∈ inbox'.pending) :
    m ∈ inbox.pending ∨ m ∈ inboxMessages S e := by
  unfold apply at h
  split at h
  · rename_i henqueued
    exact applyEnqueued_mem (by simp [isInboxEvent, henqueued]) h hm
  · split at h
    · rename_i hspliced
      have he : isInboxEvent e = true := by simp [isInboxEvent, hspliced]
      split at h
      · exact applySplice_mem he h hm
      · exact applyItem_mem he h hm
    · split at h
      · split at h
        · cases h
          rcases mem_append.mp hm with hm | hm
          · exact .inl (mem_append_left _ (mem_dropId hm))
          · exact .inl (mem_append_right _ (mem_dropId hm))
        · cases h
          exact .inl hm
      · cases h
        exact .inl hm

end InboxReplay

end Tessivum.Session
