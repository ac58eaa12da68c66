/-
Tessivum.Agent.InboxTheorems — what the operations of the in-memory inbox
leave in place.

Each operation moves or drops the messages it names and no other: a
message with another id stays in its queue and another reservation stays
held. A claim that comes back empty found the queue empty or its front
reserved.
-/
import Tessivum.Agent.Inbox

namespace Tessivum.Agent.InboxState

open Library Protocol List

def ids (state : InboxState) (target : InboxTarget) : List MessageId :=
  (state.queue target).map Message.id

/-! ## Queues -/

@[simp] theorem ids_setQueue_self (state : InboxState) (target : InboxTarget)
    (q : List Message) : (state.setQueue target q).ids target = q.map Message.id := by
  cases target <;> rfl

variable {other target : InboxTarget} {id : MessageId} {q : List Message} {index : Nat}
  {m message : Message} {state state' : InboxState} {claim : ClaimReservation}
  {touched : List MessageId} {reservation : UpdateReservation}

theorem ids_setQueue_of_ne (state : InboxState) (q : List Message) (h : other ≠ target) :
    (state.setQueue target q).ids other = state.ids other := by
  cases target <;> cases other <;> first | rfl | exact absurd rfl h

@[simp] theorem setQueue_reservations (state : InboxState) (target : InboxTarget)
    (q : List Message) : (state.setQueue target q).reservations = state.reservations := by
  cases target <;> rfl

@[simp] theorem touch_reservations (state : InboxState) (wakeup : Bool) :
    (state.touch wakeup).reservations = state.reservations := rfl

@[simp] theorem touch_followups (state : InboxState) (wakeup : Bool) :
    (state.touch wakeup).followups = state.followups := rfl

@[simp] theorem ids_touch (state : InboxState) (wakeup : Bool) (target : InboxTarget) :
    (state.touch wakeup).ids target = state.ids target := by
  cases target <;> rfl

theorem pendingIndex_isSome : (pendingIndex q id).isSome ↔ id ∈ q.map Message.id := by
  simp [pendingIndex, findIdx?_isSome]

theorem pendingIndex_eq_some (h : pendingIndex q id = some index) :
    ∃ m, q[index]? = some m ∧ m.id = id := by
  obtain ⟨hlt, hid, _⟩ := findIdx?_eq_some_iff_getElem.mp h
  exact ⟨q[index], getElem?_eq_getElem hlt, by simpa using hid⟩

theorem mem_ids_eraseIdx (hm : q[index]? = some m) (hne : id ≠ m.id) (h : id ∈ q.map Message.id) :
    id ∈ (q.eraseIdx index).map Message.id := by
  obtain ⟨x, hx, rfl⟩ := mem_map.mp h
  obtain ⟨i, hi⟩ := mem_iff_getElem?.mp hx
  refine mem_map.mpr ⟨x, mem_eraseIdx_iff_getElem?.mpr ⟨i, ?_, hi⟩, rfl⟩
  rintro rfl
  rw [hm] at hi
  exact hne (by rw [some.inj hi])

theorem mem_ids_set {new : Message} (hm : q[index]? = some m) (hne : id ≠ m.id)
    (h : id ∈ q.map Message.id) : id ∈ (q.set index new).map Message.id := by
  obtain ⟨x, hx, rfl⟩ := mem_map.mp h
  obtain ⟨i, hi⟩ := mem_iff_getElem?.mp hx
  refine mem_map.mpr ⟨x, mem_iff_getElem?.mpr ⟨i, ?_⟩, rfl⟩
  have hi' : index ≠ i := by
    rintro rfl
    rw [hm] at hi
    exact hne (by rw [some.inj hi])
  rw [getElem?_set_ne hi', hi]

theorem mem_ids_dropId {other : MessageId} (hne : other ≠ id) (h : other ∈ q.map Message.id) :
    other ∈ (dropId q id).map Message.id := by
  unfold dropId
  cases hidx : pendingIndex q id with
  | none => exact h
  | some index =>
    obtain ⟨m, hm, rfl⟩ := pendingIndex_eq_some hidx
    exact mem_ids_eraseIdx hm hne h

/-! ## Sending -/

theorem send_eq_ok {wakeup : Bool} (h : state.send message target wakeup = .ok state') :
    state' = (state.push message target).touch wakeup := by
  unfold send at h
  obtain ⟨_, _, h⟩ := bind_eq_ok.mp h
  obtain ⟨_, _, h⟩ := bind_eq_ok.mp h
  exact (ok.inj h).symm

@[simp] theorem push_reservations (state : InboxState) (message : Message)
    (target : InboxTarget) :
    (state.push message target).reservations = state.reservations := by
  cases target <;> rfl

theorem mem_ids_push (h : id ∈ state.ids other) : id ∈ (state.push message target).ids other := by
  cases target <;> cases other <;>
    simp only [ids, queue, push, map_append, mem_append] at h ⊢ <;>
    first | exact .inl h | exact h

/-- A restored inbox queues what was pending behind the followups it starts
from, and holds no reservation it did not hold. -/
theorem foldlM_send_followups (pending : List Message) (state : InboxState)
    (h : pending.foldlM (fun inbox message => inbox.send message .followup false) state
      = .ok state') :
    state'.followups = state.followups ++ pending
      ∧ state'.reservations = state.reservations := by
  induction pending generalizing state with
  | nil =>
    rw [foldlM_nil] at h
    cases h
    exact ⟨(append_nil _).symm, rfl⟩
  | cons message rest ih =>
    rw [foldlM_cons] at h
    obtain ⟨sent, hsend, hrest⟩ := bind_eq_ok.mp h
    obtain ⟨hfollowups, hreservations⟩ := ih sent hrest
    have hsent := send_eq_ok hsend
    subst hsent
    rw [hfollowups, hreservations]
    simp [push]

theorem restore_followups {pending : List Message} (h : restore pending = .ok state) :
    state.followups = pending :=
  (foldlM_send_followups pending empty h).1

theorem restore_reservations {pending : List Message} (h : restore pending = .ok state) :
    state.reservations = ∅ :=
  (foldlM_send_followups pending empty h).2

/-! ## Claims -/

theorem reserveNextTurnClaim_eq_none (h : state.reserveNextTurnClaim = none) :
    state.followups = [] ∨ state.reservations ≠ ∅ := by
  unfold reserveNextTurnClaim at h
  split at h
  case h_1 hnil => exact .inl hnil
  case h_2 m rest hcons =>
    split at h
    case isTrue hmem => exact .inr (Finset.ne_empty_of_mem hmem)
    case isFalse => exact absurd h (by simp)

/-- What a claim reserves was free, and nothing else changes. -/
structure Reserves (state : InboxState) (claim : ClaimReservation) (state' : InboxState) :
    Prop where
  free : ∀ entry ∈ claim.entries, entry.2 ∉ state.reservations
  entries : ∀ entry ∈ claim.entries, entry.2 ∈ state'.reservations
  keeps : ∀ id ∈ state.reservations, id ∈ state'.reservations
  ids : ∀ target, state'.ids target = state.ids target

theorem reserveNextTurnClaim_eq_some (h : state.reserveNextTurnClaim = some (claim, state')) :
    ∃ m rest, state.followups = m :: rest ∧ m.id ∉ state.reservations
      ∧ claim = { nextStep := false, entries := [(.followup, m.id)], messages := [m] }
      ∧ state' = { state with reservations := insert m.id state.reservations } := by
  unfold reserveNextTurnClaim at h
  split at h
  case h_1 => exact absurd h (by simp)
  case h_2 m rest hq =>
    split at h
    case isTrue => exact absurd h (by simp)
    case isFalse hfree =>
      obtain ⟨rfl, rfl⟩ := Prod.mk.inj (some.inj h)
      exact ⟨m, rest, hq, hfree, rfl, rfl⟩

theorem reserveStepBatchClaim_eq_some (h : state.reserveStepBatchClaim = some (claim, state')) :
    state.stepOrder.mapM state.stepMessage = some claim.messages
      ∧ claim.nextStep = true ∧ claim.entries = state.stepOrder
      ∧ (∀ queued ∈ state.stepOrder, queued.2 ∉ state.reservations)
      ∧ state' = { state with
        reservations := (state.stepOrder.map Prod.snd).toFinset ∪ state.reservations } := by
  unfold reserveStepBatchClaim at h
  split at h
  case isTrue => exact absurd h (by simp)
  case isFalse hfree =>
    split at h
    case h_1 => exact absurd h (by simp)
    case h_2 messages hmessages =>
      obtain ⟨rfl, rfl⟩ := Prod.mk.inj (some.inj h)
      exact ⟨hmessages, rfl, rfl, fun queued hq hmem => hfree (.inr ⟨queued, hq, hmem⟩), rfl⟩

theorem reserveNextTurnClaim_reserves (h : state.reserveNextTurnClaim = some (claim, state')) :
    Reserves state claim state' := by
  obtain ⟨m, _, -, hfree, rfl, rfl⟩ := reserveNextTurnClaim_eq_some h
  exact {
    free := by simpa using hfree
    entries := by simp
    keeps := fun id hid => Finset.mem_insert_of_mem hid
    ids := fun target => by cases target <;> rfl }

theorem reserveStepBatchClaim_reserves (h : state.reserveStepBatchClaim = some (claim, state')) :
    Reserves state claim state' := by
  obtain ⟨-, -, hentries, hfree, rfl⟩ := reserveStepBatchClaim_eq_some h
  rw [← hentries] at hfree ⊢
  exact {
    free := hfree
    entries := fun entry hentry => Finset.mem_union_left _
      (mem_toFinset.mpr (mem_map_of_mem hentry))
    keeps := fun id hid => Finset.mem_union_right _ hid
    ids := fun target => by cases target <;> rfl }

/-- Nothing outside a list of entries is touched: other ids stay queued
and other reservations stay held. -/
structure KeepsApart (state state' : InboxState) (touched : List MessageId) : Prop where
  queued : ∀ target, ∀ id ∈ state.ids target, id ∉ touched → id ∈ state'.ids target
  reserved : ∀ id ∈ state.reservations, id ∉ touched → id ∈ state'.reservations

theorem KeepsApart.refl (state : InboxState) (touched : List MessageId) :
    KeepsApart state state touched :=
  ⟨fun _ _ h _ => h, fun _ h _ => h⟩

theorem KeepsApart.trans {a b c : InboxState} (hab : KeepsApart a b touched)
    (hbc : KeepsApart b c touched) : KeepsApart a c touched :=
  ⟨fun target id h hn => hbc.queued target id (hab.queued target id h hn) hn,
    fun id h hn => hbc.reserved id (hab.reserved id h hn) hn⟩

theorem takeEntry_keepsApart (state : InboxState) {entry : InboxTarget × MessageId}
    (h : entry.2 ∈ touched) : KeepsApart state (state.takeEntry entry) touched := by
  constructor
  · intro target id hid hnot
    have hne : id ≠ entry.2 := fun heq => hnot (heq ▸ h)
    show id ∈ (state.setQueue entry.1 (dropId (state.queue entry.1) entry.2)).ids target
    by_cases ht : target = entry.1
    · subst ht
      rw [ids_setQueue_self]
      exact mem_ids_dropId hne hid
    · rwa [ids_setQueue_of_ne _ _ ht]
  · intro id hid hnot
    have hne : id ≠ entry.2 := fun heq => hnot (heq ▸ h)
    simpa [takeEntry] using ⟨hne, hid⟩

theorem takeEntries_keepsApart (touched : List MessageId) :
    ∀ (entries : List (InboxTarget × MessageId)) (state : InboxState),
      (∀ entry ∈ entries, entry.2 ∈ touched) →
      KeepsApart state (entries.foldl takeEntry state) touched := by
  intro entries
  induction entries with
  | nil => exact fun state _ => .refl state touched
  | cons entry rest ih =>
    intro state h
    exact (takeEntry_keepsApart state (h entry mem_cons_self)).trans
      (ih _ fun e he => h e (mem_cons_of_mem entry he))

theorem commitClaim_keepsApart (h : state.commitClaim claim = some state') :
    KeepsApart state state' (claim.entries.map Prod.snd) := by
  have htaken := takeEntries_keepsApart (claim.entries.map Prod.snd) claim.entries state
    fun entry hentry => mem_map_of_mem hentry
  unfold commitClaim at h
  split at h
  case isFalse => exact absurd h (by simp)
  case isTrue =>
    have heq := some.inj h
    subst heq
    constructor
    · intro target id hid hnot
      have := htaken.queued target id hid hnot
      rw [ids_touch]
      cases target <;> split <;> exact this
    · intro id hid hnot
      have := htaken.reserved id hid hnot
      rw [touch_reservations]
      split <;> exact this

theorem abortClaim_keepsApart (state : InboxState) (entries : List (InboxTarget × MessageId)) :
    KeepsApart state (state.abortClaim entries) (entries.map Prod.snd) := by
  constructor
  · intro target id hid _
    cases target <;> exact hid
  · intro id hid hnot
    simp only [abortClaim, Finset.mem_filter]
    refine ⟨hid, ?_⟩
    rintro ⟨_, hentry, rfl⟩
    exact hnot (mem_map_of_mem hentry)

/-! ## Updates -/

theorem locate_eq_some {source : InboxTarget} {start : Nat}
    (h : state.locate id = some (source, start, m)) :
    source ≠ .inject ∧ m.id = id ∧ id ∈ state.ids source := by
  unfold locate at h
  split at h
  case h_1 index hidx =>
    obtain ⟨found, hfound, hid⟩ := pendingIndex_eq_some (q := state.followups) hidx
    rw [hfound] at h
    obtain ⟨rfl, _, rfl⟩ := by simpa using h
    exact ⟨by simp, hid, mem_map.mpr ⟨found, mem_of_getElem? hfound, hid⟩⟩
  case h_2 =>
    obtain ⟨found, hfound, heq⟩ := map_eq_some_iff.mp h
    obtain ⟨rfl, hrest⟩ := Prod.mk.inj heq
    obtain ⟨_, rfl⟩ := Prod.mk.inj hrest
    have hid : found.id = id := by simpa using find?_some hfound
    exact ⟨by simp, hid, mem_map.mpr ⟨found, mem_of_find?_eq_some hfound, hid⟩⟩

/-- What a reservation holds. -/
theorem reserveUpdate_reserved {update : InboxUpdate} {steerEnabled : Bool}
    (h : state.reserveUpdate id update steerEnabled = .reserved reservation state') :
    id ∉ state.reservations ∧ reservation.itemId = id ∧ reservation.update = update
      ∧ reservation.itemId ∈ state.ids reservation.queue
      ∧ (reservation.wakes = true ↔ reservation.update = .steer)
      ∧ (reservation.queue ≠ .inject ∧ reservation.message.id = reservation.itemId)
      ∧ state' = { state with reservations := insert id state.reservations } := by
  unfold reserveUpdate at h
  split at h
  case isTrue => exact absurd h (by simp)
  case isFalse hfree =>
    split at h
    case h_1 => exact absurd h (by simp)
    case h_2 source start original hlocate =>
      obtain ⟨hsource, hid, hpending⟩ := locate_eq_some hlocate
      cases update with
      | edit content =>
        simp only at h
        split at h
        case h_1 => exact absurd h (by simp)
        case h_2 =>
          obtain ⟨rfl, rfl⟩ := ReservationResult.reserved.inj h
          exact ⟨hfree, rfl, rfl, hpending, by simp, ⟨hsource, hid⟩, rfl⟩
      | remove =>
        obtain ⟨rfl, rfl⟩ := ReservationResult.reserved.inj h
        exact ⟨hfree, rfl, rfl, hpending, by simp, ⟨hsource, hid⟩, rfl⟩
      | steer =>
        simp only at h
        split at h
        case isFalse => exact absurd h (by simp)
        case isTrue hfollowup =>
          obtain ⟨rfl, rfl⟩ := ReservationResult.reserved.inj h
          rw [hfollowup.1] at hpending
          exact ⟨hfree, rfl, rfl, hpending, by simp, ⟨by simp [UpdateReservation.queue], hid⟩, rfl⟩

theorem applyUpdate_edit {content : List ContentBlock} (hu : reservation.update = .edit content) :
    state.applyUpdate reservation index = state.setQueue reservation.queue
      ((state.queue reservation.queue).set index reservation.message) := by
  simp [applyUpdate, hu]

theorem applyUpdate_steer (hu : reservation.update = .steer)
    (hm : (state.queue reservation.queue)[index]? = some m) :
    state.followups[index]? = some m ∧ state.applyUpdate reservation index =
      { state with followups := state.followups.eraseIdx index, steers := state.steers ++ [m]
                   stepOrder := state.stepOrder ++ [(.steer, m.id)] } := by
  rw [show reservation.queue = .followup by simp [UpdateReservation.queue, hu]] at hm
  have hm' : state.followups[index]? = some m := hm
  exact ⟨hm', by simp [applyUpdate, hu, hm']⟩

/-- An update touches its own message alone. -/
theorem applyUpdate_keepsApart
    (h : pendingIndex (state.queue reservation.queue) reservation.itemId = some index) :
    KeepsApart state (state.applyUpdate reservation index) [reservation.itemId] := by
  obtain ⟨m, hm, hid⟩ := pendingIndex_eq_some h
  have hne : ∀ id, id ∉ [reservation.itemId] → id ≠ m.id := by
    intro id hnot heq
    exact hnot (mem_singleton.mpr (heq.trans hid))
  cases hu : reservation.update with
  | edit content =>
    rw [applyUpdate_edit hu]
    refine ⟨fun target id hid' hnot => ?_, fun id hid' _ => by simpa using hid'⟩
    by_cases ht : target = reservation.queue
    · subst ht
      rw [ids_setQueue_self]
      exact mem_ids_set hm (hne id hnot) hid'
    · rwa [ids_setQueue_of_ne _ _ ht]
  | remove =>
    have heq : ∀ target, (state.applyUpdate reservation index).ids target
        = (state.setQueue reservation.queue
            ((state.queue reservation.queue).eraseIdx index)).ids target := by
      intro target
      simp only [applyUpdate, hu]
      split <;> cases target <;> rfl
    refine ⟨fun target id hid' hnot => ?_, fun id hid' _ => ?_⟩
    · rw [heq]
      by_cases ht : target = reservation.queue
      · subst ht
        rw [ids_setQueue_self]
        exact mem_ids_eraseIdx hm (hne id hnot) hid'
      · rwa [ids_setQueue_of_ne _ _ ht]
    · simp only [applyUpdate, hu]
      split <;> simpa using hid'
  | steer =>
    obtain ⟨hm', heq⟩ := applyUpdate_steer hu hm
    rw [heq]
    refine ⟨fun target id hid' hnot => ?_, fun id hid' _ => hid'⟩
    cases target with
    | followup => exact mem_ids_eraseIdx hm' (hne id hnot) hid'
    | steer =>
      show id ∈ (state.steers ++ [m]).map Message.id
      rw [map_append]
      exact mem_append_left _ hid'
    | inject => exact hid'

theorem commitReservation_held (hres : reservation.itemId ∈ state.reservations)
    (hqueued : reservation.itemId ∈ state.ids reservation.queue) :
    ∃ index, pendingIndex (state.queue reservation.queue) reservation.itemId = some index
      ∧ state.commitReservation reservation
          = (true, (InboxState.applyUpdate
              { state with reservations := state.reservations.erase reservation.itemId }
              reservation index).touch reservation.wakes) := by
  obtain ⟨index, hidx⟩ := isSome_iff_exists.mp (pendingIndex_isSome.mpr hqueued)
  refine ⟨index, hidx, ?_⟩
  have hidx' : pendingIndex (InboxState.queue
      { state with reservations := state.reservations.erase reservation.itemId }
      reservation.queue) reservation.itemId = some index := by
    cases hq : reservation.queue <;> rw [hq] at hidx <;> exact hidx
  simp only [commitReservation, hres, if_true, hidx']

theorem release_keepsApart (state : InboxState) (id : MessageId) :
    KeepsApart state { state with reservations := state.reservations.erase id } [id] := by
  refine ⟨fun target other h _ => by cases target <;> exact h, fun other h hnot => ?_⟩
  exact Finset.mem_erase.mpr ⟨fun heq => hnot (mem_singleton.mpr heq), h⟩

theorem touch_keepsApart (state : InboxState) (wakeup : Bool) (touched : List MessageId) :
    KeepsApart state (state.touch wakeup) touched :=
  ⟨fun target _ h _ => (ids_touch state wakeup target).symm ▸ h, fun _ h _ => h⟩

theorem abortReservation_keepsApart (state : InboxState) (id : MessageId) :
    KeepsApart state (state.abortReservation id) [id] := by
  have h := release_keepsApart state id
  simp only [abortReservation]
  split
  · exact h.trans ⟨fun target _ hid _ => by cases target <;> exact hid, fun _ hid _ => hid⟩
  · exact h

end Tessivum.Agent.InboxState
