/-
Tessivum.Agent.WakeTheorems — when the driver sleeps on a non-empty queue.

`no_lost_wake`: over every interleaving of the host's operations with the
driver, a settled idle driver has an empty followup queue, provided no release
of a reservation strands a followup and no failed claim settles on one, if and
only if the agent starts with no queued followup. The provisos are needed: the
driver listens to the runtime's wake revision, and an edit, a removal or a
dropped reservation moves the inbox's own counters only, which no driver reads;
the setup of a resumed agent queues what its session still holds and wakes
nobody (`edit_release_strands_followup`).
-/
import Tessivum.Agent.Driver
import Tessivum.Agent.InboxTheorems
import Tessivum.Library.Machine

namespace Tessivum.Agent

open Library Protocol InboxState

/-! ## Held reservations -/

/-- The update reservations hosts hold and the claim the driver holds
name reserved items, and no item is held twice. -/
structure Holds (inbox : InboxState) (updates : List UpdateReservation)
    (claim : Option ClaimReservation) : Prop where
  reserved : ∀ r ∈ updates, r.itemId ∈ inbox.reservations
  queued : ∀ r ∈ updates, r.itemId ∈ inbox.ids r.queue
  wakes : ∀ r ∈ updates, r.wakes = true ↔ r.update = .steer
  claimed : ∀ c ∈ claim, ∀ entry ∈ c.entries, entry.2 ∈ inbox.reservations
  apart : ∀ c ∈ claim, ∀ entry ∈ c.entries, ∀ r ∈ updates, r.itemId ≠ entry.2

variable {inbox inbox' : InboxState} {updates : List UpdateReservation}

theorem Holds.keep {updates' : List UpdateReservation} {claim claim' : Option ClaimReservation}
    {touched : List MessageId} (h : Holds inbox updates claim)
    (hkeep : KeepsApart inbox inbox' touched)
    (hupdates : ∀ r ∈ updates', r ∈ updates ∧ r.itemId ∉ touched)
    (hclaim : ∀ c ∈ claim', c ∈ claim ∧ ∀ entry ∈ c.entries, entry.2 ∉ touched) :
    Holds inbox' updates' claim' where
  reserved r hr := hkeep.reserved _ (h.reserved r (hupdates r hr).1) (hupdates r hr).2
  queued r hr := hkeep.queued _ _ (h.queued r (hupdates r hr).1) (hupdates r hr).2
  wakes r hr := h.wakes r (hupdates r hr).1
  claimed c hc entry he :=
    hkeep.reserved _ (h.claimed c (hclaim c hc).1 entry he) ((hclaim c hc).2 entry he)
  apart c hc entry he r hr := h.apart c (hclaim c hc).1 entry he r (hupdates r hr).1

theorem Holds.claim {c : ClaimReservation} (h : Holds inbox updates none)
    (hres : Reserves inbox c inbox') :
    Holds inbox' updates (some c) where
  reserved r hr := hres.keeps _ (h.reserved r hr)
  queued r hr := by
    rw [hres.ids]
    exact h.queued r hr
  wakes := h.wakes
  claimed := by
    rintro _ ⟨rfl⟩
    exact hres.entries
  apart := by
    rintro _ ⟨rfl⟩ entry he r hr heq
    exact hres.free entry he (heq ▸ h.reserved r hr)

/-- A reservation of an update is held. -/
theorem Holds.update {claim : Option ClaimReservation} {id : MessageId} {update : InboxUpdate}
    {steerEnabled : Bool} {reservation : UpdateReservation} (h : Holds inbox updates claim)
    (hres : inbox.reserveUpdate id update steerEnabled = .reserved reservation inbox') :
    Holds inbox' (reservation :: updates) claim := by
  obtain ⟨hfree, rfl, _, hqueued, hwakes, _, rfl⟩ := reserveUpdate_reserved hres
  have hids : ∀ target, InboxState.ids
      { inbox with reservations := insert reservation.itemId inbox.reservations } target
        = inbox.ids target := by
    intro target
    cases target <;> rfl
  exact {
    reserved := by
      intro r hr
      rcases mem_cons.mp hr with rfl | hr
      · exact Finset.mem_insert_self _ _
      · exact Finset.mem_insert_of_mem (h.reserved r hr)
    queued := by
      intro r hr
      rw [hids]
      rcases mem_cons.mp hr with rfl | hr
      · exact hqueued
      · exact h.queued r hr
    wakes := by
      intro r hr
      rcases mem_cons.mp hr with rfl | hr
      · exact hwakes
      · exact h.wakes r hr
    claimed := fun c hc entry he => Finset.mem_insert_of_mem (h.claimed c hc entry he)
    apart := by
      intro c hc entry he r hr
      rcases mem_cons.mp hr with rfl | hr
      · exact fun heq => hfree (heq ▸ h.claimed c hc entry he)
      · exact h.apart c hc entry he r hr }

namespace DriverSystem

/-! ## The property and its invariant -/

/-- A settled idle driver has no followup to run, unless an operation is
still on its way to wake it. -/
def NoLostWake (s : DriverSystem) : Prop :=
  s.running = false → s.settledRevision = s.wakeRevision → s.inbox.reservations = ∅ →
    s.pendingWakes = 0 → s.cancelled = false → s.inbox.followups = []

instance (s : DriverSystem) : Decidable s.NoLostWake :=
  inferInstanceAs (Decidable (_ → _))

/-- The revision the driver is about to settle on or has settled on, once
a claim has come back empty. -/
def accounted (s : DriverSystem) : Option Nat :=
  match s.phase with
  | .waiting => some s.settledRevision
  | .starting => some s.settledRevision
  | .checking => some s.seenWake
  | .settling revision => some revision
  | .stopping => some s.settledRevision
  | _ => none

/-- A waiting followup is accounted for: by a wake past `revision`, by a
reservation still held or by a wake on its way. -/
def Owed (s : DriverSystem) (revision : Nat) : Prop :=
  s.inbox.followups ≠ [] →
    s.wakeRevision ≠ revision ∨ s.inbox.reservations ≠ ∅ ∨ s.pendingWakes ≠ 0

/-- The invariant of a run that is not cancelled. -/
structure Sound (s : DriverSystem) : Prop where
  holds : Holds s.inbox s.updates s.phase.claim
  running : s.running = s.phase.isRunning
  live : s.phase ≠ .exited
  owed : ∀ revision, s.accounted = some revision → s.Owed revision

/-- An agent that starts with nothing queued starts sound. -/
theorem spawn_sound : (spawn .empty).Sound where
  holds := ⟨by simp [spawn], by simp [spawn], by simp [spawn], by simp [spawn, Phase.claim],
    by simp [spawn]⟩
  running := rfl
  live := by simp [spawn]
  owed := fun _ _ h => absurd rfl h

variable {s : DriverSystem} {inbox' : InboxState} {id : MessageId} {reservation : UpdateReservation}
  {next : Phase}

/-- What the invariant says of wakes. -/
theorem Sound.noLostWake (h : s.cancelled = false → s.Sound) : s.NoLostWake := by
  intro hidle hsettled hres hpending hlive
  have hs := h hlive
  have hacc : s.accounted = some s.settledRevision := by
    have hrun := hs.running
    have hexit := hs.live
    rw [hidle] at hrun
    unfold accounted
    cases hp : s.phase <;> rw [hp] at hrun hexit <;>
      first | rfl | exact absurd rfl hexit | exact absurd hrun (by simp [Phase.isRunning])
  by_contra hne
  rcases hs.owed _ hacc hne with hw | hr | hp
  · exact hw hsettled.symm
  · exact hr hres
  · exact hp hpending

/-! ## The condition on the steps of a run -/

def followupsLeft (s : DriverSystem) (reservation : UpdateReservation) : List Message :=
  if reservation.update = .remove ∧ reservation.queue = .followup then
    dropId s.inbox.followups reservation.itemId
  else s.inbox.followups

/-- Releasing `id` strands a followup: the driver's last claim came back
empty, it has seen every wake, none is on its way, no other reservation
is held and a followup remains. -/
def Strands (s : DriverSystem) (id : MessageId) (left : List Message) : Prop :=
  s.accounted = some s.wakeRevision ∧ s.pendingWakes = 0
    ∧ s.inbox.reservations.erase id = ∅ ∧ left ≠ []

instance (s : DriverSystem) (id : MessageId) (left : List Message) :
    Decidable (s.Strands id left) :=
  inferInstanceAs (Decidable (_ ∧ _))

/-- The driver is about to settle a failed claim on a followup nobody
will announce again. -/
def SettlesFailure (s : DriverSystem) : Prop :=
  s.phase = .failing s.wakeRevision ∧ s.pendingWakes = 0 ∧ s.inbox.reservations = ∅
    ∧ s.inbox.followups ≠ []

instance (s : DriverSystem) : Decidable s.SettlesFailure :=
  inferInstanceAs (Decidable (_ ∧ _))

/-- The step strands no followup: no edit, removal or dropped reservation
releases the last reservation over a waiting followup, no failed claim is
settled over one, and the 64-bit wake revision does not come round to the
revision the driver accounts for. -/
def Rewakes (s : DriverSystem) : DriverStep → Prop
  | .wake => s.accounted ≠ some ((s.wakeRevision + 1) % u64Bound)
  | .commitUpdate id => ∀ reservation ∈ s.held id,
      reservation.update ≠ .steer → ¬ s.Strands id (s.followupsLeft reservation)
  | .abortUpdate id => (s.held id).isSome → ¬ s.Strands id s.inbox.followups
  | .drive _ => ¬ s.SettlesFailure
  | _ => True

instance (s : DriverSystem) : ∀ step : DriverStep, Decidable (s.Rewakes step)
  | .wake => inferInstanceAs (Decidable (_ ≠ _))
  | .commitUpdate id => inferInstanceAs (Decidable (∀ reservation ∈ s.held id, _))
  | .abortUpdate _ => inferInstanceAs (Decidable (_ → _))
  | .drive _ => inferInstanceAs (Decidable (¬ _))
  | .send _ _ | .reserve _ _ | .cancel _ => .isTrue trivial

/-! ## The host's steps -/

theorem push_keepsApart (inbox : InboxState) (message : Message) (target : InboxTarget)
    (wakeup : Bool) : KeepsApart inbox ((inbox.push message target).touch wakeup) [] where
  queued other _ h _ := by
    rw [ids_touch]
    exact mem_ids_push h
  reserved _ h _ := by simpa using h

theorem Sound.holds_of_keep (h : s.Sound) (hkeep : KeepsApart s.inbox inbox' []) :
    Holds inbox' s.updates s.phase.claim :=
  h.holds.keep hkeep (fun _ hr => ⟨hr, List.not_mem_nil⟩)
    (fun _ hc => ⟨hc, fun _ _ => List.not_mem_nil⟩)

/-- A message is sent. -/
theorem send_sound (message : Message) (target : InboxTarget) (h : s.Sound) :
    (s.send message target).Sound := by
  unfold send
  split
  · exact h
  · simp only
    cases hsend : s.inbox.send message target (target != .inject) with
    | error e => exact h
    | ok inbox =>
      have heq := send_eq_ok hsend
      subst heq
      refine ⟨h.holds_of_keep (push_keepsApart _ _ _ _), h.running, h.live, ?_⟩
      intro revision hacc hne
      by_cases htarget : target = .inject
      · -- an injection neither queues a followup nor wakes
        subst htarget
        exact h.owed revision hacc hne
      · refine .inr (.inr ?_)
        have hwake : (target != .inject) = true := by simpa using htarget
        simp [hwake]

/-- The driver is woken. -/
theorem wake_sound (hcond : s.Rewakes .wake) (hlive : s.cancelled = false) (h : s.Sound) :
    s.wake.Sound := by
  unfold wake
  split
  · exact h
  · refine ⟨h.holds, h.running, h.live, ?_⟩
    intro revision hacc _
    refine .inl ?_
    show (if s.cancelled then s.wakeRevision else (s.wakeRevision + 1) % u64Bound) ≠ revision
    rw [hlive]
    rintro rfl
    exact hcond hacc

/-- A host reserves a message. -/
theorem reserve_sound (id : MessageId) (update : InboxUpdate) (h : s.Sound) :
    (s.reserve id update).Sound := by
  unfold reserve
  split
  · exact h
  · split
    case h_1 reservation inbox hres =>
      refine ⟨h.holds.update hres, h.running, h.live, ?_⟩
      obtain ⟨_, rfl, _, _, _, _, rfl⟩ := reserveUpdate_reserved hres
      intro _ _ _
      exact .inr (.inl (Finset.insert_ne_empty _ _))
    case h_2 => exact h
    case h_3 => exact h

theorem held_eq_some (h : s.held id = some reservation) :
    reservation ∈ s.updates ∧ reservation.itemId = id :=
  ⟨List.mem_of_find?_eq_some h, by simpa using find?_some h⟩

theorem Sound.holds_of_release (h : s.Sound) (hmem : reservation ∈ s.updates)
    (hkeep : KeepsApart s.inbox inbox' [reservation.itemId]) :
    Holds inbox' (s.heldApart reservation.itemId) s.phase.claim := by
  refine h.holds.keep hkeep (fun r hr => ?_) (fun c hc => ⟨hc, fun entry he hin => ?_⟩)
  · obtain ⟨hr, hne⟩ := mem_filter.mp hr
    exact ⟨hr, by simpa using hne⟩
  · exact h.holds.apart c hc entry he reservation hmem (mem_singleton.mp hin).symm

theorem applyUpdate_followups {index : Nat} (hupdate : reservation.update ≠ .steer)
    (hidx : pendingIndex (s.inbox.queue reservation.queue) reservation.itemId = some index)
    (hne : (InboxState.applyUpdate
      { s.inbox with reservations := s.inbox.reservations.erase reservation.itemId }
      reservation index).followups ≠ []) : s.followupsLeft reservation ≠ [] := by
  unfold followupsLeft
  cases hu : reservation.update with
  | steer => exact absurd hu hupdate
  | edit content =>
    rw [if_neg (by simp)]
    rintro hnil
    apply hne
    cases hq : reservation.queue <;> simp [applyUpdate, hu, hq, setQueue, queue, hnil]
  | remove =>
    cases hq : reservation.queue with
    | followup =>
      rw [hq] at hidx
      have hidx' : pendingIndex s.inbox.followups reservation.itemId = some index := hidx
      rw [if_pos ⟨rfl, rfl⟩, dropId, hidx']
      intro hnil
      apply hne
      simpa [applyUpdate, hu, hq, setQueue, queue] using hnil
    | steer | inject =>
      rw [if_neg (by simp)]
      simpa [applyUpdate, hu, hq, setQueue, queue] using hne

theorem owed_of_not_strands {left : List Message} {revision : Nat} (hnot : ¬ s.Strands id left)
    (hacc : s.accounted = some revision) (hne : left ≠ []) :
    s.wakeRevision ≠ revision ∨ s.inbox.reservations.erase id ≠ ∅ ∨ s.pendingWakes ≠ 0 := by
  by_contra hall
  simp only [ne_eq, not_or, not_not] at hall
  obtain ⟨hwake, hres, hpending⟩ := hall
  exact hnot ⟨hwake ▸ hacc, hpending, hres, hne⟩

/-- A host commits its update. -/
theorem commitUpdate_sound (hcond : s.Rewakes (.commitUpdate id)) (h : s.Sound) :
    (s.commitUpdate id).Sound := by
  unfold commitUpdate
  cases hheld : s.held id with
  | none => exact h
  | some reservation =>
    obtain ⟨hmem, rfl⟩ := held_eq_some hheld
    obtain ⟨index, hidx, hcommit⟩ :=
      commitReservation_held (h.holds.reserved _ hmem) (h.holds.queued _ hmem)
    have hidx' : pendingIndex (InboxState.queue
        { s.inbox with reservations := s.inbox.reservations.erase reservation.itemId }
        reservation.queue) reservation.itemId = some index := by
      cases hq : reservation.queue <;> rw [hq] at hidx <;> exact hidx
    have hkeep := ((release_keepsApart s.inbox reservation.itemId).trans
      (applyUpdate_keepsApart hidx')).trans (touch_keepsApart _ reservation.wakes _)
    simp only [hcommit, Bool.true_and]
    refine ⟨h.holds_of_release hmem hkeep, h.running, h.live, ?_⟩
    intro revision hacc hne
    by_cases hsteer : reservation.update = .steer
    · -- only a steer wakes the runtime
      refine .inr (.inr ?_)
      have hwakes := (h.holds.wakes _ hmem).mpr hsteer
      simp [hwakes]
    · have hwakes : reservation.wakes = false := by
        rw [← not_eq_true, h.holds.wakes _ hmem]
        exact hsteer
      have hleft := applyUpdate_followups hsteer hidx (by simpa using hne)
      have hres : (InboxState.applyUpdate
          { s.inbox with reservations := s.inbox.reservations.erase reservation.itemId }
          reservation index).reservations = s.inbox.reservations.erase reservation.itemId := by
        cases hu : reservation.update with
        | steer => exact absurd hu hsteer
        | edit content => simp [applyUpdate, hu]
        | remove => simp only [applyUpdate, hu]; split <;> simp
      have howed := owed_of_not_strands (hcond reservation hheld hsteer) hacc hleft
      simpa [hwakes, hres] using howed

theorem abortReservation_followups (inbox : InboxState) (id : MessageId) :
    (inbox.abortReservation id).followups = inbox.followups := by
  simp only [abortReservation]
  split <;> rfl

theorem abortReservation_reservations (inbox : InboxState) (id : MessageId) :
    (inbox.abortReservation id).reservations = inbox.reservations.erase id := by
  simp only [abortReservation]
  split <;> rfl

/-- A host gives a reservation back. -/
theorem abortUpdate_sound (hcond : s.Rewakes (.abortUpdate id)) (h : s.Sound) :
    (s.abortUpdate id).Sound := by
  unfold abortUpdate
  cases hheld : s.held id with
  | none => exact h
  | some reservation =>
    obtain ⟨hmem, rfl⟩ := held_eq_some hheld
    refine ⟨h.holds_of_release hmem (abortReservation_keepsApart _ _), h.running, h.live, ?_⟩
    intro revision hacc hne
    have hnot := hcond (by rw [hheld]; rfl)
    have hne' : s.inbox.followups ≠ [] := by simpa [abortReservation_followups] using hne
    have howed := owed_of_not_strands hnot hacc hne'
    simpa [abortReservation_reservations] using howed

/-! ## The driver's steps -/

theorem Sound.holds_of_claim {claim : ClaimReservation} (h : s.Sound)
    (hclaim : s.phase.claim = some claim)
    (hkeep : KeepsApart s.inbox inbox' (claim.entries.map Prod.snd)) :
    Holds inbox' s.updates none := by
  refine h.holds.keep hkeep (fun r hr => ⟨hr, fun hin => ?_⟩) (fun c hc => absurd hc (by simp))
  obtain ⟨entry, he, heq⟩ := mem_map.mp hin
  exact h.holds.apart claim hclaim entry he r hr heq.symm

/-- The driver gives its claim back. -/
theorem dropClaim_sound {claim : ClaimReservation} (h : s.Sound)
    (hclaim : s.phase.claim = some claim) (hnext : next = .failed ∨ next = .looping) :
    (s.dropClaim claim next).Sound := by
  have hkeep := h.holds_of_claim hclaim (abortClaim_keepsApart s.inbox claim.entries)
  have hrun : s.running = true := by
    rw [h.running]
    cases hp : s.phase <;> rw [hp] at hclaim <;> simp_all [Phase.claim, Phase.isRunning]
  rcases hnext with rfl | rfl
  all_goals
    exact ⟨hkeep, hrun, by simp [dropClaim], fun _ hacc => absurd hacc
      (by simp [accounted, dropClaim])⟩

/-- The driver commits its claim. -/
theorem commitClaim_sound {claim : ClaimReservation} {lost : Phase} (h : s.Sound)
    (hclaim : s.phase.claim = some claim) (hlost : lost = .failed ∨ lost = .looping) :
    (s.commitClaim claim lost).Sound := by
  have hrun : s.running = true := by
    rw [h.running]
    cases hp : s.phase <;> rw [hp] at hclaim <;> simp_all [Phase.claim, Phase.isRunning]
  unfold commitClaim
  cases hcommit : s.inbox.commitClaim claim with
  | none => exact dropClaim_sound h hclaim hlost
  | some inbox =>
    exact ⟨h.holds_of_claim hclaim (commitClaim_keepsApart hcommit), hrun, by simp,
      fun _ hacc => absurd hacc (by simp [accounted])⟩

theorem Sound.advance (h : s.Sound) (hclaim : next.claim = s.phase.claim)
    (hrun : next.isRunning = s.running) (hlive : next ≠ .exited)
    (hacc : accounted { s with phase := next } = none) :
    Sound { s with phase := next } where
  holds := hclaim ▸ h.holds
  running := hrun.symm
  live := hlive
  owed _ hsome := absurd (hacc.symm.trans hsome) (by simp)

/-- The driver claims the next turn. -/
theorem claimNextTurn_sound (hlive : s.cancelled = false) (h : s.Sound)
    (hphase : s.phase = .looping) : s.claimNextTurn.Sound := by
  have hrun : s.running = true := by rw [h.running, hphase]; rfl
  have hnone : s.phase.claim = none := by rw [hphase]; rfl
  unfold claimNextTurn
  rw [hlive, if_neg (by simp)]
  cases hclaim : s.inbox.reserveNextTurnClaim with
  | none =>
    -- an empty claim is where a followup must be accounted for
    refine ⟨?_, hrun, by simp, ?_⟩
    · have := h.holds
      rw [hnone] at this
      exact this
    · intro revision _ hne
      rcases reserveNextTurnClaim_eq_none hclaim with hnil | hres
      · exact absurd hnil hne
      · exact .inr (.inl hres)
  | some found =>
    obtain ⟨claim, _⟩ := found
    refine ⟨?_, hrun, by simp, fun _ hacc => absurd hacc (by simp [accounted])⟩
    exact Holds.claim (hnone ▸ h.holds) (reserveNextTurnClaim_reserves hclaim)

/-- The driver claims what a step takes in. -/
theorem claimStepBatch_sound (h : s.Sound) (hphase : s.phase = .turn) : s.claimStepBatch.Sound := by
  have hrun : s.running = true := by rw [h.running, hphase]; rfl
  have hnone : s.phase.claim = none := by rw [hphase]; rfl
  unfold claimStepBatch
  cases hclaim : s.inbox.reserveStepBatchClaim with
  | none => exact h
  | some found =>
    obtain ⟨claim, _⟩ := found
    refine ⟨?_, hrun, by simp, fun _ hacc => absurd hacc (by simp [accounted])⟩
    exact Holds.claim (hnone ▸ h.holds) (reserveStepBatchClaim_reserves hclaim)

/-- The driver looks at the revision before it waits. -/
theorem look_sound (hlive : s.cancelled = false) (h : s.Sound) (hphase : s.phase = .waiting) :
    s.look.Sound := by
  unfold look
  rw [hlive, if_neg (by simp)]
  split
  · have hholds := h.holds
    have hrun := h.running
    rw [hphase] at hholds hrun
    refine ⟨hholds, hrun, by simp, ?_⟩
    intro revision hacc
    exact h.owed revision (by simpa [accounted, hphase] using hacc)
  · exact h

/-- The driver compares the revision it has read. -/
theorem check_sound (h : s.Sound) (hphase : s.phase = .checking) : s.check.Sound := by
  have hholds := h.holds
  have hrun := h.running
  rw [hphase] at hholds hrun
  unfold check
  split
  · exact ⟨hholds, hrun, by simp, fun _ hacc => absurd hacc (by simp [accounted])⟩
  case isFalse hseen =>
    refine ⟨hholds, hrun, by simp, ?_⟩
    intro revision hacc
    refine h.owed revision ?_
    have hrev : s.wakeRevision = revision := by simpa [accounted] using hacc
    simp only [accounted, hphase]
    rw [← hrev]
    exact congrArg some (not_not.mp hseen).symm

/-- One stage of the driver. -/
theorem drive_sound {answer : Answer} (hcond : s.Rewakes (.drive answer))
    (hlive : s.cancelled = false) (h : s.Sound) : (s.drive answer).Sound := by
  have hholds := h.holds
  have hrun := h.running
  have howed := h.owed
  unfold drive
  cases hphase : s.phase with
  | waiting => exact look_sound hlive h hphase
  | starting =>
    rw [hphase] at hholds
    show s.acquire.Sound
    unfold acquire
    rw [hlive, if_neg (by simp)]
    exact ⟨hholds, rfl, by simp, fun _ hacc => absurd hacc (by simp [accounted])⟩
  | looping => exact claimNextTurn_sound hlive h hphase
  | claimed claim =>
    cases answer with
    | ok =>
      exact h.advance (by rw [hphase]; rfl) (by rw [hrun, hphase]; rfl) (by simp)
        (by simp [accounted])
    | no => exact dropClaim_sound h (by rw [hphase]; rfl) (.inl rfl)
  | appended claim => exact commitClaim_sound h (by rw [hphase]; rfl) (.inl rfl)
  | turn =>
    cases answer with
    | ok => exact claimStepBatch_sound h hphase
    | no =>
      exact h.advance (by rw [hphase]; rfl) (by rw [hrun, hphase]; rfl) (by simp)
        (by simp [accounted])
  | stepClaimed claim =>
    cases answer with
    | ok =>
      exact h.advance (by rw [hphase]; rfl) (by rw [hrun, hphase]; rfl) (by simp)
        (by simp [accounted])
    | no => exact dropClaim_sound h (by rw [hphase]; rfl) (.inr rfl)
  | stepAppended claim => exact commitClaim_sound h (by rw [hphase]; rfl) (.inr rfl)
  | checking => exact check_sound h hphase
  | settling revision =>
    rw [hphase] at hholds hrun
    refine ⟨hholds, hrun, by simp, ?_⟩
    intro settled hacc
    exact howed settled (by simpa [accounted, hphase] using hacc)
  | stopping =>
    rw [hphase] at hholds
    refine ⟨hholds, rfl, by simp, ?_⟩
    intro settled hacc
    exact howed settled (by simpa [accounted, hphase] using hacc)
  | failed =>
    exact h.advance (by rw [hphase]; rfl) (by rw [hrun, hphase]; rfl) (by simp)
      (by simp [accounted])
  | failing revision =>
    rw [hphase] at hholds
    refine ⟨hholds, rfl, by simp, ?_⟩
    intro settled hacc hne
    have hrev : revision = settled := by simpa [accounted] using hacc
    by_contra hall
    simp only [ne_eq, not_or, not_not] at hall
    obtain ⟨hwake, hres, hpending⟩ := hall
    refine hcond ⟨?_, hpending, hres, hne⟩
    rw [hphase, hrev, ← hwake]
  | exited => exact absurd hphase h.live

/-! ## Runs -/

theorem step_cancelled (step : DriverStep) (h : s.cancelled = true) :
    (s.step step).cancelled = true := by
  cases step with
  | send message target => simp [DriverSystem.step, send, h]
  | wake =>
    simp only [DriverSystem.step, wake]
    split <;> exact h
  | reserve id update => simp [DriverSystem.step, reserve, h]
  | commitUpdate id =>
    simp only [DriverSystem.step, commitUpdate]
    split <;> exact h
  | abortUpdate id =>
    simp only [DriverSystem.step, abortUpdate]
    split <;> exact h
  | cancel keepInbox => simp [DriverSystem.step, cancel, h]
  | drive answer =>
    simp only [DriverSystem.step, drive]
    cases hphase : s.phase with
    | claimed claim | stepClaimed claim => cases answer <;> exact h
    | turn =>
      cases answer
      · simp only [claimStepBatch]
        split <;> exact h
      · exact h
    | appended claim | stepAppended claim =>
      simp only [commitClaim]
      split <;> exact h
    | checking =>
      simp only [check]
      split <;> exact h
    | _ => simp [look, acquire, claimNextTurn, exit, h]

/-- A step that strands nobody keeps the invariant. -/
theorem step_sound (s : DriverSystem) (step : DriverStep) (hcond : s.Rewakes step)
    (h : s.cancelled = false → s.Sound) :
    (s.step step).cancelled = false → (s.step step).Sound := by
  intro hlive
  have hstay : s.cancelled = false := by
    by_contra hc
    rw [not_eq_false] at hc
    rw [step_cancelled step hc] at hlive
    exact absurd hlive (by simp)
  have hs := h hstay
  cases step with
  | send message target => exact send_sound message target hs
  | wake => exact wake_sound hcond hstay hs
  | reserve id update => exact reserve_sound id update hs
  | commitUpdate id => exact commitUpdate_sound hcond hs
  | abortUpdate id => exact abortUpdate_sound hcond hs
  | cancel keepInbox =>
    have hcancelled : (s.cancel keepInbox).cancelled = true := by
      unfold cancel
      rw [hstay]
      rfl
    exact absurd (hlive.symm.trans hcancelled) (by simp)
  | drive answer => exact drive_sound hcond hstay hs

/-- The first state of an agent is settled and idle: what its inbox was
restored with waits for a wake nobody owes. -/
theorem spawn_noLostWake_iff {pending : List Message} {inbox : InboxState}
    (h : restore pending = .ok inbox) : (spawn inbox).NoLostWake ↔ pending = [] := by
  have hfollowups : (spawn inbox).inbox.followups = pending := restore_followups h
  constructor
  · intro hempty
    rw [← hfollowups]
    exact hempty rfl rfl (restore_reservations h) rfl rfl
  · rintro rfl _ _ _ _ _
    exact hfollowups

/-- **No lost wake.** Over every run whose steps strand no followup, a
settled idle driver with no reservation held has an empty followup queue,
exactly when the setup restored none. -/
theorem no_lost_wake (pending : List Message) (inbox : InboxState)
    (hrestore : restore pending = .ok inbox) :
    (∀ steps : List DriverStep, Meets Rewakes DriverSystem.step (spawn inbox) steps →
        (steps.foldl DriverSystem.step (spawn inbox)).NoLostWake)
      ↔ pending = [] := by
  constructor
  · intro hruns
    exact (spawn_noLostWake_iff hrestore).mp (hruns [] trivial)
  · rintro rfl steps hrun
    cases hrestore
    exact Sound.noLostWake
      (foldl_invariant_of_meets (fun s : DriverSystem => s.cancelled = false → s.Sound)
        step_sound steps (spawn .empty) hrun fun _ => spawn_sound)

def textMessage (id text : String) : Message :=
  { id := ⟨id⟩, role := .user, content := [.text text], source := .user none }

/-- A followup is sent and edited while the driver is asleep, then the
driver claims it. -/
def editedWhileAsleep : List DriverStep :=
  [.send (textMessage "m1" "first") .followup, .reserve ⟨"m1"⟩ (.edit [.text "second"]),
    .commitUpdate ⟨"m1"⟩, .wake, .drive .ok, .drive .ok, .drive .ok, .drive .ok, .drive .ok,
    .drive .no, .drive .ok, .drive .ok, .drive .ok, .drive .ok]

/-- The run settles idle, with the followup claimed. -/
theorem no_lost_wake_editedWhileAsleep :
    Meets Rewakes DriverSystem.step (spawn .empty) editedWhileAsleep
      ∧ (editedWhileAsleep.foldl DriverSystem.step (spawn .empty)).phase = .waiting
      ∧ (editedWhileAsleep.foldl DriverSystem.step (spawn .empty)).settledRevision = 1
      ∧ (editedWhileAsleep.foldl DriverSystem.step (spawn .empty)).NoLostWake :=
  ⟨by decide +kernel, by decide +kernel, by decide +kernel,
    (no_lost_wake [] .empty rfl).mpr rfl editedWhileAsleep (by decide +kernel)⟩

/-- The same edit, reserved before the driver claims and committed after
it has settled: the claim finds the front reserved and the commit wakes
nobody. -/
def editedAcrossSettling : List DriverStep :=
  [.send (textMessage "m1" "first") .followup, .reserve ⟨"m1"⟩ (.edit [.text "second"]), .wake,
    .drive .ok, .drive .ok, .drive .ok, .drive .ok, .drive .ok, .drive .ok,
    .commitUpdate ⟨"m1"⟩]

/-- An edit that outlives the driver's last claim leaves its message
queued under a settled idle driver; so does a setup that restores a
followup. -/
theorem edit_release_strands_followup :
    (¬ ∀ steps : List DriverStep, (steps.foldl DriverSystem.step (spawn .empty)).NoLostWake)
      ∧ ¬ ∀ inbox, restore [textMessage "m1" "first"] = .ok inbox → (spawn inbox).NoLostWake := by
  constructor
  · intro h
    exact absurd (h editedAcrossSettling) (by decide +kernel)
  · intro h
    have hrestore : restore [textMessage "m1" "first"]
        = .ok { InboxState.empty with followups := [textMessage "m1" "first"], changes := 1 } := by
      decide +kernel
    exact absurd ((spawn_noLostWake_iff hrestore).mp (h _ hrestore)) (by simp)

end DriverSystem

end Tessivum.Agent
