/-
Tessivum.Projection.RelayTheorems — where the relay of a session stands.

The relay's position is the number of the next event it relays. What it
holds are the events of the log from there on (`Relay.Ok`), so it relays
every event from its start point once and in order: `Placed` holds in
every run, and a step appends an event, starts the relay, relays the event
at its position, or leaves the log and the position alone.
-/
import Tessivum.Projection.PassTheorems

namespace Tessivum.Projection

open Library Protocol Session ProjectionSystem

/-! ## The relay -/

def Relay.position : Relay → Nat
  | .absent => 0
  | .starting nextSeq => nextSeq
  | .running task => task.nextSeq

/-- What the relay holds: the events found are the next ones of the log,
and the event received is at most the one after them. -/
def RelayPhase.Ok (log : List SessionEvent) (nextSeq : Nat) : RelayPhase → Prop
  | .scanning held _ => ∀ e ∈ held, log[e.seq]? = some e
  | .draining found held _ =>
    (∃ tail, log.drop nextSeq = found ++ tail) ∧
      ∀ e ∈ held, log[e.seq]? = some e ∧ e.seq ≤ nextSeq + found.length
  | .waiting => True
  | .finished => True

def Relay.Ok (log : List SessionEvent) : Relay → Prop
  | .absent => True
  | .starting nextSeq => nextSeq ≤ log.length
  | .running task => task.nextSeq ≤ log.length ∧ task.phase.Ok log task.nextSeq

variable {log : List SessionEvent} {r : Relay}

theorem Relay.Ok.position_le (h : r.Ok log) : r.position ≤ log.length := by
  cases r with
  | absent => exact Nat.zero_le _
  | starting nextSeq => exact h
  | running task => exact h.1

theorem getElem?_seq_snoc {e : SessionEvent} (h : log[e.seq]? = some e) (x : SessionEvent) :
    (log ++ [x])[e.seq]? = some e := by
  rw [getElem?_append_left (List.getElem?_eq_some_iff.mp h).1]
  exact h

theorem Relay.Ok.append (h : r.Ok log) (x : SessionEvent) : r.Ok (log ++ [x]) := by
  have hlen : log.length ≤ (log ++ [x]).length := by simp
  cases r with
  | absent => trivial
  | starting nextSeq => exact le_trans h hlen
  | running task =>
    obtain ⟨hnext, hphase⟩ := h
    refine ⟨le_trans hnext hlen, ?_⟩
    cases hcase : task.phase with
    | scanning held closing =>
      rw [hcase] at hphase
      exact fun e he => getElem?_seq_snoc (hphase e he) x
    | draining =>
      rw [hcase] at hphase
      obtain ⟨⟨tail, htail⟩, hheld⟩ := hphase
      refine ⟨⟨tail ++ [x], ?_⟩, fun e he => ⟨getElem?_seq_snoc (hheld e he).1 x, (hheld e he).2⟩⟩
      rw [List.drop_append_of_le_length hnext, htail, append_assoc]
    | waiting => trivial
    | finished => trivial

namespace ProjectionSystem

/-! ## The invariant -/

/-- What holds of the log and the relay in every run. -/
structure Placed (s : ProjectionSystem) : Prop where
  numbered : Numbered s.log
  sent : s.sent ≤ s.log.length
  relaying : s.relay.Ok s.log

theorem opened_placed (header : SessionHeader) {log : List SessionEvent} (hlog : Numbered log) :
    Placed (opened header log) where
  numbered := hlog
  sent := le_refl _
  relaying := trivial

variable {s s' : ProjectionSystem} {e : SessionEvent}

section

variable (h : Placed s)

include h

theorem Placed.of_eq (hlog : s'.log = s.log) (hsent : s'.sent = s.sent)
    (hrelay : s'.relay = s.relay) : Placed s' where
  numbered := hlog ▸ h.numbered
  sent := by rw [hsent, hlog]; exact h.sent
  relaying := by rw [hrelay, hlog]; exact h.relaying

theorem Placed.append (e : SessionEvent) : Placed (s.append e) := by
  unfold ProjectionSystem.append
  split
  · rename_i hn
    split
    · rename_i hcond
      have hlen : e.seq = s.log.length := hcond.2.trans (h.numbered.seq_of_nextSeq hn)
      exact
        { numbered := numbered_snoc.mpr ⟨h.numbered, hlen⟩
          sent := le_trans h.sent (by simp)
          relaying := h.relaying.append e }
    · exact h
  · exact h

theorem Placed.publish : Placed s.publish := by
  unfold ProjectionSystem.publish
  split
  · rename_i hlt
    exact { h with sent := hlt }
  · exact h

theorem Placed.relayStart : Placed s.relayStart := by
  unfold ProjectionSystem.relayStart
  split
  · refine { h with relaying := ?_ }
    rw [h.numbered.nextSeq]
    by_cases hlt : s.log.length < u64Bound
    · rw [if_pos hlt]
      exact le_refl s.log.length
    · rw [if_neg hlt]
      exact le_trans (Nat.sub_le _ _) (Nat.le_of_not_lt hlt)
  · exact h

theorem Placed.relaySubscribe : Placed s.relaySubscribe := by
  unfold ProjectionSystem.relaySubscribe
  split
  · rename_i hrelay
    have hok := h.relaying
    rw [hrelay] at hok
    exact { h with relaying := ⟨hok, nofun⟩ }
  · exact h

theorem Placed.relayScan : Placed s.relayScan := by
  unfold ProjectionSystem.relayScan
  split
  · rename_i nextSeq cursor held closing hrelay
    have hok := h.relaying
    rw [hrelay] at hok
    refine { h with relaying := ⟨hok.1, ?_, ?_⟩ }
    · exact ⟨[], by rw [filter_seq_ge h.numbered]; simp⟩
    · intro e he
      have hget := hok.2 e he
      have hlt := (List.getElem?_eq_some_iff.mp hget).1
      refine ⟨hget, ?_⟩
      have hle : nextSeq ≤ s.log.length := hok.1
      dsimp only
      rw [filter_seq_ge h.numbered, length_drop]
      omega
  · exact h

theorem Placed.relayReceive : Placed s.relayReceive := by
  unfold ProjectionSystem.relayReceive
  split
  · rename_i nextSeq cursor hrelay
    have hok := h.relaying
    rw [hrelay] at hok
    split
    · exact { h with relaying := ⟨hok.1, nofun⟩ }
    · split
      · split
        · rename_i e he
          have hseq : e.seq = cursor := h.numbered cursor e he
          have hget : s.log[e.seq]? = some e := by rw [hseq]; exact he
          refine { h with relaying := ⟨hok.1, ?_⟩ }
          dsimp only
          split
          · intro x hx
            cases hx
            exact hget
          · rename_i hge
            refine ⟨⟨s.log.drop nextSeq, rfl⟩, fun x hx => ?_⟩
            cases hx
            exact ⟨hget, Nat.le_of_not_lt hge⟩
        · exact h
      · exact h
  · exact h

theorem Placed.relayNext_eq (he : s.relayNext = some e) :
    e.seq = s.relay.position ∧ s.log[e.seq]? = some e := by
  have hok := h.relaying
  unfold relayNext at he
  split at he
  · rename_i nextSeq cursor e' found held closing hrelay
    cases he
    rw [hrelay] at hok ⊢
    obtain ⟨_, ⟨_, htail⟩, _⟩ := hok
    have hget : s.log[nextSeq]? = some e := by
      have hhead := congrArg (fun l => l[0]?) htail
      simpa using hhead
    have hseq : e.seq = nextSeq := h.numbered nextSeq e hget
    exact ⟨hseq, by rw [hseq]; exact hget⟩
  · rename_i hrelay
    split at he
    · rename_i hge
      cases he
      rw [hrelay] at hok ⊢
      obtain ⟨hget, hle⟩ := hok.2.2 e rfl
      exact ⟨le_antisymm hle hge, hget⟩
    · exact nomatch he
  · exact nomatch he

/-- The relay goes on to the next event. -/
theorem Placed.relayApply : Placed s.relayApply := by
  have hok := h.relaying
  unfold ProjectionSystem.relayApply
  split
  · rename_i nextSeq cursor e found held closing hrelay
    obtain ⟨hposition, hget⟩ := h.relayNext_eq
      (show s.relayNext = some e by simp only [relayNext, hrelay])
    have hseq : e.seq = nextSeq := by rw [hposition, hrelay]; rfl
    rw [hrelay] at hok
    obtain ⟨hnext, ⟨tail, htail⟩, hheld⟩ := hok
    refine { h with relaying := ⟨(List.getElem?_eq_some_iff.mp hget).1, ⟨tail, ?_⟩, ?_⟩ }
    · dsimp only at htail ⊢
      rw [hseq, ← List.drop_drop, htail]
      rfl
    · intro x hx
      obtain ⟨hx', hle⟩ := hheld x hx
      simp only [length_cons] at hle
      exact ⟨hx', by dsimp only; omega⟩
  · rename_i e closing hrelay
    rw [hrelay] at hok
    obtain ⟨hnext, -, hheld⟩ := hok
    have hdrained : ∀ n, RelayPhase.Ok s.log n (.draining [] none closing) :=
      fun n => ⟨⟨s.log.drop n, rfl⟩, nofun⟩
    split
    · exact
        { h with relaying := ⟨(List.getElem?_eq_some_iff.mp (hheld e rfl).1).1, hdrained _⟩ }
    · exact { h with relaying := ⟨hnext, hdrained _⟩ }
  · rename_i closing hrelay
    rw [hrelay] at hok
    refine { h with relaying := ⟨hok.1, ?_⟩ }
    cases closing <;> trivial
  · exact h

theorem Placed.relayClose : Placed s.relayClose := by
  unfold ProjectionSystem.relayClose
  split
  · rename_i hrelay
    have hok := h.relaying
    rw [hrelay] at hok
    exact { h with relaying := ⟨hok.1, nofun⟩ }
  · exact h

end

/-! ## Steps -/

/-- The steps that touch neither the log, nor what was sent, nor the relay. -/
def isFrame : ProjectionStep → Bool
  | .register _ | .attach | .ensureRelay | .attachPrepare _ | .attachInsert _ | .attachReplay _
  | .observerReceive _ | .observerApply _ | .observerStop _ | .shutdown => true
  | _ => false

/-- The steps that leave log, channel and relay. -/
theorem step_frame (s : ProjectionSystem) {i : ProjectionStep} (hi : isFrame i = true) :
    (s.step i).log = s.log ∧ (s.step i).sent = s.sent ∧ (s.step i).relay = s.relay := by
  cases i with
  | shutdown => exact ⟨rfl, rfl, rfl⟩
  | ensureRelay =>
    simp only [step, ensureRelay]
    split
    · exact ⟨rfl, rfl, rfl⟩
    · unfold attach
      repeat' split
      all_goals exact ⟨rfl, rfl, rfl⟩
  | register | attach | attachPrepare | attachInsert | attachReplay | observerReceive
  | observerApply | observerStop =>
    simp only [step, register, attach, attachPrepare, attachInsert, attachReplay, observerReceive,
      observerApply, observerStop]
    repeat' split
    all_goals exact ⟨rfl, rfl, rfl⟩
  | _ => cases hi

theorem Placed.of_frame (h : Placed s)
    (hframe : s'.log = s.log ∧ s'.sent = s.sent ∧ s'.relay = s.relay) : Placed s' :=
  h.of_eq hframe.1 hframe.2.1 hframe.2.2

/-- One step of the registry. -/
theorem Placed.step {s : ProjectionSystem} (h : Placed s) (i : ProjectionStep) :
    Placed (s.step i) := by
  cases i with
  | append e => exact h.append e
  | publish => exact h.publish
  | relayStart => exact h.relayStart
  | relaySubscribe => exact h.relaySubscribe
  | relayScan => exact h.relayScan
  | relayReceive => exact h.relayReceive
  | relayApply => exact h.relayApply
  | relayClose => exact h.relayClose
  | register | attach | ensureRelay | attachPrepare | attachInsert | attachReplay
  | observerReceive | observerApply | observerStop | shutdown =>
    exact h.of_frame (s.step_frame rfl)

/-- What a step that does not start the relay and relays nothing does to
the log and to the relay's position. -/
inductive Moved (s s' : ProjectionSystem) : Prop where
  | still (hlog : s'.log = s.log) (hposition : s'.relay.position = s.relay.position)
  | appended (e : SessionEvent) (hlog : s'.log = s.log ++ [e])
      (hposition : s'.relay.position = s.relay.position)

theorem Moved.of_frame (hframe : s'.log = s.log ∧ s'.sent = s.sent ∧ s'.relay = s.relay) :
    Moved s s' :=
  .still hframe.1 (by rw [hframe.2.2])

theorem append_moved (s : ProjectionSystem) (e : SessionEvent) : Moved s (s.append e) := by
  unfold ProjectionSystem.append
  split
  · split
    · exact .appended e rfl rfl
    · exact .still rfl rfl
  · exact .still rfl rfl

theorem relayStart_frame (s : ProjectionSystem) : s.relayStart.log = s.log := by
  unfold ProjectionSystem.relayStart
  split <;> rfl

theorem relayStart_of_ne_absent (h : s.relay ≠ .absent) : s.relayStart = s := by
  unfold ProjectionSystem.relayStart
  split
  · next habsent => exact absurd habsent h
  · rfl

theorem relayReceive_eq (s : ProjectionSystem) :
    s.relayReceive = s ∨
      ∃ task, s.relayReceive = { s with relay := .running task } ∧ s.relay ≠ .absent ∧
        task.nextSeq = s.relay.position := by
  unfold ProjectionSystem.relayReceive
  split
  · rename_i nextSeq cursor hrelay
    have hne : s.relay ≠ .absent := by rw [hrelay]; exact nofun
    have hposition : nextSeq = s.relay.position := by rw [hrelay]; rfl
    split
    · exact Or.inr ⟨_, rfl, hne, hposition⟩
    · split
      · split
        · exact Or.inr ⟨_, rfl, hne, hposition⟩
        · exact Or.inl rfl
      · exact Or.inl rfl
  · exact Or.inl rfl

theorem relayReceive_moved (s : ProjectionSystem) : Moved s s.relayReceive := by
  obtain heq | ⟨_, heq, -, hposition⟩ := relayReceive_eq s
  · rw [heq]
    exact .still rfl rfl
  · rw [heq]
    exact .still rfl hposition

theorem relayApply_next (h : s.relayNext = some e) :
    s.relayApply.log = s.log ∧ s.relayApply.relay.position = e.seq + 1 := by
  unfold relayNext at h
  unfold ProjectionSystem.relayApply
  split at h
  · next hrelay =>
    cases h
    rw [hrelay]
    exact ⟨rfl, rfl⟩
  · next hrelay =>
    split at h
    · next hge =>
      cases h
      simp only [hrelay, if_pos hge]
      exact ⟨trivial, rfl⟩
    · exact nomatch h
  · exact nomatch h

theorem relayApply_idle (h : s.relayNext = none) : Moved s s.relayApply := by
  unfold relayNext at h
  unfold ProjectionSystem.relayApply
  split
  · next hrelay =>
    rw [hrelay] at h
    exact nomatch h
  · next hrelay =>
    split
    · next hge =>
      simp only [hrelay, if_pos hge] at h
      exact nomatch h
    · exact .still rfl (by rw [hrelay]; rfl)
  · next hrelay => exact .still rfl (by rw [hrelay]; rfl)
  · exact .still rfl rfl

/-- Only its own steps move the relay. -/
theorem step_moved (s : ProjectionSystem) {i : ProjectionStep} (hstart : i ≠ .relayStart)
    (happly : i ≠ .relayApply) : Moved s (s.step i) := by
  cases i with
  | append e => exact append_moved s e
  | publish =>
    simp only [step, ProjectionSystem.publish]
    split <;> exact .still rfl rfl
  | relayStart => exact absurd rfl hstart
  | relayReceive => exact relayReceive_moved s
  | relayApply => exact absurd rfl happly
  | relaySubscribe | relayScan | relayClose =>
    simp only [step, ProjectionSystem.relaySubscribe, ProjectionSystem.relayScan,
      ProjectionSystem.relayClose]
    split
    · rename_i hrelay
      exact .still rfl (by rw [hrelay]; rfl)
    · exact .still rfl rfl
  | register | attach | ensureRelay | attachPrepare | attachInsert | attachReplay
  | observerReceive | observerApply | observerStop | shutdown =>
    exact .of_frame (s.step_frame rfl)

/-- A relay that has started stays. -/
theorem relay_ne_absent_of_step (h : s.relay ≠ .absent) (i : ProjectionStep) :
    (s.step i).relay ≠ .absent := by
  cases i with
  | register | attach | ensureRelay | attachPrepare | attachInsert | attachReplay
  | observerReceive | observerApply | observerStop | shutdown =>
    rw [(s.step_frame rfl).2.2]
    exact h
  | append | publish | relayStart | relaySubscribe | relayScan | relayApply | relayClose =>
    simp only [step, ProjectionSystem.append, ProjectionSystem.publish,
      ProjectionSystem.relayStart, ProjectionSystem.relaySubscribe, ProjectionSystem.relayScan,
      ProjectionSystem.relayApply, ProjectionSystem.relayClose]
    repeat' split
    all_goals first | exact h | exact nofun
  | relayReceive =>
    obtain heq | ⟨_, heq, -, -⟩ := relayReceive_eq s
    · rw [step, heq]; exact h
    · rw [step, heq]; exact nofun

theorem relayNext_ne_absent (h : s.relayNext = some e) : s.relay ≠ .absent := by
  intro habsent
  simp only [relayNext, habsent] at h
  exact nomatch h

end ProjectionSystem

end Tessivum.Projection
