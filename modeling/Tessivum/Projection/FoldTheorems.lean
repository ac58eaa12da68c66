/-
Tessivum.Projection.FoldTheorems — attached projections are folds of the log,
in every run whose passes are safe.

Both feeders test that an event is newer than the last one applied, not that it
is the next one. Every observer and the relay keep a position that all
projections are covered up to, and `Sound` says so. `passSafe` is the condition
on a step: a failing callback cuts the pass off from no projection that would
have taken the event, a replay after a lag meets no failure, the relay's start
point leaves no event to an observer, and no `attach` puts its initial states
over those of another.
-/
import Tessivum.Library.Machine
import Tessivum.Projection.RelayTheorems

namespace Tessivum.Projection

open Library Protocol Session List

/-! ## The system -/

def Observer.position : Observer → Nat
  | .waiting cursor => cursor
  | .handed _ e => e.seq
  | _ => 0

def Observer.Ok (log : List SessionEvent) (sent : Nat) : Observer → Prop
  | .stopped => True
  | .waiting cursor => cursor ≤ sent
  | .handed cursor e => log[e.seq]? = some e ∧ cursor = e.seq + 1 ∧ cursor ≤ sent
  | .behind cursor => cursor ≤ sent

variable {log : List SessionEvent} {o : Observer} {sent : Nat}

theorem Observer.Ok.position_le (h : o.Ok log sent) (hsent : sent ≤ log.length) :
    o.position ≤ log.length := by
  cases o with
  | stopped | behind cursor => exact Nat.zero_le _
  | waiting cursor => exact le_trans h hsent
  | handed cursor e => exact le_of_lt (List.getElem?_eq_some_iff.mp h.1).1

theorem Observer.Ok.append (h : o.Ok log sent) (x : SessionEvent) : o.Ok (log ++ [x]) sent := by
  cases o with
  | handed cursor e => exact ⟨getElem?_seq_snoc h.1 x, h.2⟩
  | _ => exact h

theorem Observer.Ok.mono {sent' : Nat} (h : o.Ok log sent) (hle : sent ≤ sent') :
    o.Ok log sent' := by
  cases o with
  | stopped => trivial
  | waiting cursor | behind cursor => exact le_trans h hle
  | handed cursor e => exact ⟨h.1, h.2.1, le_trans h.2.2 hle⟩

/-- What a call of `attach` holds: initial states, and a position that is not
ahead of the broadcasts. -/
def AttachCall.Ok (header : SessionHeader) (sent : Nat) (attached : Bool) (call : AttachCall) :
    Prop :=
  match call.phase with
  | .checked => True
  | .prepared projections cursor => cursor ≤ sent ∧ ∀ p ∈ projections, p.Folded header []
  | .inserted cursor => cursor ≤ sent ∧ attached = true

theorem AttachCall.Ok.mono {header : SessionHeader} {call : AttachCall} {sent' : Nat}
    {attached attached' : Bool} (h : call.Ok header sent attached) (hsent : sent ≤ sent')
    (hattached : attached = true → attached' = true) : call.Ok header sent' attached' := by
  unfold AttachCall.Ok at h ⊢
  split
  · trivial
  · rename_i hphase
    rw [hphase] at h
    exact ⟨le_trans h.1 hsent, h.2⟩
  · rename_i hphase
    rw [hphase] at h
    exact ⟨le_trans h.1 hsent, hattached h.2⟩

namespace ProjectionSystem

/-- The positions that all projections are covered up to. -/
def positions (s : ProjectionSystem) : List Nat :=
  s.relay.position :: s.observers.map Observer.position

/-- What holds in every state of a safe run. -/
structure Sound (s : ProjectionSystem) : Prop where
  numbered : Numbered s.log
  sent : s.sent ≤ s.log.length
  fed : Fed s.header s.log s.positions s.projections
  calls : ∀ call ∈ s.attaches, call.Ok s.header s.sent s.attached
  idle : s.attached = false → s.observers = [] ∧ s.relay = .absent ∧ s.relayAttached = false
  observing : ∀ o ∈ s.observers, o.Ok s.log s.sent
  relaying : s.relay.Ok s.log

/-- The condition on a step: a pass is safe, a replay after a lag is
accepted by every projection, when the relay reads its start point every
projection has applied or refuses all that is committed, and an `attach`
inserts its states only where there are none. -/
def passSafe (s : ProjectionSystem) : ProjectionStep → Bool
  | .attachInsert i =>
    match s.attaches[i]? with
    | some { relaying := _, phase := .prepared _ _ } => !s.attached
    | _ => true
  | .observerApply j =>
    match s.observers[j]? with
    | some (.handed _ e) => decide (SafePass e s.projections)
    | some (.behind _) =>
      s.projections.all fun p => p.definition.accepts p.state.state (s.log.drop p.next)
    | _ => true
  | .relayStart => s.projections.all fun p => (s.log.drop p.next).all p.refuses
  | .relayApply => s.relayNext.all fun e => decide (SafePass e s.projections)
  | _ => true

theorem position_mem {s : ProjectionSystem} {j : Nat} {o : Observer}
    (ho : s.observers[j]? = some o) : o.position ∈ s.positions :=
  mem_cons_of_mem _ (mem_map_of_mem (mem_of_getElem? ho))

/-- Nothing is attached when the session is opened. -/
theorem opened_sound (header : SessionHeader) {log : List SessionEvent} (hlog : Numbered log) :
    Sound (opened header log) where
  numbered := hlog
  sent := le_refl _
  fed p hp := by cases hp
  calls call hcall := by cases hcall
  idle _ := ⟨rfl, rfl, rfl⟩
  observing o ho := by cases ho
  relaying := trivial

theorem Sound.placed {s : ProjectionSystem} (h : Sound s) : Placed s where
  numbered := h.numbered
  sent := h.sent
  relaying := h.relaying

theorem Sound.positions_le {s : ProjectionSystem} (h : Sound s) :
    ∀ k ∈ s.positions, k ≤ s.log.length := by
  intro k hk
  rcases mem_cons.mp hk with rfl | hk
  · exact h.relaying.position_le
  · obtain ⟨o, ho, rfl⟩ := mem_map.mp hk
    exact (h.observing o ho).position_le h.sent

/-! ## Appends and attachment -/

variable {s s' : ProjectionSystem} {d : ProjectionDefinition} {header : SessionHeader}

/-- An event is appended. -/
theorem Sound.append (h : Sound s) (e : SessionEvent) : Sound (s.append e) := by
  unfold ProjectionSystem.append
  split
  · rename_i hn
    split
    · rename_i hcond
      have hlen : e.seq = s.log.length := hcond.2.trans (h.numbered.seq_of_nextSeq hn)
      exact
        { numbered := numbered_snoc.mpr ⟨h.numbered, hlen⟩
          sent := le_trans h.sent (by simp)
          fed := h.fed.append h.positions_le e
          calls := h.calls
          idle := h.idle
          observing := fun o ho => (h.observing o ho).append e
          relaying := h.relaying.append e }
    · exact h
  · exact h

/-- An event is published. -/
theorem Sound.publish (h : Sound s) : Sound s.publish := by
  unfold ProjectionSystem.publish
  split
  · rename_i hlt
    exact
      { h with
        sent := hlt
        calls := fun call hcall => (h.calls call hcall).mono (le_succ _) id
        observing := fun o ho => (h.observing o ho).mono (le_succ _) }
  · exact h

theorem attach_folded {p : AttachedProjection} (h : d.attach header = .ok p) :
    p.Folded header [] := by
  simp only [ProjectionDefinition.attach, bind_eq_ok, ok.injEq] at h
  obtain ⟨initial, hinit, rfl⟩ := h
  exact ⟨Nat.zero_le _, initial, hinit, rfl⟩

/-- Initial states are the fold of any log. -/
theorem folded_of_nil {p : AttachedProjection} (h : p.Folded header []) (log : List SessionEvent) :
    p.Folded header log := by
  obtain ⟨hnext, initial, hinit, hstate⟩ := h
  have hzero : p.next = 0 := Nat.le_zero.mp hnext
  rw [hzero] at hstate
  refine ⟨by rw [hzero]; exact Nat.zero_le _, initial, hinit, ?_⟩
  rw [hzero]
  exact hstate

section

variable (h : Sound s)

include h

/-- An attach looks for the session. -/
theorem Sound.attach {relaying : Bool} (hs : s.attach relaying = .ok s') : Sound s' := by
  unfold ProjectionSystem.attach at hs
  split at hs
  · cases hs
  · split at hs
    · rename_i hattached
      cases hs
      exact { h with idle := fun hnot => absurd hattached (by rw [hnot]; intro heq; cases heq) }
    · cases hs
      refine { h with calls := fun call hcall => ?_ }
      rcases mem_append.mp hcall with hcall | hcall
      · exact h.calls call hcall
      · rw [mem_singleton.mp hcall]
        trivial

/-- A relay attaches before it starts. -/
theorem Sound.ensureRelay : Sound s.ensureRelay := by
  unfold ProjectionSystem.ensureRelay
  split
  · exact h
  · have hmarked : Sound { s with relayed := true } := { h with }
    cases hcall : ProjectionSystem.attach { s with relayed := true } true with
    | error err =>
      dsimp only
      rw [hcall]
      exact hmarked
    | ok next =>
      dsimp only
      rw [hcall]
      exact hmarked.attach hcall

/-- An attach makes its projections. -/
theorem Sound.attachPrepare (i : Nat) : Sound (s.attachPrepare i) := by
  unfold ProjectionSystem.attachPrepare
  split
  · split
    · rename_i projections hps
      refine { h with calls := fun call hcall => ?_ }
      rcases mem_or_eq_of_mem_set hcall with hcall | rfl
      · exact h.calls call hcall
      · refine ⟨le_refl _, fun p hp => ?_⟩
        obtain ⟨d, -, hattach⟩ := exists_of_mem_mapM hps p hp
        exact attach_folded hattach
    · exact { h with calls := fun call hcall => h.calls call (mem_of_mem_eraseIdx hcall) }
  · exact h

/-- The first insertion: no feeder is there yet. -/
theorem Sound.attachInsert (i : Nat) (hsafe : s.passSafe (.attachInsert i) = true) :
    Sound (s.attachInsert i) := by
  unfold ProjectionSystem.attachInsert
  split
  · rename_i relaying projections cursor hcall
    simp only [passSafe, hcall] at hsafe
    have hnot : s.attached = false := by simpa using hsafe
    obtain ⟨hobservers, hrelay, -⟩ := h.idle hnot
    obtain ⟨hcursor, hinitial⟩ := h.calls _ (mem_of_getElem? hcall)
    refine
      { h with
        fed := fun p hp => ⟨folded_of_nil (hinitial p hp) s.log, fun k hk => ?_⟩
        calls := fun call hmem => ?_
        idle := fun hfalse => (by cases hfalse) }
    · simp only [positions, hobservers, hrelay, Relay.position, map_nil, mem_cons, not_mem_nil,
        or_false] at hk
      exact .of_next_ge (hk ▸ Nat.zero_le _)
    · rcases mem_or_eq_of_mem_set hmem with hmem | rfl
      · exact (h.calls call hmem).mono (le_refl _) fun _ => rfl
      · exact ⟨hcursor, rfl⟩
  · exact h

/-- An attach replays the log. -/
theorem Sound.attachReplay (i : Nat) : Sound (s.attachReplay i) := by
  unfold ProjectionSystem.attachReplay
  split
  · rename_i relaying cursor hcall
    obtain ⟨hcursor, hattached⟩ := h.calls _ (mem_of_getElem? hcall)
    obtain ⟨hfed, hall⟩ := h.fed.replay h.numbered
    have hcalls : ∀ call ∈ s.attaches.eraseIdx i, call.Ok s.header s.sent s.attached :=
      fun call hmem => h.calls call (mem_of_mem_eraseIdx hmem)
    have hidle : s.attached ≠ false := by
      intro hfalse
      rw [hfalse] at hattached
      cases hattached
    split
    · rename_i hreplay
      rw [hreplay] at hfed hall
      refine
        { h with
          fed := fun p hp => ⟨(hfed p hp).1, fun k hk => ?_⟩
          calls := hcalls
          idle := fun hfalse => absurd hfalse hidle
          observing := fun o ho => ?_ }
      · -- The replay has met the whole log, and the receiver is not ahead of it.
        rw [positions, map_append, ← cons_append] at hk
        rcases mem_append.mp hk with hk | hk
        · exact (hfed p hp).2 k hk
        · rw [mem_singleton.mp hk]
          exact .of_next_ge (le_trans hcursor (le_trans h.sent (hall rfl p hp)))
      · rcases mem_append.mp ho with ho | ho
        · exact h.observing o ho
        · rw [mem_singleton.mp ho]
          exact hcursor
    · rename_i hreplay
      rw [hreplay] at hfed
      exact
        { h with
          fed := hfed
          calls := hcalls
          idle := fun hfalse => absurd hfalse hidle }
  · exact h

/-! ## The observers -/

theorem Sound.attached_of_observer {o : Observer} (ho : o ∈ s.observers) : s.attached ≠ false := by
  intro hfalse
  rw [(h.idle hfalse).1] at ho
  cases ho

/-- One observer moves on. -/
theorem Sound.withObserver {j : Nat} {o o' : Observer} {ps : List AttachedProjection}
    (ho : s.observers[j]? = some o) (hok : o'.Ok s.log s.sent)
    (hfed : Fed s.header s.log (o'.position :: s.positions) ps) :
    Sound { s with projections := ps, observers := s.observers.set j o' } := by
  have hattached := h.attached_of_observer (mem_of_getElem? ho)
  refine
    { h with
      fed := hfed.subset fun k hk => .inr ?_
      idle := fun hfalse => absurd hfalse hattached
      observing := fun x hx => ?_ }
  · rcases mem_cons.mp hk with rfl | hk
    · exact mem_cons_of_mem _ mem_cons_self
    · obtain ⟨x, hx, rfl⟩ := mem_map.mp hk
      rcases mem_or_eq_of_mem_set hx with hx | rfl
      · exact mem_cons_of_mem _ (mem_cons_of_mem _ (mem_map_of_mem hx))
      · exact mem_cons_self
  · rcases mem_or_eq_of_mem_set hx with hx | rfl
    · exact h.observing x hx
    · exact hok

theorem Sound.fed_cons {k : Nat} (hk : k = 0 ∨ k ∈ s.positions) :
    Fed s.header s.log (k :: s.positions) s.projections :=
  h.fed.subset fun x hx => by
    rcases mem_cons.mp hx with rfl | hx
    · exact hk
    · exact .inr hx

/-- An observer takes an event from the channel. -/
theorem Sound.observerReceive (j : Nat) : Sound (s.observerReceive j) := by
  unfold ProjectionSystem.observerReceive
  split
  · rename_i cursor hobserver
    split
    · exact h.withObserver hobserver (Nat.sub_le _ _) (h.fed_cons (.inl rfl))
    · split
      · rename_i hlt
        split
        · rename_i e he
          have hseq : e.seq = cursor := h.numbered cursor e he
          have hmem := position_mem hobserver
          refine h.withObserver hobserver ⟨by rw [hseq]; exact he, by rw [hseq], hlt⟩
            (h.fed_cons (.inr ?_))
          rw [Observer.position, hseq]
          exact hmem
        · exact h
      · exact h
  · exact h

/-- A replay brings every projection to the end of the log. -/
theorem Sound.replay_fed (haccepts : ∀ p ∈ s.projections,
      p.definition.accepts p.state.state (s.log.drop p.next) = true)
    {positions : List Nat} (hle : ∀ k ∈ positions, k ≤ s.log.length) :
    Fed s.header s.log positions (replayLocked s.projections s.log).2 := by
  obtain ⟨hfed, hall⟩ := h.fed.replay h.numbered
  have hnone := replayLocked_none h.numbered s.log s.projections 0 rfl
    fun p hp => ⟨Nat.zero_le _, haccepts p hp⟩
  exact fun p hp =>
    ⟨(hfed p hp).1, fun k hk => .of_next_ge (le_trans (hle k hk) (hall hnone p hp))⟩

/-- An observer applies an event. -/
theorem Sound.observerApply (j : Nat) (hsafe : s.passSafe (.observerApply j) = true) :
    Sound (s.observerApply j) := by
  unfold ProjectionSystem.observerApply
  split
  · rename_i cursor e hobserver
    simp only [passSafe, hobserver] at hsafe
    obtain ⟨he, rfl, hcursor⟩ := h.observing _ (mem_of_getElem? hobserver)
    exact h.withObserver hobserver hcursor
      ((h.fed_cons (.inr (position_mem hobserver))).pass he (of_decide_eq_true hsafe)).recorded
  · rename_i cursor hobserver
    simp only [passSafe, hobserver] at hsafe
    have hcursor : cursor ≤ s.sent := h.observing _ (mem_of_getElem? hobserver)
    refine h.withObserver hobserver hcursor
      (h.replay_fed (all_eq_true.mp hsafe) fun k hk => ?_).recorded
    rcases mem_cons.mp hk with rfl | hk
    · exact le_trans hcursor h.sent
    · exact h.positions_le k hk
  · exact h

theorem Sound.observerStop (j : Nat) : Sound (s.observerStop j) := by
  unfold ProjectionSystem.observerStop
  split
  · rename_i hobserver
    exact h.withObserver hobserver trivial (h.fed_cons (.inl rfl))
  · exact h

/-! ## The relay -/

theorem Sound.attached_of_relay (hne : s.relay ≠ .absent) : s.attached ≠ false := by
  intro hfalse
  exact hne (h.idle hfalse).2.1

theorem Sound.withRelay {r : Relay} (hne : s.relay ≠ .absent)
    (hposition : r.position = s.relay.position) (hok : r.Ok s.log) : Sound { s with relay := r } :=
  { h with
    fed := by simpa only [positions, hposition] using h.fed
    idle := fun hfalse => absurd hfalse (h.attached_of_relay hne)
    relaying := hok }

/-- The relay applies an event. -/
theorem Sound.relayed {e : SessionEvent} {task : RelayTask} (hne : s.relay ≠ .absent)
    (hposition : s.relay.position = e.seq) (he : s.log[e.seq]? = some e)
    (hsafe : SafePass e s.projections) (hnext : task.nextSeq = e.seq + 1)
    (hphase : task.phase.Ok s.log task.nextSeq) :
    Sound
      { s with
        projections := (applyEventLocked e s.projections).2, relay := .running task } := by
  have hfed := h.fed
  rw [positions, hposition] at hfed
  have hpassed := hfed.pass he hsafe
  refine
    { h with
      fed := by rw [positions, Relay.position, hnext]; exact hpassed
      idle := fun hfalse => absurd hfalse (h.attached_of_relay hne)
      relaying := ⟨?_, hphase⟩ }
  rw [hnext]
  exact (List.getElem?_eq_some_iff.mp he).1

/-- The relay starts. -/
theorem Sound.relayStart (hsafe : s.passSafe .relayStart = true) :
    Sound s.relayStart := by
  have hrelaying := h.placed.relayStart.relaying
  unfold ProjectionSystem.relayStart at hrelaying ⊢
  split at hrelaying
  · rename_i hreturned hrelay
    refine { h with fed := fun p hp => ⟨(h.fed p hp).1, fun k hk => ?_⟩
                    idle := fun hfalse => ?_, relaying := hrelaying }
    · -- the condition covers the whole log
      have hwhole : p.Covered s.log s.log.length := by
        intro i e hi _ he
        refine all_eq_true.mp (all_eq_true.mp hsafe p hp) e ?_
        exact mem_of_getElem? (i := i - p.next) (by
          rw [getElem?_drop, Nat.add_sub_cancel' hi]; exact he)
      rcases mem_cons.mp hk with rfl | hk
      · exact hwhole.mono hrelaying
      · exact (h.fed p hp).2 k (mem_cons_of_mem _ hk)
    · rw [(h.idle hfalse).2.2] at hreturned
      cases hreturned
  · exact h

theorem Sound.relaySubscribe : Sound s.relaySubscribe := by
  have hok := h.placed.relaySubscribe.relaying
  unfold ProjectionSystem.relaySubscribe at hok ⊢
  split at hok
  · rename_i hrelay
    exact h.withRelay (by rw [hrelay]; exact nofun) (by rw [hrelay]; rfl) hok
  · exact h

theorem Sound.relayScan : Sound s.relayScan := by
  have hok := h.placed.relayScan.relaying
  unfold ProjectionSystem.relayScan at hok ⊢
  split at hok
  · rename_i hrelay
    exact h.withRelay (by rw [hrelay]; exact nofun) (by rw [hrelay]; rfl) hok
  · exact h

theorem Sound.relayReceive : Sound s.relayReceive := by
  have hok := h.placed.relayReceive.relaying
  obtain heq | ⟨_, heq, hne, hposition⟩ := relayReceive_eq s
  · rw [heq]
    exact h
  · rw [heq] at hok ⊢
    exact h.withRelay hne hposition hok

/-- The relay goes on. -/
theorem Sound.relayApply (hsafe : s.passSafe .relayApply = true) :
    Sound s.relayApply := by
  have hok := h.placed.relayApply.relaying
  have hnext {e : SessionEvent} (he : s.relayNext = some e) := h.placed.relayNext_eq he
  have hpass {e : SessionEvent} (he : s.relayNext = some e) : SafePass e s.projections := by
    have hall : s.relayNext.all (fun e => decide (SafePass e s.projections)) = true := hsafe
    rw [he] at hall
    exact of_decide_eq_true hall
  unfold ProjectionSystem.relayApply at hok ⊢
  split at hok
  · rename_i e found held closing hrelay
    have hne : s.relay ≠ .absent := by rw [hrelay]; intro hne; cases hne
    have he : s.relayNext = some e := by simp only [ProjectionSystem.relayNext, hrelay]
    exact h.relayed hne (hnext he).1.symm (hnext he).2 (hpass he) rfl hok.2
  · rename_i e closing hrelay
    have hne : s.relay ≠ .absent := by rw [hrelay]; intro hne; cases hne
    split at hok
    · rename_i hge
      have he : s.relayNext = some e := by
        simp only [ProjectionSystem.relayNext, hrelay, if_pos hge]
      rw [if_pos hge]
      exact h.relayed hne (hnext he).1.symm (hnext he).2 (hpass he) rfl hok.2
    · rename_i hlt
      rw [if_neg hlt]
      exact h.withRelay hne (by rw [hrelay]; rfl) hok
  · rename_i hrelay
    exact h.withRelay (by rw [hrelay]; intro hne; cases hne) (by rw [hrelay]; rfl) hok
  · exact h

theorem Sound.relayClose : Sound s.relayClose := by
  have hok := h.placed.relayClose.relaying
  unfold ProjectionSystem.relayClose at hok ⊢
  split at hok
  · rename_i hrelay
    exact h.withRelay (by rw [hrelay]; exact nofun) (by rw [hrelay]; rfl) hok
  · exact h

/-! ## Runs -/

theorem Sound.register (hs : s.register d = .ok s') : Sound s' := by
  unfold ProjectionSystem.register at hs
  split at hs
  · cases hs
  · split at hs
    · cases hs
    · cases hs
      exact { h with }

end

theorem sound_toOption_getD {r : Except ProjectionError ProjectionSystem} (h : Sound s)
    (hr : ∀ s', r = .ok s' → Sound s') : Sound (r.toOption.getD s) := by
  cases r with
  | error err => exact h
  | ok s' => exact hr s' rfl

/-- One step, where the passes are safe. -/
theorem Sound.step {s : ProjectionSystem} (h : Sound s) (i : ProjectionStep)
    (hsafe : s.passSafe i = true) : Sound (s.step i) := by
  cases i with
  | register d => exact sound_toOption_getD h fun _ => h.register
  | append e => exact h.append e
  | publish => exact h.publish
  | attach => exact sound_toOption_getD h fun _ => h.attach
  | ensureRelay => exact h.ensureRelay
  | attachPrepare i => exact h.attachPrepare i
  | attachInsert i => exact h.attachInsert i hsafe
  | attachReplay i => exact h.attachReplay i
  | observerReceive j => exact h.observerReceive j
  | observerApply j => exact h.observerApply j hsafe
  | observerStop j => exact h.observerStop j
  | relayStart => exact h.relayStart hsafe
  | relaySubscribe => exact h.relaySubscribe
  | relayScan => exact h.relayScan
  | relayReceive => exact h.relayReceive
  | relayApply => exact h.relayApply hsafe
  | relayClose => exact h.relayClose
  | shutdown => exact { h with }

/-- No step changes the header. -/
theorem step_header (s : ProjectionSystem) (i : ProjectionStep) :
    (s.step i).header = s.header := by
  cases i with
  | shutdown => rfl
  | ensureRelay =>
    simp only [step, ProjectionSystem.ensureRelay]
    split
    · rfl
    · unfold ProjectionSystem.attach
      repeat' split
      all_goals rfl
  | _ =>
    simp only [step, ProjectionSystem.register, ProjectionSystem.append, ProjectionSystem.publish,
      ProjectionSystem.attach, ProjectionSystem.attachPrepare, ProjectionSystem.attachInsert,
      ProjectionSystem.attachReplay, ProjectionSystem.observerReceive,
      ProjectionSystem.observerApply, ProjectionSystem.observerStop, ProjectionSystem.relayStart,
      ProjectionSystem.relaySubscribe, ProjectionSystem.relayScan, ProjectionSystem.relayReceive,
      ProjectionSystem.relayApply, ProjectionSystem.relayClose]
    repeat' split
    all_goals rfl

theorem run_header (s : ProjectionSystem) (steps : List ProjectionStep) :
    (s.run steps).header = s.header := by
  unfold run
  induction steps generalizing s with
  | nil => rfl
  | cons i rest ih => rw [foldl_cons, ih, step_header]

/-- Every attached projection is the fold of the log, in every state of a
run from an opened session whose steps are all safe. -/
theorem projections_fold (header : SessionHeader) (log : List SessionEvent)
    (hlog : Numbered log) (steps : List ProjectionStep)
    (hsafe : Meets (fun s i => passSafe s i = true) step (opened header log) steps) :
    ∀ p ∈ ((opened header log).run steps).projections,
      p.isFold header ((opened header log).run steps).log = true := by
  have hsound : Sound ((opened header log).run steps) :=
    foldl_invariant_of_meets Sound (fun _ i hi h => h.step i hi) steps (opened header log) hsafe
      (opened_sound header hlog)
  have hheader : ((opened header log).run steps).header = header := run_header _ steps
  intro p hp
  have hfolded := (hsound.fed p hp).1
  rw [hheader] at hfolded
  exact hfolded.isFold hsound.numbered

/-! ## Skipped events -/

def pushTypeOfData (v : Value) (e : SessionEvent) : Except ProjectionError Value :=
  if e.data = .null then .error (.callback "no data") else pushType v e

def noteHeader : SessionHeader := .plain ⟨"notes"⟩ 0

def noted (seq : Nat) (data : Value) : SessionEvent := .plain "note" seq 1 data

/-- The registry with both projections, inserted for a new session. -/
def twoInserted : List ProjectionStep :=
  [.register (listTypes "types" pushType), .register (listTypes "data" pushTypeOfData),
    .attach, .attachPrepare 0, .attachInsert 0]

def twoAttached : List ProjectionStep := twoInserted ++ [.attachReplay 0]

def observed : List ProjectionStep := [.observerReceive 0, .observerApply 0]

def appended (e : SessionEvent) : List ProjectionStep := [.append e, .publish]

/-- The relay finds the session attached and starts before the replay. -/
def bothFeeders : List ProjectionStep :=
  twoInserted ++ [.ensureRelay, .relayStart, .relaySubscribe, .attachReplay 0, .relayScan,
    .relayApply]
    ++ appended (noted 0 (.bool true)) ++ [.relayReceive, .relayApply] ++ observed
    ++ appended (noted 1 (.bool true)) ++ observed ++ [.relayApply, .relayReceive, .relayApply]

theorem projections_fold_bothFeeders :
    ((opened noteHeader []).run bothFeeders).projections.all
      (fun p => p.isFold noteHeader ((opened noteHeader []).run bothFeeders).log) = true :=
  all_eq_true.mpr (projections_fold noteHeader [] (fun i e h => by simp at h) bothFeeders
    (by decide +kernel))

/-- The projection under key `data` refuses the first event and the pass
ends before `types` gets it. -/
def refusedFirst : List ProjectionStep :=
  twoAttached ++ appended (noted 0 .null) ++ observed ++ appended (noted 1 (.bool true))
    ++ observed

/-- An event is committed after the replay of `attach` and before the relay
reads its start point; the relay is the first to apply the next one. -/
def relayedFirst : List ProjectionStep :=
  [.register (listTypes "types" pushType), .ensureRelay, .attachPrepare 0, .attachInsert 0,
    .attachReplay 0]
    ++ appended (noted 0 .null) ++ [.relayStart, .relaySubscribe, .relayScan, .relayApply]
    ++ appended (noted 1 .null) ++ [.relayReceive, .relayApply] ++ observed ++ observed

/-- Two calls of `attach` find no states of the session. The second puts its
initial states over those that have the first event, and the observer of the
first applies the next event to them. -/
def insertedTwice : List ProjectionStep :=
  [.register (listTypes "types" pushType), .attach, .ensureRelay, .attachPrepare 0,
    .attachPrepare 1, .attachInsert 0, .attachReplay 0]
    ++ appended (noted 0 .null) ++ observed ++ [.attachInsert 0] ++ appended (noted 1 .null)
    ++ observed ++ [.attachReplay 0]

/-- A projection that refuses nothing is not the fold of the log: in one
run another projection refused an event, in one the relay applied the next
event first, and in one the initial states were inserted twice. -/
theorem event_skipped :
    ¬ (∀ (header : SessionHeader) (steps : List ProjectionStep),
        ∀ p ∈ ((opened header []).run steps).projections,
          p.isFold header ((opened header []).run steps).log = true) ∧
      ((opened noteHeader []).run refusedFirst).projections.map
          (fun p => (p.definition.key, p.state.lastSeq, p.state.state)) =
        [("data", some 1, .array [.string "note"]), ("types", some 1, .array [.string "note"])] ∧
      ((opened noteHeader []).run relayedFirst).projections.map
          (fun p => (p.definition.key, p.state.lastSeq, p.state.state)) =
        [("types", some 1, .array [.string "note"])] ∧
      ((opened noteHeader []).run insertedTwice).projections.map
          (fun p => (p.definition.key, p.state.lastSeq, p.state.state)) =
        [("types", some 1, .array [.string "note"])] ∧
      ((opened noteHeader []).run refusedFirst).projections.map
          (fun p => p.isFold noteHeader ((opened noteHeader []).run refusedFirst).log) =
        [true, false] ∧
      ((opened noteHeader []).run relayedFirst).projections.map
          (fun p => p.isFold noteHeader ((opened noteHeader []).run relayedFirst).log) =
        [false] ∧
      ((opened noteHeader []).run insertedTwice).projections.map
          (fun p => p.isFold noteHeader ((opened noteHeader []).run insertedTwice).log) =
        [false] := by
  have hrefused : ((opened noteHeader []).run refusedFirst).projections.map
      (fun p => p.isFold noteHeader ((opened noteHeader []).run refusedFirst).log) =
      [true, false] := by decide +kernel
  refine ⟨fun hall => ?_, by decide +kernel, by decide +kernel, by decide +kernel, hrefused,
    by decide +kernel, by decide +kernel⟩
  have htrue : ∀ b ∈ [true, false], b = true := by
    rw [← hrefused]
    intro b hb
    obtain ⟨p, hp, rfl⟩ := mem_map.mp hb
    exact hall _ _ p hp
  exact Bool.noConfusion (htrue false (by simp))

end ProjectionSystem

end Tessivum.Projection
