/-
Tessivum.Session.ReplayTheorems — the live session is the replay of its
log.

Admission is written twice in the source: `append_under_gate` admits one
event against the live state, `build_state` rebuilds the state from the
whole log. The two differ in the order of checks and in when they look
at the inbox: live, only an inbox event replays the inbox; on rebuild
the inbox of every log is replayed. `apply_of_not_inboxEvent` is what
makes them agree: an event of any other type applies to every inbox.

`buildState_snoc` is the step rule (an event that passes the live checks
extends a rebuildable log to a rebuildable log, with the state the live
session moves to), `Live.Replays` the invariant of a live session over a
lawful backend, and `live_state_eq_replay` the statement over every run
of calls. `Live.Admission` is what one call does over any backend.
-/
import Tessivum.Library.Machine
import Tessivum.Protocol.Wire
import Tessivum.Session.LogTheorems
import Tessivum.Session.Store

namespace Tessivum.Session

open Library Protocol Live

variable {S : Serde} {header : SessionHeader}

/-! ## The inbox at rebuild -/

variable {e : SessionEvent} {log : List SessionEvent} {expected : Option (List Nat)}
  {projection : Option SurfaceMessage} {state : SessionState}

theorem apply_of_not_inboxEvent (inbox : InboxReplay) (h : isInboxEvent e = false) :
    ∃ inbox', inbox.apply S e = .ok inbox' := by
  unfold isInboxEvent at h
  obtain ⟨henqueued, hspliced⟩ := or_eq_false_iff.mp h
  have hnotEnqueued : e.eventType ≠ inboxEnqueuedEvent := by simpa using henqueued
  have hnotSpliced : e.eventType ≠ inboxSplicedEvent := by simpa using hspliced
  unfold InboxReplay.apply
  rw [if_neg hnotEnqueued, if_neg hnotSpliced]
  by_cases huser : e.eventType = "user/message"
  · rw [if_pos huser]
    cases (e.data.get "id").bind Value.asStr with
    | none => exact ⟨inbox, rfl⟩
    | some id => exact ⟨inbox.remove ⟨id⟩, rfl⟩
  · rw [if_neg huser]
    exact ⟨inbox, rfl⟩

theorem replayInbox_snoc {inbox : InboxReplay} :
    replayInbox S (log ++ [e]) = .ok inbox ↔
      ∃ before, replayInbox S log = .ok before ∧ before.apply S e = .ok inbox := by
  unfold replayInbox
  rw [foldlM_append_one, bind_eq_ok]

theorem replayInbox_of_checkInbox (hlog : ∃ inbox, replayInbox S log = .ok inbox)
    (h : checkInbox S log e = .ok ()) : ∃ inbox, replayInbox S (log ++ [e]) = .ok inbox := by
  obtain ⟨inbox, hinbox⟩ := hlog
  simp only [replayInbox_snoc]
  cases hkind : isInboxEvent e with
  | false =>
    obtain ⟨inbox', happly⟩ := apply_of_not_inboxEvent (S := S) inbox hkind
    exact ⟨inbox', inbox, hinbox, happly⟩
  | true =>
    simp only [checkInbox, hkind, if_true, bind_eq_ok, and_true] at h
    obtain ⟨before, hbefore, inbox', happly⟩ := h
    exact ⟨inbox', before, hbefore, happly⟩

/-! ## One admitted event -/

theorem checkAppend_eq_ok :
    checkAppend S header state e expected = .ok projection ↔
      checkSurface state.surface expected = .ok ()
        ∧ replayEvent S header state e = .ok (state.record e projection)
        ∧ decodeSurfaceEvent S e = .ok projection
        ∧ checkInbox S state.events e = .ok () := by
  rw [replayEvent_eq_ok]
  unfold checkAppend
  simp only [bind_eq_ok, exists_unit, liftProtocol_eq_ok, ok.injEq]
  constructor
  · rintro ⟨hsurface, hvalid, hseq, hseed, hsources, p, hp, hop, hinbox, rfl⟩
    exact ⟨hsurface, ⟨hvalid, hseq, hseed, hsources, p, hp, hop, rfl⟩, hp, hinbox⟩
  · rintro ⟨hsurface, ⟨hvalid, hseq, hseed, hsources, p, hp, hop, _⟩, hdecode, hinbox⟩
    have hpp : projection = p := ok.inj (hdecode.symm.trans hp)
    subst hpp
    exact ⟨hsurface, hvalid, hseq, hseed, hsources, projection, hp, hop, hinbox, rfl⟩

/-- The step rule: an event that passes the live checks extends a
rebuildable log, and the rebuild is the state the live session moves
to. -/
theorem buildState_snoc (hlog : buildState S header log = .ok state)
    (h : checkAppend S header state e expected = .ok projection) :
    buildState S header (log ++ [e]) = .ok (state.record e projection) := by
  have hevents := buildState_events hlog
  obtain ⟨hheader, hseed, hfold, hinbox⟩ := buildState_eq_ok.mp hlog
  obtain ⟨_, hreplay, _, hcheck⟩ := checkAppend_eq_ok.mp h
  rw [hevents] at hcheck
  refine buildState_eq_ok.mpr ⟨hheader, ?_, ?_, replayInbox_of_checkInbox hinbox hcheck⟩
  · rw [length_append]
    omega
  · exact foldlM_replayEvent_snoc.mpr ⟨state, hfold, hreplay⟩

/-! ## Calls over a lawful backend -/

variable {σ : Type} {P : Persistence σ}

/-- The invariant of a live session: the backend holds its header and its
log, and the log rebuilds to its state. -/
def Live.Replays (S : Serde) (P : Persistence σ) (live : Live σ) : Prop :=
  P.load live.disk live.header.id .never = .ok (some live.header)
    ∧ P.committed live.disk live.header.id = some live.state.events
    ∧ buildState S live.header live.state.events = .ok live.state

def Live.Untouched (P : Persistence σ) (live live' : Live σ) : Prop :=
  live'.header = live.header ∧ live'.state = live.state
    ∧ (∀ id, P.load live'.disk id .never = P.load live.disk id .never)
    ∧ ∀ id, P.committed live'.disk id = P.committed live.disk id

/-- What a successful call does: the log grows by its event, live and
committed alike. -/
def Live.ExtendedBy (P : Persistence σ) (live live' : Live σ) (e : SessionEvent) : Prop :=
  live'.header = live.header ∧ live'.state.events = live.state.events ++ [e]
    ∧ P.committed live'.disk live.header.id = some (live.state.events ++ [e])

/-- One call, from a state that replays: it fails and leaves nothing, or
it succeeds, appends exactly `e`, and the session still replays. -/
def Live.Settles (S : Serde) (P : Persistence σ) (live : Live σ) (e : SessionEvent)
    (result : Except SessionError Unit × Live σ) : Prop :=
  match result with
  | (.error _, live') => live.Untouched P live'
  | (.ok (), live') => live.ExtendedBy P live' e ∧ live'.Replays S P

theorem Live.untouched_refl (live : Live σ) : live.Untouched P live :=
  ⟨rfl, rfl, fun _ => rfl, fun _ => rfl⟩

variable {live live' : Live σ} {token : Cancellation} {store store' : Store σ}

theorem Live.Untouched.replays (h : live.Untouched P live') (hlive : live.Replays S P) :
    live'.Replays S P := by
  obtain ⟨hheader, hstate, hload, hdisk⟩ := h
  unfold Replays
  rw [hheader, hstate, hload, hdisk]
  exact hlive

theorem Live.appendUnderGate_settles (hP : P.Lawful) (hlive : live.Replays S P) (e : SessionEvent)
    (expected : Option (List Nat)) (token : Cancellation) :
    live.Settles S P e (live.appendUnderGate S P e expected token) := by
  unfold appendUnderGate
  cases hchecks : (do
    checkCancellation token 0
    checkAppend S live.header live.state e expected) with
  | error err => exact live.untouched_refl
  | ok projection =>
    have hcheck := after_check hchecks
    obtain ⟨hload, hdisk, hbuild⟩ := hlive
    -- the commit point: the backend takes the event or refuses it
    rcases happend : P.append live.disk live.header.id e (token.after 1) with ⟨result, disk⟩
    cases result with
    | error err => exact ⟨rfl, rfl, hP.append_load happend, hP.append_error happend⟩
    | ok u =>
      obtain ⟨log, hlog, hlog'⟩ := hP.append_ok happend
      have hevents : log = live.state.events := some.inj (hlog.symm.trans hdisk)
      subst hevents
      refine ⟨⟨rfl, rfl, hlog'⟩, ?_, hlog', buildState_snoc hbuild hcheck⟩
      exact (hP.append_load happend _).trans hload

theorem Live.appendInner_settles (hP : P.Lawful) (hlive : live.Replays S P) (e : SessionEvent)
    (expected : Option (List Nat)) (token : Cancellation) :
    live.Settles S P e (live.appendInner S P e expected token) := by
  unfold appendInner
  cases checkCancellation token 0 with
  | error err => exact live.untouched_refl
  | ok _ => exact appendUnderGate_settles hP hlive e expected (token.after 1)

theorem Live.appendNextIfSurface_settles (hP : P.Lawful) (hlive : live.Replays S P)
    (build : Nat → SessionEvent) (expected : Option (List Nat)) (token : Cancellation) :
    live.Settles S P (build ((nextSeq live.state.events).toOption.getD 0))
      (((live.appendNextIfSurface S P build expected token).1.map fun _ => ()),
        (live.appendNextIfSurface S P build expected token).2) := by
  unfold appendNextIfSurface
  cases hchecks : (do
    checkCancellation token 0
    checkCancellation token 1
    nextSeq live.state.events) with
  | error err => exact live.untouched_refl
  | ok seq =>
    obtain ⟨_, _, hseq⟩ : _ ∧ _ ∧ nextSeq live.state.events = .ok seq := by
      simpa only [check_bind_eq_ok] using hchecks
    have hsettles := appendUnderGate_settles hP hlive (build seq) expected (token.after 2)
    rw [hseq]
    rcases hcall : live.appendUnderGate S P (build seq) expected (token.after 2)
      with ⟨result, _⟩
    rw [hcall] at hsettles
    dsimp only
    rw [hcall]
    cases result with
    | error err => exact hsettles
    | ok u => exact hsettles

/-- A conditional append that succeeds has seen the surface it expected. -/
theorem Live.appendNextIfSurface_ok {build : Nat → SessionEvent} {expected : Option (List Nat)}
    {seq : Nat} (h : (live.appendNextIfSurface S P build expected token).1 = .ok seq) :
    nextSeq live.state.events = .ok seq
      ∧ checkSurface live.state.surface expected = .ok () := by
  unfold appendNextIfSurface at h
  dsimp only at h
  split at h
  · cases h
  · rename_i seq' hchecks
    obtain ⟨_, _, hseq⟩ : _ ∧ _ ∧ nextSeq live.state.events = .ok seq' := by
      simpa only [check_bind_eq_ok] using hchecks
    unfold appendUnderGate at h
    dsimp only at h
    cases hgate : (do
      checkCancellation (token.after 2) 0
      checkAppend S live.header live.state (build seq') expected) with
    | error err => rw [hgate] at h; cases h
    | ok projection =>
      have hcheck := after_check hgate
      rw [hgate] at h
      dsimp only at h
      rcases happend : P.append live.disk live.header.id (build seq') ((token.after 2).after 1)
        with ⟨result, disk⟩
      rw [happend] at h
      cases result with
      | error err => cases h
      | ok u =>
        cases h
        exact ⟨hseq, (checkAppend_eq_ok.mp hcheck).1⟩

/-- What can stand against an append: the token, the sequence numbers, a check
of the event or the backend. -/
theorem Live.appendNextIfSurface_error {build : Nat → SessionEvent}
    {expected : Option (List Nat)} {err : SessionError}
    (h : (live.appendNextIfSurface S P build expected token).1 = .error err) :
    (err = .cancelled ∧ ∃ read ≤ 2, token read = true)
      ∨ nextSeq live.state.events = .error err
      ∨ ∃ seq, nextSeq live.state.events = .ok seq
          ∧ (checkAppend S live.header live.state (build seq) expected = .error err
            ∨ (∃ projection, checkAppend S live.header live.state (build seq) expected
                = .ok projection)
              ∧ (P.append live.disk live.header.id (build seq) (token.after 3)).1
                = .error err) := by
  have hread : ∀ read ≤ 2, checkCancellation token read = .error err →
      err = .cancelled ∧ ∃ read ≤ 2, token read = true := by
    intro read hle hcheck
    unfold checkCancellation failIf at hcheck
    split at hcheck
    case isTrue hcancelled => exact ⟨(Except.error.inj hcheck).symm, read, hle, hcancelled⟩
    case isFalse => cases hcheck
  unfold appendNextIfSurface at h
  cases hfirst : checkCancellation token 0 with
  | error err' =>
    rw [hfirst] at h
    cases h
    exact .inl (hread 0 (by omega) hfirst)
  | ok _ =>
    cases hsecond : checkCancellation token 1 with
    | error err' =>
      rw [hfirst, hsecond] at h
      cases h
      exact .inl (hread 1 (by omega) hsecond)
    | ok _ =>
      cases hseq : nextSeq live.state.events with
      | error err' =>
        rw [hfirst, hsecond, hseq] at h
        cases h
        exact .inr (.inl rfl)
      | ok seq =>
        rw [hfirst, hsecond, hseq] at h
        simp only [ok_bind, appendUnderGate] at h
        cases hthird : checkCancellation (token.after 2) 0 with
        | error err' =>
          rw [hthird] at h
          cases h
          exact .inl (hread 2 (le_refl 2) hthird)
        | ok _ =>
          rw [hthird, ok_bind] at h
          refine .inr (.inr ⟨seq, rfl, ?_⟩)
          cases hcheck : checkAppend S live.header live.state (build seq) expected with
          | error err' =>
            rw [hcheck] at h
            cases h
            exact .inl rfl
          | ok projection =>
            rw [hcheck] at h
            simp only at h
            refine .inr ⟨⟨projection, rfl⟩, ?_⟩
            rcases happend : P.append live.disk live.header.id (build seq) ((token.after 2).after 1)
              with ⟨result, disk⟩
            have hafter : (token.after 2).after 1 = token.after 3 := by
              funext k
              show token (2 + (1 + k)) = token (3 + k)
              congr 1
              omega
            rw [hafter] at happend h
            rw [happend] at h ⊢
            cases result with
            | error err' =>
              cases h
              rfl
            | ok _ => cases h

theorem Live.call_settles (hP : P.Lawful) (hlive : live.Replays S P) :
    ∀ c : Call, live.Settles S P (c.event live) (live.call S P c)
  | .append e token => appendInner_settles hP hlive e none token
  | .appendIfSurface e expected token => appendInner_settles hP hlive e (some expected) token
  | .appendNext build token => appendNextIfSurface_settles hP hlive build none token
  | .appendNextIfSurface build expected token =>
    appendNextIfSurface_settles hP hlive build expected token

theorem Live.call_replays (hP : P.Lawful) (live : Live σ) (c : Call) (hlive : live.Replays S P) :
    (live.call S P c).2.Replays S P := by
  have hsettles := call_settles hP hlive c
  rcases hcall : live.call S P c with ⟨result, _⟩
  rw [hcall] at hsettles
  cases result with
  | error err => exact Untouched.replays hsettles hlive
  | ok u => exact hsettles.2

/-! ## Where sessions start -/

/-- A session the store has just created, empty or from a seed. -/
inductive Started (S : Serde) (P : Persistence σ) (header : SessionHeader) (live : Live σ) : Prop
  | create (store : Store σ) (token : Cancellation) (store' : Store σ)
      (h : store.create S P header token = (.ok live, store'))
  | createSeeded (store : Store σ) (seedEvents : List SessionEvent) (token : Cancellation)
      (store' : Store σ)
      (h : store.createSeeded S P header seedEvents token = (.ok live, store'))

theorem Store.insertLive_eq_ok (h : store.insertLive live = (.ok live', store')) :
    live' = live := by
  unfold Store.insertLive at h
  cases hlive : store.ensureNotLive live.header.id with
  | error err => rw [hlive] at h; cases h
  | ok u => rw [hlive] at h; cases h; rfl

/-- A session that is made replays. -/
theorem Store.create_replays (hP : P.Lawful)
    (h : store.create S P header token = (.ok live, store')) :
    live.header = header ∧ live.Replays S P := by
  simp only [Store.create] at h
  split at h
  · cases h
  · rcases hcreate : P.create store.disk header (token.after 1) with ⟨result, disk⟩
    rw [hcreate] at h
    cases result with
    | error err => cases h
    | ok u =>
      cases hbuild : buildState S header [] with
      | error err => rw [hbuild] at h; cases h
      | ok state =>
        rw [hbuild] at h
        have hlive := Store.insertLive_eq_ok h
        subst hlive
        have hevents := buildState_events hbuild
        obtain ⟨hlog, hload⟩ := hP.create_ok hcreate
        refine ⟨rfl, hload, ?_, ?_⟩
        · show P.committed disk header.id = some state.events
          rw [hevents]
          exact hlog
        · show buildState S header state.events = .ok state
          rw [hevents]
          exact hbuild

/-- A session made from a seed replays. -/
theorem Store.createSeeded_replays (hP : P.Lawful) {seedEvents : List SessionEvent}
    (h : store.createSeeded S P header seedEvents token = (.ok live, store')) :
    live.header = header ∧ live.Replays S P := by
  simp only [Store.createSeeded] at h
  split at h
  · cases h
  · rename_i state hchecks
    obtain ⟨_, _, _, state', hbuild, _, hstate⟩ : _ ∧ _ ∧ _ ∧ ∃ state',
        buildState S header seedEvents = .ok state' ∧ _ ∧ state' = state := by
      simpa only [bind_eq_ok, exists_unit, ok.injEq] using hchecks
    subst hstate
    rcases hcreate : P.createSeeded store.disk header seedEvents (token.after 1)
      with ⟨result, disk⟩
    rw [hcreate] at h
    cases result with
    | error err => cases h
    | ok u =>
      have hlive := Store.insertLive_eq_ok h
      subst hlive
      have hevents := buildState_events hbuild
      obtain ⟨hlog, hload⟩ := hP.createSeeded_ok hcreate
      refine ⟨rfl, hload, ?_, ?_⟩
      · show P.committed disk header.id = some state'.events
        rw [hevents]
        exact hlog
      · show buildState S header state'.events = .ok state'
        rw [hevents]
        exact hbuild

theorem Started.replays (hP : P.Lawful) (h : Started S P header live) :
    live.header = header ∧ live.Replays S P := by
  cases h with
  | create store token store' h => exact Store.create_replays hP h
  | createSeeded store seedEvents token store' h => exact Store.createSeeded_replays hP h

/-! ## Every run -/

/-- The invariant over every run of calls. -/
theorem Live.run_replays (hP : P.Lawful) {start : Live σ} (hstart : Started S P header start)
    (calls : List Call) :
    (runState (call S P) start calls).header = header
      ∧ (runState (call S P) start calls).Replays S P := by
  have hstep : ∀ (live : Live σ) (c : Call), live.header = header ∧ live.Replays S P →
      (live.call S P c).2.header = header ∧ (live.call S P c).2.Replays S P := by
    rintro live c ⟨hheader, hlive⟩
    refine ⟨?_, call_replays hP live c hlive⟩
    have hsettles := call_settles hP hlive c
    rcases hcall : live.call S P c with ⟨result, _⟩
    rw [hcall] at hsettles
    cases result with
    | error err => exact hsettles.1.trans hheader
    | ok u => exact hsettles.1.1.trans hheader
  exact runState_invariant hstep calls start (hstart.replays hP)

/-- Live state equals replay. After every run of calls from a created
session over a lawful backend, the committed log rebuilds to exactly the
live state; the next call then either fails and changes neither the live
state nor any committed log, or succeeds and extends both by exactly the
event it was given. -/
theorem live_state_eq_replay (S : Serde) (P : Persistence σ) (hP : P.Lawful)
    (header : SessionHeader) (start : Live σ) (hstart : Started S P header start)
    (calls : List Call) (next : Call) :
    let live := runState (call S P) start calls
    (∃ log, P.committed live.disk header.id = some log
      ∧ buildState S header log = .ok live.state)
    ∧ (∀ err live', live.call S P next = (.error err, live') →
        live'.state = live.state ∧ ∀ id, P.committed live'.disk id = P.committed live.disk id)
    ∧ (∀ live', live.call S P next = (.ok (), live') →
        live'.state.events = live.state.events ++ [next.event live]
          ∧ P.committed live'.disk header.id
              = some (live.state.events ++ [next.event live])) := by
  intro live
  obtain ⟨hheader, hlive⟩ := run_replays hP hstart calls
  have hsettles := call_settles hP hlive next
  have hinv := hlive
  unfold Replays at hinv
  rw [hheader] at hinv
  refine ⟨⟨_, hinv.2.1, hinv.2.2⟩, ?_, ?_⟩
  · intro err live' hcall
    rw [hcall] at hsettles
    exact ⟨hsettles.2.1, hsettles.2.2.2⟩
  · intro live' hcall
    rw [hcall] at hsettles
    obtain ⟨⟨_, hevents, hdisk⟩, _⟩ := hsettles
    rw [hheader] at hdisk
    exact ⟨hevents, hdisk⟩

/-- A two-call run on the memory backend: an event with the next number
is taken, one with a gap is refused. -/
theorem live_state_eq_replay_turnStart :
    let header := SessionHeader.plain ⟨"s"⟩ 1
    let turnStart (seq : Nat) := SessionEvent.plain "turn/start" seq 1 .null
    let P := memoryPersistence wireSerde
    let store : Store MemoryState := { isLive := fun _ => false, disk := Memory.empty }
    ∃ start store', store.create wireSerde P header .never = (.ok start, store') ∧
      let live := runState (call wireSerde P) start
        [.append (turnStart 0) .never, .append (turnStart 7) .never]
      live.state.events = [turnStart 0]
        ∧ (∃ log, P.committed live.disk header.id = some log
            ∧ buildState wireSerde header log = .ok live.state) := by
  intro header turnStart P store
  refine ⟨_, _, rfl, rfl, ?_⟩
  exact (live_state_eq_replay wireSerde P (memoryPersistence_lawful wireSerde) header _
    (.create store .never _ rfl) [.append (turnStart 0) .never, .append (turnStart 7) .never]
    (.append (turnStart 1) .never)).1

/-! ## One call, whatever its backend does

A call is refused and leaves the derived state, or it admits exactly its
event (`Live.Admission`). Nothing is asked of the backend here: the
machines over one session (goals, inbox) only look at the log the live
session holds. -/

open Library Protocol

variable {σ : Type} {S : Serde} {P : Persistence σ}

/-- The outcome of a call that hands `e` to admission. -/
inductive Live.Admission (S : Serde) (live : Live σ) (e : SessionEvent) :
    Except SessionError Unit × Live σ → Prop
  | refused (err : SessionError) (live' : Live σ) (hheader : live'.header = live.header)
      (hstate : live'.state = live.state) : Admission S live e (.error err, live')
  | admitted (expected : Option (List Nat)) (projection : Option SurfaceMessage) (live' : Live σ)
      (hcheck : checkAppend S live.header live.state e expected = .ok projection)
      (hheader : live'.header = live.header)
      (hstate : live'.state = live.state.record e projection) :
      Admission S live e (.ok (), live')

variable (live : Live σ)

/-- An append under the gate is refused or admits its event. -/
theorem Live.appendUnderGate_admission (e : SessionEvent) (expected : Option (List Nat))
    (token : Cancellation) : live.Admission S e (live.appendUnderGate S P e expected token) := by
  unfold appendUnderGate
  cases hchecks : (do
    checkCancellation token 0
    checkAppend S live.header live.state e expected) with
  | error err => exact .refused err live rfl rfl
  | ok projection =>
    have hcheck := after_check hchecks
    rcases P.append live.disk live.header.id e (token.after 1) with ⟨result, disk⟩
    cases result with
    | error err => exact .refused err _ rfl rfl
    | ok u => exact .admitted expected projection _ hcheck rfl rfl

theorem Live.appendInner_admission (e : SessionEvent) (expected : Option (List Nat))
    (token : Cancellation) : live.Admission S e (live.appendInner S P e expected token) := by
  unfold appendInner
  cases checkCancellation token 0 with
  | error err => exact .refused err live rfl rfl
  | ok _ => exact live.appendUnderGate_admission e expected (token.after 1)

/-- A conditional append is refused or admits the event it builds. -/
theorem Live.appendNextIfSurface_admission (build : Nat → SessionEvent)
    (expected : Option (List Nat)) (token : Cancellation) :
    live.Admission S (build ((nextSeq live.state.events).toOption.getD 0))
      (((live.appendNextIfSurface S P build expected token).1.map fun _ => ()),
        (live.appendNextIfSurface S P build expected token).2) := by
  unfold appendNextIfSurface
  cases hchecks : (do
    checkCancellation token 0
    checkCancellation token 1
    nextSeq live.state.events) with
  | error err => exact .refused err live rfl rfl
  | ok seq =>
    obtain ⟨_, _, hseq⟩ : _ ∧ _ ∧ nextSeq live.state.events = .ok seq := by
      simpa only [check_bind_eq_ok] using hchecks
    have hgate := live.appendUnderGate_admission (S := S) (P := P) (build seq) expected
      (token.after 2)
    rw [hseq]
    rcases hcall : live.appendUnderGate S P (build seq) expected (token.after 2)
      with ⟨result, _⟩
    rw [hcall] at hgate
    dsimp only
    rw [hcall]
    cases result with
    | error err => exact hgate
    | ok u => exact hgate

theorem Live.call_admission : ∀ c : Call, live.Admission S (c.event live) (live.call S P c)
  | .append e token => live.appendInner_admission e none token
  | .appendIfSurface e expected token => live.appendInner_admission e (some expected) token
  | .appendNext build token => live.appendNextIfSurface_admission build none token
  | .appendNextIfSurface build expected token =>
    live.appendNextIfSurface_admission build expected token

theorem Live.append_admission (e : SessionEvent) (token : Cancellation) :
    live.Admission S e (live.append S P e token) :=
  live.appendInner_admission e none token

theorem Live.Admission.events {live : Live σ} {e : SessionEvent}
    {result : Except SessionError Unit × Live σ} (h : live.Admission S e result) :
    result.2.state.events = live.state.events
      ∨ (result.1 = .ok () ∧ nextSeq live.state.events = .ok e.seq
          ∧ result.2.state.events = live.state.events ++ [e]) := by
  cases h with
  | refused err live' hheader hstate => exact .inl (by rw [hstate])
  | admitted expected projection live' hcheck hheader hstate =>
    refine .inr ⟨rfl, ?_, by rw [hstate]; rfl⟩
    obtain ⟨_, hreplay, _, _⟩ := checkAppend_eq_ok.mp hcheck
    obtain ⟨_, hseq, _⟩ := replayEvent_eq_ok.mp hreplay
    exact checkSeq_eq_ok.mp hseq

theorem Live.Admission.numbered {live : Live σ} {e : SessionEvent}
    {result : Except SessionError Unit × Live σ} (h : live.Admission S e result)
    (hlive : Numbered live.state.events) : Numbered result.2.state.events := by
  rcases h.events with hsame | ⟨_, hseq, hgrown⟩
  · rw [hsame]
    exact hlive
  · rw [hgrown]
    exact numbered_snoc.mpr ⟨hlive, hlive.seq_of_nextSeq hseq⟩

/-! ## A session to start from -/

def memorySession (header : SessionHeader) : Live MemoryState where
  header
  state := .empty (header.seedLength.getD 0)
  disk := Memory.insert Memory.empty header.id { header, events := [] }

-- the store makes it
example : ∃ store', Store.create wireSerde (memoryPersistence wireSerde)
    { isLive := fun _ => false, disk := Memory.empty } (.plain ⟨"s"⟩ 0) .never
      = (.ok (memorySession (.plain ⟨"s"⟩ 0)), store') := ⟨_, rfl⟩

end Tessivum.Session
