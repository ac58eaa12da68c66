/-
Tessivum.Compaction.AtomicTheorems — compaction is all-or-nothing on the
surface.

The surface of a session is a function of its log, so what an attempt and the
other writers did to it can be read off the admitted events in order
(`Follows`). Of the four events of an attempt only the replacement is a surface
event, and it is admitted only while the surface has the event numbers it was
planned on.
-/
import Tessivum.Compaction.Execute
import Tessivum.Session.ReplayTheorems
import Tessivum.Session.SurfaceTheorems

namespace Tessivum.Compaction

open Library Protocol Session List

variable {σ : Type} {S : Serde} {P : Persistence σ}

/-! ## Admitted events -/

variable (keep : Attempt → Bool)

/-- The events of the calls that succeeded and satisfy `keep`. -/
def admittedBy (attempts : List Attempt) : List SessionEvent :=
  (attempts.filter fun a => a.result = .ok () && keep a).map Attempt.event

def admittedEvents (attempts : List Attempt) : List SessionEvent :=
  admittedBy (fun _ => true) attempts

def ownEvents (attempts : List Attempt) : List SessionEvent := admittedBy Attempt.own attempts

def foreignEvents (attempts : List Attempt) : List SessionEvent :=
  admittedBy (fun a => !a.own) attempts

theorem admittedBy_append (xs ys : List Attempt) :
    admittedBy keep (xs ++ ys) = admittedBy keep xs ++ admittedBy keep ys := by
  simp [admittedBy]

variable {a : Attempt} {err : SessionError} {live start : Live σ} {run run' : Run σ}
  {e : SessionEvent} {spec : AppendSpec} {token : Cancellation} {seq limit : Nat}
  {header : SessionHeader} {log own : List SessionEvent} {state : SessionState}
  {projection : Option SurfaceMessage} {plan : Plan} {compactionId : String} {fits : Message → Prop}
  {planned : List SurfaceMessage} {range : CompactionRange}
  {outcome : Except CompactionError CompactionResult × Run σ} {config : CompactionConfig}
  {text : Message → Option String}

theorem admittedBy_failed (h : a.result = .error err) : admittedBy keep [a] = [] := by
  simp [admittedBy, h]

theorem admittedBy_ok (h : a.result = .ok ()) :
    admittedBy keep [a] = if keep a then [a.event] else [] := by
  cases hk : keep a <;> simp [admittedBy, h, hk]

def surfaceAfter (S : Serde) (surface : List SurfaceMessage) (events : List SessionEvent) :
    List SurfaceMessage :=
  (surfaceHistory S events).foldl editStep surface

theorem surfaceAfter_append (surface : List SurfaceMessage) (xs ys : List SessionEvent) :
    surfaceAfter S surface (xs ++ ys) = surfaceAfter S (surfaceAfter S surface xs) ys := by
  simp [surfaceAfter, surfaceHistory]

theorem surfaceAfter_foreign (surface : List SurfaceMessage) : ∀ {attempts : List Attempt},
    (∀ e ∈ ownEvents attempts, surfaceEdit S e = none) →
      surfaceAfter S surface (admittedEvents attempts)
        = surfaceAfter S surface (foreignEvents attempts) := by
  intro attempts
  induction attempts using reverseRecOn with
  | nil => intro _; rfl
  | append_singleton init last ih =>
    intro hquiet
    have hinit := ih fun e he => hquiet e (by
      rw [ownEvents, admittedBy_append]
      exact mem_append_left _ he)
    rw [admittedEvents, foreignEvents, admittedBy_append, admittedBy_append, surfaceAfter_append,
      surfaceAfter_append]
    rw [admittedEvents, foreignEvents] at hinit
    rw [hinit]
    cases hresult : last.result with
    | error err => rw [admittedBy_failed _ hresult, admittedBy_failed _ hresult]
    | ok u =>
      rw [admittedBy_ok _ hresult, admittedBy_ok _ hresult]
      cases hown : last.own with
      | false => simp
      | true =>
        have hlast := hquiet last.event (by
          rw [ownEvents, admittedBy_append, admittedBy_ok _ hresult, hown]
          simp)
        simp [surfaceAfter, surfaceHistory, hlast, editStep]

/-! ## Runs follow the log -/

/-- A run from a live session: the session still replays, and its log has
grown by the admitted events. -/
structure Follows (S : Serde) (P : Persistence σ) (start : Live σ) (run : Run σ) : Prop where
  header : run.live.header = start.header
  replays : run.live.Replays S P
  events : run.live.state.events = start.state.events ++ admittedEvents run.attempts

theorem Live.Replays.accepted (h : live.Replays S P) :
    Accepted S live.header live.state.events live.state :=
  accepted_of_buildState h.2.2

theorem Follows.refl (h : start.Replays S P) :
    Follows S P start { live := start, attempts := [] } :=
  ⟨rfl, h, by simp [admittedEvents, admittedBy]⟩

theorem Follows.surface (hstart : start.Replays S P) (h : Follows S P start run) :
    run.live.state.surface
      = surfaceAfter S start.state.surface (admittedEvents run.attempts) := by
  have hrun := (Live.Replays.accepted h.replays).surface_eq_current.1
  have hbefore := (Live.Replays.accepted hstart).surface_eq_current.1
  rw [hrun, hbefore, h.events]
  simp [surfaceAfter, surfaceHistory, current]

theorem Follows.record (h : Follows S P start run) {result : Except SessionError Unit}
    (hsettles : run.live.Settles S P e (result, live)) (own : Bool) (token : Cancellation) :
    Follows S P start { live, attempts := run.attempts ++ [{ own, event := e, token, result }] } := by
  cases result with
  | error err =>
    obtain ⟨hheader, hstate, _⟩ := id hsettles
    refine ⟨hheader.trans h.header, Live.Untouched.replays hsettles h.replays, ?_⟩
    rw [hstate, h.events, admittedEvents, admittedEvents, admittedBy_append,
      admittedBy_failed _ rfl, append_nil]
  | ok u =>
    obtain ⟨⟨hheader, hevents, _⟩, hreplays⟩ := hsettles
    refine ⟨hheader.trans h.header, hreplays, ?_⟩
    rw [hevents, h.events, admittedEvents, admittedEvents, admittedBy_append,
      admittedBy_ok _ rfl, if_pos rfl, append_assoc]

theorem Follows.interfere (hP : P.Lawful) : ∀ (calls : List Call) {run : Run σ},
    Follows S P start run → Follows S P start (run.interfere S P calls)
  | [], _, h => h
  | c :: rest, run, h => by
    have hstep : Follows S P start (run.foreignCall S P c) :=
      h.record (Live.call_settles hP h.replays c) false (callToken c)
    exact Follows.interfere hP rest hstep

theorem ownEvents_append (xs ys : List Attempt) :
    ownEvents (xs ++ ys) = ownEvents xs ++ ownEvents ys := admittedBy_append _ xs ys

theorem ownEvents_foreign (h : a.own = false) : ownEvents [a] = [] := by
  simp [ownEvents, admittedBy, h]

theorem interfere_attempts : ∀ (calls : List Call) (run : Run σ),
    ∃ more, (run.interfere S P calls).attempts = run.attempts ++ more ∧ ownEvents more = []
  | [], run => ⟨[], by rw [append_nil]; rfl, rfl⟩
  | c :: rest, run => by
    obtain ⟨more, hmore, hown⟩ := interfere_attempts rest (run.foreignCall S P c)
    refine ⟨_ :: more, hmore.trans (append_assoc run.attempts [_] more), ?_⟩
    rw [← singleton_append, ownEvents_append, hown, append_nil]
    exact ownEvents_foreign rfl

theorem ownEvents_interfere (calls : List Call) (run : Run σ) :
    ownEvents (run.interfere S P calls).attempts = ownEvents run.attempts := by
  obtain ⟨_, hmore, hown⟩ := interfere_attempts (S := S) (P := P) calls run
  rw [hmore, ownEvents_append, hown, append_nil]

/-! ## Own appends -/

theorem Follows.append_error (hP : P.Lawful) (h : Follows S P start run)
    (hrun : run.append S P spec token = (.error err, run')) :
    Follows S P start run' ∧ ∃ n, run'.attempts
      = run.attempts ++ [{ own := true, event := spec.build n, token, result := .error err }] := by
  have hsettles := Live.call_settles hP h.replays
    (.appendNextIfSurface spec.build spec.expectedSurfaceEventSeqs token)
  have hrecord := h.record hsettles true token
  simp only [Run.append, Prod.mk.injEq] at hrun
  obtain ⟨hresult, rfl⟩ := hrun
  refine ⟨hrecord, (nextSeq run.live.state.events).toOption.getD 0, ?_⟩
  rw [hresult]
  rfl

theorem Follows.append_ok (hP : P.Lawful) (h : Follows S P start run)
    (hrun : run.append S P spec token = (.ok seq, run')) :
    Follows S P start run'
      ∧ run'.attempts
        = run.attempts ++ [{ own := true, event := spec.build seq, token, result := .ok () }]
      ∧ checkSurface run.live.state.surface spec.expectedSurfaceEventSeqs = .ok () := by
  have hsettles := Live.call_settles hP h.replays
    (.appendNextIfSurface spec.build spec.expectedSurfaceEventSeqs token)
  have hrecord := h.record hsettles true token
  simp only [Run.append, Prod.mk.injEq] at hrun
  obtain ⟨hresult, rfl⟩ := hrun
  obtain ⟨hseq, hsurface⟩ := Live.appendNextIfSurface_ok hresult
  refine ⟨hrecord, ?_, hsurface⟩
  rw [hresult, Call.event, hseq]
  rfl

/-! ## Surfaces with the same numbers -/

theorem Accepted.eq_of_surfaceSeqs (h : Accepted S header log state) :
    ∀ {xs ys : List SurfaceMessage},
      (∀ m ∈ xs, m ∈ items (surfaceHistory S log)) →
        (∀ m ∈ ys, m ∈ items (surfaceHistory S log)) → surfaceSeqs xs = surfaceSeqs ys → xs = ys
  | [], [], _, _, _ => rfl
  | [], _ :: _, _, _, hseqs => by cases hseqs
  | _ :: _, [], _, _, hseqs => by cases hseqs
  | x :: xs, y :: ys, hxs, hys, hseqs => by
    simp only [surfaceSeqs, map_cons, cons.injEq] at hseqs
    have hxy := h.eq_of_eventSeq (hxs x mem_cons_self) (hys y mem_cons_self) hseqs.1
    have hrest := Accepted.eq_of_surfaceSeqs h
      (fun m hm => hxs m (mem_cons_of_mem x hm))
      (fun m hm => hys m (mem_cons_of_mem y hm)) hseqs.2
    rw [hxy, hrest]

theorem Accepted.mem_items (h : Accepted S header log state) {m : SurfaceMessage}
    (hm : m ∈ state.surface) : m ∈ items (surfaceHistory S log) := by
  obtain ⟨hsurface, hfits⟩ := h.surface_eq_current
  rw [hsurface] at hm
  exact mem_items_of_mem_current hfits hm

theorem Follows.surface_eq (hstart : start.Replays S P) (h : Follows S P start run)
    (hseqs : surfaceSeqs run.live.state.surface = surfaceSeqs start.state.surface) :
    run.live.state.surface = start.state.surface := by
  have hrun := Live.Replays.accepted h.replays
  refine Accepted.eq_of_surfaceSeqs hrun (fun m hm => Accepted.mem_items hrun hm)
    (fun m hm => ?_) hseqs
  have hold := Accepted.mem_items (Live.Replays.accepted hstart) hm
  rw [h.events, surfaceHistory, map_append, items_append]
  exact mem_append_left _ hold

theorem surface_length_le_events (h : live.Replays S P) :
    live.state.surface.length ≤ live.state.events.length := by
  obtain ⟨hsurface, hfits⟩ := (Live.Replays.accepted h).surface_eq_current
  have hperm := (current_removals_perm _ hfits).length_eq
  rw [length_append, ← hsurface] at hperm
  have hitems : (items (surfaceHistory S live.state.events)).length ≤ live.state.events.length := by
    refine (length_filterMap_le _ _).trans ?_
    simp [surfaceHistory]
  omega

theorem surface_length_le (h : live.Replays S P) :
    live.state.surface.length ≤ maxSafeInteger + 1 := by
  have haccepted := Live.Replays.accepted h
  refine (surface_length_le_events h).trans ?_
  have hnum := haccepted.numbered
  have hvalid := haccepted.event
  generalize live.state.events = log at hnum hvalid
  cases log using reverseRecOn with
  | nil => exact Nat.zero_le _
  | append_singleton init last =>
    have hlast := (numbered_snoc.mp hnum).2
    have hsafe := (SessionEvent.validate_eq_ok.mp (hvalid last (by simp)).1).1
    rw [length_append, length_singleton]
    omega

theorem surface_length_lt (h : live.Replays S P) : live.state.surface.length + 1 < u64Bound := by
  have hle := surface_length_le h
  unfold maxSafeInteger at hle
  unfold u64Bound
  omega

/-! ## Own events -/

theorem surfaceEdit_note (h : expectedRole e.eventType = none) : surfaceEdit S e = none := by
  simp [surfaceEdit, decodeSurfaceEvent, h]

theorem surfaceEdit_written (hS : S.RoundTrips) {role : MessageRole}
    (hrole : expectedRole e.eventType = some role) {m : Message} (hfaithful : m.Faithful)
    (hdata : surfaceData e = .ok (S.messageToValue m)) {op : SurfaceOp}
    (hop : e.surfaceOp = some op) (hdecode : decodeSurfaceEvent S e = .ok projection) :
    surfaceEdit S e = some (editOf
      { eventSeq := e.seq, message := m, sourceEventSeqs := e.sourceEventSeqs } op) := by
  have hparsed := hS m hfaithful
  unfold decodeSurfaceEvent at hdecode
  unfold surfaceEdit decodeSurfaceEvent
  simp only [hrole, hdata, ok_bind, decodeMessage, hparsed] at hdecode ⊢
  cases hvalid : m.validate with
  | error err => rw [hvalid] at hdecode; cases hdecode
  | ok u =>
    rw [hvalid] at hdecode
    simp only [ok_bind] at hdecode ⊢
    obtain ⟨hcheck, _⟩ := check_bind_eq_ok.mp hdecode
    rw [hcheck, ok_bind, hop]
    rfl

theorem surfaceEdit_replacement (hS : S.RoundTrips) {startSeq summarySeq stop : Nat}
    {replacement : Message} (hfaithful : replacement.Faithful)
    (hdecode : decodeSurfaceEvent S
      ((replacementSpec S plan startSeq summarySeq stop replacement).build seq) = .ok projection) :
    surfaceEdit S ((replacementSpec S plan startSeq summarySeq stop replacement).build seq)
      = some (.replace plan.range.start stop
          { eventSeq := seq, message := replacement
            sourceEventSeqs := some (startSeq :: summarySeq :: plan.shadowedEventSeqs) }) :=
  have hop : ((replacementSpec S plan startSeq summarySeq stop replacement).build seq).surfaceOp
      = some (.replace plan.range.start stop) := rfl
  surfaceEdit_written hS rfl hfaithful rfl hop hdecode

def IsEnd (compactionId : String) (e : SessionEvent) : Prop :=
  e.eventType = "compaction/end" ∧ e.data.get "compactionId" = some (.string compactionId)

def IsStart (compactionId : String) (e : SessionEvent) : Prop :=
  e.eventType = "compaction/start" ∧ e.data.get "compactionId" = some (.string compactionId)

theorem isEnd_endSpec (compactionId : String) (turn : Option Nat) (error : Option CompactionError)
    (seq : Nat) : IsEnd compactionId ((endSpec compactionId turn error).build seq) :=
  ⟨rfl, rfl⟩

theorem isStart_startSpec (compactionId : String) (turn : Option Nat) (seq : Nat) :
    IsStart compactionId ((startSpec compactionId turn).build seq) :=
  ⟨rfl, rfl⟩

/-! ## Outcomes -/

/-- The attempt left the surface to the other writers: it is what their
events made of the planned one. -/
def Kept (S : Serde) (planned : List SurfaceMessage) (run : Run σ) : Prop :=
  run.live.state.surface = surfaceAfter S planned (foreignEvents run.attempts)

/-- Exactly the planned region was replaced, at a moment when the surface
was the planned one, by a summary message that fits; it cites the start, the
summary and everything it shadows. Later changes are the other writers'. -/
def ReplacedWhere (fits : Message → Prop) (S : Serde) (compactionId : String)
    (range : CompactionRange) (planned : List SurfaceMessage) (run : Run σ) : Prop :=
  ∃ (before after : List Attempt) (replacement : Attempt) (start summary : SessionEvent)
    (content : List ContentBlock),
    run.attempts = before ++ replacement :: after
      ∧ replacement.own = true ∧ replacement.result = .ok ()
      ∧ ownEvents before = [start, summary]
      ∧ start.eventType = "compaction/start" ∧ summary.eventType = "compaction/summary"
      ∧ surfaceAfter S planned (foreignEvents before) = planned
      ∧ replacement.event.sourceEventSeqs = some (start.seq :: summary.seq ::
          surfaceSeqs ((planned.drop range.start).take (range.last + 1 - range.start)))
      ∧ run.live.state.surface = surfaceAfter S
          (splice planned range.start (range.last + 1)
            { eventSeq := replacement.event.seq
              message := summaryMessage start.seq compactionId content
              sourceEventSeqs := replacement.event.sourceEventSeqs })
          (foreignEvents after)
      ∧ fits (summaryMessage start.seq compactionId content)

/-- The region was replaced by some summary message. -/
def Replaced (S : Serde) (compactionId : String) (range : CompactionRange)
    (planned : List SurfaceMessage) (run : Run σ) : Prop :=
  ReplacedWhere (fun _ => True) S compactionId range planned run

theorem ReplacedWhere.replaced (h : ReplacedWhere fits S compactionId range planned run) :
    Replaced S compactionId range planned run := by
  obtain ⟨before, after, replacement, start, summary, content, hattempts, hown, hresult, hbefore,
    hstart, hsummary, hplanned, hsources, hsurface, _⟩ := h
  exact ⟨before, after, replacement, start, summary, content, hattempts, hown, hresult, hbefore,
    hstart, hsummary, hplanned, hsources, hsurface, trivial⟩

/-- The own events of an attempt that was closed once, if it was opened. -/
def Closed (compactionId : String) (own : List SessionEvent) : Prop :=
  own = [] ∨ ∃ start mid stop, own = start :: (mid ++ [stop]) ∧ IsStart compactionId start
    ∧ IsEnd compactionId stop
    ∧ ∀ e ∈ mid, e.eventType ≠ "compaction/start" ∧ e.eventType ≠ "compaction/end"

/-- The calls of the last step: an end event, unless its append failed. -/
def Closing (compactionId : String) (attempts : List Attempt) : Prop :=
  (∃ stop, IsEnd compactionId stop ∧ ownEvents attempts = [stop])
    ∨ (ownEvents attempts = [] ∧ ∃ a ∈ attempts, a.own = true
      ∧ a.event.eventType = "compaction/end" ∧ a.result ≠ .ok ())

def Ended (compactionId : String) (own : List SessionEvent) (run : Run σ) : Prop :=
  ∃ before after, run.attempts = before ++ after ∧ ownEvents before = own
    ∧ Closing compactionId after

theorem ownEvents_ok (e : SessionEvent) (token : Cancellation) :
    ownEvents [{ own := true, event := e, token, result := .ok () }] = [e] :=
  admittedBy_ok _ rfl

theorem ownEvents_error (e : SessionEvent) (token : Cancellation) (err : SessionError) :
    ownEvents [{ own := true, event := e, token, result := .error err }] = [] :=
  admittedBy_failed _ rfl

theorem appendEnd_closing (hP : P.Lawful) {env : Environment} (h : Follows S P start run)
    {turn : Option Nat} {error : Option CompactionError} {result : Except SessionError Nat}
    (hrun : appendEnd S P env run turn error = (result, run')) :
    Follows S P start run' ∧ ∃ after, run'.attempts = run.attempts ++ after
      ∧ Closing env.compactionId after := by
  have hfollows := Follows.interfere hP (env.calls .close) h
  obtain ⟨_, hmore, hown⟩ := interfere_attempts (S := S) (P := P) (env.calls .close) run
  cases result with
  | error err =>
    obtain ⟨hnext, n, hattempts⟩ := hfollows.append_error hP hrun
    rw [hmore, append_assoc] at hattempts
    refine ⟨hnext, _, hattempts, .inr ⟨?_, ?_⟩⟩
    · rw [ownEvents_append, hown, ownEvents_error, append_nil]
    · exact ⟨_, mem_append_right _ mem_cons_self, rfl, rfl, nofun⟩
  | ok seq =>
    obtain ⟨hnext, hattempts, _⟩ := hfollows.append_ok hP hrun
    rw [hmore, append_assoc] at hattempts
    refine ⟨hnext, _, hattempts, .inl ⟨_, isEnd_endSpec env.compactionId turn error seq, ?_⟩⟩
    rw [ownEvents_append, hown, ownEvents_ok, nil_append]

theorem finishError_ended (hP : P.Lawful) (env : Environment) (h : Follows S P start run)
    (err : CompactionError) :
    (∃ err', (finishError S P env run err).1 = .error err')
      ∧ Follows S P start (finishError S P env run err).2
      ∧ Ended env.compactionId (ownEvents run.attempts) (finishError S P env run err).2 := by
  have hfollows := Follows.interfere hP (env.calls .finish) h
  have hown := ownEvents_interfere (S := S) (P := P) (env.calls .finish) run
  unfold finishError
  dsimp only
  rcases hend : appendEnd S P env (run.interfere S P (env.calls .finish))
    (openTurn (run.interfere S P (env.calls .finish)).live.state.events) (some err)
    with ⟨ended, _⟩
  obtain ⟨hlast, after, hattempts, hclosing⟩ := appendEnd_closing hP hfollows hend
  cases ended with
  | error failure | ok seq => exact ⟨⟨_, rfl⟩, hlast, _, after, hattempts, hown, hclosing⟩

/-! ## Stage by stage -/

/-- The own events so far, more of them that neither open nor close the
attempt, and the end. -/
def Finished (compactionId : String) (own : List SessionEvent) (run : Run σ) : Prop :=
  ∃ mid, (∀ e ∈ mid, e.eventType ≠ "compaction/start" ∧ e.eventType ≠ "compaction/end")
    ∧ Ended compactionId (own ++ mid) run

/-- The surface is kept and an error reported, or the region is replaced by
a summary message that fits. -/
def SettledWhere (fits : Message → Prop) (S : Serde) (compactionId : String)
    (range : CompactionRange) (planned : List SurfaceMessage)
    (outcome : Except CompactionError CompactionResult × Run σ) : Prop :=
  (Kept S planned outcome.2 ∧ ∃ err, outcome.1 = .error err)
    ∨ ReplacedWhere fits S compactionId range planned outcome.2

/-- The same, with some summary message. -/
def Settled (S : Serde) (compactionId : String) (range : CompactionRange)
    (planned : List SurfaceMessage) (outcome : Except CompactionError CompactionResult × Run σ) :
    Prop :=
  SettledWhere (fun _ => True) S compactionId range planned outcome

theorem SettledWhere.settled (h : SettledWhere fits S compactionId range planned outcome) :
    Settled S compactionId range planned outcome :=
  h.imp_right ReplacedWhere.replaced

theorem kept_of_quiet (hstart : start.Replays S P) (h : Follows S P start run)
    (hquiet : ∀ e ∈ ownEvents run.attempts, surfaceEdit S e = none) :
    Kept S start.state.surface run := by
  rw [Kept, h.surface hstart, surfaceAfter_foreign _ hquiet]

theorem Closing.quiet {attempts : List Attempt} (h : Closing compactionId attempts) :
    ∀ e ∈ ownEvents attempts, surfaceEdit S e = none := by
  intro e he
  rcases h with ⟨_, hstop, hevents⟩ | ⟨hevents, _⟩
  · rw [hevents] at he
    rw [mem_singleton.mp he]
    exact surfaceEdit_note (by rw [hstop.1]; rfl)
  · rw [hevents] at he
    cases he

theorem Ended.quiet (h : Ended compactionId own run) (hown : ∀ e ∈ own, surfaceEdit S e = none) :
    ∀ e ∈ ownEvents run.attempts, surfaceEdit S e = none := by
  obtain ⟨_, _, hattempts, hbefore, hclosing⟩ := h
  intro e he
  rw [hattempts, ownEvents_append, hbefore] at he
  rcases mem_append.mp he with he | he
  · exact hown e he
  · exact hclosing.quiet e he

/-- While the own events do not show, a surface with the planned numbers is
the planned surface, and what the others wrote left it so. -/
theorem Follows.restored {start : Live σ} (hstart : start.Replays S P) {run : Run σ}
    (h : Follows S P start run) (hquiet : ∀ e ∈ ownEvents run.attempts, surfaceEdit S e = none)
    (hcheck : checkSurface run.live.state.surface (some (surfaceSeqs start.state.surface))
      = .ok ()) :
    surfaceAfter S start.state.surface (admittedEvents run.attempts) = start.state.surface
      ∧ surfaceAfter S start.state.surface (foreignEvents run.attempts)
        = start.state.surface := by
  have hseqs : surfaceSeqs run.live.state.surface = surfaceSeqs start.state.surface :=
    not_not.mp (failIf_eq_ok.mp hcheck)
  have hbefore : surfaceAfter S start.state.surface (admittedEvents run.attempts)
      = start.state.surface := by
    rw [← h.surface hstart, h.surface_eq hstart hseqs]
  refine ⟨hbefore, ?_⟩
  rwa [surfaceAfter_foreign _ hquiet] at hbefore

/-- An execution that ends in an error leaves the surface as it is. -/
theorem finishError_settled (hP : P.Lawful) (hstart : start.Replays S P) (h : Follows S P start run)
    (env : Environment) (err : CompactionError) (range : CompactionRange)
    (hown : ownEvents run.attempts = own) (hquiet : ∀ e ∈ own, surfaceEdit S e = none) :
    SettledWhere fits S env.compactionId range start.state.surface (finishError S P env run err)
      ∧ Finished env.compactionId own (finishError S P env run err).2 := by
  obtain ⟨herror, hfollows, hended⟩ := finishError_ended hP env h err
  rw [hown] at hended
  refine ⟨.inl ⟨kept_of_quiet hstart hfollows (hended.quiet hquiet), herror⟩, [], ?_, ?_⟩
  · intro e he
    cases he
  · rwa [append_nil]

theorem planFromSurface_eq_ok {surface : List SurfaceMessage}
    (h : planFromSurface config text surface range limit = .ok plan) :
    plan.range = range ∧ range.last < surface.length
      ∧ plan.expectedSurfaceEventSeqs = surfaceSeqs surface
      ∧ plan.shadowedEventSeqs
        = surfaceSeqs ((surface.drop range.start).take (range.last + 1 - range.start))
      ∧ plan.messages = ((surface.drop range.start).take (range.last + 1 - range.start)).map
        SurfaceMessage.message := by
  obtain ⟨_, hselected, h⟩ := bind_eq_ok.mp h
  obtain ⟨hrange, hselected⟩ := check_bind_eq_ok.mp hselected
  rw [failIf_eq_ok] at hrange
  replace h := after_check h
  replace h := after_check h
  dsimp only at h
  split at h
  · cases h
  · replace h := after_check h
    obtain rfl := ok.inj hselected
    obtain rfl := ok.inj h
    exact ⟨rfl, by omega, rfl, rfl, rfl⟩

theorem planFromSurface_of_count {surface selected : List SurfaceMessage} {count : Nat}
    (hslice : rangeSlice surface range = .ok selected)
    (hlength : selected.length ≤ config.maxSurfaceMessages)
    (hpairs : validateToolPairs surface range = .ok ())
    (hcount : inputCodepoints text (selected.map SurfaceMessage.message) = some count)
    (hle : count ≤ limit) :
    planFromSurface config text surface range limit =
      .ok { range, expectedSurfaceEventSeqs := surfaceSeqs surface
            shadowedEventSeqs := surfaceSeqs selected
            messages := selected.map SurfaceMessage.message
            tokenEstimate := tokensFor count } := by
  unfold planFromSurface
  rw [hslice, ok_bind, failIf_eq_ok.mpr (by omega), ok_bind, hpairs, ok_bind]
  dsimp only
  rw [hcount]
  dsimp only
  rw [failIf_eq_ok.mpr (by omega), ok_bind]

section Stages

variable {start : Live σ} {service : Service} (env : Environment) {range : CompactionRange}
  {plan : Plan}

def replacementEvent (S : Serde) (env : Environment) (plan : Plan) (startSeq summarySeq : Nat)
    (content : List ContentBlock) (seq : Nat) : SessionEvent :=
  (replacementSpec S plan startSeq summarySeq (plan.range.last + 1)
    (summaryMessage startSeq env.compactionId content)).build seq

/-- The append of the replacement swaps the range for the summary. -/
theorem replaced_of_append (hS : S.RoundTrips) (hP : P.Lawful) (hstart : start.Replays S P)
    (hexpected : plan.expectedSurfaceEventSeqs = surfaceSeqs start.state.surface)
    (hshadowed : plan.shadowedEventSeqs = surfaceSeqs ((start.state.surface.drop
      plan.range.start).take (plan.range.last + 1 - plan.range.start)))
    {run next last : Run σ} (h : Follows S P start run) {startEvent summaryEvent : SessionEvent}
    (hown : ownEvents run.attempts = [startEvent, summaryEvent])
    (hstartType : startEvent.eventType = "compaction/start")
    (hsummaryType : summaryEvent.eventType = "compaction/summary") {content : List ContentBlock}
    {token : Cancellation} {seq : Nat}
    (happend : run.append S P (replacementSpec S plan startEvent.seq summaryEvent.seq
      (plan.range.last + 1) (summaryMessage startEvent.seq env.compactionId content)) token
        = (.ok seq, next))
    (hlast : Follows S P start last) {after : List Attempt}
    (hafter : last.attempts = next.attempts ++ after) (hclosing : Closing env.compactionId after)
    {fits : Message → Prop} (hfits : fits (summaryMessage startEvent.seq env.compactionId content)) :
    ReplacedWhere fits S env.compactionId plan.range start.state.surface last := by
  obtain ⟨hnext, hattempts, hcheck⟩ := h.append_ok hP happend
  have hquiet : ∀ e ∈ ownEvents run.attempts, surfaceEdit S e = none := by
    rw [hown]
    simp only [forall_mem_cons, not_mem_nil, false_implies, implies_true, and_true]
    exact ⟨surfaceEdit_note (by rw [hstartType]; rfl), surfaceEdit_note (by rw [hsummaryType]; rfl)⟩
  have hplanned : checkSurface run.live.state.surface (some (surfaceSeqs start.state.surface))
      = .ok () := by
    rw [← hexpected]
    exact hcheck
  obtain ⟨hbefore, hforeign⟩ := h.restored hstart hquiet hplanned
  -- the replacement was decoded on admission, as the summary message
  obtain ⟨_, _, hdecode⟩ := (Live.Replays.accepted hnext.replays).event
    (replacementEvent S env plan startEvent.seq summaryEvent.seq content seq)
    (by rw [hnext.events, hattempts, admittedEvents, admittedBy_append, admittedBy_ok _ rfl]
        simp [replacementEvent])
  have hedit := surfaceEdit_replacement hS (fun _ _ hsource => by cases hsource) hdecode
  have hsurface := hlast.surface hstart
  rw [hafter, hattempts, admittedEvents, admittedBy_append, admittedBy_append,
    surfaceAfter_append, surfaceAfter_append, ← admittedEvents, hbefore, admittedBy_ok _ rfl,
    if_pos rfl, ← admittedEvents, surfaceAfter_foreign _ hclosing.quiet] at hsurface
  refine ⟨run.attempts, after,
    ⟨true, replacementEvent S env plan startEvent.seq summaryEvent.seq content seq, token, .ok ()⟩,
    startEvent, summaryEvent, content, ?_, rfl, rfl, hown, hstartType, hsummaryType, hforeign, ?_,
    ?_, hfits⟩
  · rw [hafter, hattempts, append_assoc]
    rfl
  · rw [← hshadowed]
    rfl
  · rw [hsurface]
    simp only [surfaceAfter, surfaceHistory, map_cons, map_nil, foldl_cons,
      foldl_nil, hedit, editStep, Edit.apply]
    rfl

/-- An execution that has its summary replaces the range, or leaves the
surface. -/
theorem executeReplacement_settled (hS : S.RoundTrips) (hP : P.Lawful)
    (hstart : start.Replays S P) {limit : Nat}
    (hplan : planFromSurface service.config service.text start.state.surface range limit = .ok plan)
    {run : Run σ} (h : Follows S P start run) (trigger : CompactionTrigger) (turn : Option Nat)
    {startEvent summaryEvent : SessionEvent}
    (hown : ownEvents run.attempts = [startEvent, summaryEvent])
    (hstartType : startEvent.eventType = "compaction/start")
    (hsummaryType : summaryEvent.eventType = "compaction/summary") (content : List ContentBlock)
    {fits : Message → Prop} (hfits : fits (summaryMessage startEvent.seq env.compactionId content)) :
    let outcome := executeReplacement S P env trigger plan turn startEvent.seq summaryEvent.seq
      (summaryMessage startEvent.seq env.compactionId content) run
    SettledWhere fits S env.compactionId range start.state.surface outcome
      ∧ Finished env.compactionId [startEvent, summaryEvent] outcome.2 := by
  intro outcome
  obtain ⟨rfl, hlast, hexpected, hshadowed, -⟩ := planFromSurface_eq_ok hplan
  have hbound := surface_length_lt hstart
  have hstop : exclusiveEnd plan.range = .ok (plan.range.last + 1) := if_pos (by omega)
  have hfollows := Follows.interfere hP (env.calls .replacement) h
  have hownBefore := (ownEvents_interfere (S := S) (P := P) (env.calls .replacement) run).trans hown
  have houtcome : outcome = executeReplacement S P env trigger plan turn startEvent.seq
    summaryEvent.seq (summaryMessage startEvent.seq env.compactionId content) run := rfl
  unfold executeReplacement at houtcome
  rw [hstop] at houtcome
  dsimp only at houtcome
  rcases happend : (run.interfere S P (env.calls .replacement)).append S P
    (replacementSpec S plan startEvent.seq summaryEvent.seq (plan.range.last + 1)
      (summaryMessage startEvent.seq env.compactionId content)) env.replacementToken
    with ⟨result, next⟩
  rw [happend] at houtcome
  cases result with
  | error err =>
    -- the append was refused: nothing shows
    obtain ⟨hnext, n, hattempts⟩ := hfollows.append_error hP happend
    have hownNext : ownEvents next.attempts = [startEvent, summaryEvent] := by
      rw [hattempts, ownEvents_append, ownEvents_error, hownBefore, append_nil]
    rw [houtcome]
    refine finishError_settled hP hstart hnext env _ plan.range hownNext ?_
    simp only [forall_mem_cons, not_mem_nil, false_implies, implies_true, and_true]
    exact ⟨surfaceEdit_note (by rw [hstartType]; rfl),
      surfaceEdit_note (by rw [hsummaryType]; rfl)⟩
  | ok seq =>
    obtain ⟨hnext, hattempts, _⟩ := hfollows.append_ok hP happend
    rcases hend : appendEnd S P env next turn none with ⟨ended, last⟩
    obtain ⟨hlast, after, hafter, hclosing⟩ := appendEnd_closing hP hnext hend
    have hreplaced := replaced_of_append env hS hP hstart hexpected hshadowed hfollows hownBefore
      hstartType hsummaryType happend hlast hafter hclosing hfits
    have hrun : outcome.2 = last := by
      rw [houtcome]
      dsimp only
      rw [hend]
      cases ended <;> rfl
    rw [SettledWhere, hrun]
    refine ⟨.inr hreplaced,
      [replacementEvent S env plan startEvent.seq summaryEvent.seq content seq], ?_,
      next.attempts, after, hafter, ?_, hclosing⟩
    · intro e he
      rw [mem_singleton.mp he]
      exact ⟨(by decide : "user/message" ≠ "compaction/start"),
        (by decide : "user/message" ≠ "compaction/end")⟩
    · rw [hattempts, ownEvents_append, ownEvents_ok, hownBefore]
      rfl

/-- A message of text blocks, smaller than what it replaces. -/
def Summarises (service : Service) (plan : Plan) (m : Message) : Prop :=
  (serializedCodepoints service.text m).getD (u64Bound - 1) < selectedCodepoints service plan
    ∧ ∀ block ∈ m.content, ∃ t, block = .text t

theorem summaryText_texts : ∀ {blocks summary : List ContentBlock} {count : Nat},
    summaryText blocks = .ok (summary, count) → ∀ block ∈ summary, ∃ t, block = .text t
  | [], _, _, h => by
    cases h
    exact nofun
  | .text t :: rest, summary, count, h => by
    rw [summaryText] at h
    obtain ⟨⟨_, n⟩, hrest, h⟩ := bind_eq_ok.mp h
    cases h
    intro block hblock
    rcases mem_cons.mp hblock with rfl | hblock
    · exact ⟨t, rfl⟩
    · exact summaryText_texts hrest block hblock
  | .reasoning _ :: rest, _, _, h => by
    rw [summaryText] at h
    exact summaryText_texts h
  | .image _ :: _, _, _, h | .toolCall _ _ _ :: _, _, _, h | .toolResult _ _ _ :: _, _, _, h =>
    nomatch h

theorem checkedSummary_texts {service : Service} {env : Environment} {generation : LlmGeneration}
    {summary : List ContentBlock} (h : checkedSummary service env = .ok (generation, summary)) :
    ∀ block ∈ summary, ∃ t, block = .text t := by
  obtain ⟨_, _, h⟩ := bind_eq_ok.mp h
  replace h := after_check h
  replace h := after_check h
  obtain ⟨_, hblocks, h⟩ := bind_eq_ok.mp h
  cases h
  obtain ⟨⟨_, _⟩, htexts, hblocks⟩ := bind_eq_ok.mp hblocks
  replace hblocks := after_check hblocks
  replace hblocks := after_check hblocks
  cases hblocks
  exact summaryText_texts htexts

variable {limit : Nat} {run : Run σ} {startEvent : SessionEvent}

/-- An execution with a generated summary settles. -/
theorem executeSummary_settled (hS : S.RoundTrips) (hP : P.Lawful) (hstart : start.Replays S P)
    (hplan : planFromSurface service.config service.text start.state.surface range limit = .ok plan)
    (h : Follows S P start run) (trigger : CompactionTrigger) (turn : Option Nat)
    {summaryEvent : SessionEvent} (hown : ownEvents run.attempts = [startEvent, summaryEvent])
    (hstartType : startEvent.eventType = "compaction/start")
    (hsummaryType : summaryEvent.eventType = "compaction/summary") (content : List ContentBlock)
    (htexts : ∀ block ∈ content, ∃ t, block = .text t) :
    let outcome := executeSummary S P service env trigger plan turn startEvent.seq
      summaryEvent.seq content run
    SettledWhere (Summarises service plan) S env.compactionId range start.state.surface outcome
      ∧ Finished env.compactionId [startEvent, summaryEvent] outcome.2 := by
  intro outcome
  have hquiet : ∀ e ∈ [startEvent, summaryEvent], surfaceEdit S e = none := by
    simp only [forall_mem_cons, not_mem_nil, false_implies, implies_true, and_true]
    exact ⟨surfaceEdit_note (by rw [hstartType]; rfl), surfaceEdit_note (by rw [hsummaryType]; rfl)⟩
  have houtcome : outcome = executeSummary S P service env trigger plan turn startEvent.seq
    summaryEvent.seq content run := rfl
  unfold executeSummary at houtcome
  dsimp only at houtcome
  split at houtcome
  · rw [houtcome]
    exact finishError_settled hP hstart h env _ range hown hquiet
  · split at houtcome
    · rw [houtcome]
      exact finishError_settled hP hstart h env _ range hown hquiet
    · rename_i hsmaller
      have hfits : Summarises service plan
          (summaryMessage startEvent.seq env.compactionId content) :=
        ⟨Nat.not_le.mp hsmaller, htexts⟩
      rw [houtcome]
      exact executeReplacement_settled env hS hP hstart hplan h trigger turn hown hstartType
        hsummaryType content hfits

/-- An execution that has written its start settles. -/
theorem executeStarted_settled (hS : S.RoundTrips) (hP : P.Lawful) (hstart : start.Replays S P)
    (hplan : planFromSurface service.config service.text start.state.surface range limit = .ok plan)
    (h : Follows S P start run) (trigger : CompactionTrigger) (turn : Option Nat)
    (hown : ownEvents run.attempts = [startEvent])
    (hstartType : startEvent.eventType = "compaction/start") :
    let outcome := executeStarted S P service env trigger plan turn startEvent.seq run
    SettledWhere (Summarises service plan) S env.compactionId range start.state.surface outcome
      ∧ Finished env.compactionId [startEvent] outcome.2 := by
  intro outcome
  have hquiet : ∀ e ∈ [startEvent], surfaceEdit S e = none := by
    intro e he
    rw [mem_singleton.mp he]
    exact surfaceEdit_note (by rw [hstartType]; rfl)
  have houtcome : outcome = executeStarted S P service env trigger plan turn startEvent.seq run :=
    rfl
  unfold executeStarted at houtcome
  split at houtcome
  · rw [houtcome]
    exact finishError_settled hP hstart h env _ range hown hquiet
  · rename_i generation summary hsummary
    have hfollows := Follows.interfere hP (env.calls .summary) h
    have hownBefore := (ownEvents_interfere (S := S) (P := P) (env.calls .summary) run).trans hown
    rcases happend : (run.interfere S P (env.calls .summary)).append S P
      (summarySpec service plan env.compactionId generation summary) env.summaryToken
      with ⟨result, next⟩
    rw [happend] at houtcome
    cases result with
    | error err =>
      obtain ⟨hnext, n, hattempts⟩ := hfollows.append_error hP happend
      rw [houtcome]
      refine finishError_settled hP hstart hnext env _ range ?_ hquiet
      rw [hattempts, ownEvents_append, ownEvents_error, hownBefore, append_nil]
    | ok seq =>
      obtain ⟨hnext, hattempts, _⟩ := hfollows.append_ok hP happend
      have hownNext : ownEvents next.attempts = [startEvent,
          (summarySpec service plan env.compactionId generation summary).build seq] := by
        rw [hattempts, ownEvents_append, ownEvents_ok, hownBefore]
        rfl
      obtain ⟨hsettled, mid, hmid, hended⟩ :=
        executeSummary_settled env hS hP hstart hplan hnext trigger turn hownNext
          hstartType rfl summary (checkedSummary_texts hsummary)
      rw [houtcome]
      refine ⟨hsettled, _ :: mid, ?_, hended⟩
      intro e he
      rcases mem_cons.mp he with rfl | he
      · exact ⟨(by decide : "compaction/summary" ≠ "compaction/start"),
          (by decide : "compaction/summary" ≠ "compaction/end")⟩
      · exact hmid e he

/-- Every exit of an execution settles. -/
theorem execute_settled (hS : S.RoundTrips) (hP : P.Lawful) (hstart : start.Replays S P)
    (hplan : planFromSurface service.config service.text start.state.surface range limit = .ok plan)
    (trigger : CompactionTrigger) :
    let outcome := execute S P service env trigger plan { live := start, attempts := [] }
    SettledWhere (Summarises service plan) S env.compactionId range start.state.surface outcome
      ∧ (ownEvents outcome.2.attempts = []
        ∨ ∃ startEvent, IsStart env.compactionId startEvent
          ∧ Finished env.compactionId [startEvent] outcome.2) := by
  intro outcome
  have hrefl := Follows.refl hstart
  have houtcome : outcome = execute S P service env trigger plan
    { live := start, attempts := [] } :=
    rfl
  unfold execute at houtcome
  split at houtcome
  · rw [houtcome]
    exact ⟨.inl ⟨kept_of_quiet hstart hrefl nofun, _, rfl⟩, .inl rfl⟩
  · split at houtcome
    · rw [houtcome]
      exact ⟨.inl ⟨kept_of_quiet hstart hrefl nofun, _, rfl⟩, .inl rfl⟩
    · dsimp only at houtcome
      have hturn := Follows.interfere hP (env.calls .turn) hrefl
      have hfollows := Follows.interfere hP (env.calls .start) hturn
      generalize openTurn (Run.interfere S P { live := start, attempts := [] }
        (env.calls .turn)).live.state.events = turn at houtcome
      have hown : ownEvents (((Run.interfere S P { live := start, attempts := [] }
          (env.calls .turn))).interfere S P (env.calls .start)).attempts = [] := by
        rw [ownEvents_interfere, ownEvents_interfere]
        rfl
      rcases happend : (((Run.interfere S P { live := start, attempts := [] }
        (env.calls .turn))).interfere S P (env.calls .start)).append S P
        (startSpec env.compactionId turn) env.startToken with ⟨result, next⟩
      rw [happend] at houtcome
      cases result with
      | error err =>
        obtain ⟨hnext, n, hattempts⟩ := hfollows.append_error hP happend
        have hnone : ownEvents next.attempts = [] := by
          rw [hattempts, ownEvents_append, ownEvents_error, hown]
          rfl
        rw [houtcome]
        refine ⟨.inl ⟨kept_of_quiet hstart hnext fun e he => ?_, _, rfl⟩, .inl hnone⟩
        rw [hnone] at he
        cases he
      | ok seq =>
        obtain ⟨hnext, hattempts, _⟩ := hfollows.append_ok hP happend
        have hownNext : ownEvents next.attempts
            = [(startSpec env.compactionId turn).build seq] := by
          rw [hattempts, ownEvents_append, ownEvents_ok, hown]
          rfl
        obtain ⟨hsettled, hfinished⟩ := executeStarted_settled env hS hP hstart hplan hnext
          trigger turn hownNext rfl
        rw [houtcome]
        exact ⟨hsettled, .inr ⟨_, isStart_startSpec env.compactionId turn seq, hfinished⟩⟩

end Stages

/-! ## All exits of a compaction -/

theorem surfaceAfter_take : ∀ {events : List SessionEvent},
    (∀ e ∈ events, ∀ a b, e.surfaceOp ≠ some (.replace a b)) →
      ∀ surface : List SurfaceMessage, surface <+: surfaceAfter S surface events
  | [], _, surface => prefix_refl surface
  | e :: rest, h, surface => by
    have hstep : surface <+: editStep surface (surfaceEdit S e) := by
      cases hedit : surfaceEdit S e with
      | none => exact prefix_refl surface
      | some edit =>
        rcases (surfaceEdit_eq_some hedit).2 with ⟨hshape, _⟩ | ⟨start, stop, _, hop⟩
        · rw [hshape]
          exact prefix_append surface _
        · exact absurd hop (h e mem_cons_self start stop)
    exact hstep.trans (surfaceAfter_take (fun x hx => h x (mem_cons_of_mem e hx)) _)

/-- What an attempt may do, whatever happens around it. -/
structure AllOrNothing (S : Serde) (compactionId : String) (range : CompactionRange)
    (planned : List SurfaceMessage) (outcome : Except CompactionError CompactionResult × Run σ) :
    Prop where
  /-- Kept with an error, or replaced. -/
  surface : Settled S compactionId range planned outcome
  /-- A reported success replaced. -/
  success : ∀ result, outcome.1 = .ok result → Replaced S compactionId range planned outcome.2
  /-- While the others only append, the planned entries are all still
  there, or exactly the region is replaced by one entry. -/
  entries : (∀ e ∈ foreignEvents outcome.2.attempts, ∀ a b, e.surfaceOp ≠ some (.replace a b)) →
    planned <+: outcome.2.live.state.surface
      ∨ ∃ entry, splice planned range.start (range.last + 1) entry <+: outcome.2.live.state.surface
  /-- An attempt that was opened is closed once, if the append of its end
  event succeeds. -/
  closed : (∀ a ∈ outcome.2.attempts, a.own = true → a.event.eventType = "compaction/end" →
    a.result = .ok ()) → Closed compactionId (ownEvents outcome.2.attempts)

theorem foreignEvents_append (xs ys : List Attempt) :
    foreignEvents (xs ++ ys) = foreignEvents xs ++ foreignEvents ys := admittedBy_append _ xs ys

/-- A settled execution is all or nothing. -/
theorem allOrNothing_of_settled (hsettled : Settled S compactionId range planned outcome)
    (hown : ownEvents outcome.2.attempts = [] ∨ ∃ start, IsStart compactionId start
      ∧ Finished compactionId [start] outcome.2) :
    AllOrNothing S compactionId range planned outcome where
  surface := hsettled
  success := by
    intro result hresult
    rcases hsettled with ⟨_, _, herr⟩ | hreplaced
    · rw [hresult] at herr
      cases herr
    · exact hreplaced
  entries := by
    intro happends
    rcases hsettled with ⟨hkept, _⟩ | ⟨_, _, _, _, _, _,
      hattempts, _, _, _, _, _, _, _, hsurface, _⟩
    · rw [hkept]
      exact .inl (surfaceAfter_take happends planned)
    · rw [hsurface]
      refine .inr ⟨_, surfaceAfter_take (fun e he => happends e ?_) _⟩
      rw [hattempts, ← singleton_append, ← append_assoc, foreignEvents_append]
      exact mem_append_right _ he
  closed := by
    intro hends
    rcases hown with hnone | ⟨start, hstart, mid, hmid, _, _, hattempts, hbefore, hclosing⟩
    · exact .inl hnone
    · rcases hclosing with ⟨stop, hstop, hafter⟩ | ⟨_, a, ha, hself, htype, hfailed⟩
      · refine .inr ⟨start, mid, stop, ?_, hstart, hstop, hmid⟩
        rw [hattempts, ownEvents_append, hbefore, hafter]
        rfl
      · exact absurd (hends a (by rw [hattempts]; exact mem_append_right _ ha) hself htype)
          hfailed

/-- Compaction is all-or-nothing on the surface: for every live session,
every plan made from its surface, every answer of the model, every
reading of the token and every schedule of other writers. -/
theorem compaction_all_or_nothing (S : Serde) (hS : S.RoundTrips) (P : Persistence σ)
    (hP : P.Lawful) (service : Service) (env : Environment) (live : Live σ)
    (hlive : live.Replays S P) (range : CompactionRange) :
    (∀ trigger plan limit,
      planFromSurface service.config service.text live.state.surface range limit = .ok plan →
        AllOrNothing S env.compactionId range live.state.surface
          (execute S P service env trigger plan { live, attempts := [] }))
    ∧ ∀ busy cancelled, AllOrNothing S env.compactionId range live.state.surface
        (compactRegion S P service env busy cancelled range live) := by
  have hexecute : ∀ trigger plan limit,
      planFromSurface service.config service.text live.state.surface range limit = .ok plan →
        AllOrNothing S env.compactionId range live.state.surface
          (execute S P service env trigger plan { live, attempts := [] }) := by
    intro trigger plan limit hplan
    obtain ⟨hsettled, hown⟩ := execute_settled env hS hP hlive hplan trigger
    exact allOrNothing_of_settled hsettled.settled hown
  refine ⟨hexecute, fun busy cancelled => ?_⟩
  -- before the attempt starts nothing is written
  have hnothing : ∀ err, AllOrNothing S env.compactionId range live.state.surface
      ((.error err, { live, attempts := [] }) :
        Except CompactionError CompactionResult × Run σ) := fun err =>
    allOrNothing_of_settled (.inl ⟨kept_of_quiet hlive (Follows.refl hlive)
      nofun, err, rfl⟩) (.inl rfl)
  unfold compactRegion
  split
  · exact hnothing _
  · split
    · exact hnothing _
    · split
      · exact hnothing _
      · rename_i plan hplan
        exact hexecute .manual plan _ hplan

/-! ### A compacted session -/

def greeting : Message :=
  { id := ⟨"m"⟩, role := .user, content := [.text "hello"], source := .user none }

def greetingEvent (seq : Nat) : SessionEvent :=
  { SessionEvent.plain "user/message" seq 0 (wireSerde.messageToValue greeting) with
    surfaceOp := some .append }

def greetingText (m : Message) : Option String :=
  if m = greeting then
    some "\x7b\"id\":\"m\",\"role\":\"user\",\"content\":[\x7b\"type\":\"text\",\"text\":\"hello\"\x7d],\"source\":\x7b\"kind\":\"user\"\x7d\x7d"
  else if m = summaryMessage 2 "c" [.text "hi"] then
    some "\x7b\"id\":\"compaction-2\",\"role\":\"user\",\"content\":[\x7b\"type\":\"text\",\"text\":\"hi\"\x7d],\"source\":\x7b\"kind\":\"plugin\",\"plugin\":\"compact\",\"compactionId\":\"c\"\x7d\x7d"
  else none

def greetingService : Service where
  config := { provider := "p", model := "m", maxTokens := none, system := none
              maxSurfaceMessages := 512, maxInputCodepoints := 65536
              maxSummaryCodepoints := 16384 }
  text := greetingText
  contentToValue content := .array (Wire.blocksToItems content)
  contextWindow := none

/-- The model answers with a short summary, and nobody interferes. -/
def quietEnvironment : Environment where
  compactionId := "c"
  calls _ := []
  outcome := .ok { message := { id := ⟨"a"⟩, role := .assistant, content := [.text "hi"]
                                source := .model "p" "m" none }
                   finishReason := .stop, usage := .null }
  cancelledOnEntry := false
  cancelledAfterModel := false
  cancelledAfterSummaryError := false
  cancelledAfterSummary := false
  cancelledAfterReplacementError := false
  startToken := .never
  summaryToken := .never
  replacementToken := .never

/-- Two greetings are replaced by their summary. -/
theorem compaction_all_or_nothing_greetings :
    let P := memoryPersistence wireSerde
    let store : Store MemoryState := { isLive := fun _ => false, disk := Memory.empty }
    ∃ start store', store.create wireSerde P (.plain ⟨"s"⟩ 0) .never = (.ok start, store') ∧
      let live := runState (Live.call wireSerde P) start
        [.append (greetingEvent 0) .never, .append (greetingEvent 1) .never]
      let outcome := compactRegion wireSerde P greetingService quietEnvironment false false
        { start := 0, last := 1 } live
      outcome.1.toOption.isSome = true
        ∧ AllOrNothing wireSerde "c" { start := 0, last := 1 } live.state.surface outcome := by
  intro P store
  refine ⟨_, _, rfl, by decide +kernel, ?_⟩
  have hlive := (Live.run_replays (memoryPersistence_lawful wireSerde)
    (.create store .never _ rfl : Started wireSerde P (.plain ⟨"s"⟩ 0) _)
    [.append (greetingEvent 0) .never, .append (greetingEvent 1) .never]).2
  exact (compaction_all_or_nothing wireSerde wireSerde_roundTrips P
    (memoryPersistence_lawful wireSerde) greetingService quietEnvironment _ hlive
    { start := 0, last := 1 }).2 false false

end Tessivum.Compaction
