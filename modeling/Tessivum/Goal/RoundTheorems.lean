/-
Tessivum.Goal.RoundTheorems — goal automation and its own log.

A round is stamped when `drive` reads the ledger and counted when the agent
appends it. The ledger accepts it there exactly when nothing was appended about
its goal in between: a change moves the revision or the phase, another round
moves the counter.

The stamps are a history variable: every round in memory or in the durable
inbox was stamped (`Stamped`), and what a stamp says about the ledger stays
true while its goal is left alone (`RoundStamp.Sound`).
-/
import Tessivum.Goal.OneOpenTheorems
import Tessivum.Goal.Rounds

namespace Tessivum.Goal

open Library Protocol Session Agent List RoundSystem InboxState

variable {σ : Type} {S : Serde} {P : Persistence σ}

/-! ## Events about one goal -/

def aboutGoal (S : Serde) (e : SessionEvent) : Option String :=
  if e.eventType = "goal/change" then
    (Wire.changeFromValue e.data).bind fun change =>
      if change.operation = .clear then change.cleared.map GoalRef.id
      else change.goal.map GoalSnapshotWire.id
  else (roundOf S e).map Prod.fst

def SameGoal (id : String) (a b : GoalState) : Prop :=
  a.goals.lookup id = b.goals.lookup id ∧ a.times.lookup id = b.times.lookup id

variable {e : SessionEvent} {id : String} {state folded : GoalState} {log : List SessionEvent}
  {m message : Message} {more stamps : List RoundStamp} {live live' : Live σ}
  {inbox inbox' : InboxState} {goals : GoalSystem σ} {result : Except SessionError Unit}
  {view : GoalView} {sys : RoundSystem σ} {drive : Drive} {d : Nat}

theorem Replayed.frame {state' : GoalState} (h : Replayed S state e state')
    (hid : aboutGoal S e ≠ some id) : SameGoal id state' state := by
  cases h with
  | quiet => exact ⟨rfl, rfl⟩
  | cleared change snapshot goals htype hchange hop href hvalid happly =>
    have hne : id ≠ snapshot.reference.id := by
      rintro rfl
      exact hid (by simp [aboutGoal, htype, hchange, hop, href])
    obtain ⟨_, rfl⟩ := applySnapshot_eq_ok happly
    exact ⟨AList.lookup_insert_ne hne, AList.lookup_erase_ne hne⟩
  | revised change wire snapshot times reason goals _ htype hchange _ hop hgoal hwire _ _ _
      happly =>
      have hne : id ≠ snapshot.reference.id := by
        rintro rfl
        refine hid ?_
        simp [aboutGoal, htype, hchange, hop, hgoal, (GoalSnapshotWire.snapshot_eq_ok hwire).1]
      obtain ⟨_, rfl⟩ := applySnapshot_eq_ok happly
      exact ⟨AList.lookup_insert_ne hne, AList.lookup_insert_ne hne⟩
  | counted goalId revision round goal times htype hround =>
    have hne : id ≠ goalId := by
      rintro rfl
      exact hid (by simp [aboutGoal, htype, hround])
    refine ⟨by rw [observeRound_goals], ?_⟩
    rw [observeRound_times]
    exact AList.lookup_insert_ne hne

theorem frame_of_foldlM : ∀ {events : List SessionEvent}
    {state state' : GoalState}, events.foldlM (applyGoalEvent S) state = .ok state' →
      (∀ e ∈ events, aboutGoal S e ≠ some id) → SameGoal id state' state := by
  intro events
  induction events with
  | nil =>
    intro state state' h _
    cases h
    exact ⟨rfl, rfl⟩
  | cons e rest ih =>
    intro state state' h hid
    rw [foldlM_cons] at h
    obtain ⟨_, hmid, hrest⟩ := bind_eq_ok.mp h
    obtain ⟨hgoals, htimes⟩ := ih hrest fun e' he' => hid e' (mem_cons_of_mem e he')
    obtain ⟨hgoals', htimes'⟩ :=
      (applyGoalEvent_replayed hmid).frame (hid e mem_cons_self)
    exact ⟨hgoals.trans hgoals', htimes.trans htimes'⟩

/-! ## Stamps -/

/-- What a stamp says about the ledger it was made on: the goal was
active at the revision, and the round was its next one. -/
def RoundStamp.Next (stamp : RoundStamp) (state : GoalState) : Prop :=
  ∃ goal times, activeGoal state.goals stamp.goalId = some goal
    ∧ goal.reference.revision = stamp.revision
    ∧ state.times.lookup stamp.goalId = some times
    ∧ stamp.round = times.roundsStarted + 1 ∧ stamp.round ≤ goal.maxGoalRounds

def RoundStamp.Sound (S : Serde) (log : List SessionEvent) (stamp : RoundStamp) : Prop :=
  stamp.position ≤ log.length
    ∧ ∃ folded, foldGoals S (log.take stamp.position) = .ok folded ∧ stamp.Next folded

def RoundStamp.Fresh (S : Serde) (log : List SessionEvent) (stamp : RoundStamp) : Prop :=
  ∀ e ∈ log.drop stamp.position, aboutGoal S e ≠ some stamp.goalId

theorem RoundStamp.Sound.append {stamp : RoundStamp} (h : stamp.Sound S log)
    (more : List SessionEvent) : stamp.Sound S (log ++ more) := by
  obtain ⟨hle, hfold⟩ := h
  refine ⟨by rw [length_append]; omega, ?_⟩
  rw [take_append_of_le_length hle]
  exact hfold

theorem RoundStamp.Next.of_same {stamp : RoundStamp} {a b : GoalState}
    (h : SameGoal stamp.goalId b a) (ha : stamp.Next a) : stamp.Next b := by
  obtain ⟨goal, times, hgoal, hrevision, htimes, hround, hcap⟩ := ha
  refine ⟨goal, times, ?_, hrevision, h.2.trans htimes, hround, hcap⟩
  unfold activeGoal at hgoal ⊢
  rw [h.1]
  exact hgoal

theorem RoundStamp.Sound.next {log : List SessionEvent} {stamp : RoundStamp}
    (h : stamp.Sound S log) (hfresh : stamp.Fresh S log) {folded : GoalState}
    (hfold : foldGoals S log = .ok folded) : stamp.Next folded := by
  obtain ⟨_, before, hbefore, hnext⟩ := h
  rw [← take_append_drop stamp.position log] at hfold
  obtain ⟨mid, hmid, hrest⟩ := foldGoals_append.mp hfold
  obtain rfl : mid = before := ok.inj (hmid.symm.trans hbefore)
  exact hnext.of_same (frame_of_foldlM hrest hfresh)

theorem RoundStamp.Next.accepted {stamp : RoundStamp} (hstate : state.Valid) (h : stamp.Next state)
    (seq : Nat) :
    ∃ state', applyRound state stamp.goalId stamp.revision stamp.round seq = .ok state' := by
  obtain ⟨goal, times, hgoal, hrevision, htimes, hround, hcap⟩ := h
  have hmax := (hstate.keyed _ goal (activeGoal_eq_some.mp hgoal).1).2
  have hsmall : stamp.round ≤ u64Bound - 1 := by
    refine (hcap.trans hmax).trans ?_
    decide
  have hcounter : stamp.round = min (times.roundsStarted + 1) (u64Bound - 1) := by
    rw [← hround]
    exact (Nat.min_eq_left hsmall).symm
  unfold applyRound
  rw [hgoal]
  dsimp only
  rw [failIf_eq_ok.mpr (not_not.mpr hrevision), ok_bind, htimes]
  dsimp only
  rw [failIf_eq_ok.mpr (by rw [not_or, not_not, not_lt]; exact ⟨hcounter, hcap⟩), ok_bind]
  exact ⟨_, rfl⟩

/-- The round a drive queues comes next. -/
theorem driveNext_next {state : GoalState} {reference : GoalRef} {round maxRounds : Nat}
    {objective : String} (hstate : state.Valid)
    (h : driveNext state = .ok (some (.queue reference round objective maxRounds)))
    (position : Nat) :
    RoundStamp.Next { goalId := reference.id, revision := reference.revision, round, position }
      state := by
  unfold driveNext at h
  split at h
  · cases h
  · split at h
    · cases h
    · split at h
      · cases h
      · rename_i current hcurrent
        split at h
        · cases h
        · rename_i hlive
          simp only [not_or, not_not, not_eq_true] at hlive
          split at h
          · cases h
          · rename_i times htimes
            split at h
            · cases h
            · rename_i hrounds
              cases h
              have hkey := (hstate.keyed _ current hcurrent).1
              rw [← hkey] at hcurrent
              exact ⟨current, times,
                activeGoal_eq_some.mpr ⟨hcurrent, hlive.2.1, hlive.2.2⟩, rfl, htimes, rfl,
                by simp only; omega⟩

/-! ## Provenance of rounds -/

def IsStamped (stamps : List RoundStamp) (m : Message) : Prop :=
  ∃ stamp ∈ stamps, m.source = stamp.source

def Stamped (stamps : List RoundStamp) (m : Message) : Prop :=
  ordinaryMessage m = true ∨ IsStamped stamps m

theorem IsStamped.mono (h : IsStamped stamps m) : IsStamped (stamps ++ more) m := by
  obtain ⟨stamp, hmem, hsource⟩ := h
  exact ⟨stamp, mem_append_left _ hmem, hsource⟩

theorem IsStamped.faithful (h : IsStamped stamps m) : m.Faithful := by
  obtain ⟨_, _, hsource⟩ := h
  intro provider model hmodel
  rw [hsource] at hmodel
  cases hmodel

theorem ordinaryMessage_faithful (h : ordinaryMessage m = true) : m.Faithful := by
  intro provider model hmodel
  rw [ordinaryMessage, hmodel] at h
  cases h

theorem Stamped.faithful (h : Stamped stamps m) : m.Faithful := by
  rcases h with h | h
  · exact ordinaryMessage_faithful h
  · exact h.faithful

theorem Stamped.mono (h : Stamped stamps m) : Stamped (stamps ++ more) m := by
  rcases h with h | h
  · exact .inl h
  · exact .inr h.mono

/-- What holds of the log: it folds, its stamps are sound, and the rounds
of its durable inbox were stamped. -/
structure LogSound (S : Serde) (log : List SessionEvent) (stamps : List RoundStamp) : Prop where
  folds : ∃ folded, foldGoals S log = .ok folded
  sound : ∀ stamp ∈ stamps, stamp.Sound S log
  durable : ∀ inbox, replayInbox S log = .ok inbox → ∀ m ∈ inbox.pending, Stamped stamps m

/-- One event more of the log. -/
theorem LogSound.append (h : LogSound S log stamps)
    (hfolds : ∃ folded, foldGoals S (log ++ [e]) = .ok folded)
    (hcarried : ∀ m ∈ inboxMessages S e, Stamped stamps m) : LogSound S (log ++ [e]) stamps where
  folds := hfolds
  sound stamp hstamp := (h.sound stamp hstamp).append [e]
  durable inbox hinbox m hm := by
    rw [replayInbox, foldlM_append_one] at hinbox
    obtain ⟨before, hbefore, happly⟩ := bind_eq_ok.mp hinbox
    rcases InboxReplay.apply_mem happly hm with hm | hm
    · exact h.durable before hbefore m hm
    · exact hcarried m hm

theorem foldGoals_snoc {folded' : GoalState} (hfold : foldGoals S log = .ok folded)
    (hnext : applyGoalEvent S folded e = .ok folded') : foldGoals S (log ++ [e]) = .ok folded' :=
  foldGoals_append.mpr ⟨folded, hfold, by simp [hnext]⟩

/-- One queued round more. -/
theorem LogSound.stamp {log : List SessionEvent} {stamps : List RoundStamp} {stamp : RoundStamp}
    (h : LogSound S log stamps) (hstamp : stamp.Sound S log) :
    LogSound S log (stamps ++ [stamp]) where
  folds := h.folds
  sound other hother := by
    rcases mem_append.mp hother with hmem | hmem
    · exact h.sound other hmem
    · rw [mem_singleton.mp hmem]
      exact hstamp
  durable inbox hinbox m hm := (h.durable inbox hinbox m hm).mono

theorem applyGoalEvent_quiet (htype : e.eventType ≠ "goal/change")
    (huser : e.eventType ≠ "user/message") (state : GoalState) :
    applyGoalEvent S state e = .ok state := by
  rw [applyGoalEvent_other htype, applyGoalRound, if_pos huser]

theorem admitted_userMessage (h : live.Admission S e (.ok (), live'))
    (huser : e.eventType = "user/message") :
    ∃ m, S.messageFromValue e.data = some m ∧ m.role = .user := by
  cases h with
  | admitted expected projection _ hcheck =>
    obtain ⟨_, _, hdecode, _⟩ := checkAppend_eq_ok.mp hcheck
    have hrole : expectedRole e.eventType = some .user := by rw [huser]; rfl
    unfold decodeSurfaceEvent at hdecode
    rw [hrole] at hdecode
    dsimp only at hdecode
    simp only [bind_eq_ok, exists_unit, failIf_eq_ok, not_not] at hdecode
    obtain ⟨_, hdata, m, hm, hmrole, _⟩ := hdecode
    rw [surfaceData, if_pos huser] at hdata
    cases hdata
    exact ⟨m, decodeMessage_eq_ok hm, hmrole⟩

theorem foreignEvent_accepted (hforeign : foreignEvent S e = true)
    (h : live.Admission S e (.ok (), live')) (state : GoalState) :
    applyGoalEvent S state e = .ok state := by
  simp only [foreignEvent, and_eq_true, bne_iff_ne, ne_eq, or_eq_true] at hforeign
  obtain ⟨⟨htype, huser⟩, _⟩ := hforeign
  by_cases he : e.eventType = "user/message"
  · obtain ⟨m, hm, _⟩ := admitted_userMessage h he
    rcases huser with huser | huser
    · exact absurd he huser
    · rw [hm] at huser
      rw [applyGoalEvent_other htype, applyGoalRound, if_neg (not_not.mpr he), hm]
      cases hsource : m.source with
      | goal => simp [startsNoRound, hsource] at huser
      | _ =>
        dsimp only
        rw [hsource]
  · exact applyGoalEvent_quiet htype he state

theorem foreignEvent_carries (hforeign : foreignEvent S e = true) (stamps : List RoundStamp) :
    ∀ m ∈ inboxMessages S e, Stamped stamps m := by
  intro m hm
  simp only [foreignEvent, and_eq_true, all_eq_true] at hforeign
  exact .inl (hforeign.2 m hm)

theorem inboxMessages_of_type (h : isInboxEvent e = false) : inboxMessages S e = [] := by
  rw [inboxMessages, if_neg (by simp [h])]

/-! ## The invariant -/

def Drive.messages (drive : Drive) : List Message :=
  match drive.stage with
  | .stamped message _ _ => [message]
  | .numbered message _ _ _ => [message]
  | .appended message _ _ => [message]
  | _ => []

/-- Every round on its way to the log was stamped. -/
structure RoundSystem.QueuesStamped (sys : RoundSystem σ) : Prop where
  drives : ∀ drive ∈ sys.drives, ∀ m ∈ drive.messages, IsStamped sys.stamps m
  inbox : ∀ m ∈ sys.inbox.followups, Stamped sys.stamps m
  claim : ∀ claim ∈ sys.claim, ∀ m ∈ claim.reservation.messages, Stamped sys.stamps m
  turn : ∀ m ∈ sys.turn, Stamped sys.stamps m

/-- The invariant of the system. -/
structure RoundSystem.Inv (S : Serde) (sys : RoundSystem σ) : Prop where
  goals : sys.goals.Sound S
  log : LogSound S sys.log sys.stamps
  queues : sys.QueuesStamped

/-! ### The inbox keeps followups -/

theorem send_followups {target : InboxTarget} {wakeup : Bool}
    (h : inbox.send message target wakeup = .ok inbox') (hm : m ∈ inbox'.followups) :
    m ∈ inbox.followups ∨ m = message := by
  unfold send at h
  simp only [bind_eq_ok, exists_unit] at h
  obtain ⟨_, _, h⟩ := h
  cases h
  cases target <;> simp only [touch, push] at hm
  · rcases mem_append.mp hm with hm | hm
    · exact .inl hm
    · exact .inr (mem_singleton.mp hm)
  · exact .inl hm
  · exact .inl hm

theorem dropId_subset {q : List Message} {id : MessageId} (h : m ∈ dropId q id) :
    m ∈ q := by
  unfold dropId at h
  split at h
  · exact mem_of_mem_eraseIdx h
  · exact h

theorem takeEntry_followups {entry : InboxTarget × MessageId}
    (h : m ∈ (inbox.takeEntry entry).followups) : m ∈ inbox.followups := by
  obtain ⟨target, _⟩ := entry
  cases target
  · exact dropId_subset h
  · exact h
  · exact h

theorem takeEntries_followups : ∀ {entries : List (InboxTarget × MessageId)}
    {inbox : InboxState}, m ∈ (entries.foldl takeEntry inbox).followups →
      m ∈ inbox.followups := by
  intro entries
  induction entries with
  | nil => intro inbox h; exact h
  | cons entry rest ih => intro inbox h; exact takeEntry_followups (ih h)

theorem commitClaim_followups {claim : ClaimReservation}
    (h : inbox.commitClaim claim = some inbox') (hm : m ∈ inbox'.followups) :
    m ∈ inbox.followups := by
  unfold commitClaim at h
  split at h
  · cases h
    simp only [touch] at hm
    split at hm <;> exact takeEntries_followups hm
  · cases h

theorem sendAll_followups : ∀ {messages : List Message} {inbox sent : InboxState},
    messages.foldlM (fun (inbox : InboxState) message => inbox.send message .followup false)
      inbox = .ok sent → m ∈ sent.followups → m ∈ inbox.followups ∨ m ∈ messages := by
  intro messages
  induction messages with
  | nil =>
    intro inbox sent h hm
    cases h
    exact .inl hm
  | cons message rest ih =>
    intro inbox sent h hm
    rw [foldlM_cons] at h
    obtain ⟨_, hmid, hrest⟩ := bind_eq_ok.mp h
    rcases ih hrest hm with hm | hm
    · rcases send_followups hmid hm with hm | rfl
      · exact .inl hm
      · exact .inr mem_cons_self
    · exact .inr (mem_cons_of_mem message hm)

theorem restoredInbox_followups (hm : m ∈ (restoredInbox S log).followups) :
    ∃ durable, replayInbox S log = .ok durable ∧ m ∈ durable.pending := by
  unfold restoredInbox at hm
  split at hm
  · cases hm
  · rename_i durable hdurable
    refine ⟨durable, hdurable, mem_append_left _ ?_⟩
    -- every sent message is one of the durable followups
    cases hsent : durable.followups.foldlM
        (fun (inbox : InboxState) message => inbox.send message .followup false)
        empty with
    | error err => rw [hsent] at hm; cases hm
    | ok sent =>
      rw [hsent] at hm
      rcases sendAll_followups hsent hm with hm | hm
      · cases hm
      · exact hm

/-! ### Appends -/

/-- An event of the session that no view wrote. -/
theorem GoalSystem.Sound.session (h : goals.Sound S) {session : Live σ}
    (hadmitted : goals.session.Admission S e (result, session)) :
    GoalSystem.Sound S { goals with session } := by
  refine ⟨hadmitted.numbered h.1, fun view hview => ?_⟩
  show view.Sound S session.state.events
  rcases hadmitted.events with hsame | ⟨_, _, hgrown⟩
  · simp only at hsame
    rw [hsame]
    exact h.2 view hview
  · simp only at hgrown
    rw [hgrown]
    exact (h.2 view hview).append _

/-- An event that is refused or admitted. -/
theorem LogSound.admission {session session' : Live σ} (h : LogSound S session.state.events stamps)
    (hadmitted : session.Admission S e (result, session'))
    (haccept : session.Admission S e (.ok (), session') →
      ∀ folded, foldGoals S session.state.events = .ok folded →
        ∃ folded', applyGoalEvent S folded e = .ok folded')
    (hcarried : ∀ m ∈ inboxMessages S e, Stamped stamps m) :
    LogSound S session'.state.events stamps := by
  rcases hadmitted.events with hsame | ⟨hok, _, hgrown⟩
  · rw [hsame]
    exact h
  · simp only at hok hgrown
    subst hok
    obtain ⟨folded, hfold⟩ := h.folds
    obtain ⟨folded', hnext⟩ := haccept hadmitted folded hfold
    rw [hgrown]
    exact h.append ⟨folded', foldGoals_snoc hfold hnext⟩ hcarried

/-- The event of a goal change. -/
theorem LogSound.change (hgoals : goals.Sound S) (h : LogSound S goals.log stamps) {v : Nat}
    {job : GoalJob} {planned : GoalMap GoalSnapshot} (hview : goals.views[v]? = some view)
    (hjob : view.job = some job) (hplan : job.write.plan view.state = .ok planned)
    (hend : view.state.observedEvents = goals.log.length) (clock time : Nat) :
    LogSound S (goals.log ++ [job.write.event view.state clock time]) stamps := by
  obtain ⟨htracks, hjobs⟩ := hgoals.2 view (mem_of_getElem? hview)
  have hcommit := job.write.commit_tracks htracks hend (hjobs job hjob).prepared hplan clock time
  obtain ⟨folded, hfold, _⟩ := hcommit.at_end (by simp [GoalWrite.commit, hend])
  refine h.append ⟨folded, hfold⟩ fun m hm => ?_
  rw [inboxMessages_of_type rfl] at hm
  cases hm

/-! ### Steps of the goal system -/

theorem RoundSystem.QueuesStamped.of_eq {a b : RoundSystem σ} (h : a.QueuesStamped)
    (hdrives : b.drives = a.drives) (hinbox : b.inbox = a.inbox) (hclaim : b.claim = a.claim)
    (hturn : b.turn = a.turn) (hstamps : b.stamps = a.stamps) : b.QueuesStamped := by
  obtain ⟨h₁, h₂, h₃, h₄⟩ := h
  constructor
  · rw [hdrives, hstamps]; exact h₁
  · rw [hinbox, hstamps]; exact h₂
  · rw [hclaim, hstamps]; exact h₃
  · rw [hturn, hstamps]; exact h₄

/-- A step of the goals. -/
theorem RoundSystem.Inv.goalStep (h : sys.Inv S) {i : GoalStep} (hi : ∀ call, i ≠ .ordinary call) :
    Inv S { sys with goals := sys.goals.step S P i } where
  goals := GoalSystem.step_sound h.goals i
  log := by
    have hgrows := GoalSystem.step_grows (P := P) h.goals i
    simp only [RoundSystem.log]
    generalize (sys.goals.step S P i).log = log' at hgrows
    cases hgrows with
    | same => exact h.log
    | ordinary call => exact absurd rfl (hi call)
    | change v clock time token view job planned hview hjob _ hplan hend =>
      exact h.log.change h.goals hview hjob hplan hend clock time
  queues := h.queues.of_eq rfl rfl rfl rfl rfl

theorem RoundSystem.Inv.ordinary (h : sys.Inv S) {call : Call}
    (hforeign : foreignEvent S (call.event sys.goals.session) = true) :
    Inv S { sys with goals := sys.goals.step S P (.ordinary call) } where
  goals := GoalSystem.step_sound h.goals _
  log := by
    have htype : (call.event sys.goals.session).eventType ≠ "goal/change" := by
      simp only [foreignEvent, and_eq_true, bne_iff_ne] at hforeign
      exact hforeign.1.1
    have hadmitted := sys.goals.session.call_admission (S := S) (P := P) call
    simp only [RoundSystem.log, GoalSystem.step, if_neg htype]
    refine h.log.admission hadmitted (fun hok folded _ => ?_)
      (foreignEvent_carries hforeign sys.stamps)
    exact ⟨folded, foreignEvent_accepted hforeign hok folded⟩
  queues := h.queues.of_eq rfl rfl rfl rfl rfl

/-! ### Steps of the driver -/

theorem RoundSystem.Inv.setView (h : sys.Inv S) (hview : view.Sound S sys.log) (v : Nat) :
    (sys.setView v view).Inv S where
  goals := h.goals.set hview v
  log := h.log
  queues := h.queues.of_eq rfl rfl rfl rfl rfl

theorem RoundSystem.Inv.endDrive (h : sys.Inv S) (d : Nat) :
    (sys.endDrive d).Inv S where
  goals := h.goals
  log := h.log
  queues :=
    ⟨fun drive hdrive => h.queues.drives drive (mem_of_mem_eraseIdx hdrive),
      h.queues.inbox, h.queues.claim, h.queues.turn⟩

theorem RoundSystem.Inv.setDrive (h : sys.Inv S)
    (hdrive : ∀ m ∈ drive.messages, IsStamped sys.stamps m) (d : Nat) :
    (sys.setDrive d drive).Inv S where
  goals := h.goals
  log := h.log
  queues := by
    refine ⟨fun other hother => ?_, h.queues.inbox, h.queues.claim, h.queues.turn⟩
    rcases mem_or_eq_of_mem_set hother with hmem | rfl
    · exact h.queues.drives other hmem
    · exact hdrive

theorem RoundSystem.Inv.stamp {sys : RoundSystem σ} (h : sys.Inv S) {stamp : RoundStamp}
    (hstamp : stamp.Sound S sys.log) :
    Inv S { sys with stamps := sys.stamps ++ [stamp] } where
  goals := h.goals
  log := h.log.stamp hstamp
  queues :=
    ⟨fun drive hdrive m hm => (h.queues.drives drive hdrive m hm).mono,
      fun m hm => (h.queues.inbox m hm).mono,
      fun claim hclaim m hm => (h.queues.claim claim hclaim m hm).mono,
      fun m hm => (h.queues.turn m hm).mono⟩

theorem RoundSystem.Inv.session (h : sys.Inv S) {session : Live σ}
    (hadmitted : sys.goals.session.Admission S e (result, session))
    (haccept : sys.goals.session.Admission S e (.ok (), session) →
      ∀ folded, foldGoals S sys.log = .ok folded →
        ∃ folded', applyGoalEvent S folded e = .ok folded')
    (hcarried : ∀ m ∈ inboxMessages S e, Stamped sys.stamps m) :
    Inv S { sys with goals := { sys.goals with session } } where
  goals := h.goals.session hadmitted
  log := h.log.admission hadmitted haccept hcarried
  queues := h.queues.of_eq rfl rfl rfl rfl rfl

theorem setQueued_same (state : GoalState) (queuedRound : Option Nat) :
    SameLedger state (state.setQueued queuedRound) := rfl

theorem clearQueuedRound_same (state : GoalState) (reference : GoalRef) (round : Nat) :
    SameLedger state (clearQueuedRound state reference round)
      ∧ (clearQueuedRound state reference round).observedEvents = state.observedEvents := by
  unfold clearQueuedRound
  split
  · split <;> exact ⟨rfl, rfl⟩
  · exact ⟨rfl, rfl⟩

/-- A drive decides on its round. -/
theorem RoundSystem.Inv.decide {sys : RoundSystem σ} (h : sys.Inv S) {d : Nat} {drive : Drive}
    {view : GoalView} (hview : view.Sound S sys.log) (id : MessageId) :
    (sys.decide S d drive view id).Inv S := by
  unfold RoundSystem.decide
  split
  · exact h.endDrive d
  · rename_i state hsync
    obtain ⟨htracks, hend⟩ := syncLocked_tracks hview.1 hsync
    have hidle := GoalView.sound_idle htracks
    split
    · exact (h.setView hidle _).endDrive d
    · exact (h.setView hidle _).endDrive d
    · exact (h.setView hidle _).setDrive (fun m hm => by cases hm) d
    · rename_i reference round objective maxRounds hnext
      -- the stamp is true of the ledger the decision was made on
      obtain ⟨folded, hfold, hsame⟩ := htracks.at_end hend
      have hvalid : state.Valid := (foldGoals_valid hfold).of_same hsame
      have hstamp : RoundStamp.Sound S sys.log
          { goalId := reference.id, revision := reference.revision, round
            position := sys.log.length } := by
        refine ⟨le_refl _, folded, by rw [take_length]; exact hfold, ?_⟩
        refine (driveNext_next hvalid hnext sys.log.length).of_same ⟨?_, ?_⟩
        · rw [hsame.goals]
        · rw [hsame.times]
      have hqueued : (GoalView.idle (state.setQueued (some round))).Sound S sys.log :=
        GoalView.sound_idle (htracks.of_same (setQueued_same state _) rfl)
      refine ((h.setView hqueued drive.view).stamp hstamp).setDrive (fun m hm => ?_) d
      rw [mem_singleton.mp hm]
      exact ⟨_, mem_append_right _ (mem_singleton.mpr rfl), rfl⟩

theorem inboxMessages_enqueued (hS : S.RoundTrips) (hm : m.Faithful) (target : InboxTarget)
    (time seq : Nat) : inboxMessages S (inboxEnqueued S target m time seq) = [m] := by
  have hget : S.messageFromValue (S.messageToValue m) = some m := hS m hm
  simp [inboxMessages, isInboxEvent, inboxEnqueued, inboxEnqueuedEvent, SessionEvent.plain,
    Value.get, List.lookup, hget]

theorem RoundSystem.Inv.enqueue (hS : S.RoundTrips) (h : sys.Inv S)
    (hmessage : IsStamped sys.stamps message) (reference : GoalRef) (round seq time : Nat)
    (token : Cancellation) :
    (sys.enqueue S P d drive message reference round seq time token).Inv S := by
  have hadmitted := sys.goals.session.append_admission (S := S) (P := P)
    (inboxEnqueued S .followup message (now time) seq) token
  have hmoved : ∀ result session,
      sys.goals.session.Admission S (inboxEnqueued S .followup message (now time) seq)
        (result, session) → Inv S { sys with goals := { sys.goals with session } } := by
    intro result session hadmitted
    refine h.session hadmitted (fun _ folded _ => ⟨folded, ?_⟩) fun m hm => ?_
    · exact applyGoalEvent_quiet (by simp [inboxEnqueued, SessionEvent.plain])
        (by simp [inboxEnqueued, SessionEvent.plain]) folded
    · rw [inboxMessages_enqueued hS hmessage.faithful] at hm
      rw [mem_singleton.mp hm]
      exact .inr hmessage
  unfold RoundSystem.enqueue
  split
  · rename_i session happend
    rw [happend] at hadmitted
    refine (hmoved _ session hadmitted).setDrive (fun m hm => ?_) d
    rw [mem_singleton.mp hm]
    exact hmessage
  · rename_i session happend
    rw [happend] at hadmitted
    exact (hmoved _ session hadmitted).setDrive (fun m hm => by cases hm) d

theorem RoundSystem.Inv.deliver (h : sys.Inv S) (hmessage : IsStamped sys.stamps message)
    (reference : GoalRef) (round : Nat) (accepts : Bool) :
    (sys.deliver d drive message reference round accepts).Inv S := by
  unfold RoundSystem.deliver
  split
  · rename_i inbox hsend
    have hended := h.endDrive d
    refine ⟨hended.goals, hended.log, hended.queues.drives, fun m hm => ?_, h.queues.claim,
      h.queues.turn⟩
    rcases send_followups hsend hm with hm | rfl
    · exact h.queues.inbox m hm
    · exact .inr hmessage
  · exact h.setDrive (fun m hm => by cases hm) d

/-- A drive goes on. -/
theorem RoundSystem.Inv.stepDrive (hS : S.RoundTrips) (h : sys.Inv S) (d : Nat) (i : RoundStep) :
    (sys.stepDrive S P d i).Inv S := by
  unfold RoundSystem.stepDrive
  split
  · exact h
  · rename_i drive hdrive
    have hmem : drive ∈ sys.drives := mem_of_getElem? hdrive
    have hstamped := h.queues.drives drive hmem
    split
    · exact h.endDrive d
    · rename_i view hview
      have hsound : view.Sound S sys.log := h.goals.2 view (mem_of_getElem? hview)
      split
      · exact h.decide hsound _
      · rename_i hstage
        split
        · exact h.endDrive d
        · refine h.setDrive (fun m hm => hstamped m ?_) d
          rw [Drive.messages, hstage]
          exact hm
      · rename_i message reference round seq hstage
        exact h.enqueue hS (hstamped message (by simp [Drive.messages, hstage])) _ _ _ _ _
      · rename_i message reference round hstage
        exact h.deliver (hstamped message (by simp [Drive.messages, hstage])) _ _ _
      · rename_i reference round cause _ _
        obtain ⟨hsame, hobserved⟩ := clearQueuedRound_same view.state reference round
        have hcleared := GoalView.sound_idle (hsound.1.of_same hsame hobserved)
        exact (h.setView hcleared _).setDrive (fun m hm => by cases hm) d
      · exact (h.setView (hsound.moved (GoalView.begin_moved hsound.1 _ _ _)) _).endDrive d
      · exact h

/-! ### Steps of the agent -/

theorem RoundSystem.Inv.claim (h : sys.Inv S) {reservation : ClaimReservation}
    (hreserve : sys.inbox.reserveNextTurnClaim = some (reservation, inbox)) :
    Inv S { sys with inbox, claim := some { reservation, recorded := false } } := by
  unfold reserveNextTurnClaim at hreserve
  split at hreserve
  · cases hreserve
  · rename_i message rest hqueue
    split at hreserve
    · cases hreserve
    · cases hreserve
      have hfront : Stamped sys.stamps message :=
        h.queues.inbox message (by rw [hqueue]; exact mem_cons_self)
      refine ⟨h.goals, h.log, h.queues.drives, h.queues.inbox, ?_, h.queues.turn⟩
      intro claim hclaim m hm
      cases hclaim
      rw [mem_singleton.mp hm]
      exact hfront

theorem RoundSystem.Inv.abort (h : sys.Inv S) (entries : List (InboxTarget × MessageId)) :
    Inv S
      { sys with claim := none, running := false, inbox := sys.inbox.abortClaim entries } :=
  ⟨h.goals, h.log, h.queues.drives, h.queues.inbox, nofun,
    h.queues.turn⟩

theorem inboxMessages_claimSpliced (claim : ClaimReservation) (time seq : Nat) :
    inboxMessages S (claimSplicedEvent claim time seq) = [] := by
  simp [inboxMessages, isInboxEvent, claimSplicedEvent, inboxSplicedEvent, SessionEvent.plain,
    Value.get, List.lookup]

/-- The agent records a claim. -/
theorem RoundSystem.Inv.splice (h : sys.Inv S) {claim : ClaimReservation}
    (hclaim : ∀ m ∈ claim.messages, Stamped sys.stamps m) (time : Nat) (token : Cancellation) :
    (sys.splice S P claim time token).Inv S := by
  have hrecorded : ∀ {sys' : RoundSystem σ}, sys'.Inv S → sys'.stamps = sys.stamps →
      Inv S
        { sys' with claim := some { reservation := claim, recorded := true } } := by
    intro sys' h' hstamps
    refine ⟨h'.goals, h'.log, h'.queues.drives, h'.queues.inbox, ?_, h'.queues.turn⟩
    intro progress hprogress m hm
    cases hprogress
    simp only [hstamps]
    exact hclaim m hm
  have hmoved : ∀ {result session},
      sys.goals.session.appendNext S P (claimSplicedEvent claim time) token = (result, session) →
        Inv S { sys with goals := { sys.goals with session } } := by
    intro result session happend
    have hadmitted := sys.goals.session.appendNextIfSurface_admission (S := S) (P := P)
      (claimSplicedEvent claim time) none token
    rw [Live.appendNext] at happend
    rw [happend] at hadmitted
    refine h.session hadmitted (fun _ folded _ => ⟨folded, ?_⟩) fun m hm => ?_
    · exact applyGoalEvent_quiet (by simp [claimSplicedEvent, SessionEvent.plain])
        (by simp [claimSplicedEvent, SessionEvent.plain]) folded
    · rw [inboxMessages_claimSpliced] at hm
      cases hm
  unfold RoundSystem.splice
  split
  · split
    · rename_i happend
      exact hrecorded (hmoved happend) rfl
    · rename_i happend
      exact (hmoved happend).abort claim.entries
  · exact hrecorded h rfl

/-- A recorded message is no round, or a fresh one: the ledger accepts
it. -/
theorem userMessage_accepted (hS : S.RoundTrips) (h : sys.Inv S)
    (hmessage : Stamped sys.stamps message)
    (hfresh : ∀ stamp ∈ sys.stamps, message.source = stamp.source → stamp.Fresh S sys.log)
    {time seq : Nat} {session : Live σ}
    (hadmitted : sys.goals.session.Admission S (userMessageEvent S message time seq)
      (.ok (), session)) (hfold : foldGoals S sys.log = .ok folded) :
    ∃ folded', applyGoalEvent S folded (userMessageEvent S message time seq) = .ok folded' := by
  have htype : (userMessageEvent S message time seq).eventType = "user/message" := rfl
  have hdata : S.messageFromValue (userMessageEvent S message time seq).data = some message :=
    hS message hmessage.faithful
  obtain ⟨decoded, hdecoded, hrole⟩ := admitted_userMessage hadmitted htype
  obtain rfl : message = decoded := some.inj (hdata.symm.trans hdecoded)
  rw [applyGoalEvent_other (by rw [htype]; decide), applyGoalRound,
    if_neg (not_not.mpr htype), hdata]
  dsimp only
  rcases hmessage with hordinary | ⟨stamp, hstamp, hsource⟩
  · cases hsource : message.source with
    | goal => simp [ordinaryMessage, hsource] at hordinary
    | _ => exact ⟨folded, rfl⟩
  · have hnext := (h.log.sound stamp hstamp).next (hfresh stamp hstamp hsource) hfold
    rw [hsource]
    simp only [RoundStamp.source]
    rw [failIf_eq_ok.mpr (not_not.mpr hrole), ok_bind]
    exact hnext.accepted (foldGoals_valid hfold) _

/-- The agent records a message of its turn. -/
theorem RoundSystem.Inv.record (hS : S.RoundTrips) (h : sys.Inv S)
    (hfresh : ∀ m ∈ sys.turn.head?, ∀ stamp ∈ sys.stamps, m.source = stamp.source →
      stamp.Fresh S sys.log) (time : Nat) (token : Cancellation) :
    (sys.record S P time token).Inv S := by
  unfold RoundSystem.record
  split
  · exact h
  · rename_i message rest hturn
    have hmessage : Stamped sys.stamps message :=
      h.queues.turn message (by rw [hturn]; exact mem_cons_self)
    have hmoved : ∀ {result session},
        sys.goals.session.appendNext S P (userMessageEvent S message time) token
          = (result, session) → Inv S { sys with goals := { sys.goals with session } } := by
      intro result session happend
      have hadmitted := sys.goals.session.appendNextIfSurface_admission (S := S) (P := P)
        (userMessageEvent S message time) none token
      rw [Live.appendNext] at happend
      rw [happend] at hadmitted
      refine h.session hadmitted (fun hok folded hfold => ?_) fun m hm => ?_
      · exact userMessage_accepted hS h hmessage (hfresh message (by rw [hturn]; rfl)) hok hfold
      · rw [inboxMessages_of_type (by rfl)] at hm
        cases hm
    split
    · rename_i happend
      have hnext := hmoved happend
      refine ⟨hnext.goals, hnext.log, hnext.queues.drives, hnext.queues.inbox,
        hnext.queues.claim, fun m hm => hnext.queues.turn m ?_⟩
      simp only [hturn]
      exact mem_cons_of_mem message hm
    · rename_i happend
      have hnext := hmoved happend
      exact ⟨hnext.goals, hnext.log, hnext.queues.drives, hnext.queues.inbox,
        hnext.queues.claim, fun m hm => (by cases hm)⟩

theorem RoundSystem.Inv.restart (h : sys.Inv S) :
    Inv S
      { sys with goals := { sys.goals with views := [] }, inbox := restoredInbox S sys.log
                 running := false, drives := [], claim := none, turn := [] } where
  goals := ⟨h.goals.1, fun view hview => by cases hview⟩
  log := h.log
  queues := by
    refine ⟨fun _ hd => (by cases hd), fun m hm => ?_, fun _ hc => (by cases hc),
      fun _ hm => (by cases hm)⟩
    obtain ⟨durable, hdurable, hpending⟩ := restoredInbox_followups hm
    exact h.log.durable durable hdurable m hpending

/-! ## Every run -/

/-- The condition on a step: a message that is appended to the
conversation and carries a round was stamped on a ledger to which nothing
about its goal was added since. Every other step is unconditional. -/
def RoundsFresh (S : Serde) (sys : RoundSystem σ) : RoundStep → Prop
  | .record _ _ => ∀ m ∈ sys.turn.head?, ∀ stamp ∈ sys.stamps, m.source = stamp.source →
      stamp.Fresh S sys.log
  | _ => True

/-- One step, where a queued round is recorded fresh. -/
theorem RoundSystem.step_inv (hS : S.RoundTrips) {i : RoundStep} (hcond : RoundsFresh S sys i)
    (h : sys.Inv S) : (sys.step S P i).Inv S := by
  cases i with
  | goal i =>
    cases i with
    | ordinary call =>
      simp only [step]
      split
      · exact h.ordinary (by assumption)
      · exact h
    | _ => exact h.goalStep (by simp)
  | submit message target wakeup =>
    simp only [step]
    split
    · rename_i inbox hordinary hsend
      refine ⟨h.goals, h.log, h.queues.drives, fun m hm => ?_, h.queues.claim, h.queues.turn⟩
      rcases send_followups hsend hm with hm | rfl
      · exact h.queues.inbox m hm
      · exact .inl hordinary
    · exact h
  | enterDrive v live =>
    simp only [step]
    split
    · refine ⟨h.goals, h.log, fun drive hdrive => ?_, h.queues.inbox, h.queues.claim,
        h.queues.turn⟩
      rcases mem_append.mp hdrive with hmem | hmem
      · exact h.queues.drives drive hmem
      · rw [mem_singleton.mp hmem]
        intro m hm
        cases hm
    · exact h
  | wake => exact ⟨h.goals, h.log, h.queues.of_eq rfl rfl rfl rfl rfl⟩
  | settle =>
    simp only [step]
    split
    · exact ⟨h.goals, h.log, h.queues.of_eq rfl rfl rfl rfl rfl⟩
    · exact h
  | claim =>
    simp only [step]
    split
    · split
      · exact h
      · rename_i hreserve
        exact h.claim hreserve
    · exact h
  | splice time token =>
    simp only [step]
    split
    · rename_i hclaim
      exact h.splice (h.queues.claim _ hclaim) time token
    · exact h
  | commitClaim =>
    simp only [step]
    split
    · rename_i reservation hclaim
      split
      · rename_i inbox hcommit
        refine ⟨h.goals, h.log, h.queues.drives,
          fun m hm => h.queues.inbox m (commitClaim_followups hcommit hm),
          fun c hc => (by cases hc), h.queues.claim _ hclaim⟩
      · exact h.abort reservation.entries
    · exact h
  | record time token => exact h.record hS hcond time token
  | dropTurn =>
    exact ⟨h.goals, h.log, h.queues.drives, h.queues.inbox, h.queues.claim,
      fun m hm => (by cases hm)⟩
  | restart => exact h.restart
  | decide d id | number d | enqueue d | deliver d accepts | clearQueued d
  | block d => exact h.stepDrive hS d _

def RoundSystem.start (session : Live σ) : RoundSystem σ :=
  { goals := { session, views := [] }, inbox := .empty, running := false, drives := []
    claim := none, turn := [], stamps := [] }

/-- Nothing is queued at the start. -/
theorem RoundSystem.start_inv {session : Live σ} (h : session.state.events = []) :
    (start session).Inv S where
  goals := by
    refine ⟨fun i e hi => ?_, fun view hview => by cases hview⟩
    simp [start, GoalSystem.log, h] at hi
  log := by
    have hlog : (start session).log = [] := h
    rw [hlog]
    refine ⟨⟨_, rfl⟩, fun _ h => (by cases h), fun inbox hinbox m hm => ?_⟩
    cases hinbox
    cases hm
  queues := ⟨fun _ hd => (by cases hd), fun _ hm => (by cases hm), fun _ hc => (by cases hc),
    fun _ hm => (by cases hm)⟩

/-- Goal automation keeps its log accepted. In every run from an empty
session that appends no round over a later event about its goal, the log
folds, a new view opens, and every view can synchronise. -/
theorem goal_log_accepted (S : Serde) (hS : S.RoundTrips) (P : Persistence σ) (session : Live σ)
    (hsession : session.state.events = []) (steps : List RoundStep)
    (hrun : Meets (RoundsFresh S) (RoundSystem.step S P) (.start session) steps) :
    let sys := steps.foldl (step S P) (.start session)
    (∃ folded, foldGoals S sys.log = .ok folded)
      ∧ (∃ state, openView S sys.log = .ok state)
      ∧ ∀ view ∈ sys.goals.views, ∃ state, syncLocked S view.state sys.log = .ok state := by
  intro sys
  have hinv : sys.Inv S :=
    foldl_invariant_of_meets (Inv S) (fun _ _ => step_inv hS) steps _ hrun
      (start_inv hsession)
  obtain ⟨folded, hfold⟩ := hinv.log.folds
  refine ⟨⟨folded, hfold⟩, ?_, fun view hview => ?_⟩
  · unfold openView
    rw [hfold, ok_bind]
    dsimp only
    split <;> exact ⟨_, rfl⟩
  · exact syncLocked_ok (hinv.goals.2 view hview).1 hfold

/-! ### One round, with and without an edit in between -/

instance (log : List SessionEvent) (stamp : RoundStamp) : Decidable (stamp.Fresh S log) :=
  inferInstanceAs (Decidable (∀ e ∈ log.drop stamp.position, _))

instance (sys : RoundSystem σ) : (i : RoundStep) → Decidable (RoundsFresh S sys i)
  | .record _ _ =>
    inferInstanceAs (Decidable (∀ m ∈ sys.turn.head?, ∀ stamp ∈ sys.stamps, _ → stamp.Fresh S _))
  | .goal _ | .submit _ _ _ | .enterDrive _ _ | .decide _ _ | .number _ | .enqueue _ _ _
  | .deliver _ _ | .clearQueued _ | .block _ _ _ | .wake | .settle | .claim | .splice _ _
  | .commitClaim | .dropTurn | .restart => .isTrue trivial

def goalCall (call : GoalCall) : List RoundStep := (wholeCall 0 call).map .goal

/-- A view opens, creates a goal, and `drive` queues its first round. -/
def queueRound : List RoundStep :=
  [.goal .openView] ++ goalCall (.create "a" "first" none)
    ++ [.enterDrive 0 true, .decide 0 ⟨"m"⟩, .number 0, .enqueue 0 2 .never, .deliver 0 true]

/-- The agent claims the front of its followups and appends it. -/
def consumeRound : List RoundStep :=
  [.wake, .claim, .splice 3 .never, .commitClaim, .record 3 .never, .settle]

/-- A queued round is consumed and then the goal is completed. -/
theorem goal_log_accepted_oneRound :
    let P := memoryPersistence wireSerde
    let session := memorySession (.plain ⟨"s"⟩ 0)
    let steps := queueRound ++ consumeRound
      ++ goalCall (.complete ⟨"goal-a", 1⟩)
    let sys := steps.foldl (step wireSerde P) (.start session)
    sys.log.map SessionEvent.eventType
        = ["goal/change", "agent/inbox/enqueued", "agent/inbox/spliced", "user/message",
          "goal/change"]
      ∧ ∃ folded, foldGoals wireSerde sys.log = .ok folded := by
  intro P session steps sys
  refine ⟨by decide +kernel, ?_⟩
  exact (goal_log_accepted wireSerde wireSerde_roundTrips P session rfl steps
    (by decide +kernel)).1

/-- The goal is edited while its round waits in the inbox: the round the
agent then appends names the old revision, and the log no longer
folds. -/
theorem goal_log_refused_afterEdit :
    ¬ ∀ steps : List RoundStep, ∃ folded,
      foldGoals wireSerde
        (steps.foldl (RoundSystem.step wireSerde (memoryPersistence wireSerde))
          (.start (memorySession (.plain ⟨"s"⟩ 0)))).log = .ok folded := by
  intro h
  obtain ⟨folded, hfold⟩ := h (queueRound
    ++ goalCall (.edit ⟨"goal-a", 1⟩ (some "second") none) ++ consumeRound)
  have hstale : (foldGoals wireSerde
      ((queueRound ++ goalCall (.edit ⟨"goal-a", 1⟩ (some "second") none)
          ++ consumeRound).foldl (step wireSerde (memoryPersistence wireSerde))
        (.start (memorySession (.plain ⟨"s"⟩ 0)))).log).toOption.isSome = false := by
    decide +kernel
  rw [hfold] at hstale
  cases hstale

end Tessivum.Goal
