/-
Tessivum.Projection.SnapshotTheorems — what a snapshot at a point of the log
shows, and what a restored checkpoint comes to.

§1 The fold of a part of the log (`foldOf`), with a refused event as its
failure. §2 `Framed`: a projection is the fold of the events before its next
one, and its frames are a record of the folds before that. A pass that skips no
event keeps it, and so do replays. §3 `Recovered`: all attached projections are
framed, and every checkpoint taken is a fold. The calls keep it, and from a
checkpoint so do `restore` and `restore_floor`. §4 The results, over whole
runs.
-/
import Tessivum.Library.Machine
import Tessivum.Library.Timeline
import Tessivum.Projection.PassTheorems
import Tessivum.Projection.Snapshots

namespace Tessivum.Projection

open Library Protocol Session List SnapshotRegistry ProjectionDefinition

/-! ## §1 Folds -/

def ProjectionDefinition.foldOf (d : ProjectionDefinition) (header : SessionHeader)
    (events : List SessionEvent) : Except ProjectionError Value := do
  let initial ← d.init header
  events.foldlM d.apply initial

section
variable {d : ProjectionDefinition} {header : SessionHeader} {log : List SessionEvent}

theorem foldOf_take_succ {n : Nat} {e : SessionEvent} (he : log[n]? = some e) :
    d.foldOf header (log.take (n + 1))
      = d.foldOf header (log.take n) >>= fun v => d.apply v e := by
  have htake : log.take (n + 1) = log.take n ++ [e] := by
    rw [take_add_one, he, toList_some]
  unfold foldOf
  rw [htake]
  cases d.init header with
  | error err => rfl
  | ok initial => exact foldlM_append_one d.apply initial (log.take n) e

theorem accepts_of_foldlM {events : List SessionEvent} : ∀ {v w : Value},
    events.foldlM d.apply v = .ok w → d.accepts v events = true := by
  induction events with
  | nil => exact fun _ => rfl
  | cons e rest ih =>
    intro v w h
    rw [foldlM_cons, bind_eq_ok] at h
    obtain ⟨_, hnext, h⟩ := h
    rw [accepts, hnext]
    exact ih h

theorem filter_seq_le (hlog : Numbered log) (seq : Nat) :
    (log.filter fun e => e.seq ≤ seq) = log.take (seq + 1) := by
  rw [← filter_seq_lt hlog]
  simp only [Nat.lt_succ_iff]

end

/-! ## §2 Framed projections -/

def StateFrame.next (f : StateFrame) : Nat := f.asOfSeq.elim 0 (· + 1)

/-- The frame shows the fold of the events before the position. -/
def ProjectionDefinition.shows (d : ProjectionDefinition) (header : SessionHeader)
    (log : List SessionEvent) (n : Nat) (f : StateFrame) : Prop :=
  d.foldOf header (log.take n) = .ok f.state

/-- A projection is the fold of the events before its next one, and its
frames are a record of the folds so far. -/
structure AttachedProjection.Framed (p : AttachedProjection) (header : SessionHeader)
    (log : List SessionEvent) : Prop where
  le : p.next ≤ log.length
  fold : p.definition.foldOf header (log.take p.next) = .ok p.state.state
  frames : Recorded StateFrame.next (p.definition.shows header log) p.state.frames p.next

section
variable {header : SessionHeader} {log : List SessionEvent} {e : SessionEvent}
  {p p' : AttachedProjection}

theorem framed_single {d : ProjectionDefinition} {version : Nat} {lastSeq : Option Nat}
    {state : Value} (hle : lastSeq.elim 0 (· + 1) ≤ log.length)
    (hfold : d.foldOf header (log.take (lastSeq.elim 0 (· + 1))) = .ok state) :
    AttachedProjection.Framed
      { definition := d
        state :=
          { stateVersion := version, state, lastSeq
            frames := [{ asOfSeq := lastSeq, state }], lastError := none } } header log := by
  have hframe : d.shows header log (StateFrame.next { asOfSeq := lastSeq, state })
      { asOfSeq := lastSeq, state } := hfold
  exact ⟨hle, hfold, .single hframe⟩

theorem AttachedProjection.Framed.append (h : p.Framed header log) (x : SessionEvent) :
    p.Framed header (log ++ [x]) := by
  have htake : ∀ n ≤ p.next, (log ++ [x]).take n = log.take n := fun n hn =>
    take_append_of_le_length (le_trans hn h.le)
  refine ⟨?_, ?_, h.frames.imp fun n hn f hf => ?_⟩
  · rw [length_append]
    exact Nat.le_add_right_of_le h.le
  · rw [htake _ (le_refl _)]
    exact h.fold
  · rw [shows, htake n hn]
    exact hf

theorem Passed.framed (hpassed : Passed e p p') (he : log[e.seq]? = some e)
    (hnext : e.seq ≤ p.next) (h : p.Framed header log) : p'.Framed header log := by
  cases hpassed with
  | kept => exact h
  | advanced next hlacks happly =>
    have hpos : p.next = e.seq :=
      le_antisymm (AttachedProjection.lacks_iff.mp hlacks) hnext
    obtain ⟨_, hfold, hframes⟩ := h
    rw [hpos] at hfold hframes
    have hsucc : p.definition.foldOf header (log.take (e.seq + 1)) = .ok next := by
      rw [foldOf_take_succ he, hfold, ok_bind, happly]
    refine ⟨?_, ?_, ?_⟩
    · rw [next_commit]
      exact (List.getElem?_eq_some_iff.mp he).1
    · rw [next_commit, commit_state]
      exact hsucc
    · rw [next_commit, ProjectionState.commit]
      split
      · -- No frame: the last one shows the state still.
        rename_i hsame
        refine hframes.stay fun f hf => ?_
        have hshown := hframes.last hf
        rw [shows, hfold] at hshown
        rw [shows, hsucc, ← hsame]
        exact hshown
      · exact hframes.change rfl hsucc

theorem replayLocked_framed (hlog : Numbered log) {ps : List AttachedProjection}
    (hps : ∀ p ∈ ps, p.Framed header log) :
    (∀ p ∈ (replayLocked ps log).2, p.Framed header log) ∧
      ((replayLocked ps log).1 = none →
        ∀ p ∈ (replayLocked ps log).2, p.next = log.length) := by
  obtain ⟨hkept, hend⟩ := replayLocked_keeps hlog (fun p => p.Framed header log)
    (fun _ _ _ hpassed he hnext h => hpassed.framed he hnext h) log ps 0 rfl
    fun p hp => ⟨hps p hp, Nat.zero_le _⟩
  exact ⟨hkept, fun hnone p hp => le_antisymm (hkept p hp).le (hend hnone p hp)⟩

theorem AttachedProjection.Framed.frameAsOf (h : p.Framed header log) (hlog : Numbered log)
    {seq : Nat} (happlied : ∀ e ∈ log, e.seq ≤ seq → p.lacks e = false) {f : StateFrame}
    (hf : SnapshotRegistry.frameAsOf p.state.frames (some seq) = some f) :
    p.definition.foldOf header (log.filter fun e => e.seq ≤ seq) = .ok f.state := by
  have hfind : frameAt StateFrame.next p.state.frames (seq + 1) = some f := by
    rw [← hf, frameAt, SnapshotRegistry.frameAsOf]
    congr 1
    funext g
    unfold StateFrame.next
    cases g.asOfSeq <;> simp
  rw [filter_seq_le hlog]
  by_cases hle : seq + 1 ≤ p.next
  · exact h.frames.found (seq + 1) hle f hfind
  · -- The projection has the whole log, and the last frame shows it.
    have hwhole : p.next = log.length := by
      refine le_antisymm h.le (Nat.le_of_not_lt fun hlt => ?_)
      have hget : log[p.next]? = some log[p.next] := getElem?_eq_getElem hlt
      have hseq := hlog p.next _ hget
      have hlacks := happlied log[p.next] (getElem_mem hlt) (by omega)
      rw [AttachedProjection.lacks_iff.mpr (le_of_eq hseq.symm)] at hlacks
      cases hlacks
    rw [frameAt_of_within h.frames.within (by omega)] at hfind
    have hshown := h.frames.found p.next (le_refl _) f hfind
    rw [shows, hwhole, take_length] at hshown
    rwa [take_of_length_le (by omega)]

end

/-! ## §3 The registry -/

namespace SnapshotRegistry

variable {d : ViewedDefinition} {key : String} {log : List SessionEvent}
  {ps : List AttachedProjection} {ds : List ViewedDefinition} {header : SessionHeader}
  {p q : AttachedProjection} {c : ProjectionCheckpoint} {state : Value}

theorem definition_eq_ok {s : SnapshotRegistry} :
    s.definition key = .ok d ↔ s.definitions.find? (·.key == key) = some d := by
  unfold definition
  split
  · rename_i hfound
    rw [hfound, ok.injEq, some.injEq]
  · rename_i hnone
    rw [hnone]
    exact ⟨nofun, nofun⟩

theorem key_of_definition {s : SnapshotRegistry} (h : s.definition key = .ok d) : d.key = key := by
  simpa using find?_some (definition_eq_ok.mp h)

/-- The definition of an attached projection is the one registered. -/
def Known (s : SnapshotRegistry) (d : ProjectionDefinition) : Prop :=
  ∃ v, s.definition d.key = .ok v ∧ v.toProjectionDefinition = d

/-- What holds in every run without skipped events. -/
structure Recovered (s : SnapshotRegistry) : Prop where
  numbered : Numbered s.log
  named : ∀ d ∈ s.definitions, s.definition d.key = .ok d
  framed : ∀ p ∈ s.projections, p.Framed s.header s.log
  known : ∀ p ∈ s.projections, s.Known p.definition
  idle : s.attached = false → s.projections = []
  taken : ∀ c ∈ s.taken, ∃ d, s.definition c.key = .ok d ∧ c.next ≤ s.log.length
    ∧ d.foldOf s.header (s.log.take c.next) = .ok c.state

theorem opened_recovered (header : SessionHeader) (hlog : Numbered log) :
    (opened header log).Recovered where
  numbered := hlog
  named _ h := nomatch h
  framed _ h := nomatch h
  known _ h := nomatch h
  idle _ := rfl
  taken _ h := nomatch h

variable {s : SnapshotRegistry}

theorem Recovered.withProjections (h : s.Recovered) (hattached : s.attached = true)
    (hps : ∀ p ∈ ps, p.Framed s.header s.log ∧ s.Known p.definition) :
    { s with projections := ps }.Recovered :=
  { h with
    framed := fun p hp => (hps p hp).1
    known := fun p hp => (hps p hp).2
    idle := fun hidle => absurd (hattached.symm.trans hidle) nofun }

theorem Recovered.passed (h : s.Recovered) (hattached : s.attached = true)
    {outcome : Option ProjectionError × List AttachedProjection}
    (hframed : ∀ p ∈ outcome.2, p.Framed s.header s.log)
    (hdefinitions : outcome.2.map (·.definition) = s.projections.map (·.definition)) :
    (s.passed outcome).2.Recovered := by
  have hstate : (s.passed outcome).2 = { s with projections := outcome.2 } := by
    obtain ⟨failure, _⟩ := outcome
    cases failure <;> rfl
  rw [hstate]
  refine h.withProjections hattached fun p hp => ⟨hframed p hp, ?_⟩
  have hmem : p.definition ∈ s.projections.map (·.definition) :=
    hdefinitions ▸ mem_map.mpr ⟨p, hp, rfl⟩
  obtain ⟨q, hq, hsame⟩ := mem_map.mp hmem
  exact hsame ▸ h.known q hq

theorem Recovered.replay (h : s.Recovered) (hattached : s.attached = true) :
    s.replay.2.Recovered :=
  h.passed hattached (replayLocked_framed h.numbered h.framed).1
    (replayLocked_definitions s.log s.projections)

/-! ### Registration, attachment and events -/

theorem find?_insertViewed (hnew : ∀ x ∈ ds, x.key ≠ d.key) (key : String) :
    (insertViewed d ds).find? (·.key == key)
      = if d.key = key then some d else ds.find? (·.key == key) := by
  induction ds with
  | nil => by_cases h : d.key = key <;> simp [insertViewed, h]
  | cons x rest ih =>
    have hx := hnew x mem_cons_self
    have hrest := ih fun y hy => hnew y (mem_cons_of_mem x hy)
    unfold insertViewed
    split
    · by_cases h : d.key = key <;> simp [h]
    · by_cases h : x.key = key
      · have hd : d.key ≠ key := fun hd => hx (h.trans hd.symm)
        rw [find?_cons_of_pos (by simpa using h), if_neg hd,
          find?_cons_of_pos (by simpa using h)]
      · rw [find?_cons_of_neg (by simpa using h), hrest,
          find?_cons_of_neg (by simpa using h)]

theorem mem_insertViewed {x : ViewedDefinition} (h : x ∈ insertViewed d ds) : x = d ∨ x ∈ ds := by
  induction ds with
  | nil => exact .inl (mem_singleton.mp h)
  | cons y rest ih =>
    unfold insertViewed at h
    split at h
    · exact mem_cons.mp h
    · rcases mem_cons.mp h with rfl | h
      · exact .inr mem_cons_self
      · exact (ih h).imp_right (mem_cons_of_mem y)

theorem Recovered.register (h : s.Recovered) (d : ViewedDefinition) :
    (s.register d).2.Recovered := by
  unfold SnapshotRegistry.register
  split
  · exact h
  · split
    · exact h
    · rename_i hany
      have hnew : ∀ x ∈ s.definitions, x.key ≠ d.key := fun x hx hkey =>
        hany (any_eq_true.mpr ⟨x, hx, by simpa using hkey⟩)
      -- What was found before is found still.
      have hkeep : ∀ key v, s.definition key = .ok v →
          definition { s with definitions := insertViewed d s.definitions } key = .ok v := by
        intro key v hv
        have hfound := definition_eq_ok.mp hv
        have hkey : v.key = key := key_of_definition hv
        refine definition_eq_ok.mpr ?_
        rw [find?_insertViewed hnew, if_neg, hfound]
        exact fun hd => hnew v (mem_of_find?_eq_some hfound) (hkey.trans hd.symm)
      refine { h with named := ?_, known := ?_, taken := ?_ }
      · intro x hx
        rcases mem_insertViewed hx with rfl | hx
        · refine definition_eq_ok.mpr ?_
          rw [find?_insertViewed hnew, if_pos rfl]
        · exact hkeep x.key x (h.named x hx)
      · exact fun p hp => (h.known p hp).imp fun v hv => ⟨hkeep _ v hv.1, hv.2⟩
      · exact fun c hc => (h.taken c hc).imp fun v hv => ⟨hkeep _ v hv.1, hv.2⟩

theorem framed_attach {d : ProjectionDefinition} (h : d.attach header = .ok p)
    (log : List SessionEvent) : p.definition = d ∧ p.next = 0 ∧ p.Framed header log := by
  simp only [ProjectionDefinition.attach, bind_eq_ok, ok.injEq] at h
  obtain ⟨_, hinit, rfl⟩ := h
  refine ⟨rfl, rfl, framed_single (Nat.zero_le _) ?_⟩
  rw [foldOf, hinit]
  rfl

theorem Recovered.attach (h : s.Recovered) : s.attach.2.Recovered := by
  unfold SnapshotRegistry.attach
  split
  · exact h
  split
  · exact h
  split
  · exact h
  · rename_i projections hprojections
    refine Recovered.replay (s := { s with projections, attached := true }) ?_ rfl
    refine { h with framed := ?_, known := ?_, idle := nofun }
    · intro p hp
      obtain ⟨d, _, hd⟩ := exists_of_mem_mapM hprojections p hp
      exact (framed_attach hd s.log).2.2
    · intro p hp
      obtain ⟨d, hmem, hd⟩ := exists_of_mem_mapM hprojections p hp
      rw [(framed_attach hd s.log).1]
      exact ⟨d, h.named d hmem, rfl⟩

theorem Recovered.apply (h : s.Recovered) {e : SessionEvent} (he : s.log[e.seq]? = some e)
    (hnext : ∀ p ∈ s.projections, e.seq ≤ p.next) : (s.apply e).2.Recovered := by
  unfold SnapshotRegistry.apply
  split
  · rename_i hattached
    refine h.passed hattached (fun p' hp' => ?_) (applyEventLocked_definitions e s.projections)
    obtain ⟨p, hp, hpassed⟩ := applyEventLocked_passed e s.projections p' hp'
    exact hpassed.framed he (hnext p hp) (h.framed p hp)
  · exact h

theorem Recovered.append (h : s.Recovered) (e : SessionEvent) : (s.append e).Recovered := by
  unfold SnapshotRegistry.append
  split
  · rename_i hn
    split
    · rename_i hseq
      have hlen : e.seq = s.log.length := hseq.trans (h.numbered.seq_of_nextSeq hn)
      refine { h with numbered := numbered_snoc.mpr ⟨h.numbered, hlen⟩, framed := ?_, taken := ?_ }
      · exact fun p hp => (h.framed p hp).append e
      · intro c hc
        obtain ⟨d, hd, hle, _⟩ := h.taken c hc
        refine ⟨d, hd, ?_, ?_⟩
        · rw [length_append]
          exact Nat.le_add_right_of_le hle
        · rwa [take_append_of_le_length hle]
    · exact h
  · exact h

/-! ### Checkpoints -/

theorem snapshotAsOf_eq (hattached : s.attached = true) (hp : s.projection key = some p)
    (asOf : Option Nat) :
    s.snapshotAsOf key asOf = (frameAsOf p.state.frames asOf).map (s.snapshotOf key p) := by
  unfold snapshotAsOf
  rw [if_pos hattached, hp]
  cases hframe : frameAsOf p.state.frames asOf <;> simp only [hframe] <;> rfl

theorem Recovered.attached_of_projection (h : s.Recovered) (hp : s.projection key = some p) :
    s.attached = true := by
  by_contra hidle
  have hempty := h.idle (not_eq_true _ ▸ hidle)
  rw [projection, hempty] at hp
  cases hp

theorem mem_of_projection (hp : s.projection key = some p) :
    p ∈ s.projections ∧ p.definition.key = key :=
  ⟨mem_of_find?_eq_some hp, by simpa using find?_some hp⟩

theorem Recovered.definition_of_projection (h : s.Recovered) (hp : s.projection key = some p) :
    ∃ d, s.definition key = .ok d ∧ d.toProjectionDefinition = p.definition := by
  obtain ⟨hmem, hkey⟩ := mem_of_projection hp
  exact hkey ▸ h.known p hmem

theorem Recovered.snapshotAsOf_ok (h : s.Recovered) {asOf : Option Nat}
    {snapshot : ProjectionSnapshot} (hsnapshot : s.snapshotAsOf key asOf = some (.ok snapshot)) :
    ∃ p d frame, s.projection key = some p ∧ s.definition key = .ok d
      ∧ d.toProjectionDefinition = p.definition ∧ frameAsOf p.state.frames asOf = some frame
      ∧ snapshot.key = key ∧ snapshot.asOfSeq = frame.asOfSeq ∧ snapshot.state = frame.state
      ∧ d.view frame.state = .ok snapshot.view := by
  have hattached : s.attached = true := by
    by_contra hidle
    rw [snapshotAsOf, if_neg hidle] at hsnapshot
    cases hsnapshot
  cases hp : s.projection key with
  | none =>
    rw [snapshotAsOf, if_pos hattached, hp] at hsnapshot
    cases hsnapshot
  | some p =>
    obtain ⟨d, hd, hsame⟩ := h.definition_of_projection hp
    rw [snapshotAsOf_eq hattached hp, map_eq_some_iff] at hsnapshot
    obtain ⟨frame, hframe, hsnapshot⟩ := hsnapshot
    rw [snapshotOf, hd, ok_bind] at hsnapshot
    split at hsnapshot
    · cases hsnapshot
    · rename_i hview
      cases hsnapshot
      exact ⟨p, d, frame, rfl, hd, hsame, hframe, rfl, rfl, rfl, hview⟩

theorem Recovered.checkpoint (h : s.Recovered) (hc : s.checkpoint key = some (.ok c)) :
    ∃ d, s.definition c.key = .ok d ∧ c.next ≤ s.log.length
      ∧ d.foldOf s.header (s.log.take c.next) = .ok c.state := by
  rw [SnapshotRegistry.checkpoint, map_eq_some_iff] at hc
  obtain ⟨_, hresult, hc⟩ := hc
  obtain ⟨snapshot, rfl, hc⟩ := bind_eq_ok.mp hc
  cases hc
  obtain ⟨p, d, frame, hp, hd, hsame, hframe, hkey, hseq, hstate, _⟩ :=
    h.snapshotAsOf_ok hresult
  have hframed := h.framed p (mem_of_projection hp).1
  have hmem : frame ∈ p.state.frames := mem_of_getLast? hframe
  have hnext : (snapshot.asOfSeq.elim 0 (· + 1)) = frame.next := by
    rw [hseq, StateFrame.next]
  refine ⟨d, by rw [hkey, hd], ?_, ?_⟩
  · rw [ProjectionCheckpoint.next, hnext]
    exact le_trans (hframed.frames.within frame hmem) hframed.le
  · rw [ProjectionCheckpoint.next, hnext, hstate, hsame]
    exact hframed.frames.standing frame hmem

theorem mem_insertProjection (h : q ∈ insertProjection p ps) : q = p ∨ q ∈ ps := by
  induction ps with
  | nil => exact .inl (mem_singleton.mp h)
  | cons x rest ih =>
    unfold insertProjection at h
    split at h
    · exact (mem_cons.mp h).imp_right (mem_cons_of_mem x)
    · split at h
      · exact mem_cons.mp h
      · rcases mem_cons.mp h with rfl | h
        · exact .inr mem_cons_self
        · exact (ih h).imp_right (mem_cons_of_mem x)

theorem mem_insertProjection_self (p : AttachedProjection) (ps : List AttachedProjection) :
    p ∈ insertProjection p ps := by
  induction ps with
  | nil => exact mem_cons_self
  | cons x rest ih =>
    unfold insertProjection
    split
    · exact mem_cons_self
    · split
      · exact mem_cons_self
      · exact mem_cons_of_mem x ih

theorem Recovered.putState (h : s.Recovered) (hd : s.definition key = .ok d)
    (hattached : s.attached = true) {lastSeq : Option Nat}
    (hle : lastSeq.elim 0 (· + 1) ≤ s.log.length)
    (hfold : d.foldOf s.header (s.log.take (lastSeq.elim 0 (· + 1))) = .ok state) :
    (s.putState d lastSeq state).Recovered := by
  refine h.withProjections hattached fun q hq => ?_
  rcases mem_insertProjection hq with rfl | hq
  · exact ⟨framed_single hle hfold, d, by rw [key_of_definition hd, hd], rfl⟩
  · exact ⟨h.framed q hq, h.known q hq⟩

/-- A checkpoint of another session or version, or one that `checkpoint`
gave. -/
def genuine (s : SnapshotRegistry) (c : ProjectionCheckpoint) : Bool :=
  match s.definition c.key with
  | .ok d => c.sessionId ≠ s.header.id || c.stateVersion ≠ d.stateVersion || c ∈ s.taken
  | .error _ => true

/-- A restore fails and changes nothing, or puts the checkpoint in and
replays. -/
theorem Recovered.restoreFloor_cases (h : s.Recovered) (hc : s.genuine c = true) (floor : Nat) :
    (∃ err, s.restoreFloor c floor = (.error err, s)) ∨
      ∃ d lastSeq state, s.definition c.key = .ok d ∧ s.attached = true
        ∧ lastSeq.elim 0 (· + 1) ≤ s.log.length
        ∧ d.foldOf s.header (s.log.take (lastSeq.elim 0 (· + 1))) = .ok state
        ∧ s.restoreFloor c floor = (s.putState d lastSeq state).replay := by
  unfold restoreFloor
  cases hd : s.definition c.key with
  | error err => exact .inl ⟨err, rfl⟩
  | ok d =>
    simp only
    by_cases hother : c.sessionId ≠ s.header.id ∨ c.stateVersion ≠ d.stateVersion
    · rw [if_pos hother]
      by_cases hfloor : floor ≠ 0
      · exact .inl ⟨_, by rw [if_pos hfloor]⟩
      · rw [if_neg hfloor]
        unfold resetProjection
        cases hinit : d.init s.header with
        | error err => exact .inl ⟨_, rfl⟩
        | ok initial =>
          cases hattached : s.attached with
          | false => exact .inl ⟨_, rfl⟩
          | true =>
            refine .inr ⟨d, none, initial, rfl, rfl, Nat.zero_le _, ?_, rfl⟩
            rw [foldOf, hinit]
            rfl
    · rw [if_neg hother]
      by_cases hfloor : c.next < floor
      · exact .inl ⟨_, by rw [if_pos hfloor]⟩
      · rw [if_neg hfloor]
        cases hattached : s.attached with
        | false => exact .inl ⟨_, rfl⟩
        | true =>
          -- The checkpoint is ours, so it was taken here.
          have htaken : c ∈ s.taken := by
            rw [genuine, hd] at hc
            simp only [not_or, not_not, ne_eq] at hother
            simpa [hother.1, hother.2] using hc
          obtain ⟨d', hd', hle, hfold⟩ := h.taken c htaken
          obtain rfl : d' = d := ok.inj (hd'.symm.trans hd)
          exact .inr ⟨d', c.asOfSeq, c.state, rfl, rfl, hle, hfold, rfl⟩

theorem Recovered.restoreFloor (h : s.Recovered) (hc : s.genuine c = true) (floor : Nat) :
    (s.restoreFloor c floor).2.Recovered := by
  rcases h.restoreFloor_cases hc floor with ⟨_, heq⟩ | ⟨d, _, _, hd, hattached, hle,
    hfold, heq⟩
  · rw [heq]
    exact h
  · rw [heq]
    exact (h.putState hd hattached hle hfold).replay hattached

/-! ### Runs -/

/-- The condition on a call: an event applied is the committed one, and no
projection still lacks an event before it; a checkpoint restored is
genuine. -/
def inOrder (s : SnapshotRegistry) : SnapshotStep → Bool
  | .apply e => s.log[e.seq]? = some e && s.projections.all fun p => e.seq ≤ p.next
  | .restore c => s.genuine c
  | .restoreFloor c _ => s.genuine c
  | _ => true

/-- One call in order. -/
theorem Recovered.step (h : s.Recovered) (i : SnapshotStep) (hi : s.inOrder i = true) :
    (s.step i).Recovered := by
  cases i with
  | register d => exact h.register d
  | append e => exact h.append e
  | attach => exact h.attach
  | apply e =>
    simp only [inOrder, and_eq_true, decide_eq_true_eq, all_eq_true] at hi
    exact h.apply hi.1 hi.2
  | checkpoint key =>
    simp only [SnapshotRegistry.step]
    split
    · rename_i hc
      refine { h with taken := fun c' hc' => ?_ }
      rcases mem_append.mp hc' with hc' | hc'
      · exact h.taken c' hc'
      · rw [mem_singleton.mp hc']
        exact h.checkpoint hc
    · exact h
  | restore c => exact h.restoreFloor hi c.next
  | restoreFloor c floor => exact h.restoreFloor hi floor
  | shutdown => exact { h with }
  | reopen => exact { h with framed := nofun, known := nofun, idle := fun _ => rfl }

theorem run_recovered (header : SessionHeader) (hlog : Numbered log) (steps : List SnapshotStep)
    (hsafe : Meets (fun s i => inOrder s i = true) step (opened header log) steps) :
    ((opened header log).run steps).Recovered :=
  foldl_invariant_of_meets Recovered (fun _ i hi h => h.step i hi) steps (opened header log)
    hsafe (opened_recovered header hlog)

/-! ## §4 Snapshots and restored checkpoints -/

/-- A snapshot at a sequence number is the view of the fold of the
committed events up to it, or an error; a panic is neither. -/
def PointInTime (s : SnapshotRegistry) (key : String) (seq : Nat) : Prop :=
  match s.asOfSeq key seq with
  | none => False
  | some (.error _) => True
  | some (.ok snapshot) => ∃ d, s.definition key = .ok d
      ∧ d.foldOf s.header (s.log.filter fun e => e.seq ≤ seq) = .ok snapshot.state
      ∧ d.view snapshot.state = .ok snapshot.view

theorem frameAsOf_isSome (frames : List StateFrame) (seq : Nat) :
    (frameAsOf frames (some seq)).isSome
      = frames.any fun frame => frame.asOfSeq.all (· ≤ seq) := by
  rw [Bool.eq_iff_iff, frameAsOf, find?_isSome, any_eq_true]
  simp only [mem_reverse]

theorem pointInTime_of_none (hp : s.projection key = none) (seq : Nat) : s.PointInTime key seq := by
  unfold PointInTime asOfSeq snapshotAsOf
  rw [hp]
  cases s.attached <;> trivial

/-- With every event so far applied, the snapshot is right when there is
a frame for it. -/
theorem Recovered.pointInTime_iff (h : s.Recovered) (hp : s.projection key = some p) {seq : Nat}
    (happlied : ∀ e ∈ s.log, e.seq ≤ seq → p.lacks e = false) :
    s.PointInTime key seq ↔
      (p.state.frames.any fun frame => frame.asOfSeq.all (· ≤ seq)) = true := by
  obtain ⟨d, hd, hsame⟩ := h.definition_of_projection hp
  rw [← frameAsOf_isSome, PointInTime, asOfSeq,
    snapshotAsOf_eq (h.attached_of_projection hp) hp]
  cases hframe : frameAsOf p.state.frames (some seq) with
  | none => exact ⟨False.elim, nofun⟩
  | some frame =>
    refine ⟨fun _ => rfl, fun _ => ?_⟩
    have hfold := (h.framed p (mem_of_projection hp).1).frameAsOf h.numbered happlied hframe
    rw [map_some, snapshotOf, hd, ok_bind]
    split
    · rename_i hnone
      cases hnone
    · trivial
    · rename_i hsnapshot
      rw [some.injEq] at hsnapshot
      split at hsnapshot
      · cases hsnapshot
      · rename_i hview
        cases hsnapshot
        exact ⟨d, rfl, hsame ▸ hfold, hview⟩

/-- Replaying the whole log from the initial state is the fold. -/
theorem replay_from_init {d : ProjectionDefinition} (hlog : Numbered log)
    (hfold : d.foldOf header log = .ok state) :
    ∃ fresh whole, d.attach header = .ok fresh ∧ replayLocked [fresh] log = (none, [whole])
      ∧ whole.state.state = state ∧ whole.next = log.length := by
  obtain ⟨initial, hinit, hall⟩ := bind_eq_ok.mp hfold
  obtain ⟨fresh, hfresh⟩ : ∃ fresh, d.attach header = .ok fresh := by
    rw [ProjectionDefinition.attach, hinit]
    exact ⟨_, rfl⟩
  obtain ⟨hd, hzero, hframed⟩ := framed_attach hfresh log
  have hstart : fresh.state.state = initial := by
    have hstate := hframed.fold
    rw [hd, hzero, take_zero, foldOf, hinit] at hstate
    exact (ok.inj hstate).symm
  have hnone : (replayLocked [fresh] log).1 = none := by
    refine replayLocked_none hlog log [fresh] 0 rfl fun p hp => ?_
    rw [mem_singleton.mp hp, hd, hstart, hzero]
    exact ⟨Nat.zero_le _, accepts_of_foldlM hall⟩
  have hone : ∀ p ∈ [fresh], p.Framed header log := fun p hp => by
    rw [mem_singleton.mp hp]
    exact hframed
  obtain ⟨hkept, hend⟩ := replayLocked_framed hlog hone
  have hdefinitions := replayLocked_definitions log [fresh]
  rcases hreplay : replayLocked [fresh] log with ⟨failure, ps⟩
  rw [hreplay] at hnone hkept hend hdefinitions
  obtain rfl : failure = none := hnone
  obtain ⟨whole, rfl⟩ : ∃ whole, ps = [whole] :=
    length_eq_one_iff.mp (by simpa using congrArg List.length hdefinitions)
  have hwhole := hend rfl whole mem_cons_self
  have hstate := (hkept whole mem_cons_self).fold
  have hsame : whole.definition = d := by simpa [hd] using hdefinitions
  rw [hwhole, take_length, hsame, hfold] at hstate
  exact ⟨fresh, whole, hfresh, hreplay, (ok.inj hstate).symm, hwhole⟩

theorem lastSeq_of_next (h : p.next = q.next) : p.state.lastSeq = q.state.lastSeq := by
  unfold AttachedProjection.next at h
  cases hp : p.state.lastSeq <;> cases hq : q.state.lastSeq <;> simp_all

/-- A restore comes to the same as replaying the whole log. -/
theorem Recovered.restoreFloor_replays (h : s.Recovered) (hc : s.genuine c = true) {floor : Nat}
    {s' : SnapshotRegistry} (hs : s.restoreFloor c floor = (.ok (), s')) :
    ∃ p d fresh whole, s'.projection c.key = some p ∧ s.definition c.key = .ok d
      ∧ d.toProjectionDefinition.attach s.header = .ok fresh
      ∧ replayLocked [fresh] s.log = (none, [whole])
      ∧ p.state.state = whole.state.state ∧ p.state.lastSeq = whole.state.lastSeq := by
  rcases h.restoreFloor_cases hc floor with ⟨err, heq⟩ | ⟨d, lastSeq, state, hd, hattached, hle,
    hfold, heq⟩
  · rw [heq] at hs
    cases hs
  rw [heq] at hs
  have hput := h.putState hd hattached hle hfold
  have hkey : d.key = c.key := key_of_definition hd
  obtain ⟨hkept, hend⟩ := replayLocked_framed hput.numbered hput.framed
  have hdefinitions :=
    replayLocked_definitions s.log (s.putState d lastSeq state).projections
  rcases hreplay : replayLocked (s.putState d lastSeq state).projections s.log with ⟨failure, ps⟩
  rw [SnapshotRegistry.replay, show (s.putState d lastSeq state).log = s.log from rfl,
    hreplay] at hs
  rw [show (s.putState d lastSeq state).log = s.log from rfl, hreplay] at hkept hend
  rw [hreplay] at hdefinitions
  cases failure with
  | some err => cases hs
  | none =>
    cases hs
    -- The projection put in place is there still, under its key.
    obtain ⟨p, hp, hpd⟩ : ∃ p ∈ ps, p.definition = d.toProjectionDefinition := by
      refine mem_map.mp (hdefinitions ▸ mem_map.mpr ?_)
      exact ⟨_, mem_insertProjection_self _ s.projections, rfl⟩
    obtain ⟨found, hfound⟩ : ∃ q, ps.find? (·.definition.key == c.key) = some q := by
      rw [← isSome_iff_exists, find?_isSome]
      exact ⟨p, hp, by simp [hpd, hkey]⟩
    have hmem := mem_of_find?_eq_some hfound
    have hfoundKey : found.definition.key = c.key := by simpa using find?_some hfound
    have hnext := hend rfl found hmem
    have hstate := (hkept found hmem).fold
    have hfoundDefinition : found.definition = d.toProjectionDefinition := by
      have hin : found.definition ∈ ps.map (·.definition) :=
        mem_map.mpr ⟨found, hmem, rfl⟩
      rw [hdefinitions] at hin
      obtain ⟨q, hq, hqd⟩ := mem_map.mp hin
      obtain ⟨v, hv, hvd⟩ := hput.known q hq
      rw [hqd, hfoundKey] at hv
      have hsame : v = d := ok.inj (hv.symm.trans hd)
      rw [← hqd, ← hvd, hsame]
    rw [hnext, take_length, hfoundDefinition] at hstate
    obtain ⟨fresh, whole, hfresh, hwhole, hwholeState, hwholeNext⟩ :=
      replay_from_init h.numbered hstate
    exact ⟨found, d, fresh, whole, hfound, hd, hfresh, hwhole, hwholeState.symm,
      lastSeq_of_next (hnext.trans hwholeNext.symm)⟩

/-- In every run whose calls are in order: a snapshot of a projection that
has all events so far is right exactly when there is a frame for it,
without a projection there is an error, and restoring a checkpoint comes
to the same as replaying the log. -/
theorem projections_point_in_time (header : SessionHeader) {log : List SessionEvent}
    (hlog : Numbered log) (steps : List SnapshotStep)
    (hsafe : Meets (fun s i => inOrder s i = true) step (opened header log) steps) :
    (∀ key p seq, ((opened header log).run steps).projection key = some p →
      (∀ e ∈ ((opened header log).run steps).log, e.seq ≤ seq → p.lacks e = false) →
        (((opened header log).run steps).PointInTime key seq ↔
          (p.state.frames.any fun frame => frame.asOfSeq.all (· ≤ seq)) = true))
    ∧ (∀ key seq, ((opened header log).run steps).projection key = none →
        ((opened header log).run steps).PointInTime key seq)
    ∧ ∀ c floor s', ((opened header log).run steps).genuine c = true →
      ((opened header log).run steps).restoreFloor c floor = (.ok (), s') →
        ∃ p d fresh whole, s'.projection c.key = some p
          ∧ ((opened header log).run steps).definition c.key = .ok d
          ∧ d.toProjectionDefinition.attach ((opened header log).run steps).header = .ok fresh
          ∧ replayLocked [fresh] ((opened header log).run steps).log = (none, [whole])
          ∧ p.state.state = whole.state.state ∧ p.state.lastSeq = whole.state.lastSeq := by
  have h := run_recovered header hlog steps hsafe
  exact ⟨fun key p seq hp happlied => h.pointInTime_iff hp happlied,
    fun key seq hp => pointInTime_of_none hp seq,
    fun c floor s' hc hs => h.restoreFloor_replays hc hs⟩

/-! ### Runs with a checkpoint -/

/-- The types of the events, shown as they are. -/
def eventTypes : ViewedDefinition := { listTypes "types" pushType with view := .ok }

def noteEvent (seq : Nat) : SessionEvent := .plain "note" seq 1 .null

def noteApplied (seq : Nat) : List SnapshotStep := [.append (noteEvent seq), .apply (noteEvent seq)]

def sessionOfNotes : SessionHeader := .plain ⟨"notes"⟩ 0

/-- What `checkpoint` gives after the first event. -/
def afterFirst : ProjectionCheckpoint :=
  { sessionId := ⟨"notes"⟩, key := "types", stateVersion := 1, asOfSeq := some 0
    state := .array [.string "note"] }

/-- A checkpoint after the first event, restored after the second. -/
def restoredRun : List SnapshotStep :=
  [.register eventTypes, .attach] ++ noteApplied 0 ++ [.checkpoint "types"] ++ noteApplied 1
    ++ [.restore afterFirst]

theorem restoredRun_attached :
    (((opened sessionOfNotes []).run restoredRun).projection "types").isSome = true := by
  decide +kernel

theorem projections_point_in_time_restoredRun :
    ((opened sessionOfNotes []).run restoredRun).PointInTime "types" 0
      ∧ ((opened sessionOfNotes []).run restoredRun).PointInTime "types" 7
      ∧ ∃ p fresh whole,
        (((opened sessionOfNotes []).run restoredRun).restoreFloor afterFirst 1).2.projection
          "types" = some p
        ∧ replayLocked [fresh] ((opened sessionOfNotes []).run restoredRun).log = (none, [whole])
        ∧ p.state.lastSeq = whole.state.lastSeq := by
  obtain ⟨hsnapshot, -, hrestore⟩ := projections_point_in_time sessionOfNotes
    (show Numbered [] from fun i e h => by simp at h) restoredRun (by decide +kernel)
  have hp := (Option.some_get restoredRun_attached).symm
  have hok : (((opened sessionOfNotes []).run restoredRun).restoreFloor afterFirst 1).1 = .ok () := by
    decide +kernel
  obtain ⟨p, _, fresh, whole, hfound, _, _, hwhole, _, hseq⟩ :=
    hrestore afterFirst 1 _ (by decide +kernel) (Prod.ext hok rfl)
  exact ⟨(hsnapshot "types" _ 0 hp (by decide +kernel)).mpr (by decide +kernel),
    (hsnapshot "types" _ 7 hp (by decide +kernel)).mpr (by decide +kernel),
    p, fresh, whole, hfound, hwhole, hseq⟩

/-- What `checkpoint` gives after the second event. -/
def afterSecond : ProjectionCheckpoint :=
  { sessionId := ⟨"notes"⟩, key := "types", stateVersion := 1, asOfSeq := some 1
    state := .array [.string "note", .string "note"] }

def restoredAtEnd : List SnapshotStep :=
  [.register eventTypes, .attach] ++ noteApplied 0 ++ noteApplied 1
    ++ [.checkpoint "types", .restore afterSecond]

/-- All calls are in order and the projection has both events, but the
lookup of the state after the first one panics. -/
theorem snapshot_before_checkpoint_panics :
    Meets (fun s i => inOrder s i = true) step (opened sessionOfNotes []) restoredAtEnd
      ∧ ((opened sessionOfNotes []).run restoredAtEnd).taken = [afterSecond]
      ∧ ((opened sessionOfNotes []).run restoredAtEnd).projections.map
          (fun p => (p.state.lastSeq, p.state.state)) = [(some 1, afterSecond.state)]
      ∧ ((opened sessionOfNotes []).run restoredAtEnd).asOfSeq "types" 0 = none
      ∧ ¬ ((opened sessionOfNotes []).run restoredAtEnd).PointInTime "types" 0 := by
  have hpanics : ((opened sessionOfNotes []).run restoredAtEnd).asOfSeq "types" 0 = none := by
    decide +kernel
  refine ⟨by decide +kernel, by decide +kernel, by decide +kernel, hpanics, ?_⟩
  unfold PointInTime
  rw [hpanics]
  exact not_false

end SnapshotRegistry

end Tessivum.Projection
