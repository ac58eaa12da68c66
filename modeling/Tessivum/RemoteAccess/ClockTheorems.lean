/-
Tessivum.RemoteAccess.ClockTheorems — when the calls of the remote access store
read the clock.

The clock of a run is what its steps have advanced it by (`elapsed`). Every
record of the history was made by a call that got the lock, with the clock as it
stood when that call was made and the lifetimes the store was opened with
(`history_made`).
-/
import Tessivum.RemoteAccess.CallTheorems

namespace Tessivum.RemoteAccess

open Library Protocol List

/-! ## What the steps of a run say -/

/-- The milliseconds the clock has advanced by. -/
def elapsed : List AccessStep → Nat
  | [] => 0
  | .advance millis :: rest => millis + elapsed rest
  | .begin _ _ :: rest => elapsed rest
  | .finish _ _ _ :: rest => elapsed rest
  | .restart _ :: rest => elapsed rest

/-- The configuration the store was last opened with. -/
def openedWith : List AccessStep → Option RemoteAccessConfig
  | [] => none
  | .restart config :: rest => (openedWith rest).or (some config)
  | .advance _ :: rest => openedWith rest
  | .begin _ _ :: rest => openedWith rest
  | .finish _ _ _ :: rest => openedWith rest

/-- The step ends a call: it gets the lock, or its process ends. -/
def AccessStep.ends (c : Nat) : AccessStep → Bool
  | .finish c' _ _ => c' == c
  | .restart _ => true
  | _ => false

/-- A call `c` was made with `request` when the clock read `now`, and has not
ended since. -/
def Waits (steps : List AccessStep) (c : Nat) (request : Request) (now : Nat) : Prop :=
  ∃ early late, steps = early ++ .begin c request :: late ∧
    now = min (elapsed early) (u64Bound - 1) ∧ ∀ i ∈ late, i.ends c = false

/-- When something ends that lasts `duration` nanoseconds from `now`. -/
def lasts (now duration : Nat) : Nat := now + min (duration / 1000000) (u64Bound - 1)

/-- What a call with `request` commits at `now`. -/
def Record.Of (config : RemoteAccessConfig) (request : Request) (now : Nat) : Record → Prop
  | .paired _ expiresAt =>
    request = .issuePairing ∧ expiresAt = lasts now config.pairingTtl
  | .exchanged token _ _ at' expiresAt =>
    (∃ deviceName, request = .exchangePairing token deviceName) ∧ at' = now ∧
      expiresAt = lasts now config.sessionTtl
  | .authenticated secret _ at' => request = .authenticate secret ∧ at' = now
  | .checked id at' => request = .checkDevice id ∧ at' = now
  | .revoked id => request = .revoke id
  | .revokedAll => request = .revokeAll
  | .restarted => False

/-- The record was committed by a call that got the lock in the run. -/
def Made (steps : List AccessStep) (r : Record) : Prop :=
  ∃ before c draw outcome after config request now,
    steps = before ++ .finish c draw outcome :: after ∧ openedWith before = some config ∧
      Waits before c request now ∧ r.Of config request now

/-! ## One more step -/

variable {steps : List AccessStep} {i : AccessStep} {c : Nat} {request : Request} {now : Nat}

theorem elapsed_append (steps more : List AccessStep) :
    elapsed (steps ++ more) = elapsed steps + elapsed more := by
  induction steps with
  | nil => simp [elapsed]
  | cons i rest ih => cases i <;> simp [elapsed, ih, Nat.add_assoc]

theorem openedWith_append (steps more : List AccessStep) :
    openedWith (steps ++ more) = (openedWith more).or (openedWith steps) := by
  induction steps with
  | nil => simp [openedWith]
  | cons i rest ih => cases i <;> simp [openedWith, ih]

theorem Waits.snoc (h : Waits steps c request now) (hi : i.ends c = false) :
    Waits (steps ++ [i]) c request now := by
  obtain ⟨early, late, rfl, hnow, hlate⟩ := h
  refine ⟨early, late ++ [i], by simp, hnow, fun x hx => ?_⟩
  rcases mem_append.mp hx with hold | hnew
  · exact hlate x hold
  · rw [mem_singleton.mp hnew]
    exact hi

theorem Made.snoc {r : Record} (h : Made steps r) : Made (steps ++ [i]) r := by
  obtain ⟨before, c, draw, outcome, after, config, request, now, rfl, hrest⟩ := h
  exact ⟨before, c, draw, outcome, after ++ [i], config, request, now, by simp, hrest⟩

/-! ## The calls -/

section
variable {sha256 : Bytes → Digest} {decode : Bytes → Except String StoredDocument}
  {process : Process} {pending : PendingCall} {draw : Draw}

theorem addDuration_lasts {duration total : Nat} (h : addDuration now duration = .ok total) :
    total = lasts now duration := by
  unfold addDuration at h
  dsimp only at h
  split at h
  · cases h
    rfl
  · cases h

/-- The record an effect commits, if it commits one. -/
def Effect.record : Effect → Option Record
  | .done _ record => record
  | .persist _ record => some record

/-- The record of a call has the time at which the call began. -/
theorem effect_record {r : Record} (h : (effect sha256 process pending draw).record = some r) :
    r.Of process.config pending.request pending.now := by
  unfold effect at h
  split at h
  · rename_i hrequest
    unfold issuePairing at h
    split at h
    · cases h
    · rename_i hexpires
      cases h
      exact ⟨hrequest, addDuration_lasts hexpires⟩
  · rename_i token deviceName hrequest
    unfold exchangePairing at h
    split at h
    · cases h
    · split at h
      · cases h
      · split at h
        · cases h
        · dsimp only at h
          split at h
          · cases h
          · split at h
            · cases h
            · rename_i hexpires
              cases h
              exact ⟨⟨deviceName, hrequest⟩, rfl, addDuration_lasts hexpires⟩
  · rename_i secret hrequest
    unfold authenticate at h
    split at h
    · cases h
    · split at h
      · cases h
      · split at h
        · cases h
        · dsimp only at h
          split at h <;> (cases h; exact ⟨hrequest, rfl⟩)
  · rename_i id hrequest
    unfold checkDevice at h
    split at h
    · cases h
    · split at h
      · cases h
      · split at h
        · cases h
        · cases h
          exact ⟨hrequest, rfl⟩
  · rename_i id hrequest
    unfold revoke at h
    split at h
    · cases h
    · split at h <;> (cases h; exact hrequest)
  · rename_i hrequest
    unfold revokeAll at h
    split at h <;> (cases h; exact hrequest)

namespace AccessSystem

/-- The clock, the calls that wait, the open store and the history of a run say
what its steps say. -/
structure Timed (steps : List AccessStep) (s : AccessSystem) : Prop where
  clock : s.clock = elapsed steps
  calls : ∀ c, ∀ pending ∈ s.call c, Waits steps c pending.request pending.now
  idle : s.process = none → ∀ c, s.call c = none
  config : ∀ process ∈ s.process, openedWith steps = some process.config
  history : ∀ r ∈ s.history, r = .restarted ∨ Made steps r

variable {s : AccessSystem}

theorem timed_restart {config : RemoteAccessConfig} (hclock : s.clock = elapsed steps)
    (hopened : openedWith steps = some config)
    (hhistory : ∀ r ∈ s.history, r = .restarted ∨ Made steps r) :
    Timed steps (s.restart decode config) where
  clock := hclock
  calls _ _ hpending := by cases hpending
  idle _ _ := rfl
  config process hprocess := by
    obtain ⟨_, _, rfl⟩ := map_eq_some_iff.mp hprocess
    exact hopened
  history r hr := (mem_cons.mp hr).elim .inl (hhistory r)

/-- A call that gets the lock commits its own record. -/
theorem timed_finish (h : Timed steps s) (c : Nat) (draw : Draw) (outcome : PersistOutcome) :
    Timed (steps ++ [.finish c draw outcome]) (s.finish sha256 decode c draw outcome) := by
  have hopened : openedWith (steps ++ [.finish c draw outcome]) = openedWith steps := by
    rw [openedWith_append]
    rfl
  have hclock : s.clock = elapsed (steps ++ [.finish c draw outcome]) := by
    rw [elapsed_append]
    exact h.clock
  have hold : ∀ r ∈ s.history, r = .restarted ∨ Made (steps ++ [.finish c draw outcome]) r :=
    fun r hr => (h.history r hr).imp_right Made.snoc
  have hconfig : ∀ process ∈ s.process,
      openedWith (steps ++ [.finish c draw outcome]) = some process.config :=
    fun process hprocess => hopened.trans (h.config process hprocess)
  -- the others wait on
  have hothers : ∀ c' ≠ c, ∀ waiting ∈ s.call c',
      Waits (steps ++ [.finish c draw outcome]) c' waiting.request waiting.now :=
    fun c' hc waiting hwaiting =>
      (h.calls c' waiting hwaiting).snoc (by simpa [AccessStep.ends] using Ne.symm hc)
  unfold finish
  split
  · rename_i process pending hprocess hpending
    have hcalls : ∀ c', ∀ waiting ∈ Function.update s.call c none c',
        Waits (steps ++ [.finish c draw outcome]) c' waiting.request waiting.now := by
      intro c' waiting hwaiting
      by_cases hc : c' = c
      · rw [hc, update_self] at hwaiting
        cases hwaiting
      · rw [update_of_ne hc] at hwaiting
        exact hothers c' hc waiting hwaiting
    have hidle : s.process = none → ∀ c', Function.update s.call c none c' = none :=
      fun hnone => by cases hprocess.symm.trans hnone
    have hrecorded : ∀ record : Option Record,
        (effect sha256 process pending draw).record = record →
        ∀ r ∈ record.toList ++ s.history,
          r = .restarted ∨ Made (steps ++ [.finish c draw outcome]) r := by
      rintro record hrecord r hr
      rcases mem_append.mp hr with hr | hr
      · have hof := effect_record (hrecord.trans (mem_toList.mp hr))
        exact .inr ⟨steps, c, draw, outcome, [], _, _, _, rfl, h.config process hprocess,
          h.calls c pending hpending, hof⟩
      · exact hold r hr
    generalize effect sha256 process pending draw = e at hrecorded
    have hprocess' : ∀ p : Process, p.config = process.config →
        openedWith (steps ++ [.finish c draw outcome]) = some p.config :=
      fun p hp => hp ▸ hconfig process hprocess
    cases e with
    | done state record =>
      refine ⟨hclock, hcalls, fun h => (by cases h), ?_, hrecorded record rfl⟩
      rintro _ ⟨⟩
      exact hprocess' _ rfl
    | persist candidate record =>
      have hcommitted := hrecorded (some record) rfl
      cases outcome with
      | failed => exact ⟨hclock, hcalls, hidle, hconfig, hold⟩
      | failedAfterReplace => exact ⟨hclock, hcalls, hidle, hconfig, hold⟩
      | persisted =>
        refine ⟨hclock, hcalls, fun h => (by cases h), ?_, hcommitted⟩
        rintro _ ⟨⟩
        exact hprocess' _ rfl
      | crashed => exact timed_restart hclock (hprocess' _ rfl) hcommitted
  · rename_i hnone
    have hfree : s.call c = none := by
      cases hpending : s.call c with
      | none => rfl
      | some pending =>
        cases hprocess : s.process with
        | none => rw [h.idle hprocess c] at hpending; cases hpending
        | some process => exact (hnone process pending hprocess hpending).elim
    refine ⟨hclock, fun c' waiting hwaiting => ?_, h.idle, hconfig, hold⟩
    by_cases hc : c' = c
    · rw [hc, hfree] at hwaiting
      cases hwaiting
    · exact hothers c' hc waiting hwaiting

/-- One step more of a timed run. -/
theorem timed_snoc (h : Timed steps s) (i : AccessStep) :
    Timed (steps ++ [i]) (s.step sha256 decode i) := by
  have hold : ∀ r ∈ s.history, r = .restarted ∨ Made (steps ++ [i]) r :=
    fun r hr => (h.history r hr).imp_right Made.snoc
  cases i with
  | advance millis =>
    refine ⟨?_, fun c pending hpending => (h.calls c pending hpending).snoc rfl, h.idle,
      fun process hprocess => ?_, hold⟩
    · rw [elapsed_append]
      exact congrArg (· + millis) h.clock
    · rw [openedWith_append]
      exact h.config process hprocess
  | begin c request =>
    have hkept : Timed (steps ++ [.begin c request]) s :=
      ⟨by rw [elapsed_append]; exact h.clock,
        fun c pending hpending => (h.calls c pending hpending).snoc rfl, h.idle,
        fun process hprocess => by rw [openedWith_append]; exact h.config process hprocess, hold⟩
    show Timed _ (s.begin c request)
    unfold AccessSystem.begin
    split
    · rename_i process hprocess hfree
      split
      · refine ⟨hkept.clock, fun c' pending hpending => ?_,
          fun hnone => (by cases hprocess.symm.trans hnone), hkept.config, hold⟩
        dsimp only at hpending
        by_cases hc : c' = c
        · rw [hc, update_self] at hpending
          cases hpending
          rw [hc]
          exact ⟨steps, [], rfl, by rw [nowMillis, h.clock], fun i hi => (by cases hi)⟩
        · rw [update_of_ne hc] at hpending
          exact hkept.calls c' pending hpending
      · exact hkept
    · exact hkept
  | finish c draw outcome => exact timed_finish h c draw outcome
  | restart config =>
    refine timed_restart ?_ ?_ hold
    · rw [elapsed_append]
      exact h.clock
    · rw [openedWith_append]
      rfl

variable (sha256 decode) in
theorem run_timed (steps : List AccessStep) : Timed steps (run sha256 decode steps) := by
  induction steps using reverseRecOn with
  | nil => exact ⟨rfl, fun _ _ h => (by cases h), fun _ _ => rfl, fun _ h => (by cases h),
      fun _ h => (by cases h)⟩
  | append_singleton steps i ih =>
    rw [run, foldl_append]
    exact timed_snoc ih i

variable (sha256 decode) in
/-- Every record of a history is a restart, or was made by a call. -/
theorem history_made (steps : List AccessStep) :
    ∀ r ∈ (run sha256 decode steps).history, r = .restarted ∨ Made steps r :=
  (run_timed sha256 decode steps).history

end AccessSystem

end

end Tessivum.RemoteAccess
