/-
Tessivum.Settings.MoveTheorems — what one step of a call can do to the
settings service.

`Move` says it once, with the checks the step has made; `enter_move`,
`load_move`, `persist_move` and `finish_move` are its four sources. In every
run the resolved document of a state is that of its user document
(`Resolving`).
-/
import Tessivum.Settings.Service

namespace Tessivum.Settings

open Library Protocol

namespace SettingsService

/-! ## Checks -/

variable {found : Option Value} {r : SettingsRegistration} {resolved : Value} {change : Change}
  {expected : Option Nat} {id : Nat} {ns : String} {s : SettingsService}

theorem admitSection_eq_ok {user : Value} {userPresent : Bool}
    (h : admitSection r found = .ok (user, userPresent, resolved)) :
    user = found.getD emptyDocument ∧ userPresent = found.isSome ∧ resolved = r.resolve user := by
  unfold admitSection at h
  simp only [bind_eq_ok, ok.injEq, Prod.mk.injEq] at h
  obtain ⟨_, _, _, _, rfl, rfl, rfl⟩ := h
  exact ⟨rfl, rfl, rfl⟩

theorem elim_admitSection_eq_ok {failure : Option SettingsError} {result : Value × Bool × Value}
    (h : failure.elim (admitSection r found) .error = .ok result) :
    admitSection r found = .ok result := by
  cases failure with
  | none => exact h
  | some err => cases h

theorem prepare_eq_persist {candidate : Value} {nextRevision : Nat}
    (h : s.prepare id ns expected change = .persist candidate resolved nextRevision) :
    candidate = change.apply (s.states id).user ∧ candidate ≠ (s.states id).user
      ∧ resolved = (s.states id).registration.resolve candidate
      ∧ nextRevision = (s.states id).revision + 1
      ∧ ∀ r, expected = some r → r = (s.states id).revision := by
  unfold prepare at h
  dsimp only at h
  split at h
  · cases h
  · rename_i hchecks
    split_ifs at h with hsame hbound
    simp only [Candidate.persist.injEq] at h
    obtain ⟨rfl, rfl, rfl⟩ := h
    refine ⟨rfl, hsame, rfl, rfl, ?_⟩
    rintro r rfl
    simp only [check_bind_eq_ok, failIf_eq_ok, not_not] at hchecks
    exact hchecks.2.1

theorem prepare_eq_ok {snapshot : Option SettingsSnapshot}
    (h : s.prepare id ns expected change = .done (.ok snapshot)) :
    change.apply (s.states id).user = (s.states id).user := by
  unfold prepare at h
  dsimp only at h
  split at h
  · cases h
  · split_ifs at h with hsame hbound
    · exact hsame
    · cases h

/-! ## Moves -/

/-- What a step of call `c` can do. -/
inductive Move (s : SettingsService) (c : Nat) : SettingsService → Prop
  | stays : Move s c s
  | refused (err : SettingsError)
      (hphase : (s.call c).phase = .registering ∨ ∃ id, (s.call c).phase = .waiting id) :
      Move s c (s.returns c (.error err))
  | unchanged (id : Nat) (ns : String) (expected : Option Nat) (change : Change)
      (snapshot : Option SettingsSnapshot) (hphase : (s.call c).phase = .waiting id)
      (hrequest : (s.call c).request = .commit ns expected change)
      (hgate : (s.states id).gate = none) (hsame : change.apply (s.states id).user = (s.states id).user) :
      Move s c (s.returns c (.ok snapshot))
  | reserved (r : SettingsRegistration) (hphase : (s.call c).phase = .registering)
      (hrequest : (s.call c).request = .register r)
      (hgate : s.registrationGate = none) (hfree : s.namespaces r.ns = none) :
      Move s c { s.setPhase c .loading with registrationGate := some c }
  | detached (id : Nat) (ns : String) (hphase : (s.call c).phase = .waiting id)
      (hrequest : (s.call c).request = .unregister ns) (hgate : (s.states id).gate = none) :
      Move s c { s.returns c (.ok none) with namespaces := Function.update s.namespaces ns none }
  | reloading (id : Nat) (ns : String) (hphase : (s.call c).phase = .waiting id)
      (hrequest : (s.call c).request = .reload ns) (hgate : (s.states id).gate = none) :
      Move s c ((s.setPhase c (.reloading id)).setGate id (some c))
  | persisting (id : Nat) (ns : String) (expected : Option Nat) (change : Change)
      (candidate resolved : Value) (nextRevision : Nat)
      (hphase : (s.call c).phase = .waiting id)
      (hrequest : (s.call c).request = .commit ns expected change)
      (hgate : (s.states id).gate = none)
      (hprepare : s.prepare id ns expected change = .persist candidate resolved nextRevision) :
      Move s c ((s.setPhase c (.persisting id candidate resolved nextRevision)).setGate id (some c))
  | notRegistered (err : SettingsError)
      (hphase : (s.call c).phase = .loading ∨ ∃ user present resolved,
        (s.call c).phase = .loaded user present resolved) :
      Move s c { s.returns c (.error err) with registrationGate := none }
  | loaded (r : SettingsRegistration) (user : Value) (userPresent : Bool) (resolved : Value)
      (hphase : (s.call c).phase = .loading) (hrequest : (s.call c).request = .register r)
      (hadmitted : admitSection r (s.sections r.ns) = .ok (user, userPresent, resolved)) :
      Move s c (s.setPhase c (.loaded user userPresent resolved))
  | registered (r : SettingsRegistration) (user : Value) (userPresent : Bool) (resolved : Value)
      (hphase : (s.call c).phase = .loaded user userPresent resolved)
      (hrequest : (s.call c).request = .register r) :
      Move s c
        { (s.returns c (.ok none)).setState s.count (newState r user userPresent resolved) with
          namespaces := Function.update s.namespaces r.ns (some s.count)
          count := s.count + 1, registrationGate := none }
  | abandoned (id : Nat) (err : SettingsError)
      (hphase : (s.call c).phase = .reloading id
        ∨ (∃ user present resolved, (s.call c).phase = .reloaded id user present resolved)
        ∨ ∃ candidate resolved next, (s.call c).phase = .persisting id candidate resolved next) :
      Move s c ((s.returns c (.error err)).setGate id none)
  | reloaded (id : Nat) (ns : String) (user : Value) (userPresent : Bool) (resolved : Value)
      (hphase : (s.call c).phase = .reloading id) (hrequest : (s.call c).request = .reload ns)
      (hadmitted : admitSection (s.states id).registration (s.sections ns)
        = .ok (user, userPresent, resolved)) :
      Move s c (s.setPhase c (.reloaded id user userPresent resolved))
  | kept (id : Nat) (user : Value) (userPresent : Bool) (resolved : Value)
      (snapshot : Option SettingsSnapshot)
      (hphase : (s.call c).phase = .reloaded id user userPresent resolved) :
      Move s c ((s.returns c (.ok snapshot)).setGate id none)
  | replaced (id : Nat) (ns : String) (user : Value) (userPresent : Bool) (resolved : Value)
      (snapshot : Option SettingsSnapshot)
      (hphase : (s.call c).phase = .reloaded id user userPresent resolved)
      (hrequest : (s.call c).request = .reload ns)
      (hdiffers : ¬ ((s.states id).user = user ∧ (s.states id).userPresent = userPresent)) :
      Move s c ((s.returns c (.ok snapshot)).setState id { s.states id with
        user, userPresent, resolved, revision := (s.states id).revision + 1, gate := none })
  | persisted (id : Nat) (ns : String) (expected : Option Nat) (change : Change)
      (candidate resolved : Value) (nextRevision : Nat)
      (hphase : (s.call c).phase = .persisting id candidate resolved nextRevision)
      (hrequest : (s.call c).request = .commit ns expected change) :
      Move s c { s.setPhase c (.persisted id candidate resolved nextRevision) with
        sections := Function.update s.sections ns (some candidate) }
  | committed (id : Nat) (ns : String) (expected : Option Nat) (change : Change)
      (candidate resolved : Value) (nextRevision : Nat) (snapshot : Option SettingsSnapshot)
      (hphase : (s.call c).phase = .persisted id candidate resolved nextRevision)
      (hrequest : (s.call c).request = .commit ns expected change) :
      Move s c ((s.returns c (.ok snapshot)).setState id { s.states id with
        user := candidate, resolved, revision := nextRevision, userPresent := true, gate := none })

/-- A call that enters makes one of the moves. -/
theorem enter_move (s : SettingsService) (c : Nat) : Move s c (s.enter c) := by
  unfold enter
  split
  · rename_i r hphase hrequest
    split_ifs with hgate hduplicate
    · exact .stays
    · exact .refused _ (.inl hphase)
    · exact .reserved r hphase hrequest (not_isSome_iff_eq_none.mp hgate)
        (not_isSome_iff_eq_none.mp hduplicate)
  · rename_i id ns hphase hrequest
    split_ifs with hgate hmissing
    · exact .stays
    · exact .refused _ (.inr ⟨id, hphase⟩)
    · exact .detached id ns hphase hrequest (not_isSome_iff_eq_none.mp hgate)
  · rename_i id ns hphase hrequest
    split_ifs with hgate hclosed
    · exact .stays
    · exact .refused _ (.inr ⟨id, hphase⟩)
    · exact .reloading id ns hphase hrequest (not_isSome_iff_eq_none.mp hgate)
  · rename_i id ns expected change hphase hrequest
    split_ifs with hgate
    · exact .stays
    · cases hprepare : s.prepare id ns expected change with
      | done outcome =>
        cases outcome with
        | error err => exact .refused err (.inr ⟨id, hphase⟩)
        | ok snapshot =>
          exact .unchanged id ns expected change snapshot hphase hrequest
            (not_isSome_iff_eq_none.mp hgate) (prepare_eq_ok hprepare)
      | persist candidate resolved nextRevision =>
        exact .persisting id ns expected change candidate resolved nextRevision hphase hrequest
          (not_isSome_iff_eq_none.mp hgate) hprepare
  · exact .stays

theorem load_move (s : SettingsService) (c : Nat) (failure : Option SettingsError) :
    Move s c (s.load c failure) := by
  unfold load
  split
  · rename_i r hphase hrequest
    split
    · exact .notRegistered _ (.inl hphase)
    · rename_i user userPresent resolved hload
      exact .loaded r user userPresent resolved hphase hrequest (elim_admitSection_eq_ok hload)
  · rename_i id ns hphase hrequest
    split
    · exact .abandoned id _ (.inl hphase)
    · rename_i user userPresent resolved hload
      exact .reloaded id ns user userPresent resolved hphase hrequest
        (elim_admitSection_eq_ok hload)
  · exact .stays

theorem persist_move (s : SettingsService) (c : Nat) (failure : Option SettingsError) :
    Move s c (s.persist c failure) := by
  unfold persist
  split
  · rename_i id candidate resolved nextRevision ns expected change hphase hrequest
    cases failure with
    | some err =>
      exact .abandoned id err (.inr (.inr ⟨candidate, resolved, nextRevision, hphase⟩))
    | none =>
      exact .persisted id ns expected change candidate resolved nextRevision hphase hrequest
  · exact .stays

theorem finish_move (s : SettingsService) (c : Nat) : Move s c (s.finish c) := by
  unfold finish
  split
  · rename_i user userPresent resolved r hphase hrequest
    split_ifs
    · exact .notRegistered _ (.inr ⟨user, userPresent, resolved, hphase⟩)
    · exact .notRegistered _ (.inr ⟨user, userPresent, resolved, hphase⟩)
    · exact .registered r user userPresent resolved hphase hrequest
  · rename_i id user userPresent resolved ns hphase hrequest
    dsimp only
    split_ifs with hsame hbound
    · exact .kept id user userPresent resolved _ hphase
    · exact .replaced id ns user userPresent resolved _ hphase hrequest hsame
    · exact .abandoned id _ (.inr (.inl ⟨user, userPresent, resolved, hphase⟩))
  · rename_i id candidate resolved nextRevision ns expected change hphase hrequest
    exact .committed id ns expected change candidate resolved nextRevision _ hphase hrequest
  · exact .stays

/-! ## Steps of calls -/

def caller : SettingsStep → Option Nat
  | .enter c => some c
  | .load c _ => some c
  | .persist c _ => some c
  | .finish c => some c
  | _ => none

variable {c : Nat} {i : SettingsStep} {s' : SettingsService}

theorem step_move (s : SettingsService) (h : caller i = some c) : Move s c (step s i) := by
  cases i <;> simp only [caller, some.injEq, reduceCtorEq] at h <;> subst h
  case enter c => exact s.enter_move c
  case load c failure => exact s.load_move c failure
  case persist c failure => exact s.persist_move c failure
  case finish c => exact s.finish_move c

theorem step_of_waiting (h : caller i = some c) (hphase : (s.call c).phase = .waiting id)
    (hi : i ≠ .enter c) : step s i = s := by
  cases i <;> simp only [caller, some.injEq, reduceCtorEq] at h <;> subst h
  case enter c => exact absurd rfl hi
  all_goals simp [step, load, persist, finish, hphase]

theorem Move.returned {outcome : Outcome} (h : Move s c s')
    (hphase : (s.call c).phase = .returned outcome) : s' = s := by
  cases h with
  | stays => rfl
  | _ => simp_all

theorem Move.others (h : Move s c s') :
    s'.calls = s.calls ∧ ∀ c', c' ≠ c → s'.call c' = s.call c' := by
  cases h <;> refine ⟨rfl, fun c' hne => ?_⟩ <;>
    simp [returns, setPhase, setGate, setState, hne]

theorem Move.count_le (h : Move s c s') : s.count ≤ s'.count := by
  cases h with
  | registered => exact le_succ _
  | _ => exact le_refl _

theorem Move.request (h : Move s c s') : (s'.call c).request = (s.call c).request := by
  cases h <;> simp [returns, setPhase, setGate, setState]

/-- A request that starts registers or waits for a gate. -/
theorem start_cases {request : Request} {phase : Phase} (h : s.start request = .ok phase) :
    phase = .registering ∨ ∃ ns id, s.namespaces ns = some id ∧ phase = .waiting id := by
  have hlookup : ∀ {ns id}, s.lookup ns = .ok id → s.namespaces ns = some id := by
    intro ns id hid
    unfold lookup at hid
    cases hns : s.namespaces ns with
    | none => rw [hns] at hid; cases hid
    | some found => rw [hns] at hid; cases hid; rfl
  cases request with
  | register r =>
    simp only [start, startRegister, bind_eq_ok, ok.injEq] at h
    obtain ⟨_, _, _, _, _, _, _, _, _, _, rfl⟩ := h
    exact .inl rfl
  | unregister ns | reload ns =>
    simp only [start, startLookup, bind_eq_ok, ok.injEq] at h
    obtain ⟨_, _, id, hid, rfl⟩ := h
    exact .inr ⟨ns, id, hlookup hid, rfl⟩
  | commit ns =>
    simp only [start, startCommit, bind_eq_ok, ok.injEq] at h
    obtain ⟨_, _, _, _, _, _, id, hid, rfl⟩ := h
    exact .inr ⟨ns, id, hlookup hid, rfl⟩

/-! ## Resolved documents -/

/-- What a call holds while it is under way: its resolved document is that of
the user document it goes with. -/
def Resolves (states : Nat → NamespaceState) (count : Nat) (call : SettingsCall) : Prop :=
  match call.phase with
  | .waiting id => id < count
  | .reloading id => id < count
  | .loaded user _ resolved => ∃ r, call.request = .register r ∧ resolved = r.resolve user
  | .reloaded id user _ resolved =>
    id < count ∧ resolved = (states id).registration.resolve user
  | .persisting id candidate resolved _ =>
    id < count ∧ resolved = (states id).registration.resolve candidate
  | .persisted id candidate resolved _ =>
    id < count ∧ resolved = (states id).registration.resolve candidate
  | _ => True

/-- The resolved document of every state is that of its user document. -/
structure Resolving (s : SettingsService) : Prop where
  named : ∀ ns id, s.namespaces ns = some id → id < s.count
  states : ∀ id < s.count,
    (s.states id).resolved = (s.states id).registration.resolve (s.states id).user
  calls : ∀ c, Resolves s.states s.count (s.call c)

theorem fresh_resolving (sections : String → Option Value) (writable : Bool) :
    Resolving (fresh sections writable) where
  named _ _ h := by cases h
  states _ h := by cases h
  calls _ := trivial

theorem Resolves.mono {states states' : Nat → NamespaceState} {count count' : Nat}
    {call : SettingsCall} (h : Resolves states count call) (hcount : count ≤ count')
    (hreg : ∀ id < count, (states' id).registration = (states id).registration) :
    Resolves states' count' call := by
  unfold Resolves at h ⊢
  cases hphase : call.phase with
  | waiting id | reloading id => rw [hphase] at h; exact lt_of_lt_of_le h hcount
  | loaded => rw [hphase] at h; exact h
  | reloaded id | persisting id
  | persisted id =>
    rw [hphase] at h
    exact ⟨lt_of_lt_of_le h.1 hcount, (hreg id h.1).symm ▸ h.2⟩
  | registering | loading | returned outcome => trivial

theorem Move.registration (h : Move s c s') :
    ∀ id < s.count, (s'.states id).registration = (s.states id).registration := by
  intro id hid
  cases h with
  | registered =>
    simp [setState, returns, setPhase, update_of_ne hid.ne]
  | _ =>
    simp only [returns, setPhase, setGate, setState, Function.update_apply]
    try (split <;> simp_all)

/-- Every state keeps its document resolved. -/
theorem Resolving.move_states (h : Resolving s) (hmove : Move s c s') : ∀ id < s'.count,
      (s'.states id).resolved = (s'.states id).registration.resolve (s'.states id).user := by
  have hcall := h.calls c
  have hkeep : ∀ (other : Nat) (gate : Option Nat), ∀ id < s.count,
      ((s.setGate other gate).states id).resolved =
        ((s.setGate other gate).states id).registration.resolve
          ((s.setGate other gate).states id).user := by
    intro other gate id hid
    by_cases hother : id = other
    · subst hother
      simpa [setGate, setState] using h.states id hid
    · simpa [setGate, setState, hother] using h.states id hid
  cases hmove with
  | registered r user userPresent resolved hphase hrequest =>
    rw [Resolves, hphase] at hcall
    obtain ⟨_, hrequest', hresolved⟩ := hcall
    rw [hrequest] at hrequest'
    cases hrequest'
    intro id hid
    by_cases hnew : id = s.count
    · subst hnew
      simpa [setState, newState] using hresolved
    · have hold : id < s.count := Nat.lt_of_le_of_ne (Nat.le_of_lt_succ hid) hnew
      simpa [setState, returns, setPhase, hnew] using h.states id hold
  | replaced id ns user userPresent resolved snapshot hphase
  | committed id ns expected change candidate resolved nextRevision snapshot hphase =>
    rw [Resolves, hphase] at hcall
    intro other hother
    by_cases hid : other = id
    · subst hid
      simpa [setState, returns, setPhase] using hcall.2
    · simpa [setState, returns, setPhase, hid] using h.states other hother
  | reloading id
  | persisting id =>
    exact hkeep id (some c)
  | abandoned id | kept id =>
    exact hkeep id none
  | _ => exact h.states

/-- The call in hand keeps its document resolved. -/
theorem Resolving.move_call (h : Resolving s) (hmove : Move s c s') :
    Resolves s'.states s'.count (s'.call c) := by
  have hcall := h.calls c
  suffices h' : Resolves s.states s.count (s'.call c) from
    h'.mono hmove.count_le hmove.registration
  cases hmove with
  | stays => exact hcall
  | loaded r user userPresent resolved hphase hrequest hadmitted =>
    obtain ⟨-, -, hresolved⟩ := admitSection_eq_ok hadmitted
    simp only [setPhase, update_self, Resolves]
    exact ⟨r, hrequest, hresolved⟩
  | reloading id ns hphase =>
    rw [Resolves, hphase] at hcall
    simpa [Resolves, setGate, setState, setPhase] using hcall
  | reloaded id ns user userPresent resolved hphase hrequest hadmitted =>
    rw [Resolves, hphase] at hcall
    obtain ⟨-, -, hresolved⟩ := admitSection_eq_ok hadmitted
    simp only [setPhase, update_self, Resolves]
    exact ⟨hcall, hresolved⟩
  | persisting id ns expected change candidate resolved nextRevision hphase hrequest hgate hprep =>
    rw [Resolves, hphase] at hcall
    have hmade := prepare_eq_persist hprep
    simp only [setGate, setState, setPhase, update_self, Resolves]
    exact ⟨hcall, hmade.2.2.1⟩
  | persisted id ns expected change candidate resolved nextRevision hphase =>
    rw [Resolves, hphase] at hcall
    simp only [setPhase, update_self, Resolves]
    exact hcall
  | _ => simp [Resolves, returns, setPhase, setGate, setState]

theorem Resolving.move_named (h : Resolving s) (hmove : Move s c s') :
    ∀ ns id, s'.namespaces ns = some id → id < s'.count := by
  cases hmove with
  | registered =>
    intro ns id hns
    simp only [Function.update_apply] at hns
    split at hns
    · cases hns
      exact lt_succ_self _
    · exact lt_succ_of_lt (h.named ns id hns)
  | detached =>
    intro ns' id' hns
    simp only [Function.update_apply] at hns
    split at hns
    · cases hns
    · exact h.named ns' id' hns
  | _ => exact h.named

theorem Resolving.move (h : Resolving s) (hmove : Move s c s') : Resolving s' where
  named := h.move_named hmove
  states := h.move_states hmove
  calls c' := by
    by_cases hc : c' = c
    · exact hc ▸ h.move_call hmove
    · rw [hmove.others.2 c' hc]
      exact (h.calls c').mono hmove.count_le hmove.registration

/-- One step of the service. -/
theorem Resolving.step {s : SettingsService} (h : Resolving s) (i : SettingsStep) :
    Resolving (step s i) := by
  cases hi : caller i with
  | some c => exact h.move (step_move s hi)
  | none =>
    cases i with
    | begin request =>
      refine ⟨h.named, h.states, fun c => ?_⟩
      by_cases hc : c = s.calls
      · subst hc
        simp only [SettingsService.step, begin, update_self]
        cases hstart : s.start request with
        | error err => trivial
        | ok phase =>
          rcases start_cases hstart with rfl | ⟨ns, id, hns, rfl⟩
          · trivial
          · exact h.named ns id hns
      · simp only [SettingsService.step, begin, update_of_ne hc]
        exact h.calls c
    | shutdown | setWritable writable => exact ⟨h.named, h.states, h.calls⟩
    | _ => cases hi

theorem Resolving.run (h : Resolving s) (steps : List SettingsStep) :
    Resolving (s.runFrom steps) := by
  induction steps generalizing s with
  | nil => exact h
  | cons i steps ih => exact ih (h.step i)

end SettingsService

end Tessivum.Settings
