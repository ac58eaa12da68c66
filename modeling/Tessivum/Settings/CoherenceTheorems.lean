/-
Tessivum.Settings.CoherenceTheorems — the invariant of the settings
service, and that every step keeps it whose call finds its state still
registered.

A call under a gate works on the registered state (`CallOk`), and the user
document of a registered state is the provider's section except between
the two writes of a commit (`Coherent.agree`). A step of one call leaves
what the others rely on (`Frame`): they would need the gate it holds.
-/
import Tessivum.Settings.MoveTheorems

namespace Tessivum.Settings

open Library Protocol

namespace SettingsService

def Request.ns : Request → String
  | .register r => r.ns
  | .unregister ns => ns
  | .reload ns => ns
  | .commit ns _ _ => ns

/-! ## The invariant -/

/-- The user document is the provider's section, empty if there is
none. -/
def Mirrors (state : NamespaceState) (found : Option Value) : Prop :=
  state.user = found.getD emptyDocument ∧ state.userPresent = found.isSome

/-- A commit under the gate: it works on the registered state, and its
candidate is its change of the user document. -/
structure Edits (s : SettingsService) (c id : Nat) (ns : String) (expected : Option Nat)
    (change : Change) (candidate : Value) (nextRevision : Nat) : Prop where
  request : (s.call c).request = .commit ns expected change
  gate : (s.states id).gate = some c
  attached : s.namespaces ns = some id
  made : candidate = change.apply (s.states id).user
  differs : candidate ≠ (s.states id).user
  counts : nextRevision = (s.states id).revision + 1
  expects : ∀ r, expected = some r → r = (s.states id).revision

def CallOk (s : SettingsService) (c : Nat) : Prop :=
  match (s.call c).phase with
  | .registering => True
  | .loading => s.registrationGate = some c
      ∧ ∃ r, (s.call c).request = .register r ∧ s.namespaces r.ns = none
  | .loaded user userPresent resolved => s.registrationGate = some c
      ∧ ∃ r, (s.call c).request = .register r ∧ s.namespaces r.ns = none
        ∧ Mirrors (newState r user userPresent resolved) (s.sections r.ns)
  | .waiting id => id < s.count
  | .reloading id => (s.states id).gate = some c
      ∧ ∃ ns, (s.call c).request = .reload ns ∧ s.namespaces ns = some id
  | .reloaded id user userPresent _ => (s.states id).gate = some c
      ∧ ∃ ns, (s.call c).request = .reload ns ∧ s.namespaces ns = some id
        ∧ user = (s.sections ns).getD emptyDocument ∧ userPresent = (s.sections ns).isSome
  | .persisting id candidate _ nextRevision => ∃ ns expected change,
      s.Edits c id ns expected change candidate nextRevision
  | .persisted id candidate _ nextRevision => ∃ ns expected change,
      s.Edits c id ns expected change candidate nextRevision
        ∧ s.sections ns = some candidate
  | .returned _ => True

/-- The call is between the two writes of a commit on `id`. -/
def Phase.midway (id : Nat) : Phase → Prop
  | .persisted held _ _ _ => held = id
  | _ => False

/-- The invariant of the service. -/
structure Coherent (s : SettingsService) : Prop where
  named : ∀ ns id, s.namespaces ns = some id →
    id < s.count ∧ (s.states id).registration.ns = ns
  calls : ∀ c, s.CallOk c
  unused : ∀ id, s.count ≤ id → (s.states id).gate = none
  agree : ∀ ns id, s.namespaces ns = some id →
    (∃ c, Phase.midway id (s.call c).phase) ∨ Mirrors (s.states id) (s.sections ns)

theorem fresh_coherent (sections : String → Option Value) (writable : Bool) :
    Coherent (fresh sections writable) where
  named ns id h := by cases h
  calls c := trivial
  unused id _ := rfl
  agree ns id h := by cases h

/-! ## What a call relies on -/

/-- A step of another call leaves what call `c` relies on. -/
structure Frame (s s' : SettingsService) (c : Nat) : Prop where
  call : s'.call c = s.call c
  count : s.count ≤ s'.count
  registration : s.registrationGate = some c → s'.registrationGate = some c
  free : s.registrationGate = some c → ∀ ns, s.namespaces ns = none →
    s'.namespaces ns = none ∧ s'.sections ns = s.sections ns
  state : ∀ id, (s.states id).gate = some c → s'.states id = s.states id
  held : ∀ id, (s.states id).gate = some c → ∀ ns, s.namespaces ns = some id →
    s'.namespaces ns = some id ∧ s'.sections ns = s.sections ns

variable {c : Nat} {s s' : SettingsService}

theorem Edits.frame {id : Nat} {ns : String} {expected : Option Nat} {change : Change}
    {candidate : Value} {nextRevision : Nat}
    (h : s.Edits c id ns expected change candidate nextRevision) (hf : Frame s s' c) :
    s'.Edits c id ns expected change candidate nextRevision where
  request := by rw [hf.call]; exact h.request
  gate := by rw [hf.state id h.gate]; exact h.gate
  attached := (hf.held id h.gate ns h.attached).1
  made := by rw [hf.state id h.gate]; exact h.made
  differs := by rw [hf.state id h.gate]; exact h.differs
  counts := by rw [hf.state id h.gate]; exact h.counts
  expects := by rw [hf.state id h.gate]; exact h.expects

theorem callOk_of_returned {outcome : Outcome} (h : (s.call c).phase = .returned outcome) :
    s.CallOk c := by
  unfold CallOk
  rw [h]
  trivial

/-- A call that does not move stays as it was. -/
theorem CallOk.frame (h : s.CallOk c) (hf : Frame s s' c) : s'.CallOk c := by
  unfold CallOk at h ⊢
  rw [hf.call]
  revert h
  cases (s.call c).phase with
  | registering => exact id
  | returned outcome => exact id
  | waiting id => exact fun h => lt_of_lt_of_le h hf.count
  | loading =>
    rintro ⟨hgate, r, hrequest, hfree⟩
    exact ⟨hf.registration hgate, r, hrequest, (hf.free hgate r.ns hfree).1⟩
  | loaded =>
    rintro ⟨hgate, r, hrequest, hfree, hmirrors⟩
    obtain ⟨hfree', hsection⟩ := hf.free hgate r.ns hfree
    exact ⟨hf.registration hgate, r, hrequest, hfree', by rw [hsection]; exact hmirrors⟩
  | reloading id =>
    rintro ⟨hgate, ns, hrequest, hns⟩
    exact ⟨by rw [hf.state id hgate]; exact hgate, ns, hrequest, (hf.held id hgate ns hns).1⟩
  | reloaded id =>
    rintro ⟨hgate, ns, hrequest, hns, hmirrors⟩
    obtain ⟨hns', hsection⟩ := hf.held id hgate ns hns
    exact ⟨by rw [hf.state id hgate]; exact hgate, ns, hrequest, hns',
      by rw [hsection]; exact hmirrors⟩
  | persisting =>
    rintro ⟨ns, expected, change, hedits⟩
    exact ⟨ns, expected, change, hedits.frame hf⟩
  | persisted id =>
    rintro ⟨ns, expected, change, hedits, hsection⟩
    have hkept := (hf.held id hedits.gate ns hedits.attached).2
    exact ⟨ns, expected, change, hedits.frame hf, by rw [hkept]; exact hsection⟩

/-! ## One step -/

section Step

variable {s : SettingsService} {c : Nat}

theorem Coherent.midway_gate (h : Coherent s) {id c : Nat}
    (hmidway : Phase.midway id (s.call c).phase) : (s.states id).gate = some c := by
  have hcall := h.calls c
  unfold CallOk at hcall
  cases hphase : (s.call c).phase with
  | persisted held =>
    rw [hphase] at hcall hmidway
    obtain rfl : held = id := hmidway
    obtain ⟨_, _, _, hedits, _⟩ := hcall
    exact hedits.gate
  | _ => rw [hphase] at hmidway; exact hmidway.elim

theorem Coherent.mirrors (h : Coherent s) {ns : String} {id : Nat}
    (hns : s.namespaces ns = some id)
    (hquiet : ∀ c, (s.states id).gate = some c → ¬ Phase.midway id (s.call c).phase) :
    Mirrors (s.states id) (s.sections ns) := by
  rcases h.agree ns id hns with ⟨c, hmidway⟩ | hmirrors
  · exact absurd hmidway (hquiet c (h.midway_gate hmidway))
  · exact hmirrors

variable {id : Nat} {ns : String} {phase : Phase} {resolved user : Value} {userPresent : Bool}

section

variable (h : Coherent s)

include h

/-- What call `c` may rely on when it is not between its two writes: a
registered state mirrors its section unless another call is. -/
theorem Coherent.agreeBut (hnot : ∀ id, ¬ Phase.midway id (s.call c).phase)
    (hns : s.namespaces ns = some id) :
    (∃ other, other ≠ c ∧ Phase.midway id (s.call other).phase)
      ∨ Mirrors (s.states id) (s.sections ns) := by
  rcases h.agree ns id hns with ⟨other, hmidway⟩ | hmirrors
  · refine .inl ⟨other, ?_, hmidway⟩
    rintro rfl
    exact hnot id hmidway
  · exact .inr hmirrors

theorem Coherent.ofFrame {s' : SettingsService}
    (hframe : ∀ c', c' ≠ c → Frame s s' c') (hown : s'.CallOk c)
    (hnamed : ∀ ns id, s'.namespaces ns = some id →
      id < s'.count ∧ (s'.states id).registration.ns = ns)
    (hunused : ∀ id, s'.count ≤ id → (s'.states id).gate = none)
    (hagree : ∀ ns id, s'.namespaces ns = some id →
      (∃ other, other ≠ c ∧ Phase.midway id (s.call other).phase)
        ∨ Phase.midway id (s'.call c).phase ∨ Mirrors (s'.states id) (s'.sections ns)) :
    Coherent s' where
  named := hnamed
  unused := hunused
  calls c' := by
    by_cases hne : c' = c
    · rw [hne]
      exact hown
    · exact (h.calls c').frame (hframe c' hne)
  agree ns id hns := by
    rcases hagree ns id hns with ⟨other, hne, hmidway⟩ | hmidway | hmirrors
    · exact .inl ⟨other, by rw [(hframe other hne).call]; exact hmidway⟩
    · exact .inl ⟨c, hmidway⟩
    · exact .inr hmirrors

theorem Coherent.setPhase {gate : Option Nat}
    (hgate : s.registrationGate = gate ∨ s.registrationGate = none ∨ s.registrationGate = some c)
    (hnot : ∀ id, ¬ Phase.midway id (s.call c).phase)
    (hown : CallOk { s.setPhase c phase with registrationGate := gate } c) :
    Coherent { s.setPhase c phase with registrationGate := gate } := by
  refine h.ofFrame (c := c) (fun c' hne => ?_) hown h.named h.unused fun ns id hns =>
    (h.agreeBut hnot hns).imp_right .inr
  refine { call := by simp [SettingsService.setPhase, hne], count := le_refl _
           registration := fun hheld => ?_, free := fun _ _ hfree => ⟨hfree, rfl⟩
           state := fun _ _ => rfl, held := fun _ _ _ hns => ⟨hns, rfl⟩ }
  rcases hgate with hgate | hgate | hgate <;> rw [hgate] at hheld
  · exact hheld
  · cases hheld
  · exact absurd (some.inj hheld).symm hne

/-- A change of one state by the call that has its gate. -/
theorem Coherent.setPhaseState {state : NamespaceState} (hlt : id < s.count)
    (hgate : (s.states id).gate = none ∨ (s.states id).gate = some c)
    (hnot : ∀ k ≠ id, ¬ Phase.midway k (s.call c).phase)
    (hregistration : state.registration = (s.states id).registration)
    (hmirrors : ∀ ns, s.namespaces ns = some id → Mirrors state (s.sections ns))
    (hown : ((s.setPhase c phase).setState id state).CallOk c) :
    Coherent ((s.setPhase c phase).setState id state) := by
  have hself : ((s.setPhase c phase).setState id state).states id = state := by simp [setState]
  have hother : ∀ k, k ≠ id → ((s.setPhase c phase).setState id state).states k = s.states k := by
    intro k hk
    simp [setState, SettingsService.setPhase, hk]
  refine h.ofFrame (c := c) (fun c' hne => ?_) hown (fun ns k hns => ?_) (fun k hk => ?_)
    (fun ns k hns => ?_)
  · refine { call := by simp [setState, SettingsService.setPhase, hne], count := le_refl _
             registration := fun hheld => hheld, free := fun _ _ hfree => ⟨hfree, rfl⟩
             state := fun k hheld => ?_, held := fun _ _ _ hns => ⟨hns, rfl⟩ }
    have hk : k ≠ id := by
      rintro rfl
      rcases hgate with hgate | hgate <;> rw [hgate] at hheld
      · cases hheld
      · exact hne (some.inj hheld).symm
    exact hother k hk
  · obtain ⟨hk, hname⟩ := h.named ns k hns
    refine ⟨hk, ?_⟩
    by_cases heq : k = id
    · rw [heq, hself, hregistration, ← heq]
      exact hname
    · rw [hother k heq]
      exact hname
  · have hne : k ≠ id := by
      rintro rfl
      exact absurd hlt (Nat.not_lt_of_le hk)
    rw [hother k hne]
    exact h.unused k hk
  · by_cases heq : k = id
    · subst heq
      rw [hself]
      exact .inr (.inr (hmirrors ns hns))
    · rw [hother k heq]
      rcases h.agree ns k hns with ⟨other, hmidway⟩ | hold
      · refine .inl ⟨other, ?_, hmidway⟩
        rintro rfl
        exact hnot k heq hmidway
      · exact .inr (.inr hold)

theorem Coherent.detached (hgate : (s.states id).gate = none)
    (hns : s.namespaces ns = some id) (hnot : ∀ id, ¬ Phase.midway id (s.call c).phase) :
    Coherent { s.returns c (.ok none) with
      namespaces := Function.update s.namespaces ns none } := by
  have hold : ∀ ns' k, Function.update s.namespaces ns none ns' = some k →
      s.namespaces ns' = some k := by
    intro ns' k hk
    by_cases heq : ns' = ns
    · subst heq
      simp at hk
    · simpa [heq] using hk
  refine h.ofFrame (c := c) (fun c' hne => ?_)
    (callOk_of_returned (by simp [returns, SettingsService.setPhase]; rfl))
    (fun ns' k hk => h.named ns' k (hold ns' k hk)) h.unused
    fun ns' k hk => (h.agreeBut hnot (hold ns' k hk)).imp_right .inr
  refine { call := by simp [returns, SettingsService.setPhase, hne], count := le_refl _
           registration := fun hheld => hheld, free := fun _ ns' hfree => ⟨?_, rfl⟩
           state := fun _ _ => rfl, held := fun k hheld ns' hk => ⟨?_, rfl⟩ }
  · by_cases heq : ns' = ns
    · simp [heq]
    · simpa [heq] using hfree
  · have heq : ns' ≠ ns := by
      rintro rfl
      obtain rfl : k = id := some.inj (hk.symm.trans hns)
      rw [hgate] at hheld
      cases hheld
    simpa [heq] using hk

/-- A registration puts a new state in. -/
theorem Coherent.registered {r : SettingsRegistration}
    (hgate : s.registrationGate = some c) (hfree : s.namespaces r.ns = none)
    (hmirrors : Mirrors (newState r user userPresent resolved) (s.sections r.ns))
    (hnot : ∀ id, ¬ Phase.midway id (s.call c).phase) :
    Coherent
      { (s.returns c (.ok none)).setState s.count (newState r user userPresent resolved) with
        namespaces := Function.update s.namespaces r.ns (some s.count)
        count := s.count + 1, registrationGate := none } := by
  set s' : SettingsService :=
    { (s.returns c (.ok none)).setState s.count (newState r user userPresent resolved) with
      namespaces := Function.update s.namespaces r.ns (some s.count)
      count := s.count + 1, registrationGate := none } with hs'
  have hnew : s'.states s.count = newState r user userPresent resolved := by simp [hs', setState]
  have hold : ∀ k, k ≠ s.count → s'.states k = s.states k := by
    intro k hk
    simp [hs', setState, returns, SettingsService.setPhase, hk]
  have hnames : ∀ ns k, s'.namespaces ns = some k →
      (ns = r.ns ∧ k = s.count) ∨ (s.namespaces ns = some k ∧ k < s.count) := by
    intro ns k hk
    by_cases heq : ns = r.ns
    · subst heq
      exact .inl ⟨rfl, by simpa [hs'] using hk.symm⟩
    · have hk' : s.namespaces ns = some k := by simpa [hs', heq] using hk
      exact .inr ⟨hk', (h.named ns k hk').1⟩
  refine h.ofFrame (c := c) (fun c' hne => ?_)
    (callOk_of_returned (by simp [hs', setState, returns, SettingsService.setPhase]; rfl))
    (fun ns k hk => ?_) (fun k hk => ?_) (fun ns k hk => ?_)
  · have hother : s.registrationGate ≠ some c' := by
      rw [hgate]
      exact fun hheld => hne (some.inj hheld).symm
    refine { call := by simp [hs', setState, returns, SettingsService.setPhase, hne]
             count := le_succ _
             registration := fun hheld => absurd hheld hother
             free := fun hheld => absurd hheld hother
             state := fun k hheld => hold k ?_
             held := fun k hheld ns hns => ⟨?_, rfl⟩ }
    · rintro rfl
      rw [h.unused _ (le_refl _)] at hheld
      cases hheld
    · have heq : ns ≠ r.ns := by
        rintro rfl
        rw [hfree] at hns
        cases hns
      simpa [hs', heq] using hns
  · rcases hnames ns k hk with ⟨rfl, rfl⟩ | ⟨hk', hlt⟩
    · exact ⟨lt_succ_self _, by rw [hnew]; rfl⟩
    · exact ⟨lt_succ_of_lt hlt, by rw [hold k (ne_of_lt hlt)]; exact (h.named ns k hk').2⟩
  · rw [hold k (ne_of_gt hk)]
    exact h.unused k (Nat.le_of_succ_le hk)
  · rcases hnames ns k hk with ⟨rfl, rfl⟩ | ⟨hk', hlt⟩
    · rw [hnew]
      exact .inr (.inr hmirrors)
    · rw [hold k (ne_of_lt hlt)]
      exact (h.agreeBut hnot hk').imp_right .inr

/-- A commit is persisted. -/
theorem Coherent.persisted {expected : Option Nat} {change : Change}
    {candidate : Value} {nextRevision : Nat}
    (hedits : s.Edits c id ns expected change candidate nextRevision)
    (hnot : ∀ id, ¬ Phase.midway id (s.call c).phase) :
    Coherent { s.setPhase c (.persisted id candidate resolved nextRevision) with
      sections := Function.update s.sections ns (some candidate) } := by
  refine h.ofFrame (c := c) (fun c' hne => ?_) ?_ h.named h.unused fun ns' k hk => ?_
  · refine { call := by simp [SettingsService.setPhase, hne], count := le_refl _
             registration := fun hheld => hheld, free := fun _ ns' hfree => ⟨hfree, ?_⟩
             state := fun _ _ => rfl, held := fun k hheld ns' hk => ⟨hk, ?_⟩ }
    · have heq : ns' ≠ ns := by
        rintro rfl
        rw [hedits.attached] at hfree
        cases hfree
      simp [heq]
    · have heq : ns' ≠ ns := by
        rintro rfl
        obtain rfl : k = id := some.inj (hk.symm.trans hedits.attached)
        exact hne (some.inj (hheld.symm.trans hedits.gate))
      simp [heq]
  · unfold CallOk
    simp only [SettingsService.setPhase, update_self]
    exact ⟨ns, expected, change, ⟨by simpa using hedits.request, hedits.gate, hedits.attached,
      hedits.made, hedits.differs, hedits.counts, hedits.expects⟩, by simp⟩
  · by_cases heq : ns' = ns
    · subst heq
      obtain rfl : k = id := some.inj (hk.symm.trans hedits.attached)
      exact .inr (.inl (by simp [SettingsService.setPhase, Phase.midway]))
    · refine (h.agreeBut hnot hk).imp_right fun hmirrors => .inr ?_
      simpa [SettingsService.setPhase, heq] using hmirrors

end

/-- The state whose gate a call waits for is registered under its
namespace. -/
def Attached (s : SettingsService) (c : Nat) : Prop :=
  ∀ id, (s.call c).phase = .waiting id → (s.states id).gate = none →
    s.namespaces (Request.ns (s.call c).request) = some id

section

variable (h : Coherent s)

include h

theorem Coherent.ns_unique {ns' : String} (hns : s.namespaces ns = some id)
    (hns' : s.namespaces ns' = some id) : ns' = ns :=
  (h.named ns' id hns').2.symm.trans (h.named ns id hns).2

theorem Coherent.take {phase : Phase} {id : Nat}
    (hphase : (s.call c).phase = .waiting id) (hgate : (s.states id).gate = none)
    (hown : ((s.setPhase c phase).setGate id (some c)).CallOk c) :
    Coherent ((s.setPhase c phase).setGate id (some c)) := by
  have hlt : id < s.count := by
    have hcall := h.calls c
    unfold CallOk at hcall
    rw [hphase] at hcall
    exact hcall
  refine h.setPhaseState hlt (.inl hgate) (by simp [hphase, Phase.midway]) rfl
    (fun ns hns => ?_) hown
  exact h.mirrors hns fun k hk => by rw [hgate] at hk; cases hk

theorem Coherent.release {outcome : Outcome} (hns : s.namespaces ns = some id)
    (hgate : (s.states id).gate = some c) (hnot : ∀ k, ¬ Phase.midway k (s.call c).phase) :
    Coherent ((s.returns c outcome).setGate id none) := by
  have hlt := (h.named ns id hns).1
  refine h.setPhaseState hlt (.inr hgate) (fun k _ => hnot k) rfl
    (fun ns' hns' => ?_) (callOk_of_returned (by simp [setState, SettingsService.setPhase]; rfl))
  refine h.mirrors hns' fun k hk => ?_
  obtain rfl : k = c := some.inj (hk.symm.trans hgate)
  exact hnot id

theorem Coherent.moveOn (hnot : ∀ id, ¬ Phase.midway id (s.call c).phase)
    (hown : (s.setPhase c phase).CallOk c) : Coherent (s.setPhase c phase) :=
  h.setPhase (.inl (rfl : s.registrationGate = s.registrationGate)) hnot hown

theorem Coherent.holds
    (hphase : (s.call c).phase = .reloading id
      ∨ (∃ user present resolved, (s.call c).phase = .reloaded id user present resolved)
      ∨ ∃ candidate resolved next, (s.call c).phase = .persisting id candidate resolved next) :
    (s.states id).gate = some c ∧ (∃ ns, s.namespaces ns = some id)
      ∧ ∀ k, ¬ Phase.midway k (s.call c).phase := by
  have hcall := h.calls c
  unfold CallOk at hcall
  rcases hphase with hphase | ⟨_, _, _, hphase⟩ | ⟨_, _, _, hphase⟩
  all_goals
    rw [hphase] at hcall ⊢
  · obtain ⟨hgate, ns, _, hns⟩ := hcall
    exact ⟨hgate, ⟨ns, hns⟩, fun _ h => h⟩
  · obtain ⟨hgate, ns, _, hns, _⟩ := hcall
    exact ⟨hgate, ⟨ns, hns⟩, fun _ h => h⟩
  · obtain ⟨ns, _, _, hedits⟩ := hcall
    exact ⟨hedits.gate, ⟨ns, hedits.attached⟩, fun _ h => h⟩

theorem Coherent.reload_same
    (hphase : (s.call c).phase = .reloaded id user userPresent resolved) :
    (s.states id).user = user ∧ (s.states id).userPresent = userPresent := by
  have hcall := h.calls c
  unfold CallOk at hcall
  rw [hphase] at hcall
  obtain ⟨hgate, _, _, hns, rfl, rfl⟩ := hcall
  refine h.mirrors hns fun k hk => ?_
  obtain rfl : k = c := some.inj (hk.symm.trans hgate)
  rw [hphase]
  exact fun hmidway => hmidway

/-- A step of a call whose state is still registered keeps the
invariant. -/
theorem Coherent.move {s' : SettingsService} (hattached : s.Attached c)
    (hmove : Move s c s') : Coherent s' := by
  have hcall := h.calls c
  unfold CallOk at hcall
  cases hmove with
  | stays => exact h
  | refused err hphase =>
    refine h.moveOn ?_ (callOk_of_returned (by simp [SettingsService.setPhase]; rfl))
    rcases hphase with hphase | ⟨_, hphase⟩ <;> simp [hphase, Phase.midway]
  | unchanged id ns expected change snapshot hphase =>
    exact h.moveOn (by simp [hphase, Phase.midway])
      (callOk_of_returned (by simp [SettingsService.setPhase]; rfl))
  | reserved r hphase hrequest hgate hfree =>
    refine h.setPhase (.inr (.inl hgate)) (by simp [hphase, Phase.midway]) ?_
    unfold CallOk
    simp only [SettingsService.setPhase, update_self]
    exact ⟨trivial, r, hrequest, hfree⟩
  | detached id ns hphase hrequest hgate =>
    have hns := hattached id hphase hgate
    rw [hrequest] at hns
    exact h.detached hgate hns (by simp [hphase, Phase.midway])
  | reloading id ns hphase hrequest hgate =>
    have hns := hattached id hphase hgate
    rw [hrequest] at hns
    refine h.take hphase hgate ?_
    unfold CallOk
    simp only [setGate, setState, SettingsService.setPhase, update_self]
    exact ⟨trivial, ns, hrequest, hns⟩
  | persisting id ns expected change candidate resolved nextRevision hphase hrequest hgate
      hprepare =>
      have hns := hattached id hphase hgate
      rw [hrequest] at hns
      obtain ⟨hmade, hdiffers, -, hcounts, hexpects⟩ := prepare_eq_persist hprepare
      refine h.take hphase hgate ?_
      unfold CallOk
      simp only [setGate, setState, SettingsService.setPhase, update_self]
      refine ⟨ns, expected, change, ?_⟩
      constructor <;> simp only [update_self] <;> assumption
  | notRegistered err hphase =>
    have hgate : s.registrationGate = some c := by
      rcases hphase with hphase | ⟨_, _, _, hphase⟩ <;> rw [hphase] at hcall
      · exact hcall.1
      · exact hcall.1
    refine h.setPhase (.inr (.inr hgate)) ?_
      (callOk_of_returned (by simp [SettingsService.setPhase]; rfl))
    rcases hphase with hphase | ⟨_, _, _, hphase⟩ <;> simp [hphase, Phase.midway]
  | loaded r user userPresent resolved hphase hrequest hadmitted =>
    rw [hphase] at hcall
    obtain ⟨hgate, r', hrequest', hfree⟩ := hcall
    obtain rfl : r = r' := by simpa using hrequest.symm.trans hrequest'
    obtain ⟨huser, hpresent, -⟩ := admitSection_eq_ok hadmitted
    refine h.moveOn (by simp [hphase, Phase.midway]) ?_
    unfold CallOk
    simp only [SettingsService.setPhase, update_self]
    exact ⟨hgate, r, hrequest, hfree, huser, hpresent⟩
  | registered r user userPresent resolved hphase hrequest =>
    rw [hphase] at hcall
    obtain ⟨hgate, r', hrequest', hfree, hmirrors⟩ := hcall
    obtain rfl : r = r' := by simpa using hrequest.symm.trans hrequest'
    exact h.registered hgate hfree hmirrors (by simp [hphase, Phase.midway])
  | abandoned id err hphase =>
    obtain ⟨hgate, ⟨_, hns⟩, hnot⟩ := h.holds hphase
    exact h.release hns hgate hnot
  | reloaded id ns user userPresent resolved hphase hrequest hadmitted =>
    rw [hphase] at hcall
    obtain ⟨hgate, ns', hrequest', hns⟩ := hcall
    obtain rfl : ns = ns' := by simpa using hrequest.symm.trans hrequest'
    obtain ⟨huser, hpresent, _⟩ := admitSection_eq_ok hadmitted
    refine h.moveOn (by simp [hphase, Phase.midway]) ?_
    unfold CallOk
    simp only [SettingsService.setPhase, update_self]
    exact ⟨hgate, ns, hrequest, hns, huser, hpresent⟩
  | kept id user userPresent resolved snapshot hphase =>
    obtain ⟨hgate, ⟨_, hns⟩, hnot⟩ := h.holds (.inr (.inl ⟨user, userPresent, resolved, hphase⟩))
    exact h.release hns hgate hnot
  | replaced id ns user userPresent resolved snapshot hphase hrequest hdiffers =>
    exact absurd (h.reload_same hphase) hdiffers
  | persisted id ns expected change candidate resolved nextRevision hphase hrequest =>
    rw [hphase] at hcall
    obtain ⟨ns', expected', change', hedits⟩ := hcall
    obtain ⟨rfl, rfl, rfl⟩ : ns = ns' ∧ expected = expected' ∧ change = change' := by
      simpa using hrequest.symm.trans hedits.request
    exact h.persisted hedits (by simp [hphase, Phase.midway])
  | committed id ns expected change candidate resolved nextRevision snapshot hphase =>
    rw [hphase] at hcall
    obtain ⟨_, _, _, hedits, hsection⟩ := hcall
    refine h.setPhaseState (h.named _ _ hedits.attached).1 (.inr hedits.gate) ?_ rfl
      (fun other hother => ?_)
      (callOk_of_returned (by simp [setState, SettingsService.setPhase]; rfl))
    · intro k hk hmidway
      rw [hphase] at hmidway
      exact hk hmidway.symm
    · obtain rfl := h.ns_unique hedits.attached hother
      rw [hsection]
      exact ⟨rfl, rfl⟩

end

end Step

end SettingsService

end Tessivum.Settings
