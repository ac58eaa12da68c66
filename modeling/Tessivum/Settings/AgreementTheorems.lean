/-
Tessivum.Settings.AgreementTheorems — settings in memory and in the provider
agree, and no update is lost, in every run in which a call that gets a state's
gate finds the state still registered.

`commit`, `reload` and `unregister` look their state up before they wait for
its gate, and none of them looks again. `attached` is the condition that the
state was not replaced meanwhile. Then every change of a section is a commit's
change of what was there, every change of a document counts one revision
(`Faithful`), and what a call has changed it reports.
-/
import Tessivum.Library.Machine
import Tessivum.Settings.CoherenceTheorems

namespace Tessivum.Settings

open Library Protocol

namespace SettingsService

/-! ## The condition -/

/-- The condition on a step: the state whose gate a call takes is still
the one registered under its namespace. -/
def attached (s : SettingsService) : SettingsStep → Bool
  | .enter c =>
    match (s.call c).phase with
    | .waiting id =>
      (s.states id).gate.isSome
        || s.namespaces (Request.ns (s.call c).request) == some id
    | _ => true
  | _ => true

/-! ## The invariant over runs -/

variable {c id nextRevision : Nat} {i : SettingsStep} {s s' : SettingsService}
  {candidate resolved : Value} {change : Change} {expected : Option Nat} {ns : String}

/-- Coherent, and no call stands where none was made. -/
structure Sound (s : SettingsService) : Prop extends Coherent s where
  idle : ∀ c, s.calls ≤ c → (s.call c).phase = .returned (.error .closed)

theorem fresh_sound (sections : String → Option Value) (writable : Bool) :
    Sound (fresh sections writable) where
  toCoherent := fresh_coherent sections writable
  idle _ _ := rfl

/-- A call begins. -/
theorem Sound.begin (h : Sound s) (request : Request) :
    Sound (s.begin request) where
  toCoherent := by
    have hnot : ∀ id, ¬ Phase.midway id (s.call s.calls).phase := by
      rw [h.idle _ (le_refl _)]
      exact fun _ hmidway => hmidway
    refine h.toCoherent.ofFrame (c := s.calls) (fun c' hne => ?_) ?_ h.named h.unused
      fun ns id hns => (h.toCoherent.agreeBut hnot hns).imp_right .inr
    · exact { call := by simp [SettingsService.begin, hne], count := le_refl _
              registration := fun hheld => hheld, free := fun _ _ hfree => ⟨hfree, rfl⟩
              state := fun _ _ => rfl, held := fun _ _ _ hns => ⟨hns, rfl⟩ }
    · unfold CallOk
      simp only [SettingsService.begin, update_self]
      cases hstart : s.start request with
      | error err => trivial
      | ok phase =>
        rcases start_cases hstart with rfl | ⟨ns, id, hns, rfl⟩
        · trivial
        · exact (h.named ns id hns).1
  idle c hc := by
    have hne : c ≠ s.calls := ne_of_gt hc
    simpa [SettingsService.begin, hne] using h.idle c (Nat.le_of_succ_le hc)

/-- The flags of the service are read by no clause. -/
theorem Sound.setFlags (h : Sound s) (closed writable : Bool) :
    Sound { s with closed, writable } where
  named := h.named
  unused := h.unused
  agree := h.agree
  idle := h.idle
  calls c := (h.calls c).frame
    { call := rfl, count := le_refl _, registration := fun hheld => hheld
      free := fun _ _ hfree => ⟨hfree, rfl⟩, state := fun _ _ => rfl
      held := fun _ _ _ hns => ⟨hns, rfl⟩ }

theorem attached_or_still (hcaller : caller i = some c) (hcond : s.attached i = true) :
    s.Attached c ∨ step s i = s := by
  by_cases hi : i = .enter c
  · left
    intro id hphase hgate
    rw [hi] at hcond
    simpa only [attached, hphase, hgate, Option.isSome_none, Bool.false_or, beq_iff_eq] using hcond
  · by_cases hwaiting : ∃ id, (s.call c).phase = .waiting id
    · obtain ⟨_, hphase⟩ := hwaiting
      exact .inr (step_of_waiting hcaller hphase hi)
    · exact .inl fun id hphase => absurd ⟨id, hphase⟩ hwaiting

/-- A step whose call finds its state still registered keeps the
invariant. -/
theorem Sound.step {s : SettingsService} {i : SettingsStep} (h : Sound s)
    (hcond : s.attached i = true) : Sound (step s i) := by
  cases hcaller : caller i with
  | none =>
    cases i with
    | begin request => exact h.begin request
    | shutdown => exact h.setFlags true s.writable
    | setWritable writable => exact h.setFlags s.closed writable
    | _ => cases hcaller
  | some c =>
    have hmove := s.step_move hcaller
    refine ⟨?_, fun c' hc' => ?_⟩
    · rcases attached_or_still hcaller hcond with hattached | hstill
      · exact h.toCoherent.move hattached hmove
      · rw [hstill]
        exact h.toCoherent
    · obtain ⟨hcalls, hothers⟩ := hmove.others
      rw [hcalls] at hc'
      by_cases hne : c' = c
      · subst hne
        rw [hmove.returned (h.idle c' hc')]
        exact h.idle c' hc'
      · rw [hothers c' hne]
        exact h.idle c' hc'

/-! ## What one step does to sections and documents -/

/-- Every section that changes is changed by a commit, which applies its
change to what was there; and every document that changes is a commit's
too, at the revision it expects, and counts one revision. -/
structure Faithful (s : SettingsService) (i : SettingsStep) : Prop where
  sections : ∀ ns, (step s i).sections ns = s.sections ns
    ∨ ∃ c expected change, caller i = some c
        ∧ (s.call c).request = .commit ns expected change
        ∧ (step s i).sections ns = some (change.apply ((s.sections ns).getD emptyDocument))
  documents : ∀ id < s.count,
    (((step s i).states id).user = (s.states id).user
      ∧ ((step s i).states id).revision = (s.states id).revision)
    ∨ (((step s i).states id).user ≠ (s.states id).user
      ∧ ((step s i).states id).revision = (s.states id).revision + 1
      ∧ ∃ c ns expected change, caller i = some c
        ∧ (s.call c).request = .commit ns expected change
        ∧ ∀ r, expected = some r → r = (s.states id).revision)

theorem step_of_no_caller (s : SettingsService) (h : caller i = none) :
    (step s i).sections = s.sections ∧ (step s i).states = s.states := by
  cases i with
  | begin request | shutdown | setWritable writable => exact ⟨rfl, rfl⟩
  | _ => cases h

theorem Coherent.edits (h : Coherent s) (hrequest : (s.call c).request = .commit ns expected change)
    (hphase : (s.call c).phase = .persisting id candidate resolved nextRevision
      ∨ (s.call c).phase = .persisted id candidate resolved nextRevision) :
    s.Edits c id ns expected change candidate nextRevision := by
  have hcall := h.calls c
  unfold CallOk at hcall
  rcases hphase with hphase | hphase <;> rw [hphase] at hcall
  · obtain ⟨ns', expected', change', hedits⟩ := hcall
    obtain ⟨rfl, rfl, rfl⟩ : ns = ns' ∧ expected = expected' ∧ change = change' := by
      simpa using hrequest.symm.trans hedits.request
    exact hedits
  · obtain ⟨ns', expected', change', hedits, _⟩ := hcall
    obtain ⟨rfl, rfl, rfl⟩ : ns = ns' ∧ expected = expected' ∧ change = change' := by
      simpa using hrequest.symm.trans hedits.request
    exact hedits

theorem Coherent.edits_mirrors (h : Coherent s)
    (hedits : s.Edits c id ns expected change candidate nextRevision)
    (hphase : (s.call c).phase = .persisting id candidate resolved nextRevision) :
    (s.states id).user = (s.sections ns).getD emptyDocument := by
  refine (h.mirrors hedits.attached fun k hk => ?_).1
  obtain rfl : k = c := some.inj (hk.symm.trans hedits.gate)
  rw [hphase]
  exact fun hmidway => hmidway

theorem Coherent.move_sections (h : Coherent s) (hmove : Move s c s') (ns : String) :
    s'.sections ns = s.sections ns
      ∨ ∃ expected change, (s.call c).request = .commit ns expected change
          ∧ s'.sections ns = some (change.apply ((s.sections ns).getD emptyDocument)) := by
  cases hmove with
  | persisted id other expected change candidate resolved nextRevision hphase hrequest =>
    by_cases heq : ns = other
    · subst heq
      have hedits := h.edits hrequest (.inl hphase)
      refine .inr ⟨expected, change, hrequest, ?_⟩
      simp [hedits.made, h.edits_mirrors hedits hphase]
    · exact .inl (by simp [heq])
  | _ => exact .inl rfl

/-- A move changes no document, or it is the commit of one. -/
theorem Coherent.move_states (h : Coherent s) (hmove : Move s c s') :
    (∀ k < s.count, (s'.states k).user = (s.states k).user
      ∧ (s'.states k).revision = (s.states k).revision)
    ∨ ∃ id ns expected change candidate nextRevision snapshot,
        s.Edits c id ns expected change candidate nextRevision
        ∧ (s'.states id).user = candidate ∧ (s'.states id).revision = nextRevision
        ∧ (∀ k, k ≠ id → s'.states k = s.states k)
        ∧ (s'.call c).phase = .returned (.ok snapshot) := by
  have hgate : ∀ phase id holder k,
      (((s.setPhase c phase).setGate id holder).states k).user = (s.states k).user
        ∧ (((s.setPhase c phase).setGate id holder).states k).revision = (s.states k).revision := by
    intro phase id holder k
    by_cases heq : k = id <;> simp [setGate, setState, SettingsService.setPhase, heq]
  cases hmove with
  | committed id ns expected change candidate resolved nextRevision snapshot hphase hrequest =>
    refine .inr ⟨id, ns, expected, change, candidate, nextRevision, snapshot,
      h.edits hrequest (.inr hphase), by simp [setState], by simp [setState], fun k hk => ?_, ?_⟩
    · simp [setState, returns, SettingsService.setPhase, hk]
    · simp [setState, returns, SettingsService.setPhase]
  | replaced id ns user userPresent resolved snapshot hphase hrequest hdiffers =>
    exact absurd (h.reload_same hphase) hdiffers
  | registered =>
    refine .inl fun k hk => ?_
    have hne : k ≠ s.count := ne_of_lt hk
    simp [setState, returns, SettingsService.setPhase, hne]
  | reloading
  | persisting
  | abandoned | kept =>
    exact .inl fun k _ => hgate _ _ _ k
  | _ => exact .inl fun _ _ => ⟨rfl, rfl⟩

/-- What the invariant says of one step. -/
theorem Sound.faithful (h : Sound s) (i : SettingsStep) : Faithful s i := by
  cases hcaller : caller i with
  | none =>
    obtain ⟨hsections, hstates⟩ := s.step_of_no_caller hcaller
    refine ⟨fun ns => .inl (by rw [hsections]), fun id _ => .inl ?_⟩
    rw [hstates]
    exact ⟨rfl, rfl⟩
  | some c =>
    have hmove := s.step_move hcaller
    refine ⟨fun ns => ?_, fun id hid => ?_⟩
    · rcases h.move_sections hmove ns with hsame | ⟨expected, change, hrequest, hnew⟩
      · exact .inl hsame
      · exact .inr ⟨c, expected, change, hcaller, hrequest, hnew⟩
    · rcases h.move_states hmove with
        hsame | ⟨k, ns, expected, change, _, _, _, hedits, huser, hrevision, hothers, _⟩
      · exact .inl (hsame id hid)
      · by_cases heq : id = k
        · subst heq
          refine .inr ⟨by rw [huser]; exact hedits.differs, hrevision.trans hedits.counts, c, ns,
            expected, change, hcaller, hedits.request, hedits.expects⟩
        · rw [hothers id heq]
          exact .inl ⟨rfl, rfl⟩

/-! ## What a call has changed, it reports -/

/-- The call has changed something and can only return that it has, or
has returned so. -/
def Phase.succeeds : Phase → Bool
  | .persisted _ _ _ _ => true
  | .returned (.ok _) => true
  | _ => false

theorem Coherent.move_settles (h : Coherent s) (hmove : Move s c s') :
    (s'.sections = s.sections ∧ ∀ k < s.count, (s'.states k).user = (s.states k).user)
      ∨ Phase.succeeds (s'.call c).phase = true := by
  rcases h.move_states hmove with
    hsame | ⟨_, _, _, _, _, _, snapshot, _, _, _, _, hphase⟩
  · cases hmove with
    | persisted =>
      exact .inr (by simp [SettingsService.setPhase, Phase.succeeds])
    | _ => exact .inl ⟨rfl, fun k hk => (hsame k hk).1⟩
  · exact .inr (by rw [hphase]; rfl)

theorem Move.succeeds (h : Move s c s') (hs : Phase.succeeds (s.call c).phase = true) :
    Phase.succeeds (s'.call c).phase = true := by
  cases h with
  | stays => exact hs
  | committed =>
    simp [setState, returns, setPhase, Phase.succeeds]
  | refused err hphase =>
    rcases hphase with hphase | ⟨_, hphase⟩ <;> simp [hphase, Phase.succeeds] at hs
  | notRegistered err hphase =>
    rcases hphase with hphase | ⟨_, _, _, hphase⟩ <;> simp [hphase, Phase.succeeds] at hs
  | abandoned id err hphase =>
    rcases hphase with hphase | ⟨_, _, _, hphase⟩ | ⟨_, _, _, hphase⟩ <;>
      simp [hphase, Phase.succeeds] at hs
  | _ => simp_all [Phase.succeeds]

/-- A call that has succeeded stays so. -/
theorem Sound.step_succeeds (h : Sound s) (i : SettingsStep)
    (hs : Phase.succeeds (s.call c).phase = true) :
    Phase.succeeds ((s.step i).call c).phase = true
      ∧ ((s.step i).call c).request = (s.call c).request := by
  cases hcaller : caller i with
  | none =>
    cases i with
    | begin request =>
      have hne : c ≠ s.calls := by
        rintro rfl
        rw [h.idle _ (le_refl _)] at hs
        cases hs
      simpa [SettingsService.step, SettingsService.begin, hne] using hs
    | shutdown | setWritable writable => exact ⟨hs, rfl⟩
    | _ => cases hcaller
  | some c' =>
    have hmove := s.step_move hcaller
    by_cases heq : c = c'
    · subst heq
      exact ⟨hmove.succeeds hs, hmove.request⟩
    · rw [hmove.others.2 c heq]
      exact ⟨hs, rfl⟩

/-! ## Whole runs -/

section Runs

variable {s : SettingsService}

def Undetached (s : SettingsService) (steps : List SettingsStep) : Prop :=
  Meets (fun s i => attached s i = true) step s steps

instance (s : SettingsService) (steps : List SettingsStep) : Decidable (s.Undetached steps) :=
  inferInstanceAs (Decidable (Meets (fun s i => attached s i = true) step s steps))

variable {steps earlier later : List SettingsStep} {c id r : Nat} {i : SettingsStep}
  {change : Change} {expected : Option Nat} {ns : String}

theorem Sound.run (h : Sound s) (hrun : s.Undetached steps) : Sound (s.runFrom steps) :=
  foldl_invariant_of_meets Sound (fun _ _ hcond h => h.step hcond) steps s hrun h

theorem runFrom_append (s : SettingsService) (xs ys : List SettingsStep) :
    s.runFrom (xs ++ ys) = (s.runFrom xs).runFrom ys := by
  simp [runFrom, List.foldl_append]

theorem Sound.run_succeeds (h : Sound s) (hrun : s.Undetached steps)
    (hs : Phase.succeeds (s.call c).phase = true) :
    Phase.succeeds ((s.runFrom steps).call c).phase = true :=
  (foldl_invariant_of_meets (fun s => Sound s ∧ Phase.succeeds (s.call c).phase = true)
    (fun _ i hcond h => ⟨h.1.step hcond, (h.1.step_succeeds i h.2).1⟩) steps s hrun ⟨h, hs⟩).2

/-- A step that makes a call fail changes no document. -/
theorem Sound.error_changes_nothing (h : Sound s) (hrun : s.Undetached (earlier ++ i :: later))
    {err : SettingsError} (hcaller : caller i = some c)
    (herror : ((s.runFrom (earlier ++ i :: later)).call c).phase = .returned (.error err)) :
    let before := s.runFrom earlier
    (before.step i).sections = before.sections
      ∧ ∀ id < before.count, ((before.step i).states id).user = (before.states id).user := by
  obtain ⟨hearlier, hi, hlater⟩ := meets_append.mp hrun
  have hbefore : Sound (s.runFrom earlier) := h.run hearlier
  rcases hbefore.move_settles ((s.runFrom earlier).step_move hcaller) with hsame | hsucceeds
  · exact hsame
  · have hend := (hbefore.step hi).run_succeeds hlater hsucceeds
    rw [runFrom_append] at herror
    have hlast : ((s.runFrom earlier).runFrom (i :: later)).call c
        = (((s.runFrom earlier).step i).runFrom later).call c := rfl
    rw [← hlast, herror] at hend
    cases hend

theorem count_le_step (s : SettingsService) (i : SettingsStep) : s.count ≤ (step s i).count := by
  cases hcaller : caller i with
  | none =>
    cases i with
    | begin request | shutdown | setWritable writable => exact le_refl _
    | _ => cases hcaller
  | some c => exact (s.step_move hcaller).count_le

/-- A revision that has passed does not come back. -/
theorem Sound.run_passed (h : Sound s) (hrun : s.Undetached steps) (hid : id < s.count)
    (hr : r < (s.states id).revision) :
    id < (s.runFrom steps).count ∧ r < ((s.runFrom steps).states id).revision := by
  refine (foldl_invariant_of_meets
    (fun s => Sound s ∧ id < s.count ∧ r < (s.states id).revision)
    (fun s i hcond hs => ?_) steps s hrun ⟨h, hid, hr⟩).2
  obtain ⟨hsound, hid, hr⟩ := hs
  refine ⟨hsound.step hcond, lt_of_lt_of_le hid (s.count_le_step i), ?_⟩
  rcases (hsound.faithful i).documents id hid with ⟨_, hsame⟩ | ⟨_, hgrown, _⟩
  · rw [hsame]
    exact hr
  · rw [hgrown]
    omega

/-- Of two commits on one expected revision one has no effect. -/
theorem Sound.expected_once (h : Sound s) {between : List SettingsStep} {j : SettingsStep}
    (hrun : s.Undetached (earlier ++ i :: (between ++ j :: later)))
    (hid : id < (s.runFrom earlier).count)
    (hfirst : ((s.runFrom (earlier ++ [i])).states id).user ≠ ((s.runFrom earlier).states id).user)
    (hsecond : ((s.runFrom (earlier ++ i :: between ++ [j])).states id).user
      ≠ ((s.runFrom (earlier ++ i :: between)).states id).user) :
    ¬ ((∃ c ns change, caller i = some c
          ∧ ((s.runFrom earlier).call c).request = .commit ns (some r) change)
        ∧ ∃ c ns change, caller j = some c
          ∧ ((s.runFrom (earlier ++ i :: between)).call c).request
            = .commit ns (some r) change) := by
  rintro ⟨⟨c, ns, change, hcaller, hrequest⟩, c', ns', change', hcaller', hrequest'⟩
  obtain ⟨hearlier, hi, hrest⟩ := meets_append.mp hrun
  obtain ⟨hbetween, hj, _⟩ := meets_append.mp hrest
  have hbefore : Sound (s.runFrom earlier) := h.run hearlier
  have hafter := hbefore.step hi
  have hmiddle := hafter.run hbetween
  have hsplit : s.runFrom (earlier ++ i :: between)
      = ((s.runFrom earlier).step i).runFrom between := by
    rw [runFrom_append]
    rfl
  have hsplit' : s.runFrom (earlier ++ i :: between ++ [j])
      = (((s.runFrom earlier).step i).runFrom between).step j := by
    rw [runFrom_append, hsplit]
    rfl
  rw [runFrom_append] at hfirst
  rw [hsplit', hsplit] at hsecond
  rw [hsplit] at hrequest'
  -- the first change leaves revision `r` behind
  rcases (hbefore.faithful i).documents id hid with ⟨hsame, _⟩ | ⟨_, hgrown, hcommit⟩
  · exact hfirst hsame
  · obtain ⟨k, _, _, _, hk, hkrequest, hexpects⟩ := hcommit
    obtain rfl : c = k := some.inj (hcaller.symm.trans hk)
    rw [hrequest] at hkrequest
    simp only [Request.commit.injEq] at hkrequest
    have hr : r = ((s.runFrom earlier).states id).revision := hexpects r hkrequest.2.1.symm
    have hid' := lt_of_lt_of_le hid ((s.runFrom earlier).count_le_step i)
    obtain ⟨hid'', hpassed⟩ := hafter.run_passed hbetween hid' (r := r) (by rw [hgrown]; omega)
    -- so the second cannot find it
    rcases (hmiddle.faithful j).documents id hid'' with ⟨hsame, _⟩ | ⟨_, _, hcommit'⟩
    · exact hsecond hsame
    · obtain ⟨k', _, _, _, hk', hkrequest', hexpects'⟩ := hcommit'
      obtain rfl : c' = k' := some.inj (hcaller'.symm.trans hk')
      rw [hrequest'] at hkrequest'
      simp only [Request.commit.injEq] at hkrequest'
      have hr' := hexpects' r hkrequest'.2.1.symm
      omega

/-- A commit that succeeds writes its change. -/
theorem Coherent.move_effect {s' : SettingsService} (h : Coherent s) (hattached : s.Attached c)
    (hmove : Move s c s') (hrequest : (s.call c).request = .commit ns expected change)
    (hbefore : Phase.succeeds (s.call c).phase = false)
    (hafter : Phase.succeeds (s'.call c).phase = true) :
    (s'.sections ns).getD emptyDocument
      = change.apply ((s.sections ns).getD emptyDocument) := by
  cases hmove with
  | stays => rw [hbefore] at hafter; cases hafter
  | unchanged id other expected' change' snapshot hphase hrequest' hgate hsame =>
    obtain ⟨rfl, rfl, rfl⟩ : ns = other ∧ expected = expected' ∧ change = change' := by
      simpa using hrequest.symm.trans hrequest'
    have hns : s.namespaces ns = some id := by
      have hfound := hattached id hphase hgate
      rw [hrequest] at hfound
      exact hfound
    have hmirrors := (h.mirrors hns fun k hk => by rw [hgate] at hk; cases hk).1
    show (s.sections ns).getD emptyDocument = _
    rw [← hmirrors, hsame]
  | persisted id other expected' change' candidate resolved nextRevision hphase hrequest' =>
    obtain ⟨rfl, rfl, rfl⟩ : ns = other ∧ expected = expected' ∧ change = change' := by
      simpa using hrequest.symm.trans hrequest'
    have hedits := h.edits hrequest (.inl hphase)
    simp [hedits.made, h.edits_mirrors hedits hphase]
  | committed id other expected' change' candidate resolved nextRevision snapshot hphase =>
    rw [hphase] at hbefore
    cases hbefore
  | kept id user userPresent resolved snapshot hphase =>
    have hcall := h.calls c
    unfold CallOk at hcall
    rw [hphase, hrequest] at hcall
    obtain ⟨_, _, hreload, _⟩ := hcall
    cases hreload
  | _ => simp_all [returns, SettingsService.setPhase, setGate, setState, Phase.succeeds]

/-- The step in which a commit succeeds. -/
theorem Sound.step_effect (h : Sound s) (hcond : s.attached i = true)
    (hbefore : Phase.succeeds (s.call c).phase = false)
    (hafter : Phase.succeeds ((s.step i).call c).phase = true)
    (hrequest : ((s.step i).call c).request = .commit ns expected change) :
    caller i = some c ∧ ((s.step i).sections ns).getD emptyDocument
      = change.apply ((s.sections ns).getD emptyDocument) := by
  cases hcaller : caller i with
  | none =>
    exfalso
    cases i with
    | begin request =>
      by_cases hc : c = s.calls
      · subst hc
        simp only [SettingsService.step, SettingsService.begin, update_self] at hafter
        cases hstart : s.start request with
        | error err => rw [hstart] at hafter; cases hafter
        | ok phase =>
          rw [hstart] at hafter
          rcases start_cases hstart with rfl | ⟨_, _, _, rfl⟩ <;> cases hafter
      · simp [SettingsService.step, SettingsService.begin, hc, hbefore] at hafter
    | shutdown | setWritable writable => exact absurd (hbefore.symm.trans hafter) (by simp)
    | _ => cases hcaller
  | some c' =>
    have hmove := s.step_move hcaller
    by_cases hc : c = c'
    · subst hc
      rw [hmove.request] at hrequest
      rcases attached_or_still hcaller hcond with hattached | hstill
      · exact ⟨rfl, h.move_effect hattached hmove hrequest hbefore hafter⟩
      · rw [hstill, hbefore] at hafter
        cases hafter
    · rw [hmove.others.2 c hc, hbefore] at hafter
      cases hafter

/-- A commit that has succeeded took effect in some step of the run. -/
theorem Sound.took_effect (h : Sound s) (hnone : ∀ c, Phase.succeeds (s.call c).phase = false)
    (steps : List SettingsStep) (hrun : s.Undetached steps)
    (hrequest : ((s.runFrom steps).call c).request = .commit ns expected change)
    (hsucceeds : Phase.succeeds ((s.runFrom steps).call c).phase = true) :
    ∃ earlier i later, steps = earlier ++ i :: later ∧ caller i = some c
      ∧ ((s.runFrom (earlier ++ [i])).sections ns).getD emptyDocument
        = change.apply (((s.runFrom earlier).sections ns).getD emptyDocument) := by
  induction steps using List.reverseRecOn with
  | nil =>
    rw [show (s.runFrom []).call c = s.call c from rfl, hnone c] at hsucceeds
    cases hsucceeds
  | append_singleton steps i ih =>
    obtain ⟨hearlier, hi, _⟩ := meets_append.mp hrun
    have hlast : s.runFrom (steps ++ [i]) = (s.runFrom steps).step i := by
      rw [runFrom_append]
      rfl
    have hsound : Sound (s.runFrom steps) := h.run hearlier
    by_cases hbefore : Phase.succeeds ((s.runFrom steps).call c).phase = true
    · have hkept : ((s.runFrom steps).call c).request = .commit ns expected change := by
        rw [← hrequest, hlast]
        exact (hsound.step_succeeds i hbefore).2.symm
      obtain ⟨earlier, j, later, rfl, hcaller, heffect⟩ := ih hearlier hkept hbefore
      exact ⟨earlier, j, later ++ [i], by simp, hcaller, heffect⟩
    · rw [not_eq_true] at hbefore
      rw [hlast] at hrequest hsucceeds
      obtain ⟨hcaller, heffect⟩ := hsound.step_effect hi hbefore hsucceeds hrequest
      exact ⟨steps, i, [], rfl, hcaller, by rw [hlast]; exact heffect⟩

end Runs

def Phase.isReturned : Phase → Bool
  | .returned _ => true
  | _ => false

/-- **Settings in memory and in the provider agree, with no lost update**,
in every run in which a call that gets a state's gate finds the state
still registered. When no call is in progress, every registered namespace
mirrors its section and resolves from it; every step is faithful; a call
that returns an error has changed nothing; no two calls that expect the
same revision change a document; and a commit that returned had its
effect on the section at some point, to be changed by later commits
only. -/
theorem settings_agree (sections : String → Option Value) (writable : Bool)
    (steps : List SettingsStep) (hrun : (fresh sections writable).Undetached steps) :
    let start := fresh sections writable
    let s := start.runFrom steps
    ((∀ c < s.calls, Phase.isReturned (s.call c).phase = true) →
      ∀ ns id, s.namespaces ns = some id → Mirrors (s.states id) (s.sections ns))
    ∧ (∀ ns id, s.namespaces ns = some id → (s.states id).resolved
        = resolve (s.states id).registration.defaults (s.states id).registration.base
            (s.states id).user)
    ∧ Meets Faithful step start steps
    ∧ (∀ earlier i later c err, steps = earlier ++ i :: later → caller i = some c →
        (s.call c).phase = .returned (.error err) →
        ((start.runFrom earlier).step i).sections = (start.runFrom earlier).sections
        ∧ ∀ id < (start.runFrom earlier).count,
          (((start.runFrom earlier).step i).states id).user
            = ((start.runFrom earlier).states id).user)
    ∧ (∀ earlier i between j later id r, steps = earlier ++ i :: (between ++ j :: later) →
        id < (start.runFrom earlier).count →
        ((start.runFrom (earlier ++ [i])).states id).user
          ≠ ((start.runFrom earlier).states id).user →
        ((start.runFrom (earlier ++ i :: between ++ [j])).states id).user
          ≠ ((start.runFrom (earlier ++ i :: between)).states id).user →
        ¬ ((∃ c ns change, caller i = some c
              ∧ ((start.runFrom earlier).call c).request = .commit ns (some r) change)
          ∧ ∃ c ns change, caller j = some c
              ∧ ((start.runFrom (earlier ++ i :: between)).call c).request
                = .commit ns (some r) change))
    ∧ ∀ c ns expected change snapshot, (s.call c).request = .commit ns expected change →
        (s.call c).phase = .returned (.ok snapshot) →
        ∃ earlier i later, steps = earlier ++ i :: later ∧ caller i = some c
          ∧ ((start.runFrom (earlier ++ [i])).sections ns).getD emptyDocument
            = change.apply (((start.runFrom earlier).sections ns).getD emptyDocument) := by
  intro start s
  have hstart : Sound start := fresh_sound sections writable
  have hsound : Sound s := hstart.run hrun
  refine ⟨fun hquiet ns id hns => ?_, fun ns id hns => ?_, ?_, ?_, ?_, ?_⟩
  · refine hsound.mirrors hns fun c _ hmidway => ?_
    have hreturned : Phase.isReturned (s.call c).phase = true := by
      by_cases hc : c < s.calls
      · exact hquiet c hc
      · rw [hsound.idle c (Nat.le_of_not_lt hc)]
        rfl
    revert hreturned hmidway
    cases (s.call c).phase <;> simp [Phase.isReturned, Phase.midway]
  · exact ((fresh_resolving sections writable).run steps).states id (hsound.named ns id hns).1
  · exact Meets.imp_of_invariant Sound (fun _ _ hcond h => h.step hcond)
      (fun _ i _ h => h.faithful i) steps start hrun hstart
  · rintro _ i _ c _ rfl hcaller herror
    exact hstart.error_changes_nothing hrun hcaller herror
  · rintro _ i _ j _ _ r rfl hid hfirst hsecond
    exact hstart.expected_once hrun hid hfirst hsecond
  · intro c ns expected change snapshot hrequest hphase
    exact hstart.took_effect (fun _ => rfl) steps hrun hrequest (by rw [hphase]; rfl)

def sampleRegistration : SettingsRegistration :=
  { ns := "demo", schema := emptyDocument, defaults := emptyDocument, base := emptyDocument
    applies := .live, secretPaths := [], validator := none }

/-- A whole registration, as call `c`. -/
def registerRun (c : Nat) : List SettingsStep :=
  [.begin (.register sampleRegistration), .enter c, .load c none, .finish c]

def setRun (field : String) : List SettingsStep :=
  [.begin (.commit "demo" none (.setPath [field] (.ofNat 1)))]

def commitRun (c : Nat) : List SettingsStep := [.enter c, .persist c none, .finish c]

/-- A registration and two commits. -/
theorem settings_agree_twoCommits :
    let s := (fresh (fun _ => none) true).runFrom
      (registerRun 0 ++ setRun "a" ++ setRun "b" ++ commitRun 2 ++ commitRun 1)
    (∀ c < s.calls, Phase.isReturned (s.call c).phase = true)
    ∧ ∀ ns id, s.namespaces ns = some id → Mirrors (s.states id) (s.sections ns) := by
  have h := settings_agree (fun _ => none) true
    (registerRun 0 ++ setRun "a" ++ setRun "b" ++ commitRun 2 ++ commitRun 1) (by decide +kernel)
  exact ⟨by decide +kernel, h.1 (by decide +kernel)⟩

/-- A commit waits for the gate of a state that is unregistered and
registered anew. It returns that field `a` is set; the registered document
does not have it although the section does, with no call in progress; and
the next commit drops it from the section. -/
theorem update_lost :
    let start := fresh (fun _ => none) true
    let s := start.runFrom (registerRun 0 ++ setRun "a" ++ [.begin (.unregister "demo"), .enter 2]
      ++ registerRun 3 ++ commitRun 1)
    let s' := s.runFrom (setRun "b" ++ commitRun 4)
    (s.calls = 4 ∧ (s.call 0).phase = .returned (.ok none)
      ∧ (s.call 1).phase = .returned (.ok (some ⟨"demo", 1, .object [("a", .ofNat 1)]⟩))
      ∧ (s.call 2).phase = .returned (.ok none) ∧ (s.call 3).phase = .returned (.ok none))
    ∧ (s.namespaces "demo" = some 1 ∧ (s.states 1).user = emptyDocument
      ∧ s.sections "demo" = some (.object [("a", .ofNat 1)]))
    ∧ (s'.call 4).phase = .returned (.ok (some ⟨"demo", 1, .object [("b", .ofNat 1)]⟩))
    ∧ s'.sections "demo" = some (.object [("b", .ofNat 1)]) := by
  decide +kernel

end SettingsService

end Tessivum.Settings
