/-
Tessivum.Bridge.WasmPolicyTheorems — what the registry of WASM policies
guarantees over every run.

`PoliciesSound` ties the three pieces of state together: the maps name unrevoked
entries only, the owners count the installed instances, and the count of an
entry is the number of its live leases. Each step keeps it. `Enforced` is
what follows for the callers.
-/
import Tessivum.Bridge.WasmPolicy
import Tessivum.Library.Machine

namespace Tessivum.Bridge

open Library Protocol List WasmPolicySystem Keyed

/-! ## The invariant -/

def WasmPolicySystem.instances (s : WasmPolicySystem) (pluginId : String) : Nat :=
  s.policies.countP fun x => (s.installed[x.2]?.map (·.pluginId)) == some pluginId

/-- An owner counts the instances of its plugin, all of one loader
entry. -/
def OwnerCounts (s : WasmPolicySystem) (pluginId : String) : Option WasmPluginOwner → Prop
  | none => s.instances pluginId = 0
  | some owner => owner.instances = s.instances pluginId ∧ 0 < owner.instances ∧
      ∀ x ∈ s.policies, ∀ policy, s.installed[x.2]? = some policy →
        policy.pluginId = pluginId → policy.entryId = owner.entryId

/-- What holds in every state. -/
structure PoliciesSound (s : WasmPolicySystem) : Prop where
  length : s.entries.length = s.installed.length
  keys : Keyed.Distinct s.policies
  /-- The map names unrevoked entries, each under its own instance. -/
  named : ∀ x ∈ s.policies, ∃ policy e, s.installed[x.2]? = some policy ∧
    s.entries[x.2]? = some e ∧ policy.instanceId = x.1 ∧ e.revoked = false
  /-- An entry keeps what it was installed with. -/
  kept : ∀ (k : Nat) (policy : WasmEffectivePolicy) (e : WasmPolicyEntry),
    s.installed[k]? = some policy → s.entries[k]? = some e →
    e.pluginId = policy.pluginId ∧ e.methods = policy.methods
  owners : ∀ pluginId, OwnerCounts s pluginId (s.owners pluginId)
  leases : ∀ k e, s.entries[k]? = some e → e.active = s.leases.count k
  leased : ∀ k ∈ s.leases, k < s.entries.length
  /-- A call of `revoke` past its first section has its instance gone. -/
  calls : ∀ k ∈ s.revoking, k < s.entries.length ∧ ∀ x ∈ s.policies, x.2 ≠ k
  dead : s.registryAlive = false → s.policies = []
  returned : ∀ k ∈ s.revoked, ∃ e, s.entries[k]? = some e ∧ e.revoked = true

/-- Nothing is installed at the start. -/
theorem start_policiesSound : PoliciesSound .start where
  length := rfl
  keys := nodup_nil
  named := nofun
  kept := nofun
  owners := fun _ => rfl
  leases := nofun
  leased := nofun
  calls := nofun
  dead := nofun
  returned := nofun

/-! ## One step -/

variable {k : Nat} {s : WasmPolicySystem} {owner : WasmPluginOwner} {policy : WasmEffectivePolicy}
  {x : String × Nat}

/-- An entry keeps its plugin and its methods. -/
theorem kept_modify (h : PoliciesSound s) {f : WasmPolicyEntry → WasmPolicyEntry}
    (hf : ∀ e, (f e).pluginId = e.pluginId ∧ (f e).methods = e.methods) :
    ∀ (j : Nat) (policy : WasmEffectivePolicy) (e : WasmPolicyEntry),
      s.installed[j]? = some policy → (s.entries.modify k f)[j]? = some e →
      e.pluginId = policy.pluginId ∧ e.methods = policy.methods := by
  intro j policy e hpolicy he
  obtain ⟨old, hold, rfl⟩ := getElem?_modify_eq_some.mp he
  have hkept := h.kept j policy old hpolicy hold
  split
  · exact ⟨(hf old).1.trans hkept.1, (hf old).2.trans hkept.2⟩
  · exact hkept

theorem checkInstall_ok (h : s.checkInstall policy = .ok owner) :
    policy.instanceId ∉ s.policies.map Prod.fst ∧
      countInstance (s.owners policy.pluginId) policy = .ok owner := by
  replace h := after_check h
  obtain ⟨hnew, h⟩ := check_bind_eq_ok.mp h
  have hnew := failIf_eq_ok.mp hnew
  rw [not_eq_true, isSome_eq_false_iff, isNone_iff_eq_none] at hnew
  exact ⟨lookup_eq_none.mp hnew, h⟩

theorem countInstance_ok {owner : Option WasmPluginOwner} {new : WasmPluginOwner}
    (h : countInstance owner policy = .ok new) :
    new.entryId = policy.entryId ∧
      (owner = none ∧ new.instances = 1 ∨
        ∃ old, owner = some old ∧ old.entryId = policy.entryId ∧
          new.instances = old.instances + 1) := by
  obtain ⟨hentry, h⟩ := check_bind_eq_ok.mp h
  replace h := after_check h
  have hentry := failIf_eq_ok.mp hentry
  cases h
  cases owner with
  | none => exact ⟨rfl, .inl ⟨rfl, rfl⟩⟩
  | some old =>
    have hsame : old.entryId = policy.entryId := by simpa using hentry
    exact ⟨hsame, .inr ⟨old, rfl, hsame, rfl⟩⟩

def newEntry (policy : WasmEffectivePolicy) : WasmPolicyEntry :=
  { pluginId := policy.pluginId, methods := policy.methods, revoked := false, active := 0 }

theorem PoliciesSound.bound (h : PoliciesSound s) (hx : x ∈ s.policies) :
    x.2 < s.entries.length := by
  obtain ⟨_, e, _, he, _⟩ := h.named x hx
  exact (List.getElem?_eq_some_iff.mp he).1

def WasmPolicySystem.withPolicy (s : WasmPolicySystem) (policy : WasmEffectivePolicy)
    (owner : WasmPluginOwner) : WasmPolicySystem :=
  { s with
    policies := s.policies ++ [(policy.instanceId, s.entries.length)]
    owners := Function.update s.owners policy.pluginId (some owner)
    entries := s.entries ++ [newEntry policy]
    installed := s.installed ++ [policy] }

theorem installed_withPolicy (h : PoliciesSound s) {p : WasmEffectivePolicy}
    (hx : x ∈ (s.withPolicy policy owner).policies)
    (hp : (s.withPolicy policy owner).installed[x.2]? = some p) :
    x ∈ s.policies ∧ s.installed[x.2]? = some p ∨ p = policy := by
  rcases getElem?_append_one.mp hp with hp | ⟨_, rfl⟩
  · rcases mem_append.mp hx with hx | hx
    · exact .inl ⟨hx, hp⟩
    · rw [mem_singleton.mp hx, h.length, getElem?_eq_none (le_refl _)] at hp
      cases hp
  · exact .inr rfl

theorem instances_withPolicy (h : PoliciesSound s) (policy : WasmEffectivePolicy)
    (owner : WasmPluginOwner) (pluginId : String) :
    (s.withPolicy policy owner).instances pluginId
      = s.instances pluginId + if policy.pluginId = pluginId then 1 else 0 := by
  have hold : (s.policies.countP fun x =>
    ((s.installed ++ [policy])[x.2]?.map (·.pluginId)) == some pluginId)
      = s.instances pluginId := by
    refine countP_congr fun x hx => ?_
    rw [getElem?_append_left (h.length ▸ h.bound hx)]
  rw [instances, WasmPolicySystem.withPolicy, countP_append, hold,
    countP_singleton, h.length, getElem?_concat_length]
  simp

/-- The owner of an installed policy counts it. -/
theorem ownerCounts_withPolicy (h : PoliciesSound s)
    (howner : countInstance (s.owners policy.pluginId) policy = .ok owner) (pluginId : String) :
    OwnerCounts (s.withPolicy policy owner) pluginId
      ((s.withPolicy policy owner).owners pluginId) := by
  obtain ⟨hentry, howner⟩ := countInstance_ok howner
  have hcount := instances_withPolicy h policy owner pluginId
  have hown := h.owners pluginId
  by_cases heq : policy.pluginId = pluginId
  · subst heq
    rw [if_pos rfl] at hcount
    have hself : (s.withPolicy policy owner).owners policy.pluginId = some owner :=
      update_self ..
    rw [hself]
    -- The first instance of its plugin, or one more under the same loader entry.
    rcases howner with ⟨hnone, hone⟩ | ⟨old, hsome, hsame, hone⟩
    · rw [hnone] at hown
      have hzero : s.instances policy.pluginId = 0 := hown
      refine ⟨by omega, by omega, fun x hx p hp hplugin => ?_⟩
      rcases installed_withPolicy h hx hp with ⟨hx, hp⟩ | rfl
      · exact absurd hzero (Nat.pos_iff_ne_zero.mp
          (countP_pos_iff.mpr ⟨x, hx, by simp [hp, hplugin]⟩))
      · exact hentry.symm
    · rw [hsome] at hown
      obtain ⟨hinstances, _, hall⟩ := hown
      refine ⟨by omega, by omega, fun x hx p hp hplugin => ?_⟩
      rcases installed_withPolicy h hx hp with ⟨hx, hp⟩ | rfl
      · rw [hall x hx p hp hplugin, hsame, hentry]
      · exact hentry.symm
  · rw [if_neg heq, Nat.add_zero] at hcount
    have hother : (s.withPolicy policy owner).owners pluginId = s.owners pluginId :=
      update_of_ne (Ne.symm heq) ..
    rw [hother]
    cases hsome : s.owners pluginId with
    | none =>
      rw [hsome] at hown
      exact hcount.trans hown
    | some old =>
      rw [hsome] at hown
      obtain ⟨hinstances, hpos, hall⟩ := hown
      refine ⟨hinstances.trans hcount.symm, hpos, fun x hx p hp hplugin => ?_⟩
      rcases installed_withPolicy h hx hp with ⟨hx, hp⟩ | rfl
      · exact hall x hx p hp hplugin
      · exact absurd hplugin heq

/-- An installation keeps the invariant. -/
theorem PoliciesSound.withPolicy (h : PoliciesSound s) (halive : s.registryAlive = true)
    (hnew : policy.instanceId ∉ s.policies.map Prod.fst)
    (howner : countInstance (s.owners policy.pluginId) policy = .ok owner) :
    PoliciesSound (s.withPolicy policy owner) where
  length := by
    simp only [WasmPolicySystem.withPolicy, length_append, length_singleton, h.length]
  keys := h.keys.append _ hnew
  named := fun x hx => by
    rcases mem_append.mp hx with hx | hx
    · obtain ⟨p, e, hp, he, hrest⟩ := h.named x hx
      exact ⟨p, e, getElem?_append_one.mpr (.inl hp),
        getElem?_append_one.mpr (.inl he), hrest⟩
    · rw [mem_singleton.mp hx]
      exact ⟨policy, newEntry policy, getElem?_append_one.mpr (.inr ⟨h.length, rfl⟩),
        getElem?_append_one.mpr (.inr ⟨rfl, rfl⟩), rfl, rfl⟩
  kept := fun k p e hp he => by
    rcases getElem?_append_one.mp hp with hp | ⟨rfl, rfl⟩
    · rcases getElem?_append_one.mp he with he | ⟨rfl, _⟩
      · exact h.kept k p e hp he
      · rw [h.length, getElem?_eq_none (le_refl _)] at hp
        cases hp
    · rcases getElem?_append_one.mp he with he | ⟨_, rfl⟩
      · rw [← h.length, getElem?_eq_none (le_refl _)] at he
        cases he
      · exact ⟨rfl, rfl⟩
  owners := ownerCounts_withPolicy h howner
  leases := fun k e he => by
    rcases getElem?_append_one.mp he with he | ⟨rfl, rfl⟩
    · exact h.leases k e he
    · exact (count_eq_zero.mpr fun hmem =>
        absurd (h.leased _ hmem) (lt_irrefl _)).symm
  leased := fun k hk => by
    rw [WasmPolicySystem.withPolicy, length_append]
    exact Nat.lt_add_right _ (h.leased k hk)
  calls := fun k hk => by
    obtain ⟨hlt, hgone⟩ := h.calls k hk
    rw [WasmPolicySystem.withPolicy, length_append]
    refine ⟨Nat.lt_add_right _ hlt, fun x hx => ?_⟩
    rcases mem_append.mp hx with hx | hx
    · exact hgone x hx
    · rw [mem_singleton.mp hx]
      exact ne_of_gt hlt
  dead := fun hdead => absurd hdead (by
    show ¬ s.registryAlive = false
    rw [halive]
    nofun)
  returned := fun k hk => by
    obtain ⟨e, he, hrevoked⟩ := h.returned k hk
    exact ⟨e, getElem?_append_one.mpr (.inl he), hrevoked⟩

theorem PoliciesSound.install (h : PoliciesSound s) (halive : s.registryAlive = true)
    (policy : WasmEffectivePolicy) : PoliciesSound (s.install policy) := by
  unfold WasmPolicySystem.install
  cases hcheck : s.checkInstall policy with
  | error => exact h
  | ok owner =>
    obtain ⟨hnew, howner⟩ := checkInstall_ok hcheck
    exact h.withPolicy halive hnew howner

theorem admit_eq_ok {e : WasmPolicyEntry} {pluginId service method : String} :
    e.admit pluginId service method = .ok () ↔
      (e.revoked = false ∧ e.pluginId = pluginId) ∧ { service, method } ∈ e.methods ∧
        e.active < usizeMax := by
  simp only [ WasmPolicyEntry.admit, check_bind_eq_ok, failIf_eq_ok, not_or, not_eq_true, not_not,
    Nat.not_lt, Nat.add_one_le_iff]

theorem authorize_ok {instanceId pluginId service method : String}
    (h : s.authorize instanceId pluginId service method = .ok k) :
    (instanceId, k) ∈ s.policies ∧ ∃ e, s.entries[k]? = some e ∧ e.revoked = false ∧
      e.pluginId = pluginId ∧ { service, method } ∈ e.methods := by
  unfold authorize at h
  split at h
  · cases h
  · rename_i hlookup
    split at h
    · cases h
    · rename_i e he
      cases hallowed : e.admit pluginId service method with
      | error err =>
        rw [hallowed] at h
        cases h
      | ok u =>
        rw [hallowed] at h
        cases h
        obtain ⟨hentry, hmethod, _⟩ := admit_eq_ok.mp hallowed
        exact ⟨mem_of_lookup hlookup, e, he, hentry.1, hentry.2, hmethod⟩

/-- A count that follows its leases keeps the invariant. -/
theorem PoliciesSound.countLease (h : PoliciesSound s) {leases : List Nat} (count : Nat → Nat)
    (hbound : ∀ j ∈ leases, j < s.entries.length)
    (hcount : ∀ j e, s.entries[j]? = some e →
      (if k = j then count e.active else e.active) = leases.count j) :
    PoliciesSound { s with
      leases
      entries := s.entries.modify k fun e => { e with active := count e.active } } where
  length := by rw [length_modify, h.length]
  keys := h.keys
  named := fun x hx => by
    obtain ⟨policy, e, hpolicy, he, hrest⟩ := h.named x hx
    refine ⟨policy, _, hpolicy, getElem?_modify_eq_some.mpr ⟨e, he, rfl⟩, ?_⟩
    split <;> exact hrest
  kept := kept_modify h fun _ => ⟨rfl, rfl⟩
  owners := h.owners
  leases := fun j e he => by
    obtain ⟨old, hold, rfl⟩ := getElem?_modify_eq_some.mp he
    rw [← hcount j old hold]
    split <;> rfl
  leased := fun j hj => by
    rw [length_modify]
    exact hbound j hj
  calls := fun j hj => by
    rw [length_modify]
    exact h.calls j hj
  dead := h.dead
  returned := fun j hj => by
    obtain ⟨e, he, hrevoked⟩ := h.returned j hj
    refine ⟨_, getElem?_modify_eq_some.mpr ⟨e, he, rfl⟩, ?_⟩
    split <;> exact hrevoked

/-- An admitted call is counted. -/
theorem PoliciesSound.lease (h : PoliciesSound s) (hk : k < s.entries.length) :
    PoliciesSound { s with
      leases := k :: s.leases
      entries := s.entries.modify k fun e => { e with active := e.active + 1 } } := by
  refine h.countLease (· + 1) (fun j hj => ?_) fun j e he => ?_
  · rcases mem_cons.mp hj with rfl | hj
    · exact hk
    · exact h.leased j hj
  · have hactive := h.leases j e he
    by_cases heq : k = j
    · rw [if_pos heq, heq, count_cons_self, hactive]
    · rw [if_neg heq, count_cons_of_ne heq, hactive]

/-- A lease that is dropped is counted off. -/
theorem PoliciesSound.dropLease (h : PoliciesSound s) (k : Nat) :
    PoliciesSound (s.dropLease k) := by
  unfold WasmPolicySystem.dropLease
  split
  · refine h.countLease (· - 1)
      (fun j hj => h.leased j (mem_of_mem_erase hj)) fun j e he => ?_
    have hactive := h.leases j e he
    by_cases heq : k = j
    · rw [if_pos heq, heq, count_erase_self, hactive]
    · rw [if_neg heq, count_erase_of_ne (Ne.symm heq), hactive]
  · exact h

/-- An entry that no policy names is revoked. -/
theorem PoliciesSound.mark (h : PoliciesSound s) (hk : ∀ x ∈ s.policies, x.2 ≠ k) :
    PoliciesSound (s.markRevoked k) where
  length := by rw [markRevoked, length_modify, h.length]
  keys := h.keys
  named := fun x hx => by
    obtain ⟨policy, e, hpolicy, he, hrest⟩ := h.named x hx
    refine ⟨policy, _, hpolicy, getElem?_modify_eq_some.mpr ⟨e, he, rfl⟩, ?_⟩
    rw [if_neg (Ne.symm (hk x hx))]
    exact hrest
  kept := kept_modify h fun _ => ⟨rfl, rfl⟩
  owners := h.owners
  leases := fun j e he => by
    obtain ⟨old, hold, rfl⟩ := getElem?_modify_eq_some.mp he
    rw [markRevoked, ← h.leases j old hold]
    split <;> rfl
  leased := fun j hj => by
    rw [markRevoked, length_modify]
    exact h.leased j hj
  calls := fun j hj => by
    rw [markRevoked, length_modify]
    exact h.calls j hj
  dead := h.dead
  returned := fun j hj => by
    obtain ⟨e, he, hrevoked⟩ := h.returned j hj
    refine ⟨_, getElem?_modify_eq_some.mpr ⟨e, he, rfl⟩, ?_⟩
    split
    · rfl
    · exact hrevoked

def WasmPolicySystem.uninstall (s : WasmPolicySystem) (policy : WasmEffectivePolicy) :
    WasmPolicySystem :=
  { s with
    policies := Keyed.without policy.instanceId s.policies
    owners := Function.update s.owners policy.pluginId
      (releaseInstance (s.owners policy.pluginId) policy.entryId) }

section

variable (h : PoliciesSound s)

include h

theorem instances_uninstall (hpolicy : s.installed[k]? = some policy)
    (hmem : (policy.instanceId, k) ∈ s.policies) (pluginId : String) :
    s.instances pluginId = (s.uninstall policy).instances pluginId
      + if policy.pluginId = pluginId then 1 else 0 := by
  rw [instances, countP_without _ h.keys hmem]
  simp only [hpolicy, map_some, beq_iff_eq, some.injEq]
  rfl

/-- The owner counts a policy less that was taken out. -/
theorem ownerCounts_uninstall (hpolicy : s.installed[k]? = some policy)
    (hmem : (policy.instanceId, k) ∈ s.policies) (pluginId : String) :
    OwnerCounts (s.uninstall policy) pluginId ((s.uninstall policy).owners pluginId) := by
  have hcount := instances_uninstall h hpolicy hmem pluginId
  have hown := h.owners pluginId
  have hkeep : ∀ {owner : WasmPluginOwner}, (∀ x ∈ s.policies, ∀ p, s.installed[x.2]? = some p →
      p.pluginId = pluginId → p.entryId = owner.entryId) →
      ∀ x ∈ (s.uninstall policy).policies, ∀ p, s.installed[x.2]? = some p →
        p.pluginId = pluginId → p.entryId = owner.entryId :=
    fun hall x hx => hall x (mem_without.mp hx).1
  by_cases heq : policy.pluginId = pluginId
  · subst heq
    rw [if_pos rfl] at hcount
    have hself : (s.uninstall policy).owners policy.pluginId
        = releaseInstance (s.owners policy.pluginId) policy.entryId := update_self ..
    rw [hself]
    cases hsome : s.owners policy.pluginId with
    | none =>
      rw [hsome] at hown
      have hzero : s.instances policy.pluginId = 0 := hown
      omega
    | some owner =>
      rw [hsome] at hown
      obtain ⟨hinstances, hpos, hall⟩ := hown
      rw [releaseInstance, if_pos (hall _ hmem policy hpolicy rfl).symm]
      split
      · show (s.uninstall policy).instances policy.pluginId = 0
        omega
      · rename_i hmore
        have hleft : owner.instances - 1 = (s.uninstall policy).instances policy.pluginId := by
          omega
        exact ⟨hleft, Nat.pos_iff_ne_zero.mpr hmore, hkeep hall⟩
  · rw [if_neg heq, Nat.add_zero] at hcount
    have hother : (s.uninstall policy).owners pluginId = s.owners pluginId :=
      update_of_ne (Ne.symm heq) ..
    rw [hother]
    cases hsome : s.owners pluginId with
    | none =>
      rw [hsome] at hown
      exact hcount.symm.trans hown
    | some owner =>
      rw [hsome] at hown
      obtain ⟨hinstances, hpos, hall⟩ := hown
      exact ⟨hinstances.trans hcount, hpos, hkeep hall⟩

/-- Taking a policy out keeps the invariant. -/
theorem PoliciesSound.uninstall (hpolicy : s.installed[k]? = some policy)
    (hmem : (policy.instanceId, k) ∈ s.policies) : PoliciesSound (s.uninstall policy) :=
  { h with
    keys := h.keys.without _
    named := fun x hx => h.named x (mem_without.mp hx).1
    owners := ownerCounts_uninstall h hpolicy hmem
    calls := fun j hj => ⟨(h.calls j hj).1, fun x hx =>
      (h.calls j hj).2 x (mem_without.mp hx).1⟩
    dead := fun hdead => by
      rw [WasmPolicySystem.uninstall, h.dead hdead]
      rfl }

theorem PoliciesSound.call (hk : k < s.entries.length)
    (hgone : ∀ x ∈ s.policies, x.2 ≠ k) : PoliciesSound { s with revoking := k :: s.revoking } :=
  { h with
    calls := fun j hj => by
      rcases mem_cons.mp hj with rfl | hj
      · exact ⟨hk, hgone⟩
      · exact h.calls j hj }

theorem PoliciesSound.own (hpolicy : s.installed[k]? = some policy)
    (hx : x ∈ s.policies) (hk : x.2 = k) : x = (policy.instanceId, k) := by
  obtain ⟨p, e, hp, _, hid, _⟩ := h.named x hx
  rw [hk, hpolicy] at hp
  cases hp
  exact Prod.ext hid.symm hk

/-- The first section of a `revoke`. -/
theorem PoliciesSound.revokeMaps (k : Nat) :
    PoliciesSound (s.revokeMaps k) := by
  unfold WasmPolicySystem.revokeMaps
  split
  · exact h
  · rename_i policy hpolicy
    have hk : k < s.entries.length := h.length ▸ (List.getElem?_eq_some_iff.mp hpolicy).1
    dsimp only
    split
    · rename_i hinstalled
      have hmem := mem_of_lookup hinstalled.2
      have hgone : ∀ x ∈ (s.uninstall policy).policies, x.2 ≠ k := fun x hx heq => by
        obtain ⟨hx, hne⟩ := mem_without.mp hx
        exact hne (congrArg Prod.fst (h.own hpolicy hx heq))
      exact ((h.uninstall hpolicy hmem).call hk hgone).mark hgone
    · rename_i hother
      refine h.call hk fun x hx heq => hother ⟨?_, ?_⟩
      · by_contra hdead
        rw [h.dead (not_eq_true _ ▸ hdead)] at hx
        cases hx
      · exact lookup_of_mem h.keys (h.own hpolicy hx heq ▸ hx)

/-- The second section of a `revoke`. -/
theorem PoliciesSound.revokeEntry (k : Nat) :
    PoliciesSound (s.revokeEntry k) := by
  unfold WasmPolicySystem.revokeEntry
  split
  · rename_i hk
    obtain ⟨hlt, hgone⟩ := h.calls k hk
    have hmark := h.mark hgone
    obtain ⟨e, he⟩ : ∃ e, s.entries[k]? = some e := ⟨_, getElem?_eq_getElem hlt⟩
    exact { hmark with
      calls := fun j hj => hmark.calls j (mem_of_mem_erase hj)
      returned := fun j hj => by
        rcases mem_cons.mp hj with rfl | hj
        · exact ⟨_, getElem?_modify_eq_some.mpr ⟨e, he, rfl⟩, by rw [if_pos rfl]⟩
        · exact hmark.returned j hj }
  · exact h

theorem PoliciesSound.dropRegistry :
    PoliciesSound { s with registryAlive := false, policies := [], owners := fun _ => none } :=
  { h with
    keys := nodup_nil
    named := nofun
    owners := fun _ => rfl
    calls := fun j hj => ⟨(h.calls j hj).1, nofun⟩
    dead := fun _ => rfl }

end

/-- One step of the registry. -/
theorem PoliciesSound.step {s : WasmPolicySystem} (h : PoliciesSound s) (i : WasmPolicyStep) :
    PoliciesSound (s.step i) := by
  cases i with
  | install policy =>
    simp only [WasmPolicySystem.step]
    split
    · rename_i halive
      exact h.install halive policy
    · exact h
  | authorize =>
    simp only [WasmPolicySystem.step]
    split
    · split
      · rename_i hok
        exact h.lease (h.bound (authorize_ok hok).1)
      · exact h
    · exact h
  | revokeMaps k => exact h.revokeMaps k
  | revokeEntry k => exact h.revokeEntry k
  | dropLease k => exact h.dropLease k
  | dropRegistry => exact h.dropRegistry

/-! ## Runs -/

theorem run_policiesSound (steps : List WasmPolicyStep) :
    PoliciesSound (start.run steps) :=
  foldlRecOn steps _ start_policiesSound fun _ h i _ => h.step i

/-- A returned `revoke` stays. -/
theorem revoked_step (h : k ∈ s.revoked) (i : WasmPolicyStep) : k ∈ (s.step i).revoked := by
  cases i with
  | install policy =>
    simp only [WasmPolicySystem.step, WasmPolicySystem.install]
    split
    · split <;> exact h
    · exact h
  | authorize =>
    simp only [WasmPolicySystem.step]
    split
    · split <;> exact h
    · exact h
  | revokeMaps j =>
    simp only [WasmPolicySystem.step, WasmPolicySystem.revokeMaps]
    split
    · exact h
    · split <;> exact h
  | revokeEntry j =>
    simp only [WasmPolicySystem.step, WasmPolicySystem.revokeEntry]
    split
    · exact mem_cons_of_mem _ h
    · exact h
  | dropLease j =>
    simp only [WasmPolicySystem.step, WasmPolicySystem.dropLease]
    split <;> exact h
  | dropRegistry => exact h

/-- What the registry guarantees in a state. -/
structure Enforced (s : WasmPolicySystem) : Prop where
  /-- A call is admitted under a policy for exactly that instance and
  plugin that grants exactly that method, and is not revoked. -/
  admitted : ∀ instanceId pluginId service method k,
    s.authorize instanceId pluginId service method = .ok k →
      ∃ policy e, s.installed[k]? = some policy ∧ s.entries[k]? = some e ∧
        (instanceId, k) ∈ s.policies ∧ policy.instanceId = instanceId ∧
        policy.pluginId = pluginId ∧ { service, method } ∈ policy.methods ∧
        e.revoked = false ∧ k ∉ s.revoked
  /-- A method that an installed policy grants is admitted, unless the
  policy is revoked or its count of calls is full. -/
  granted : ∀ policy k e service method,
    s.installed[k]? = some policy → (policy.instanceId, k) ∈ s.policies →
      s.entries[k]? = some e → e.revoked = false → { service, method } ∈ policy.methods →
      e.active < usizeMax →
        s.authorize policy.instanceId policy.pluginId service method = .ok k
  /-- Each plugin with instances has an owner that counts them. -/
  owners : ∀ pluginId, OwnerCounts s pluginId (s.owners pluginId)
  /-- An entry counts its live leases, so none is dropped uncounted. -/
  active : ∀ k e, s.entries[k]? = some e → e.active = s.leases.count k
  counted : ∀ k ∈ s.leases, ∃ e, s.entries[k]? = some e ∧ 0 < e.active
  /-- A drain that succeeds leaves no lease. -/
  drained : ∀ k, s.drain k = .ok () → k ∉ s.leases

/-- What the invariant says of a single state. -/
theorem PoliciesSound.enforced (h : PoliciesSound s) : Enforced s where
  admitted := fun instanceId pluginId service method k hok => by
    obtain ⟨hmem, e, he, hrevoked, hplugin, hmethod⟩ := authorize_ok hok
    obtain ⟨policy, _, hpolicy, _, hid, _⟩ := h.named _ hmem
    obtain ⟨hkept, hmethods⟩ := h.kept k policy e hpolicy he
    refine ⟨policy, e, hpolicy, he, hmem, hid, hkept ▸ hplugin, hmethods ▸ hmethod, hrevoked,
      fun hreturned => ?_⟩
    obtain ⟨_, hold, hold'⟩ := h.returned k hreturned
    rw [he] at hold
    cases hold
    rw [hrevoked] at hold'
    cases hold'
  granted := fun policy k e service method hpolicy hmem he hrevoked hmethod hroom => by
    obtain ⟨hplugin, hmethods⟩ := h.kept k policy e hpolicy he
    have hadmit : e.admit policy.pluginId service method = .ok () :=
      admit_eq_ok.mpr ⟨⟨hrevoked, hplugin⟩, hmethods ▸ hmethod, hroom⟩
    rw [authorize, lookup_of_mem h.keys hmem]
    simp only [he, hadmit, Except.map]
  owners := h.owners
  active := h.leases
  counted := fun k hk => by
    have hlt := h.leased k hk
    refine ⟨_, getElem?_eq_getElem hlt, ?_⟩
    rw [h.leases k _ (getElem?_eq_getElem hlt)]
    exact count_pos_iff.mpr hk
  drained := fun k hok hk => by
    have hlt := h.leased k hk
    rw [drain, getElem?_eq_getElem hlt] at hok
    have hzero := failIf_eq_ok.mp hok
    rw [not_not, h.leases k _ (getElem?_eq_getElem hlt)] at hzero
    exact absurd (count_pos_iff.mpr hk) (by omega)

/-- Over every run the registry enforces its policies, and once a `revoke`
has returned no later call is admitted under its installation. -/
theorem policies_enforced (steps : List WasmPolicyStep) :
    Enforced (WasmPolicySystem.start.run steps) ∧
      ∀ k ∈ (WasmPolicySystem.start.run steps).revoked, ∀ later instanceId pluginId service method,
        (WasmPolicySystem.start.run (steps ++ later)).authorize instanceId pluginId service method
          ≠ .ok k := by
  refine ⟨(run_policiesSound steps).enforced, fun k hk later instanceId pluginId service method
    hok => ?_⟩
  have hstays : k ∈ (start.run (steps ++ later)).revoked := by
    rw [run, foldl_append]
    exact @foldlRecOn _ _ (fun s => k ∈ s.revoked) later WasmPolicySystem.step _ hk
      fun _ h i _ => revoked_step h i
  obtain ⟨_, _, _, _, _, _, _, _, _, hnot⟩ :=
    (run_policiesSound (steps ++ later)).enforced.admitted _ _ _ _ _ hok
  exact hnot hstays

end Tessivum.Bridge
