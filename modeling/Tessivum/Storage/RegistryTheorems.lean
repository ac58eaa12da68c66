/-
Tessivum.Storage.RegistryTheorems — the invariant of the registry: a domain in
memory is its document in the backend, and a `shutdown` misses no domain.

It is kept by a step that persists nobody else's document and opens nothing
that a `shutdown` has missed (`Undisturbed`). What callers are told of it is in
Tessivum.Storage.AnswerTheorems.
-/
import Tessivum.Library.Machine
import Tessivum.Storage.Registry

namespace Tessivum.Storage

open Library Protocol List Keyed

/-! ## Changes of a document -/

/-- A write changes its own unit alone. -/
theorem get_change (op : WriteOp) (document : StorageDocument) (table unit : String) :
    (op.change document).get table unit
      = if table = op.table ∧ unit = op.unit then op.value else document.get table unit := by
  unfold WriteOp.change StorageDocument.get
  cases hvalue : op.value with
  | some value =>
    simp only [lookup_set]
    by_cases htable : table = op.table
    · rw [if_pos htable, bind_some, lookup_set, StorageDocument.units, ← htable]
      by_cases hunit : unit = op.unit
      · rw [if_pos hunit, if_pos ⟨rfl, hunit⟩]
      · rw [if_neg hunit, if_neg fun h => hunit h.2]
        cases document.tables.lookup table <;> rfl
    · rw [if_neg htable, if_neg fun h => htable h.1]
  | none =>
    dsimp only
    by_cases hnone : (document.tables.lookup op.table).isNone
    · rw [if_pos hnone]
      by_cases h : table = op.table ∧ unit = op.unit
      · rw [if_pos h, h.1, isNone_iff_eq_none.mp hnone]
        rfl
      · rw [if_neg h]
    · rw [if_neg hnone]
      obtain ⟨units, hunits⟩ := Option.ne_none_iff_exists'.mp
        (mt isNone_iff_eq_none.mpr hnone)
      have hrest : document.units op.table = units := by
        rw [StorageDocument.units, hunits]
        rfl
      dsimp only
      rw [hrest]
      by_cases htable : table = op.table
      · -- The table itself: what is left of it, or gone with its last unit.
        have hleft : (if (without op.unit units).isEmpty = true
            then without op.table document.tables
            else set op.table (without op.unit units) document.tables).lookup table
              = if (without op.unit units).isEmpty = true then none
                else some (without op.unit units) := by
          split
          · rw [lookup_without, if_pos htable]
          · rw [lookup_set, if_pos htable]
        have hget : ((if (without op.unit units).isEmpty = true then none
            else some (without op.unit units)).bind fun units => units.lookup unit)
              = (without op.unit units).lookup unit := by
          split
          · rename_i hempty
            rw [isEmpty_iff.mp hempty]
            rfl
          · rfl
        rw [hleft, hget, lookup_without, htable, hunits]
        by_cases hunit : unit = op.unit
        · rw [if_pos hunit, if_pos ⟨rfl, hunit⟩]
        · rw [if_neg hunit, if_neg fun h : op.table = op.table ∧ unit = op.unit => hunit h.2]
          rfl
      · have hother : (if (without op.unit units).isEmpty = true
            then without op.table document.tables
            else set op.table (without op.unit units) document.tables).lookup table
              = document.tables.lookup table := by
          split
          · rw [lookup_without, if_neg htable]
          · rw [lookup_set, if_neg htable]
        rw [hother, if_neg fun h : table = op.table ∧ unit = op.unit => htable h.1]

variable {commit : Commit} {d d' : KvDomain} {op : WriteOp} {k : Nat} {call : OpenCall}
  {document : StorageDocument}

/-- A write that goes on makes a change, and counts it. -/
theorem beginWrite_ok (h : d.beginWrite op = .ok (some commit)) :
    d.accepting = true ∧ op.change d.document ≠ d.document ∧
      commit = { op, document := op.change d.document, revision := d.revision + 1
                 persisted := false } := by
  replace h := after_check h
  replace h := after_check h
  obtain ⟨haccepting, h⟩ := check_bind_eq_ok.mp h
  replace h := after_check h
  have haccepting := failIf_eq_ok.mp haccepting
  rw [not_eq_true', not_eq_false] at haccepting
  refine ⟨haccepting, ?_⟩
  split at h
  · cases h
  · rename_i hchanges
    replace h := after_check h
    cases h
    exact ⟨fun heq => hchanges (congrArg StorageDocument.tables heq), rfl⟩

theorem change_version (op : WriteOp) (document : StorageDocument) :
    (op.change document).version = document.version := by
  unfold WriteOp.change
  split
  · rfl
  · split <;> rfl

/-- A write that returns at once has nothing to change. -/
theorem beginWrite_unchanged (h : d.beginWrite op = .ok none) : op.change d.document = d.document := by
  replace h := after_check h
  replace h := after_check h
  replace h := after_check h
  replace h := after_check h
  split at h
  · rename_i htables
    have hversion := change_version op d.document
    cases hchange : op.change d.document
    rw [hchange] at htables hversion
    cases htables
    cases hversion
    rfl
  · replace h := after_check h
    cases h

/-- A domain that was shut down refuses every write. -/
theorem beginWrite_closed (hclosed : d.accepting = false) (op : WriteOp) :
    ∃ err, d.beginWrite op = .error err := by
  cases h : d.beginWrite op with
  | error err => exact ⟨err, rfl⟩
  | ok answer =>
    replace h := after_check h
    replace h := after_check h
    obtain ⟨haccepting, _⟩ := check_bind_eq_ok.mp h
    have haccepting := failIf_eq_ok.mp haccepting
    rw [hclosed] at haccepting
    exact absurd rfl haccepting

/-! ## The last write of a unit -/

def Write.touches (w : Write) (backend : Nat) (name table unit : String) : Prop :=
  (backend = w.backend ∧ name = w.name) ∧ table = w.op.table ∧ unit = w.op.unit

instance (w : Write) (backend : Nat) (name table unit : String) :
    Decidable (w.touches backend name table unit) :=
  inferInstanceAs (Decidable ((_ ∧ _) ∧ _ ∧ _))

def lastWrite (log : List Write) (backend : Nat) (name table unit : String) :
    Option (Option Value) :=
  log.foldl (fun last w => if w.touches backend name table unit then some w.op.value else last) none

theorem lastWrite_append (log : List Write) (w : Write) (backend : Nat)
    (name table unit : String) :
    lastWrite (log ++ [w]) backend name table unit
      = if w.touches backend name table unit then some w.op.value
        else lastWrite log backend name table unit := by
  rw [lastWrite, foldl_append]
  rfl

def unitOf (disk : Nat → String → Option StorageDocument) (backend : Nat)
    (name table unit : String) : Option Value :=
  (disk backend name).bind fun document => document.get table unit

/-! ## Steps that disturb nobody -/

/-- No other domain, and no `open` that has loaded, has the document of the
domain `k`. -/
def StorageSystem.soleView (s : StorageSystem) (k : Nat) (d : KvDomain) : Bool :=
  s.domains.zipIdx.all (fun x => x.2 == k || !(x.1.backend == d.backend && x.1.name == d.name))
    && s.opening.all fun call =>
      call.loaded.isNone || !(call.backend == d.backend && call.domain == d.name)

/-- A `shutdown` has copied the map of domains. -/
def StorageSystem.mapCopied (s : StorageSystem) : Bool :=
  s.stopped || s.shutdowns.any fun call => call != .copying

/-- What is persisted is nobody else's document, and what is opened is not
missed by a `shutdown`. -/
def undisturbed (s : StorageSystem) : StorageStep → Bool
  | .persist k (.ok ()) =>
    match s.domains[k]? with
    | some d => s.soleView k d
    | none => true
  | .openFinish => !s.mapCopied
  | _ => true

def Undisturbed (s : StorageSystem) (i : StorageStep) : Prop := undisturbed s i = true

instance (s : StorageSystem) (i : StorageStep) : Decidable (Undisturbed s i) :=
  inferInstanceAs (Decidable (undisturbed s i = true))

theorem soleView_domain {s : StorageSystem} {j : Nat} (h : s.soleView k d = true)
    (hj : s.domains[j]? = some d') (hne : j ≠ k) :
    ¬ (d'.backend = d.backend ∧ d'.name = d.name) := by
  rw [StorageSystem.soleView, and_eq_true, all_eq_true] at h
  have hmem := h.1 (d', j) (mk_mem_zipIdx_iff_getElem?.mpr hj)
  rw [not_and_or]
  simpa [hne] using hmem

theorem soleView_opening {s : StorageSystem} (h : s.soleView k d = true)
    (hcall : s.opening = some call) (hloaded : call.loaded = some document) :
    ¬ (call.backend = d.backend ∧ call.domain = d.name) := by
  rw [StorageSystem.soleView, and_eq_true, hcall] at h
  rw [not_and_or]
  simpa [hloaded] using h.2

/-! ## The invariant -/

def storedIn (disk : Nat → String → Option StorageDocument) (d : KvDomain) : StorageDocument :=
  (disk d.backend d.name).getD (.empty d.document.version)

def KvDomain.persistedCommit (d : KvDomain) : Option Commit := d.writer.filter (·.persisted)

/-- A domain in memory and its document in the backend. -/
structure InView (disk : Nat → String → Option StorageDocument) (d : KvDomain) : Prop where
  plain : d.persistedCommit = none → d.document = storedIn disk d
  persisted : ∀ commit, d.persistedCommit = some commit →
    disk d.backend d.name = some commit.document
  writing : ∀ commit, d.writer = some commit →
    commit.revision = d.revision + 1 ∧ commit.document = commit.op.change d.document

/-- A domain with no write persisted has the units of its document. -/
theorem InView.unit {disk : Nat → String → Option StorageDocument} (h : InView disk d)
    (hnone : d.persistedCommit = none) (table unit : String) :
    d.document.get table unit = unitOf disk d.backend d.name table unit := by
  rw [h.plain hnone, storedIn, unitOf]
  cases disk d.backend d.name <;> rfl

def KvDomain.Quiet (d : KvDomain) : Prop := d.accepting = false ∧ d.writer = none

/-- What a `shutdown` has to close still. -/
def Shutdown.covers (call : Shutdown) (k : Nat) (d : KvDomain) : Prop :=
  match call with
  | .copying => True
  | .closing rest => k ∈ rest ∨ d.Quiet
  | .waiting j rest => k ∈ rest ∨ (k = j ∧ d.accepting = false) ∨ d.Quiet

structure Sound (disk : Nat → String → Option StorageDocument) (s : StorageSystem) : Prop where
  view : ∀ (k : Nat) (d : KvDomain), s.domains[k]? = some d → InView s.disk d
  loaded : ∀ call document, s.opening = some call → call.loaded = some document →
    document = (s.disk call.backend call.domain).getD (.empty call.version)
  revision : ∀ (k : Nat) (d : KvDomain), s.domains[k]? = some d →
    d.revision + (if d.persistedCommit.isSome then 1 else 0) = s.log.countP (·.domain == k)
  logged : ∀ w ∈ s.log, w.domain < s.domains.length
  kept : ∀ backend name table unit, unitOf s.disk backend name table unit
    = (lastWrite s.log backend name table unit).getD (unitOf disk backend name table unit)
  listed : ∀ k < s.domains.length, k ∈ s.opened.map (·.2)
  closing : ∀ call ∈ s.shutdowns, ∀ (k : Nat) (d : KvDomain), s.domains[k]? = some d →
    call.covers k d
  stopped : s.stopped = true → ∀ (k : Nat) (d : KvDomain), s.domains[k]? = some d → d.Quiet

/-- Nothing is open at the start. -/
theorem start_sound (disk : Nat → String → Option StorageDocument) : Sound disk (.start disk) where
  view := nofun
  loaded := nofun
  revision := nofun
  logged := nofun
  kept := fun _ _ _ _ => rfl
  listed := nofun
  closing := nofun
  stopped := nofun

/-! ## One step -/

/-- The write that is persisted, one more for the revision. -/
def KvDomain.counted (d : KvDomain) : Nat :=
  d.revision + if d.persistedCommit.isSome then 1 else 0

theorem Shutdown.covers_mono {call : Shutdown} (h : call.covers k d) (hquiet : d.Quiet → d'.Quiet)
    (haccepting : d.accepting = false → d'.accepting = false) : call.covers k d' := by
  cases call with
  | copying => trivial
  | closing rest => exact h.imp id hquiet
  | waiting j rest => exact h.imp id (Or.imp (And.imp id haccepting) hquiet)

variable {disk : Nat → String → Option StorageDocument} {s : StorageSystem}

/-- A change of one domain that stays in view. -/
theorem Sound.setDomain (h : Sound disk s) {f : KvDomain → KvDomain}
    (hview : ∀ d, s.domains[k]? = some d → InView s.disk (f d))
    (hcounted : ∀ d, s.domains[k]? = some d → (f d).counted = d.counted)
    (hquiet : ∀ d, s.domains[k]? = some d → d.Quiet → (f d).Quiet)
    (haccepting : ∀ d, s.domains[k]? = some d → d.accepting = false → (f d).accepting = false) :
    Sound disk (s.setDomain k f) := by
  have hcases : ∀ {j : Nat} {d : KvDomain}, (s.setDomain k f).domains[j]? = some d →
      ∃ old, s.domains[j]? = some old ∧ (j = k ∧ d = f old ∨ j ≠ k ∧ d = old) := by
    intro j d hd
    obtain ⟨old, hold, rfl⟩ := getElem?_modify_eq_some.mp hd
    refine ⟨old, hold, ?_⟩
    by_cases heq : k = j
    · exact .inl ⟨heq.symm, if_pos heq⟩
    · exact .inr ⟨Ne.symm heq, if_neg heq⟩
  exact { h with
    view := fun j d hd => by
      obtain ⟨old, hold, ⟨rfl, rfl⟩ | ⟨_, rfl⟩⟩ := hcases hd
      · exact hview old hold
      · exact h.view j d hold
    revision := fun j d hd => by
      obtain ⟨old, hold, ⟨rfl, rfl⟩ | ⟨_, rfl⟩⟩ := hcases hd
      · exact (hcounted old hold).trans (h.revision j old hold)
      · exact h.revision j d hold
    logged := fun w hw => by
      rw [StorageSystem.setDomain, length_modify]
      exact h.logged w hw
    listed := fun j hj => by
      rw [StorageSystem.setDomain, length_modify] at hj
      exact h.listed j hj
    closing := fun call hcall j d hd => by
      obtain ⟨old, hold, ⟨rfl, rfl⟩ | ⟨_, rfl⟩⟩ := hcases hd
      · exact Shutdown.covers_mono (h.closing call hcall j old hold) (hquiet old hold)
          (haccepting old hold)
      · exact h.closing call hcall j d hold
    stopped := fun hstopped j d hd => by
      obtain ⟨old, hold, ⟨rfl, rfl⟩ | ⟨_, rfl⟩⟩ := hcases hd
      · exact hquiet old hold (h.stopped hstopped j old hold)
      · exact h.stopped hstopped j d hold }

/-- A write takes the gate. -/
theorem Sound.write (h : Sound disk s) (hd : s.domains[k]? = some d) (hwriter : d.writer = none)
    (hok : d.beginWrite op = .ok (some commit)) :
    Sound disk (s.setDomain k fun d => { d with writer := some commit }) := by
  obtain ⟨haccepting, _, rfl⟩ := beginWrite_ok hok
  have hview := h.view k d hd
  refine h.setDomain (fun d' hd' => ?_) (fun d' hd' => ?_) (fun d' hd' hquiet => ?_)
    fun _ _ hclosed => hclosed
  all_goals cases hd.symm.trans hd'
  · refine ⟨fun _ => hview.plain (by rw [KvDomain.persistedCommit, hwriter]; rfl), nofun,
      fun commit hcommit => ?_⟩
    cases hcommit
    exact ⟨rfl, rfl⟩
  · rw [KvDomain.counted, KvDomain.counted, KvDomain.persistedCommit, KvDomain.persistedCommit,
      hwriter]
    rfl
  · rw [hquiet.1] at haccepting
    cases haccepting

/-- A write the backend refused lets the gate go. -/
theorem Sound.abandon (h : Sound disk s) (hd : s.domains[k]? = some d)
    (hwriter : d.writer = some commit) (hpersisted : commit.persisted = false) :
    Sound disk (s.setDomain k fun d => { d with writer := none }) := by
  have hnone : d.persistedCommit = none := by
    rw [KvDomain.persistedCommit, hwriter, filter_some, hpersisted]
    rfl
  refine h.setDomain (fun d' hd' => ?_) (fun d' hd' => ?_) (fun _ _ hquiet => ⟨hquiet.1, rfl⟩)
    fun _ _ hclosed => hclosed
  all_goals cases hd.symm.trans hd'
  · exact ⟨fun _ => (h.view k d hd).plain hnone, nofun, nofun⟩
  · rw [KvDomain.counted, KvDomain.counted, hnone]
    rfl

/-- A write that was persisted is taken over in memory. -/
theorem Sound.finish (h : Sound disk s) (k : Nat) : Sound disk (s.finish k).2 := by
  unfold StorageSystem.finish
  split
  · rename_i commit hcommit
    obtain ⟨d, hd, hwriter⟩ := bind_eq_some_iff.mp hcommit
    split
    · rename_i hpersisted
      have hsome : d.persistedCommit = some commit := by
        rw [KvDomain.persistedCommit, hwriter, filter_some, if_pos hpersisted]
      have hview := h.view k d hd
      refine h.setDomain (fun d' hd' => ?_) (fun d' hd' => ?_)
        (fun d' hd' hquiet => ⟨hquiet.1, rfl⟩) fun _ _ hclosed => hclosed
      all_goals cases hd.symm.trans hd'
      · refine ⟨fun _ => ?_, nofun, nofun⟩
        rw [storedIn, hview.persisted commit hsome]
        rfl
      · rw [KvDomain.counted, KvDomain.counted, hsome, (hview.writing commit hwriter).1]
        rfl
    · exact h
  · exact h

def persistTo (disk : Nat → String → Option StorageDocument) (d : KvDomain)
    (document : StorageDocument) : Nat → String → Option StorageDocument :=
  fun backend name =>
    if backend = d.backend ∧ name = d.name then some document else disk backend name

theorem persistTo_self (disk : Nat → String → Option StorageDocument) (d : KvDomain)
    (document : StorageDocument) :
    persistTo disk d document d.backend d.name = some document := if_pos ⟨rfl, rfl⟩

theorem InView.persistTo {d d' : KvDomain} {document : StorageDocument} (h : InView disk d')
    (hne : ¬ (d'.backend = d.backend ∧ d'.name = d.name)) :
    InView (Storage.persistTo disk d document) d' := by
  have hsame : Storage.persistTo disk d document d'.backend d'.name = disk d'.backend d'.name :=
    if_neg hne
  refine ⟨fun hnone => ?_, fun commit hcommit => hsame.trans (h.persisted commit hcommit),
    h.writing⟩
  rw [storedIn, hsame]
  exact h.plain hnone

/-- A write reaches the disk, where no other domain looks at it. -/
theorem Sound.persist (h : Sound disk s) {k : Nat} {d : KvDomain} {commit : Commit}
    (hd : s.domains[k]? = some d) (hwriter : d.writer = some commit)
    (hpersisted : commit.persisted = false) (hsole : s.soleView k d = true) :
    Sound disk { s.setDomain k fun d =>
      { d with writer := some { commit with persisted := true } } with
      disk := persistTo s.disk d commit.document
      log := s.log ++ [{ domain := k, backend := d.backend, name := d.name, op := commit.op }] } := by
  have hnone : d.persistedCommit = none := by
    rw [KvDomain.persistedCommit, hwriter, filter_some, hpersisted]
    rfl
  have hview := h.view k d hd
  obtain ⟨hrevision, hchange⟩ := hview.writing commit hwriter
  have hk : k < s.domains.length := (List.getElem?_eq_some_iff.mp hd).1
  have hcases : ∀ {j : Nat} {d' : KvDomain}, (s.domains.modify k fun d =>
    { d with writer := some { commit with persisted := true } })[j]? = some d' →
    j = k ∧ d' = { d with writer := some { commit with persisted := true } } ∨
      j ≠ k ∧ s.domains[j]? = some d' := by
    intro j d' hd'
    obtain ⟨_, hold, rfl⟩ := getElem?_modify_eq_some.mp hd'
    by_cases heq : k = j
    · subst heq
      cases hd.symm.trans hold
      exact .inl ⟨rfl, if_pos rfl⟩
    · exact .inr ⟨Ne.symm heq, by rw [if_neg heq]; exact hold⟩
  exact {
    view := fun j d' hd' => by
      rcases hcases hd' with ⟨rfl, rfl⟩ | ⟨hne, hold⟩
      · refine ⟨nofun, fun c hc => ?_, fun c hc => ?_⟩
        · cases hc
          exact persistTo_self ..
        · cases hc
          exact ⟨hrevision, hchange⟩
      · exact (h.view j d' hold).persistTo (soleView_domain hsole hold hne)
    loaded := fun call document hcall hloaded => by
      show document = (persistTo s.disk d commit.document call.backend call.domain).getD _
      rw [persistTo, if_neg (soleView_opening hsole hcall hloaded)]
      exact h.loaded call document hcall hloaded
    revision := fun j d' hd' => by
      show d'.counted = _
      rw [countP_append, countP_singleton]
      rcases hcases hd' with ⟨rfl, rfl⟩ | ⟨hne, hold⟩
      · rw [if_pos (beq_self_eq_true j), ← h.revision j d hd, hnone]
        rfl
      · rw [if_neg (by simpa using Ne.symm hne), Nat.add_zero]
        exact h.revision j d' hold
    logged := fun w hw => by
      rw [StorageSystem.setDomain, length_modify]
      rcases mem_append.mp hw with hw | hw
      · exact h.logged w hw
      · rw [mem_singleton.mp hw]
        exact hk
    kept := fun backend name table unit => by
      show unitOf (persistTo s.disk d commit.document) backend name table unit = _
      rw [lastWrite_append, unitOf, persistTo]
      have hkept := h.kept backend name table unit
      by_cases hdoc : backend = d.backend ∧ name = d.name
      · -- The document of the write: the unit it touches, or another one.
        have hold : d.document.get table unit = unitOf s.disk backend name table unit := by
          rw [hdoc.1, hdoc.2]
          exact hview.unit hnone table unit
        rw [if_pos hdoc, bind_some, hchange, get_change]
        by_cases hunit : table = commit.op.table ∧ unit = commit.op.unit
        · rw [if_pos hunit, if_pos ⟨hdoc, hunit⟩]
          rfl
        · rw [if_neg hunit, if_neg fun htouches : Write.touches _ _ _ _ _ => hunit htouches.2, hold]
          exact hkept
      · rw [if_neg hdoc, if_neg fun htouches : Write.touches _ _ _ _ _ => hdoc htouches.1]
        exact hkept
    listed := fun j hj => by
      rw [StorageSystem.setDomain, length_modify] at hj
      exact h.listed j hj
    closing := fun call hcall j d' hd' => by
      rcases hcases hd' with ⟨rfl, rfl⟩ | ⟨_, hold⟩
      · exact Shutdown.covers_mono (h.closing call hcall j d hd)
          (fun hquiet => absurd hquiet.2 (by rw [hwriter]; nofun)) id
      · exact h.closing call hcall j d' hold
    stopped := fun hstopped j d' hd' => by
      rcases hcases hd' with ⟨rfl, rfl⟩ | ⟨_, hold⟩
      · exact absurd (h.stopped hstopped j d hd).2 (by rw [hwriter]; nofun)
      · exact h.stopped hstopped j d' hold }

theorem openBegin_loaded {backendName domain : String} {version : Nat}
    (h : s.openBegin backendName domain version = .ok (.inr call)) : call.loaded = none := by
  replace h := after_check h
  replace h := after_check h
  replace h := after_check h
  replace h := after_check h
  split at h
  · replace h := after_check h
    cases h
  · split at h
    · cases h
    · cases h
      rfl

theorem check_ok (h : call.check document = .ok d) :
    document.version = call.version ∧
      d = { backend := call.backend, name := call.domain, document, revision := 0
            accepting := true, writer := none } := by
  replace h := after_check h
  obtain ⟨hversion, h⟩ := check_bind_eq_ok.mp h
  have hversion := failIf_eq_ok.mp hversion
  rw [ne_eq, not_not] at hversion
  cases h
  exact ⟨hversion, rfl⟩

/-- A domain that was loaded is put into the map. -/
theorem Sound.openFinish (h : Sound disk s) (hcopied : s.mapCopied = false) :
    Sound disk s.openFinish.2 := by
  rw [StorageSystem.mapCopied, or_eq_false_iff] at hcopied
  unfold StorageSystem.openFinish
  split
  · exact h
  · rename_i call hcall
    split
    · exact h
    · rename_i document hloaded
      split
      · exact { h with loaded := nofun }
      · rename_i hcheck
        obtain ⟨hversion, rfl⟩ := check_ok hcheck
        have hstored := h.loaded call document hcall hloaded
        refine {
          view := fun k d' hd' => ?_
          loaded := nofun
          revision := fun k d' hd' => ?_
          logged := fun w hw => ?_
          kept := h.kept
          listed := fun k hk => ?_
          closing := fun shutdown hmem k d' hd' => ?_
          stopped := fun hstopped => ?_ }
        · rcases getElem?_append_one.mp hd' with hold | ⟨_, rfl⟩
          · exact h.view k d' hold
          · refine ⟨fun _ => ?_, nofun, nofun⟩
            rw [storedIn, hversion]
            exact hstored
        · rcases getElem?_append_one.mp hd' with hold | ⟨rfl, rfl⟩
          · exact h.revision k d' hold
          · refine (countP_eq_zero.mpr fun w hw => ?_).symm
            have hlt := h.logged w hw
            simp only [beq_iff_eq]
            omega
        · rw [length_append]
          exact Nat.lt_add_right _ (h.logged w hw)
        · rw [length_append, length_singleton] at hk
          rw [map_append, mem_append]
          rcases Nat.lt_succ_iff_lt_or_eq.mp hk with hlt | rfl
          · exact .inl (h.listed k hlt)
          · exact .inr mem_cons_self
        · have hcopying : shutdown = .copying := by
            have hany := any_eq_false.mp hcopied.2 shutdown hmem
            simpa using hany
          rw [hcopying]
          trivial
        · rw [hcopied.1] at hstopped
          cases hstopped

/-- Each part of a shutdown. -/
theorem Sound.shutdownStep (h : Sound disk s) (i : Nat) : Sound disk (s.shutdownStep i).2 := by
  unfold StorageSystem.shutdownStep
  split
  · exact h
  · exact { h with
      closing := fun call hcall k d hd => by
        rcases mem_or_eq_of_mem_set hcall with hcall | rfl
        · exact h.closing call hcall k d hd
        · exact .inl (h.listed k (List.getElem?_eq_some_iff.mp hd).1) }
  · rename_i k rest hclosing
    have hmem : Shutdown.closing (k :: rest) ∈ s.shutdowns := mem_of_getElem? hclosing
    have hset : Sound disk (s.setDomain k fun d => { d with accepting := false }) :=
      h.setDomain (fun d hd => ⟨(h.view k d hd).plain, (h.view k d hd).persisted,
        (h.view k d hd).writing⟩) (fun _ _ => rfl) (fun _ _ hquiet => ⟨rfl, hquiet.2⟩)
        fun _ _ _ => rfl
    exact { hset with
      closing := fun call hcall j d hd => by
        rcases mem_or_eq_of_mem_set hcall with hcall | rfl
        · exact hset.closing call hcall j d hd
        · rcases hset.closing _ hmem j d hd with hin | hquiet
          · rcases mem_cons.mp hin with rfl | hin
            · obtain ⟨_, _, rfl⟩ := getElem?_modify_eq_some.mp hd
              exact .inr (.inl ⟨rfl, by rw [if_pos rfl]⟩)
            · exact .inl hin
          · exact .inr (.inr hquiet) }
  · rename_i hclosing
    have hmem : Shutdown.closing [] ∈ s.shutdowns := mem_of_getElem? hclosing
    exact { h with
      closing := fun call hcall => h.closing call (mem_of_mem_eraseIdx hcall)
      stopped := fun _ k d hd => (h.closing _ hmem k d hd).resolve_left nofun }
  · rename_i k rest hwaiting
    have hmem : Shutdown.waiting k rest ∈ s.shutdowns := mem_of_getElem? hwaiting
    split
    · rename_i hfree
      exact { h with
        closing := fun call hcall j d hd => by
          rcases mem_or_eq_of_mem_set hcall with hcall | rfl
          · exact h.closing call hcall j d hd
          · rcases h.closing _ hmem j d hd with hin | ⟨rfl, hclosed⟩ | hquiet
            · exact .inl hin
            · rw [hd, bind_some] at hfree
              exact .inr ⟨hclosed, isNone_iff_eq_none.mp hfree⟩
            · exact .inr hquiet }
    · exact h

/-- A load, answered or refused. -/
theorem Sound.openLoad (h : Sound disk s) (loads : Except StorageError Unit) :
    Sound disk (s.openLoad loads).2 := by
  unfold StorageSystem.openLoad
  split
  · exact h
  · split
    · exact h
    · split
      · exact { h with loaded := nofun }
      · exact { h with
          loaded := fun call document hcall hloaded => by
            cases hcall
            cases hloaded
            rfl }

/-- Every step that disturbs nobody keeps the invariant. -/
theorem Sound.step {i : StorageStep} (h : Sound disk s) (hi : Undisturbed s i) :
    Sound disk (s.step i) := by
  cases i with
  | registerBackend name backend =>
    simp only [StorageSystem.step, StorageSystem.advance]
    split
    · rename_i hnext
      replace hnext := after_check hnext
      replace hnext := after_check hnext
      replace hnext := after_check hnext
      cases hnext
      exact { h with }
    · exact h
  | openBegin =>
    simp only [StorageSystem.step, StorageSystem.advance]
    split
    · exact h
    · split
      · rename_i hcall
        exact { h with
          loaded := fun call' document hcall' hloaded => by
            cases hcall'
            rw [openBegin_loaded hcall] at hloaded
            cases hloaded }
      · exact h
      · exact h
  | openLoad loads => exact h.openLoad loads
  | openFinish =>
    refine h.openFinish ?_
    rw [Undisturbed, undisturbed, not_eq_true'] at hi
    exact hi
  | write k op =>
    simp only [StorageSystem.step, StorageSystem.advance, StorageSystem.write]
    split
    · exact h
    · rename_i hd
      split
      · exact h
      · rename_i hwriter
        split
        · exact h
        · exact h
        · rename_i hcommit
          exact h.write hd (not_isSome_iff_eq_none.mp hwriter) hcommit
  | persist k persists =>
    simp only [StorageSystem.step, StorageSystem.advance, StorageSystem.persist]
    split
    · exact h
    · rename_i hd
      split
      · exact h
      · rename_i hwriter
        split
        · exact h
        · rename_i hunpersisted
          rw [not_eq_true] at hunpersisted
          split
          · exact h.abandon hd hwriter hunpersisted
          · refine h.persist hd hwriter hunpersisted ?_
            simp only [Undisturbed, undisturbed, hd] at hi
            exact hi
  | finish k => exact h.finish k
  | close k =>
    exact h.setDomain (fun d hd => ⟨(h.view k d hd).plain, (h.view k d hd).persisted,
      (h.view k d hd).writing⟩) (fun _ _ => rfl) (fun _ _ hquiet => ⟨rfl, hquiet.2⟩)
      fun _ _ _ => rfl
  | shutdown =>
    exact { h with
      closing := fun call hcall k d hd => by
        rcases mem_append.mp hcall with hcall | hcall
        · exact h.closing call hcall k d hd
        · rw [mem_singleton.mp hcall]
          trivial }
  | shutdownStep i => exact h.shutdownStep i

end Tessivum.Storage
