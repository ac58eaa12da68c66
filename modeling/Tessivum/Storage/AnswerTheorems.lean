/-
Tessivum.Storage.AnswerTheorems — what the callers of the registry are told, in
any order of their calls.

A `put` or `remove` that succeeds holds its unit, in memory and in the backend,
until another write to it is persisted. One that fails has changed nothing. And
after a `shutdown` has returned none succeeds.

Two things go wrong. A backend object that is registered under two names gives
two `KvDomain`s for one document, and what one of them writes is overwritten by
the next write of the other (`write_is_lost`). And an `open` that awaits its
load while `shutdown` copies the map of domains puts in a domain that nobody
closes (`open_outlives_shutdown`).
-/
import Tessivum.Storage.RegistryTheorems

namespace Tessivum.Storage

open Library Protocol List Keyed

variable {commit : Commit} {d d' : KvDomain} {op : WriteOp} {k : Nat}
  {disk : Nat → String → Option StorageDocument} {s : StorageSystem}

/-! ## What a step does to one domain -/

/-- The answer, if it is one to a `put` or `remove` of the domain `k`. -/
def Answer.ofWrite (k : Nat) (answer : Answer) : Option (WriteOp × Except StorageError Unit) :=
  match answer.call with
  | .write j op => if j = k then some (op, answer.result) else none
  | _ => none

def StorageSystem.writeAnswer (s : StorageSystem) (k : Nat) (i : StorageStep) :
    Option (WriteOp × Except StorageError Unit) :=
  (s.answer i).bind (Answer.ofWrite k)

/-- A step of the registry, for the domain `k`: the answer to its writer, the
domain after it, and its document in the backend. -/
inductive Moved (s : StorageSystem) (k : Nat) (d : KvDomain) : StorageStep →
    Option (WriteOp × Except StorageError Unit) → KvDomain → Option StorageDocument → Prop where
  | elsewhere (i : StorageStep) (accepting : Bool) :
    Moved s k d i none { d with accepting } (s.disk d.backend d.name)
  | refused (op : WriteOp) (err : StorageError) (hwriter : d.writer = none) :
    Moved s k d (.write k op) (some (op, .error err)) d (s.disk d.backend d.name)
  | unchanged (op : WriteOp) (hwriter : d.writer = none) (h : op.change d.document = d.document) :
    Moved s k d (.write k op) (some (op, .ok ())) d (s.disk d.backend d.name)
  | begun (op : WriteOp) (hwriter : d.writer = none) (h : op.change d.document ≠ d.document) :
    Moved s k d (.write k op) none
      { d with writer := some { op, document := op.change d.document, revision := d.revision + 1
                                persisted := false } } (s.disk d.backend d.name)
  | persisted (commit : Commit) (hwriter : d.writer = some commit)
      (hcommit : commit.persisted = false) :
    Moved s k d (.persist k (.ok ())) none { d with writer := some { commit with persisted := true } }
      (some commit.document)
  | failed (commit : Commit) (err : StorageError) (hwriter : d.writer = some commit)
      (hcommit : commit.persisted = false) :
    Moved s k d (.persist k (.error err)) (some (commit.op, .error err)) { d with writer := none }
      (s.disk d.backend d.name)
  | finished (commit : Commit) (hwriter : d.writer = some commit)
      (hcommit : commit.persisted = true) :
    Moved s k d (.finish k) (some (commit.op, .ok ()))
      { d with document := commit.document, revision := commit.revision, writer := none }
      (s.disk d.backend d.name)

/-- The outcome of the step `i` moves the domain `k` by one of the rules. -/
def Moves (s : StorageSystem) (k : Nat) (d : KvDomain) (i : StorageStep)
    (outcome : Option Answer × StorageSystem) : Prop :=
  ∃ d', outcome.2.domains[k]? = some d' ∧
    Moved s k d i (outcome.1.bind (Answer.ofWrite k)) d' (outcome.2.disk d.backend d.name)

variable {i : StorageStep} {outcome : Option Answer × StorageSystem} {f : KvDomain → KvDomain}

/-- The answer is to another call, and the step goes past the domain. -/
theorem Moves.past (hd : s.domains[k]? = some d) (hanswer : outcome.1.bind (Answer.ofWrite k) = none)
    (hdomains : outcome.2.domains[k]? = s.domains[k]?)
    (hdisk : outcome.2.disk d.backend d.name = s.disk d.backend d.name) : Moves s k d i outcome :=
  ⟨d, hdomains.trans hd, by rw [hanswer, hdisk]; exact .elsewhere i d.accepting⟩

theorem setDomain_self (hd : s.domains[k]? = some d) (f : KvDomain → KvDomain) :
    (s.setDomain k f).domains[k]? = some (f d) := by
  simp [StorageSystem.setDomain, hd]

theorem setDomain_ne {j : Nat} (hne : j ≠ k) : (s.setDomain j f).domains[k]? = s.domains[k]? := by
  simp [StorageSystem.setDomain, hne]

@[simp] theorem setDomain_disk (k : Nat) (f : KvDomain → KvDomain) :
    (s.setDomain k f).disk = s.disk := rfl

/-- What a call that gets the gate does: it is refused, it has nothing to
change, or it goes on. -/
theorem write_free (hd : s.domains[k]? = some d) (hfree : d.writer = none) (op : WriteOp) :
    (∃ err, s.write k op = (some ⟨.write k op, .error err⟩, s)) ∨
      (op.change d.document = d.document ∧ s.write k op = (some ⟨.write k op, .ok ()⟩, s)) ∨
      (op.change d.document ≠ d.document ∧
        s.write k op = (none, s.setDomain k fun d' =>
          { d' with writer := some { op, document := op.change d.document
                                     revision := d.revision + 1, persisted := false } })) := by
  rw [StorageSystem.write, hd]
  dsimp only
  rw [hfree, if_neg (by decide)]
  cases hbegin : d.beginWrite op with
  | error err => exact .inl ⟨err, rfl⟩
  | ok begun =>
    cases begun with
    | none => exact .inr (.inl ⟨beginWrite_unchanged hbegin, rfl⟩)
    | some commit =>
      obtain ⟨_, hchange, rfl⟩ := beginWrite_ok hbegin
      exact .inr (.inr ⟨hchange, rfl⟩)

/-- What a call that asks for the gate does to a domain. -/
theorem write_moves (hd : s.domains[k]? = some d) (j : Nat) (op : WriteOp) :
    Moves s k d (.write j op) (s.write j op) := by
  by_cases heq : j = k
  · subst heq
    cases hwriter : d.writer with
    | some commit =>
      have hbusy : s.write j op = (none, s) := by
        rw [StorageSystem.write, hd]
        dsimp only
        rw [hwriter]
        exact if_pos rfl
      rw [hbusy]
      exact .past hd rfl rfl rfl
    | none =>
      rcases write_free hd hwriter op with ⟨err, h⟩ | ⟨hsame, h⟩ | ⟨hchange, h⟩
      all_goals rw [h]
      · exact ⟨d, hd, by simpa [Answer.ofWrite] using Moved.refused op err hwriter⟩
      · exact ⟨d, hd, by simpa [Answer.ofWrite] using Moved.unchanged op hwriter hsame⟩
      · exact ⟨_, setDomain_self hd _, Moved.begun op hwriter hchange⟩
  · unfold StorageSystem.write
    split
    · exact .past hd rfl rfl rfl
    · split
      · exact .past hd rfl rfl rfl
      · split
        · exact .past hd (if_neg heq) rfl rfl
        · exact .past hd (if_neg heq) rfl rfl
        · exact .past hd rfl (setDomain_ne heq) rfl

/-- What the backend answers to a write, undisturbed. -/
theorem persist_moves (hd : s.domains[k]? = some d) (j : Nat) (persists : Except StorageError Unit)
    (hi : Undisturbed s (.persist j persists)) :
    Moves s k d (.persist j persists) (s.persist j persists) := by
  unfold StorageSystem.persist
  split
  · exact .past hd rfl rfl rfl
  · rename_i owner howner
    split
    · exact .past hd rfl rfl rfl
    · rename_i commit hwriter
      split
      · exact .past hd rfl rfl rfl
      · rename_i hunpersisted
        rw [not_eq_true] at hunpersisted
        by_cases heq : j = k
        · subst heq
          cases hd.symm.trans howner
          split
          · exact ⟨_, setDomain_self hd _, by
              simpa [Answer.ofWrite] using Moved.failed commit _ hwriter hunpersisted⟩
          · refine ⟨_, setDomain_self hd _, ?_⟩
            dsimp only [Option.bind_none]
            rw [if_pos ⟨rfl, rfl⟩]
            exact Moved.persisted commit hwriter hunpersisted
        · split
          · exact .past hd (if_neg heq) (setDomain_ne heq) rfl
          · -- Its document is not the one that is persisted.
            simp only [Undisturbed, undisturbed, howner] at hi
            exact .past hd rfl (setDomain_ne heq)
              (if_neg (soleView_domain hi hd fun h => heq h.symm))

/-- A write that returns lets its gate go. -/
theorem finish_moves (hd : s.domains[k]? = some d) (j : Nat) :
    Moves s k d (.finish j) (s.finish j) := by
  unfold StorageSystem.finish
  split
  · rename_i commit hcommit
    obtain ⟨owner, howner, hwriter⟩ := bind_eq_some_iff.mp hcommit
    split
    · rename_i hpersisted
      by_cases heq : j = k
      · subst heq
        cases hd.symm.trans howner
        exact ⟨_, setDomain_self hd _, by
          simpa [Answer.ofWrite] using Moved.finished commit hwriter hpersisted⟩
      · exact .past hd (if_neg heq) (setDomain_ne heq) rfl
    · exact .past hd rfl rfl rfl
  · exact .past hd rfl rfl rfl

theorem close_moves (hd : s.domains[k]? = some d) (i : StorageStep) (j : Nat)
    (shutdowns : List Shutdown) :
    Moves s k d i
      (none, { s.setDomain j fun d => { d with accepting := false } with shutdowns }) := by
  by_cases heq : j = k
  · subst heq
    exact ⟨_, setDomain_self hd _, .elsewhere i false⟩
  · exact .past hd rfl (setDomain_ne heq) rfl

/-- A step that disturbs nobody moves every domain by one of the rules. -/
theorem advance_moves (hd : s.domains[k]? = some d) (hi : Undisturbed s i) :
    Moves s k d i (s.advance i) := by
  cases i with
  | registerBackend name backend =>
    simp only [StorageSystem.advance]
    split
    · rename_i hnext
      replace hnext := after_check hnext
      replace hnext := after_check hnext
      replace hnext := after_check hnext
      cases hnext
      exact .past hd rfl rfl rfl
    · exact .past hd rfl rfl rfl
  | openBegin =>
    simp only [StorageSystem.advance]
    split
    · exact .past hd rfl rfl rfl
    · split <;> exact .past hd rfl rfl rfl
  | openLoad =>
    simp only [StorageSystem.advance, StorageSystem.openLoad]
    split
    · exact .past hd rfl rfl rfl
    · split
      · exact .past hd rfl rfl rfl
      · split <;> exact .past hd rfl rfl rfl
  | openFinish =>
    simp only [StorageSystem.advance, StorageSystem.openFinish]
    split
    · exact .past hd rfl rfl rfl
    · split
      · exact .past hd rfl rfl rfl
      · split
        · exact .past hd rfl rfl rfl
        · exact .past hd rfl (getElem?_append_left (List.getElem?_eq_some_iff.mp hd).1) rfl
  | write j op => exact write_moves hd j op
  | persist j persists => exact persist_moves hd j persists hi
  | finish j => exact finish_moves hd j
  | close j => exact close_moves hd (.close j) j s.shutdowns
  | shutdown => exact .past hd rfl rfl rfl
  | shutdownStep i =>
    simp only [StorageSystem.advance, StorageSystem.shutdownStep]
    split
    · exact .past hd rfl rfl rfl
    · exact .past hd rfl rfl rfl
    · exact close_moves hd _ _ _
    · exact .past hd rfl rfl rfl
    · split <;> exact .past hd rfl rfl rfl

/-! ## Calls -/

/-- What the call that holds the gate of `k` returns, if it returns at the last
of the steps. -/
def StorageSystem.returned (k : Nat) : StorageSystem → List StorageStep →
    Option (WriteOp × Except StorageError Unit)
  | _, [] => none
  | s, i :: rest =>
    match s.writeAnswer k i with
    | none => returned k (s.step i) rest
    | some answer => if rest.isEmpty then some answer else none

/-- What a call has done that found the domain `d`, stored as `stored`, and
left `d'`, stored as `stored'`. -/
def Done (op : WriteOp) (d d' : KvDomain) (stored stored' : Option StorageDocument) :
    Except StorageError Unit → Prop
  | .ok () => d'.document = op.change d.document ∧
      d'.revision = d.revision + if op.change d.document = d.document then 0 else 1
  | .error _ => d'.document = d.document ∧ d'.revision = d.revision ∧ stored' = stored

/-- A call that got the gate of the domain `d` in the state `s` has returned
in the state `s'`. -/
def Settled (s s' : StorageSystem) (k : Nat) (op : WriteOp) (d : KvDomain)
    (result : Except StorageError Unit) : Prop :=
  ∃ d', s'.domains[k]? = some d' ∧ d'.writer = none ∧
    Done op d d' (s.disk d.backend d.name) (s'.disk d.backend d.name) result

/-- The call of `op` that found the domain `d`, stored as `stored`, is on its
way. -/
def Underway (k : Nat) (op : WriteOp) (d : KvDomain) (stored : Option StorageDocument)
    (s : StorageSystem) : Prop :=
  ∃ accepting persisted, s.domains[k]? = some { d with
      accepting
      writer := some { op, document := op.change d.document, revision := d.revision + 1
                       persisted } } ∧
    (persisted = false → s.disk d.backend d.name = stored)

variable {result : Except StorageError Unit} {answered : WriteOp}
  {stored : Option StorageDocument}

/-- A step leaves the call on its way, or it returns. -/
theorem underway_step (h : Underway k op d stored s) (hchange : op.change d.document ≠ d.document)
    (hi : Undisturbed s i) :
    (s.writeAnswer k i = none ∧ Underway k op d stored (s.step i)) ∨
      ∃ result d', s.writeAnswer k i = some (op, result) ∧
        (s.step i).domains[k]? = some d' ∧ d'.writer = none ∧
        Done op d d' stored ((s.step i).disk d.backend d.name) result := by
  obtain ⟨accepting, persisted, hd, hstored⟩ := h
  obtain ⟨d', hd', hmoved⟩ := advance_moves hd hi
  change Moved s k _ i (s.writeAnswer k i) d' ((s.step i).disk d.backend d.name) at hmoved
  change (s.step i).domains[k]? = some d' at hd'
  generalize hanswer : s.writeAnswer k i = answer at hmoved
  generalize hdisk : (s.step i).disk d.backend d.name = after at hmoved
  cases hmoved with
  | elsewhere i accepting => exact .inl ⟨rfl, accepting, persisted, hd', fun h => hdisk.trans (hstored h)⟩
  | refused _ _ hfree => cases hfree
  | unchanged _ hfree => cases hfree
  | begun _ hfree => cases hfree
  | persisted commit hwriter =>
    cases hwriter
    exact .inl ⟨rfl, accepting, true, hd', nofun⟩
  | failed commit err hwriter hcommit =>
    cases hwriter
    exact .inr ⟨_, _, rfl, hd', rfl, rfl, rfl, hstored hcommit⟩
  | finished commit hwriter =>
    cases hwriter
    exact .inr ⟨_, _, rfl, hd', rfl, rfl, by rw [if_neg hchange]⟩

theorem underway_returned (hchange : op.change d.document ≠ d.document) :
    ∀ (steps : List StorageStep) {s : StorageSystem}, Underway k op d stored s →
      Meets Undisturbed StorageSystem.step s steps →
      s.returned k steps = some (answered, result) →
      answered = op ∧ ∃ d', (s.run steps).domains[k]? = some d' ∧ d'.writer = none ∧
        Done op d d' stored ((s.run steps).disk d.backend d.name) result
  | [], _, _, _, hreturned => by cases hreturned
  | i :: rest, s, h, hrun, hreturned => by
    rw [StorageSystem.returned] at hreturned
    rcases underway_step h hchange hrun.1 with ⟨hnone, hnext⟩ | ⟨_, d', hsome, hd', hfree, hdone⟩
    · rw [hnone] at hreturned
      exact underway_returned hchange rest hnext hrun.2 hreturned
    · rw [hsome] at hreturned
      dsimp only at hreturned
      split at hreturned
      · rename_i hlast
        cases hreturned
        rw [isEmpty_iff.mp hlast]
        exact ⟨rfl, d', hd', hfree, hdone⟩
      · cases hreturned

/-- A call that gets the gate of a domain and returns has made its change and
counted it, or has changed nothing. -/
theorem call_settled (hd : s.domains[k]? = some d) (hfree : d.writer = none)
    (rest : List StorageStep)
    (hrun : Meets Undisturbed StorageSystem.step s (.write k op :: rest))
    (hreturned : s.returned k (.write k op :: rest) = some (answered, result)) :
    answered = op ∧ Settled s (s.run (.write k op :: rest)) k op d result := by
  have hwrite : s.writeAnswer k (.write k op) = (s.write k op).1.bind (Answer.ofWrite k) := rfl
  have hstep : s.step (.write k op) = (s.write k op).2 := rfl
  have hown : ∀ result, Answer.ofWrite k ⟨.write k op, result⟩ = some (op, result) :=
    fun result => if_pos rfl
  rw [StorageSystem.returned, hwrite] at hreturned
  rcases write_free hd hfree op with ⟨err, h⟩ | ⟨hsame, h⟩ | ⟨hchange, h⟩
  · rw [h, Option.bind_some, hown] at hreturned
    dsimp only at hreturned
    split at hreturned
    · rename_i hlast
      cases hreturned
      rw [isEmpty_iff.mp hlast, Settled, StorageSystem.run, foldl_cons, hstep, h]
      exact ⟨rfl, d, hd, hfree, rfl, rfl, rfl⟩
    · cases hreturned
  · rw [h, Option.bind_some, hown] at hreturned
    dsimp only at hreturned
    split at hreturned
    · rename_i hlast
      cases hreturned
      rw [isEmpty_iff.mp hlast, Settled, StorageSystem.run, foldl_cons, hstep, h]
      exact ⟨rfl, d, hd, hfree, hsame.symm, by rw [if_pos hsame]; rfl⟩
    · cases hreturned
  · rw [h, hstep, h] at hreturned
    have hunderway : Underway k op d (s.disk d.backend d.name) (s.step (.write k op)) := by
      rw [hstep, h]
      exact ⟨d.accepting, false, setDomain_self hd _, fun _ => rfl⟩
    exact underway_returned hchange rest hunderway hrun.2 (by rw [hstep, h]; exact hreturned)

/-! ## What a success holds -/

/-- The domain `k` has the value of `op` in its unit, in the backend and,
while no write is on its way, in memory. -/
def StorageSystem.Holds (s : StorageSystem) (k : Nat) (op : WriteOp) : Prop :=
  ∃ d, s.domains[k]? = some d ∧
    unitOf s.disk d.backend d.name op.table op.unit = op.value ∧
    (d.writer = none → d.document.get op.table op.unit = op.value)

/-- The step persists a write to the unit. -/
def overwrites (backend : Nat) (name table unit : String) (s : StorageSystem) : StorageStep → Bool
  | .persist k (.ok ()) =>
    match s.domains[k]? with
    | none => false
    | some d => d.backend == backend && d.name == name && d.writer.any fun commit =>
        !commit.persisted && commit.op.table == table && commit.op.unit == unit
  | _ => false

/-- No step persists a write to the unit of `op` in the document of `d`. -/
def Spares (d : KvDomain) (op : WriteOp) (s : StorageSystem) (i : StorageStep) : Prop :=
  overwrites d.backend d.name op.table op.unit s i = false

instance (d : KvDomain) (op : WriteOp) (s : StorageSystem) (i : StorageStep) :
    Decidable (Spares d op s i) := inferInstanceAs (Decidable (_ = _))

/-- The document of `d` in the backend has the value of `op` in its unit. -/
def KeepsUnit (d : KvDomain) (op : WriteOp) (k : Nat) (s : StorageSystem) : Prop :=
  unitOf s.disk d.backend d.name op.table op.unit = op.value ∧
    ∃ d', s.domains[k]? = some d' ∧ d'.backend = d.backend ∧ d'.name = d.name

/-- A unit that was written stays in memory and on disk until another write of
it. -/
theorem KeepsUnit.step (h : Sound disk s) (hkeeps : KeepsUnit d op k s) (hi : Undisturbed s i)
    (hspares : Spares d op s i) : KeepsUnit d op k (s.step i) := by
  obtain ⟨hunit, d', hd', hbackend, hname⟩ := hkeeps
  obtain ⟨next, hnext, hmoved⟩ := advance_moves hd' hi
  change Moved s k d' i (s.writeAnswer k i) next ((s.step i).disk d'.backend d'.name) at hmoved
  change (s.step i).domains[k]? = some next at hnext
  rw [hbackend, hname] at hmoved
  generalize s.writeAnswer k i = answer at hmoved
  have hsame : (s.step i).disk d.backend d.name = s.disk d.backend d.name →
      unitOf (s.step i).disk d.backend d.name op.table op.unit = op.value := fun heq => by
    rw [unitOf, heq]
    exact hunit
  generalize hstored : (s.step i).disk d.backend d.name = stored at hmoved
  rw [hstored] at hsame
  cases hmoved with
  | elsewhere => exact ⟨hsame (by rw [hbackend, hname]), _, hnext, hbackend, hname⟩
  | refused => exact ⟨hsame (by rw [hbackend, hname]), _, hnext, hbackend, hname⟩
  | unchanged => exact ⟨hsame (by rw [hbackend, hname]), _, hnext, hbackend, hname⟩
  | begun => exact ⟨hsame (by rw [hbackend, hname]), _, hnext, hbackend, hname⟩
  | failed => exact ⟨hsame (by rw [hbackend, hname]), _, hnext, hbackend, hname⟩
  | finished => exact ⟨hsame (by rw [hbackend, hname]), _, hnext, hbackend, hname⟩
  | persisted commit hwriter hcommit =>
    refine ⟨?_, _, hnext, hbackend, hname⟩
    have hview := h.view k d' hd'
    have hother : ¬ (op.table = commit.op.table ∧ op.unit = commit.op.unit) := by
      rintro ⟨htable, hunit⟩
      simp [Spares, overwrites, hd', hbackend, hname, hwriter, hcommit, htable, hunit] at hspares
    have hnone : d'.persistedCommit = none := by
      rw [KvDomain.persistedCommit, hwriter, filter_some, hcommit]
      rfl
    rw [unitOf, hstored, bind_some, (hview.writing commit hwriter).2, get_change, if_neg hother,
      hview.unit hnone, hbackend, hname]
    exact hunit

theorem Sound.holds (h : Sound disk s) (hkeeps : KeepsUnit d op k s) : s.Holds k op := by
  obtain ⟨hunit, d', hd', hbackend, hname⟩ := hkeeps
  have hstored : unitOf s.disk d'.backend d'.name op.table op.unit = op.value := by
    rw [hbackend, hname]
    exact hunit
  refine ⟨d', hd', hstored, fun hwriter => ?_⟩
  rw [(h.view k d' hd').unit (by rw [KvDomain.persistedCommit, hwriter]; rfl)]
  exact hstored

/-- A success leaves the value in the unit. -/
theorem success_keepsUnit (h : Sound disk s) (hi : Undisturbed s i) (hd : s.domains[k]? = some d)
    (hanswer : s.answer i = some ⟨.write k op, .ok ()⟩) : KeepsUnit d op k (s.step i) := by
  obtain ⟨d', hd', hmoved⟩ := advance_moves hd hi
  have hwrite : s.writeAnswer k i = some (op, .ok ()) := by
    rw [StorageSystem.writeAnswer, hanswer]
    exact if_pos rfl
  change Moved s k d i (s.writeAnswer k i) d' ((s.step i).disk d.backend d.name) at hmoved
  change (s.step i).domains[k]? = some d' at hd'
  have hnext := h.step hi
  rw [hwrite] at hmoved
  generalize (s.step i).disk d.backend d.name = stored at hmoved
  -- It had nothing to change, or it has put its document in place.
  have hsettled : d'.backend = d.backend ∧ d'.name = d.name ∧ d'.writer = none ∧
      d'.document = op.change d.document := by
    cases hmoved with
    | unchanged _ hwriter hsame => exact ⟨rfl, rfl, hwriter, hsame.symm⟩
    | finished commit hwriter => exact ⟨rfl, rfl, rfl, ((h.view k d hd).writing commit hwriter).2⟩
  obtain ⟨hbackend, hname, hwriter, hdocument⟩ := hsettled
  refine ⟨?_, d', hd', hbackend, hname⟩
  rw [← hbackend, ← hname,
    ← (hnext.view k d' hd').unit (by rw [KvDomain.persistedCommit, hwriter]; rfl), hdocument,
    get_change, if_pos ⟨rfl, rfl⟩]

/-- A success holds its unit until another write to it is persisted. -/
theorem success_holds (h : Sound disk s) (hi : Undisturbed s i) (hd : s.domains[k]? = some d)
    (hanswer : s.answer i = some ⟨.write k op, .ok ()⟩) {after : List StorageStep}
    (hafter : Meets Undisturbed StorageSystem.step (s.step i) after)
    (hspares : Meets (Spares d op) StorageSystem.step (s.step i) after) :
    ((s.step i).run after).Holds k op := by
  have hrun := foldl_invariant_of_meets (fun s => Sound disk s ∧ KeepsUnit d op k s)
    (fun _ _ hi h => ⟨h.1.step hi.2, h.2.step h.1 hi.2 hi.1⟩) after (s.step i)
    (hspares.and hafter) ⟨h.step hi, success_keepsUnit h hi hd hanswer⟩
  exact hrun.1.holds hrun.2

/-! ## What a failure leaves -/

/-- What a domain has in memory. -/
def KvDomain.memory (d : KvDomain) : StorageDocument × Nat := (d.document, d.revision)

/-- The step leaves the backends and every domain that is there as they are. -/
def Untouched (s s' : StorageSystem) : Prop :=
  s'.disk = s.disk ∧ s'.domains.map KvDomain.memory = s.domains.map KvDomain.memory

theorem setDomain_untouched (hf : ∀ d, (f d).memory = d.memory) : Untouched s (s.setDomain k f) := by
  refine ⟨rfl, List.ext_getElem? fun j => ?_⟩
  by_cases heq : k = j <;> cases h : s.domains[j]? <;>
    simp [StorageSystem.setDomain, heq, h, hf]

/-- A call that fails has no effect at the step it returns at. -/
theorem failure_untouched {call : StorageCall} {err : StorageError}
    (hanswer : s.answer i = some ⟨call, .error err⟩) : Untouched s (s.step i) := by
  cases i with
  | registerBackend name backend =>
    simp only [StorageSystem.answer, StorageSystem.step, StorageSystem.advance] at hanswer ⊢
    split at hanswer
    · cases hanswer
    · exact ⟨rfl, rfl⟩
  | openBegin =>
    simp only [StorageSystem.answer, StorageSystem.step, StorageSystem.advance] at hanswer ⊢
    split at hanswer
    · cases hanswer
    · rename_i hopening
      rw [if_neg hopening]
      split at hanswer
      · cases hanswer
      · cases hanswer
      · exact ⟨rfl, rfl⟩
  | openLoad =>
    simp only [StorageSystem.step, StorageSystem.advance, StorageSystem.openLoad]
    split
    · exact ⟨rfl, rfl⟩
    · split
      · exact ⟨rfl, rfl⟩
      · split <;> exact ⟨rfl, rfl⟩
  | openFinish =>
    simp only [StorageSystem.answer, StorageSystem.step, StorageSystem.advance,
      StorageSystem.openFinish] at hanswer ⊢
    split at hanswer
    · cases hanswer
    · split at hanswer
      · cases hanswer
      · split at hanswer
        · exact ⟨rfl, rfl⟩
        · cases hanswer
  | write k op =>
    simp only [StorageSystem.step, StorageSystem.advance, StorageSystem.write]
    split
    · exact ⟨rfl, rfl⟩
    · split
      · exact ⟨rfl, rfl⟩
      · split
        · exact ⟨rfl, rfl⟩
        · exact ⟨rfl, rfl⟩
        · exact setDomain_untouched fun _ => rfl
  | persist k persists =>
    simp only [StorageSystem.answer, StorageSystem.step, StorageSystem.advance,
      StorageSystem.persist] at hanswer ⊢
    split at hanswer
    · cases hanswer
    · split at hanswer
      · cases hanswer
      · rename_i hwriter
        split at hanswer
        · cases hanswer
        · rename_i hunpersisted
          split at hanswer
          · rw [if_neg hunpersisted]
            exact setDomain_untouched fun _ => rfl
          · cases hanswer
  | finish k =>
    simp only [StorageSystem.answer, StorageSystem.advance, StorageSystem.finish] at hanswer
    split at hanswer
    · split at hanswer <;> cases hanswer
    · cases hanswer
  | close k => exact setDomain_untouched fun _ => rfl
  | shutdown => exact ⟨rfl, rfl⟩
  | shutdownStep i =>
    simp only [StorageSystem.answer, StorageSystem.advance, StorageSystem.shutdownStep] at hanswer
    split at hanswer
    · cases hanswer
    · cases hanswer
    · cases hanswer
    · cases hanswer
    · split at hanswer <;> cases hanswer

/-- A success is one of a domain that has a write on its way, or that takes
another. -/
theorem success_domain (hanswer : s.answer i = some ⟨.write k op, .ok ()⟩) :
    ∃ d, s.domains[k]? = some d ∧
      (d.writer = none → ∃ begun, d.beginWrite op = .ok begun) := by
  cases i with
  | registerBackend name backend =>
    simp only [StorageSystem.answer, StorageSystem.advance] at hanswer
    split at hanswer <;> cases hanswer
  | openBegin =>
    simp only [StorageSystem.answer, StorageSystem.advance] at hanswer
    split at hanswer
    · cases hanswer
    · split at hanswer <;> cases hanswer
  | openLoad =>
    simp only [StorageSystem.answer, StorageSystem.advance, StorageSystem.openLoad] at hanswer
    split at hanswer
    · cases hanswer
    · split at hanswer
      · cases hanswer
      · split at hanswer <;> cases hanswer
  | openFinish =>
    simp only [StorageSystem.answer, StorageSystem.advance, StorageSystem.openFinish] at hanswer
    split at hanswer
    · cases hanswer
    · split at hanswer
      · cases hanswer
      · split at hanswer <;> cases hanswer
  | write j op' =>
    simp only [StorageSystem.answer, StorageSystem.advance, StorageSystem.write] at hanswer
    split at hanswer
    · cases hanswer
    · rename_i d hd
      split at hanswer
      · cases hanswer
      · split at hanswer
        · cases hanswer
        · rename_i hbegin
          cases hanswer
          exact ⟨d, hd, fun _ => ⟨none, hbegin⟩⟩
        · cases hanswer
  | persist j persists =>
    simp only [StorageSystem.answer, StorageSystem.advance, StorageSystem.persist] at hanswer
    split at hanswer
    · cases hanswer
    · split at hanswer
      · cases hanswer
      · split at hanswer
        · cases hanswer
        · split at hanswer <;> cases hanswer
  | finish j =>
    simp only [StorageSystem.answer, StorageSystem.advance, StorageSystem.finish] at hanswer
    split at hanswer
    · rename_i commit hcommit
      obtain ⟨d, hd, hwriter⟩ := bind_eq_some_iff.mp hcommit
      split at hanswer
      · cases hanswer
        exact ⟨d, hd, fun hnone => by rw [hwriter] at hnone; cases hnone⟩
      · cases hanswer
    · cases hanswer
  | close k => cases hanswer
  | shutdown => cases hanswer
  | shutdownStep i =>
    simp only [StorageSystem.answer, StorageSystem.advance, StorageSystem.shutdownStep] at hanswer
    split at hanswer
    · cases hanswer
    · cases hanswer
    · cases hanswer
    · cases hanswer
    · split at hanswer <;> cases hanswer

/-! ## Runs -/

/-- The registry has one authoritative view of every domain, over backends
that held `disk` before, answers its callers by it, and writes nothing once it
has stopped. -/
structure Authoritative (disk : Nat → String → Option StorageDocument) (s : StorageSystem) :
    Prop where
  /-- What is in memory is what was persisted last. -/
  view : ∀ (k : Nat) (d : KvDomain), s.domains[k]? = some d → d.writer = none →
    d.document = storedIn s.disk d
  /-- Every unit has the value of the last write to it. -/
  kept : ∀ backend name table unit, unitOf s.disk backend name table unit
    = (lastWrite s.log backend name table unit).getD (unitOf disk backend name table unit)
  /-- The revision counts the changes. -/
  revision : ∀ (k : Nat) (d : KvDomain), s.domains[k]? = some d → d.writer = none →
    d.revision = s.log.countP (·.domain == k)
  /-- A `put` or `remove` that succeeds holds its unit, in memory and in the
  backend, until another write to it is persisted. -/
  holds : ∀ (i : StorageStep) (k : Nat) (d : KvDomain) (op : WriteOp) (after : List StorageStep),
    Undisturbed s i → s.domains[k]? = some d → s.answer i = some ⟨.write k op, .ok ()⟩ →
    Meets Undisturbed StorageSystem.step (s.step i) after →
    Meets (Spares d op) StorageSystem.step (s.step i) after → ((s.step i).run after).Holds k op
  /-- A `put` or `remove` from the gate to its return: a success makes the
  change, and counts it if it is one, a failure changes nothing. -/
  settles : ∀ (k : Nat) (d : KvDomain) (op answered : WriteOp) (rest : List StorageStep)
    (result : Except StorageError Unit), s.domains[k]? = some d → d.writer = none →
    Meets Undisturbed StorageSystem.step s (.write k op :: rest) →
    s.returned k (.write k op :: rest) = some (answered, result) →
    answered = op ∧ Settled s (s.run (.write k op :: rest)) k op d result
  /-- No call that fails has an effect at the step it returns at. -/
  failed : ∀ (i : StorageStep) (call : StorageCall) (err : StorageError),
    s.answer i = some ⟨call, .error err⟩ → Untouched s (s.step i)
  /-- After a `shutdown` no write is on its way, and none succeeds. -/
  stopped : s.stopped = true → ∀ (k : Nat) (d : KvDomain), s.domains[k]? = some d →
    d.writer = none ∧ ∀ op, ∃ err, d.beginWrite op = .error err
  /-- After a `shutdown` no step answers a `put` or `remove` with success. -/
  silent : s.stopped = true → ∀ (i : StorageStep) (k : Nat) (op : WriteOp),
    s.answer i ≠ some ⟨.write k op, .ok ()⟩

/-- What the invariant says of a single state. -/
theorem Sound.authoritative (h : Sound disk s) : Authoritative disk s where
  view := fun k d hd hwriter => (h.view k d hd).plain (by
    rw [KvDomain.persistedCommit, hwriter]
    rfl)
  kept := h.kept
  revision := fun k d hd hwriter => by
    have hrevision := h.revision k d hd
    rw [KvDomain.persistedCommit, hwriter] at hrevision
    exact hrevision
  holds := fun _ _ _ _ _ hi hd hanswer hafter hspares =>
    success_holds h hi hd hanswer hafter hspares
  settles := fun _ _ _ _ rest _ hd hfree hrun hreturned => call_settled hd hfree rest hrun hreturned
  failed := fun _ _ _ hanswer => failure_untouched hanswer
  stopped := fun hstopped k d hd =>
    have hquiet := h.stopped hstopped k d hd
    ⟨hquiet.2, beginWrite_closed hquiet.1⟩
  silent := fun hstopped i k op hanswer => by
    obtain ⟨d, hd, hbegins⟩ := success_domain hanswer
    have hquiet := h.stopped hstopped k d hd
    obtain ⟨begun, hbegin⟩ := hbegins hquiet.2
    obtain ⟨err, hrefused⟩ := beginWrite_closed hquiet.1 op
    rw [hrefused] at hbegin
    cases hbegin

/-- In a run that disturbs no view and no `shutdown`, the registry is
authoritative. -/
theorem storage_authoritative (disk : Nat → String → Option StorageDocument)
    (steps : List StorageStep)
    (hsteps : Meets Undisturbed StorageSystem.step (.start disk) steps) :
    Authoritative disk ((StorageSystem.start disk).run steps) := by
  have hrun : Sound disk ((StorageSystem.start disk).run steps) :=
    foldl_invariant_of_meets (Sound disk) (fun _ _ hi h => h.step hi) steps (.start disk) hsteps
      (start_sound disk)
  exact hrun.authoritative

/-! ## Sample runs -/

def emptyDisk : Nat → String → Option StorageDocument := fun _ _ => none

def putOf (unit : String) (n : Nat) : WriteOp := { table := "t", unit, value := some (.ofNat n) }

def putSteps (k : Nat) (unit : String) (n : Nat) : List StorageStep :=
  [.write k (putOf unit n), .persist k (.ok ()), .finish k]

/-- An `open` from its checks to its end. -/
def openSteps (backendName : String) : List StorageStep :=
  [.openBegin backendName "d" 1, .openLoad (.ok ()), .openFinish]

/-- One domain with one write. -/
def firstSteps : List StorageStep := [.registerBackend "a" 0] ++ openSteps "a" ++ putSteps 0 "x" 1

/-- A second write, and a `shutdown`. -/
def lastSteps : List StorageStep :=
  putSteps 0 "y" 2 ++ [.shutdown, .shutdownStep 0, .shutdownStep 0, .shutdownStep 0, .shutdownStep 0]

def tidySteps : List StorageStep := firstSteps ++ lastSteps

/-- The domain that `firstSteps` leave. -/
def firstDomain : KvDomain :=
  { backend := 0, name := "d", document := (putOf "x" 1).change (.empty 1), revision := 1
    accepting := true, writer := none }

/-- The first write lasts to the end of the run, the second is counted, and one
that the backend refuses changes nothing. -/
theorem storage_authoritative_tidySteps :
    Authoritative emptyDisk ((StorageSystem.start emptyDisk).run tidySteps) ∧
      ((StorageSystem.start emptyDisk).run tidySteps).stopped = true ∧
      ((StorageSystem.start emptyDisk).run tidySteps).Holds 0 (putOf "x" 1) ∧
      Settled ((StorageSystem.start emptyDisk).run firstSteps)
        (((StorageSystem.start emptyDisk).run firstSteps).run (putSteps 0 "y" 2)) 0 (putOf "y" 2)
        firstDomain (.ok ()) ∧
      Settled ((StorageSystem.start emptyDisk).run firstSteps)
        (((StorageSystem.start emptyDisk).run firstSteps).run
          [.write 0 (putOf "y" 2), .persist 0 (.error (.persistence "full"))]) 0 (putOf "y" 2)
        firstDomain (.error (.persistence "full")) := by
  have hunder := storage_authoritative emptyDisk firstSteps.dropLast (by decide +kernel)
  have hfirst := storage_authoritative emptyDisk firstSteps (by decide +kernel)
  have hdomain : ((StorageSystem.start emptyDisk).run firstSteps).domains[0]? = some firstDomain := by
    decide +kernel
  refine ⟨storage_authoritative emptyDisk tidySteps (by decide +kernel), by decide +kernel, ?_, ?_, ?_⟩
  · exact hunder.holds (.finish 0) 0
      { backend := 0, name := "d", document := .empty 1, revision := 0, accepting := true
        writer := some { op := putOf "x" 1, document := (putOf "x" 1).change (.empty 1)
                         revision := 1, persisted := true } }
      (putOf "x" 1) lastSteps (by decide +kernel) (by decide +kernel) (by decide +kernel)
      (by decide +kernel) (by decide +kernel)
  · exact (hfirst.settles 0 firstDomain (putOf "y" 2) (putOf "y" 2)
      [.persist 0 (.ok ()), .finish 0] (.ok ()) hdomain rfl (by decide +kernel)
      (by decide +kernel)).2
  · exact (hfirst.settles 0 firstDomain (putOf "y" 2) (putOf "y" 2)
      [.persist 0 (.error (.persistence "full"))] (.error (.persistence "full")) hdomain rfl
      (by decide +kernel) (by decide +kernel)).2

/-- Two domains of one backend object, the first with a write at its end. -/
def twoNamesSteps : List StorageStep :=
  [.registerBackend "a" 0, .registerBackend "b" 0] ++ openSteps "a" ++ openSteps "b"
    ++ [.write 0 (putOf "x" 1), .persist 0 (.ok ())]

/-- The first write has succeeded and is gone, though the second is to another
unit. -/
theorem write_is_lost :
    ((StorageSystem.start emptyDisk).run twoNamesSteps).answer (.finish 0)
        = some ⟨.write 0 (putOf "x" 1), .ok ()⟩ ∧
      unitOf ((StorageSystem.start emptyDisk).run
        (twoNamesSteps ++ .finish 0 :: putSteps 1 "y" 2)).disk 0 "d" "t" "x" = none ∧
      ¬ Authoritative emptyDisk ((StorageSystem.start emptyDisk).run
        (twoNamesSteps ++ .finish 0 :: putSteps 1 "y" 2)) := by
  have hdisk : unitOf ((StorageSystem.start emptyDisk).run
      (twoNamesSteps ++ .finish 0 :: putSteps 1 "y" 2)).disk 0 "d" "t" "x" = none := by
    decide +kernel
  have hlast : lastWrite ((StorageSystem.start emptyDisk).run
      (twoNamesSteps ++ .finish 0 :: putSteps 1 "y" 2)).log 0 "d" "t" "x"
        = some (some (.ofNat 1)) := by decide +kernel
  refine ⟨by decide +kernel, hdisk, fun h => ?_⟩
  have hkept := h.kept 0 "d" "t" "x"
  rw [hdisk, hlast] at hkept
  cases hkept

/-- An `open` that has loaded before the map of domains is copied, and a write
of its domain. -/
def lateOpenSteps : List StorageStep :=
  [ .registerBackend "a" 0, .openBegin "a" "d" 1, .openLoad (.ok ()), .shutdown, .shutdownStep 0,
    .shutdownStep 0, .openFinish, .write 0 (putOf "x" 1), .persist 0 (.ok ()) ]

/-- The `shutdown` has returned, and the write succeeds. -/
theorem open_outlives_shutdown :
    ((StorageSystem.start emptyDisk).run lateOpenSteps).stopped = true ∧
      ((StorageSystem.start emptyDisk).run lateOpenSteps).answer (.finish 0)
        = some ⟨.write 0 (putOf "x" 1), .ok ()⟩ ∧
      ¬ Authoritative emptyDisk ((StorageSystem.start emptyDisk).run lateOpenSteps) := by
  have hstopped : ((StorageSystem.start emptyDisk).run lateOpenSteps).stopped = true := by
    decide +kernel
  have hanswer : ((StorageSystem.start emptyDisk).run lateOpenSteps).answer (.finish 0)
      = some ⟨.write 0 (putOf "x" 1), .ok ()⟩ := by decide +kernel
  exact ⟨hstopped, hanswer, fun h => h.silent hstopped (.finish 0) 0 (putOf "x" 1) hanswer⟩

end Tessivum.Storage
