/-
Tessivum.Plugins.ProfileLockTheorems — when the profile lock is exclusive.

A takeover reads the owner of the lock, finds its process gone and renames
the lock away. Nothing says that the lock it renames is still the one it
read: another takeover may have replaced it, and once that one has removed
the stale lock the name is free again (`lock_taken_twice`).

As long as no takeover renames a lock that a live process has made and
still uses, the lock is exclusive (`lock_exclusive`). The invariant is
`Owned`: the lock directory is the one of each live call between its
`create_dir` and its removal, so there is at most one of these.
-/
import Tessivum.Plugins.ProfileLock

namespace Tessivum.Plugins

open Library

/-! ## Who has the lock -/

/-- The stages between `create_dir` and the removal. -/
def Stage.owning : Stage → Bool
  | .writing | .cleaning | .sweeping | .held | .releasing | .removing => true
  | .creating | .reading | .testing _ | .takingOver _ | .done => false

def Stage.unwritten : Stage → Bool
  | .writing | .cleaning => true
  | _ => false

/-- A live process has made the lock directory and still uses it. -/
def LockSystem.inUse (s : LockSystem) : Bool :=
  match s.lock with
  | none => false
  | some dir =>
    match s.attempts[dir.creator]? with
    | some a => s.isActive a.pid && a.stage.owning
    | none => false

/-- The takeovers that leave a lock in use alone: a rename finds the lock
gone, or abandoned by its maker, or does not go through. -/
def sparesLock (s : LockSystem) : LockStep → Bool
  | .advance n fails =>
    match s.attempts[n]? with
    | some a =>
      match a.stage with
      | .takingOver owner =>
        fails || !s.isActive a.pid || !s.targetFree owner.nonce || !s.inUse
      | _ => true
    | none => true
  | _ => true

def SparesLock (s : LockSystem) (i : LockStep) : Prop := sparesLock s i = true

instance (s : LockSystem) (i : LockStep) : Decidable (SparesLock s i) :=
  inferInstanceAs (Decidable (sparesLock s i = true))

/-! ## The invariant -/

def expectedOwner (n : Nat) (a : Attempt) : Option ProfileLockOwner :=
  if a.stage.unwritten then none else some { pid := a.pid, nonce := n }

/-- The lock directory is the one of every live call that owns one. -/
def Owned (s : LockSystem) : Prop :=
  ∀ n a, s.attempts[n]? = some a → s.isActive a.pid = true → a.stage.owning = true →
    s.lock = some { creator := n, owner := expectedOwner n a }

variable {n : Nat} {a : Attempt} {s : LockSystem} {stage : Stage}

theorem Owned.none_of_not_inUse (h : Owned s) (hfree : s.inUse = false)
    (ha : s.attempts[n]? = some a) (hactive : s.isActive a.pid = true) :
    a.stage.owning = false := by
  by_contra howning
  rw [not_eq_false] at howning
  have hlock := h n a ha hactive howning
  rw [LockSystem.inUse, hlock] at hfree
  simp only [ha, hactive, howning, Bool.and_self] at hfree
  cases hfree

/-- One call changes, and with it the lock: the invariant is kept when the
call owns the new lock, if it owns one, and any other that does has it
unchanged. -/
theorem Owned.change {s' : LockSystem} (h : Owned s) {f : Attempt → Attempt}
    (hattempts : s'.attempts = s.attempts.modify n f) (hcrashed : s'.crashed = s.crashed)
    (hpid : ∀ a, (f a).pid = a.pid)
    (hlock : s'.lock = s.lock ∨ ∀ m a, m ≠ n → s.attempts[m]? = some a →
      s.isActive a.pid = true → a.stage.owning = false)
    (hown : ∀ a, s.attempts[n]? = some a → s.isActive a.pid = true →
      (f a).stage.owning = true → s'.lock = some { creator := n, owner := expectedOwner n (f a) }) :
    Owned s' := by
  have hactive : ∀ pid, s'.isActive pid = s.isActive pid := fun pid => by
    rw [LockSystem.isActive, LockSystem.isActive, hcrashed]
  intro m a ha hlive howning
  rw [hattempts] at ha
  obtain ⟨old, hold, rfl⟩ := Keyed.getElem?_modify_eq_some.mp ha
  rw [hactive] at hlive
  by_cases heq : n = m
  · subst heq
    rw [if_pos rfl] at hlive howning ⊢
    exact hown old hold (hpid old ▸ hlive) howning
  · rw [if_neg heq] at hlive howning ⊢
    rcases hlock with hsame | hnone
    · rw [hsame]
      exact h m old hold hlive howning
    · rw [hnone m old (Ne.symm heq) hold hlive] at howning
      cases howning

theorem Owned.others (h : Owned s) {dir : LockDir} (hlock : s.lock = some dir)
    (hn : dir.creator = n) :
    ∀ m a, m ≠ n → s.attempts[m]? = some a → s.isActive a.pid = true →
      a.stage.owning = false := by
  intro m a hm ha hactive
  by_contra howning
  rw [not_eq_false] at howning
  have hmine := h m a ha hactive howning
  rw [hlock, some.injEq] at hmine
  exact hm ((congrArg LockDir.creator hmine).symm.trans hn)

theorem Owned.setStage (h : Owned s)
    (hown : ∀ a, s.attempts[n]? = some a → s.isActive a.pid = true → stage.owning = true →
      s.lock = some { creator := n, owner := expectedOwner n { a with stage } }) :
    Owned (s.setStage n stage) :=
  h.change rfl rfl (fun _ => rfl) (.inl rfl) hown

theorem Owned.leave (h : Owned s) (hstage : stage.owning = false) : Owned (s.setStage n stage) :=
  h.setStage fun _ _ _ howning => by
    rw [hstage] at howning
    cases howning

theorem sweepStage_written (staleLocks : List Nat) : (sweepStage staleLocks).unwritten = false := by
  unfold sweepStage
  split <;> rfl

/-! ## One step -/

theorem Owned.rename (h : Owned s) {nonce : Nat}
    (hspare : s.targetFree nonce = false ∨ s.inUse = false) : Owned (s.rename n nonce) := by
  unfold LockSystem.rename
  split
  · exact h.leave rfl
  · split
    · rename_i htarget
      have hfree : s.inUse = false := hspare.resolve_left (by rw [htarget]; nofun)
      exact h.change rfl rfl (fun _ => rfl)
        (.inr fun m a _ ha hactive => h.none_of_not_inUse hfree ha hactive)
        nofun
    · exact h.leave rfl

/-- One stage of a call. -/
theorem Owned.advance (h : Owned s) (ha : s.attempts[n]? = some a)
    (hactive : s.isActive a.pid = true) (fails : Bool)
    (hspare : ∀ owner, a.stage = .takingOver owner →
      fails = true ∨ s.targetFree owner.nonce = false ∨ s.inUse = false) :
    Owned (s.advance n a fails) := by
  have hsame : ∀ {b : Attempt}, s.attempts[n]? = some b → b = a := fun hb =>
    some.inj (hb.symm.trans ha)
  -- What the call owns while it is in a stage that owns a lock.
  have hmine : a.stage.owning = true → s.lock = some { creator := n, owner := expectedOwner n a } :=
    h n a ha hactive
  cases hstage : a.stage with
  | creating =>
    simp only [LockSystem.advance, hstage]
    split
    · exact h.leave rfl
    · split
      · rename_i hlock
        refine h.change rfl rfl (fun _ => rfl) (.inr fun m b _ hb hlive => ?_) fun b hb _ _ => rfl
        by_contra howning
        rw [not_eq_false] at howning
        rw [h m b hb hlive howning] at hlock
        cases hlock
      · exact h.leave rfl
  | writing =>
    have hlock := hmine (by rw [hstage]; rfl)
    simp only [LockSystem.advance, hstage, hlock]
    split
    · rename_i hdir
      cases hdir
      refine h.change rfl rfl (fun _ => rfl) (.inr (h.others hlock rfl)) fun b hb _ _ => ?_
      rw [hsame hb]
      simp only [expectedOwner, sweepStage_written]
      rfl
    · refine h.setStage fun b hb _ _ => ?_
      rw [hsame hb, hlock, expectedOwner, expectedOwner, hstage]
      rfl
  | cleaning | removing =>
    have hlock := hmine (by rw [hstage]; rfl)
    simp only [LockSystem.advance, hstage]
    exact h.change rfl rfl (fun _ => rfl) (.inr (h.others hlock rfl))
      nofun
  | sweeping =>
    have hlock := hmine (by rw [hstage]; rfl)
    rw [expectedOwner, hstage] at hlock
    simp only [LockSystem.advance, hstage]
    split
    · refine h.change rfl rfl (fun _ => rfl) (.inl rfl) fun b hb _ _ => ?_
      rw [hsame hb, expectedOwner, sweepStage_written]
      exact hlock
    all_goals
      refine h.setStage fun b hb _ _ => ?_
      rw [hsame hb]
      exact hlock
  | reading | testing owner =>
    simp only [LockSystem.advance, hstage]
    split <;> exact h.leave rfl
  | takingOver owner =>
    simp only [LockSystem.advance, hstage]
    split
    · exact h.leave rfl
    · rename_i hruns
      exact h.rename ((hspare owner hstage).resolve_left hruns)
  | held | done =>
    simp only [LockSystem.advance, hstage]
    exact h
  | releasing =>
    have hlock := hmine (by rw [hstage]; rfl)
    rw [expectedOwner, hstage] at hlock
    simp only [LockSystem.advance, hstage]
    split
    · split
      · refine h.setStage fun b hb _ _ => ?_
        rw [hsame hb]
        exact hlock
      · exact h.leave rfl
    · exact h.leave rfl

/-- One step of the processes, sparing the locks in use. -/
theorem Owned.step {s : LockSystem} {i : LockStep} (h : Owned s) (hspare : SparesLock s i) :
    Owned (s.step i) := by
  cases i with
  | acquire pid =>
    simp only [LockSystem.step]
    split
    · intro n a ha hactive howning
      rcases Keyed.getElem?_append_one.mp ha with ha | ⟨_, rfl⟩
      · exact h n a ha hactive howning
      · cases howning
    · exact h
  | advance n fails =>
    simp only [LockSystem.step]
    split
    · rename_i ha
      split
      · rename_i hactive
        refine h.advance ha hactive fails fun owner hstage => ?_
        simp only [SparesLock, sparesLock, ha, hstage, hactive, Bool.not_true, Bool.or_false,
          or_eq_true, not_eq_true', or_assoc] at hspare
        exact hspare
      · exact h
    · exact h
  | drop n =>
    simp only [LockSystem.step]
    split
    · rename_i a ha
      split
      · rename_i hheld
        refine h.setStage fun b hb hactive _ => ?_
        cases ha.symm.trans hb
        have hlock := h n a ha hactive (by rw [hheld.2]; rfl)
        rw [expectedOwner, hheld.2] at hlock
        exact hlock
      · exact h
    · exact h
  | crash pid =>
    intro n a ha hactive howning
    refine h n a ha ?_ howning
    simp only [LockSystem.step, LockSystem.isActive, List.contains_cons, Bool.not_or,
      and_eq_true] at hactive
    exact hactive.2

/-! ## Runs -/

/-- The lock is exclusive: at most one live process holds it, and what a
drop is about to remove is the lock it was given. -/
structure Exclusive (s : LockSystem) : Prop where
  one : ∀ (m n : Nat) (a b : Attempt), s.attempts[m]? = some a → s.attempts[n]? = some b →
    s.isActive a.pid = true → s.isActive b.pid = true → a.stage = .held → b.stage = .held → m = n
  own : ∀ (n : Nat) (a : Attempt), s.attempts[n]? = some a → s.isActive a.pid = true → a.stage = .removing →
    s.lock = some { creator := n, owner := some { pid := a.pid, nonce := n } }

theorem Owned.exclusive (h : Owned s) : Exclusive s where
  one := fun m n a b ha hb hactiveA hactiveB hheldA hheldB => by
    have hlockA := h m a ha hactiveA (by rw [hheldA]; rfl)
    have hlockB := h n b hb hactiveB (by rw [hheldB]; rfl)
    rw [hlockA, some.injEq] at hlockB
    exact congrArg LockDir.creator hlockB
  own := fun n a ha hactive hstage => by
    have hlock := h n a ha hactive (by rw [hstage]; rfl)
    rw [expectedOwner, hstage] at hlock
    exact hlock

/-- In every run whose takeovers spare the locks in use, the lock is
exclusive. -/
theorem lock_exclusive (steps : List LockStep)
    (hsteps : Meets SparesLock LockSystem.step .start steps) :
    Exclusive (LockSystem.start.run steps) := by
  have hstart : Owned .start := nofun
  have hrun : Owned (LockSystem.start.run steps) :=
    foldl_invariant_of_meets Owned (fun _ _ hspare h => h.step hspare) steps .start hsteps hstart
  exact hrun.exclusive

/-- Three processes: the first crashes as a holder, the second takes its
lock over and drops it, the third takes a free lock. -/
def politeSteps : List LockStep :=
  [ .acquire 1, .advance 0 false, .advance 0 false, .crash 1
  , .acquire 2, .advance 1 false, .advance 1 false, .advance 1 false, .advance 1 false
  , .advance 1 false, .advance 1 false, .advance 1 false, .drop 1, .advance 1 false
  , .advance 1 false
  , .acquire 3, .advance 2 false, .advance 2 false ]

theorem lock_exclusive_politeSteps :
    Exclusive (LockSystem.start.run politeSteps) ∧
      (LockSystem.start.run politeSteps).attempts.map (·.stage) = [.held, .done, .held] :=
  ⟨lock_exclusive politeSteps (by decide +kernel), by decide +kernel⟩

/-- Two processes have read the same stale owner. The first takes the lock
over and removes the stale one, and then the second renames the lock of the
first away. -/
def racingSteps : List LockStep :=
  [ .acquire 1, .advance 0 false, .advance 0 false, .crash 1
  , .acquire 2, .acquire 3
  , .advance 1 false, .advance 1 false, .advance 1 false
  , .advance 2 false, .advance 2 false, .advance 2 false
  , .advance 1 false, .advance 1 false, .advance 1 false, .advance 1 false
  , .advance 2 false, .advance 2 false, .advance 2 false, .advance 2 false ]

/-- Both hold the lock. -/
theorem lock_taken_twice :
    (LockSystem.start.run racingSteps).attempts
        = [ { pid := 1, stage := .held, staleLocks := [] }
          , { pid := 2, stage := .held, staleLocks := [] }
          , { pid := 3, stage := .held, staleLocks := [] } ] ∧
      (LockSystem.start.run racingSteps).crashed = [1] ∧
      ¬ Exclusive (LockSystem.start.run racingSteps) := by
  have hattempts : (LockSystem.start.run racingSteps).attempts
      = [ { pid := 1, stage := .held, staleLocks := [] }
        , { pid := 2, stage := .held, staleLocks := [] }
        , { pid := 3, stage := .held, staleLocks := [] } ] := by decide +kernel
  have hcrashed : (LockSystem.start.run racingSteps).crashed = [1] := by decide +kernel
  refine ⟨hattempts, hcrashed, fun h => ?_⟩
  have hsame := h.one 1 2 _ _ (by rw [hattempts]; rfl) (by rw [hattempts]; rfl)
    (by rw [LockSystem.isActive, hcrashed]; rfl) (by rw [LockSystem.isActive, hcrashed]; rfl)
    rfl rfl
  cases hsame

end Tessivum.Plugins
