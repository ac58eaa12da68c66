/-
Tessivum.Library.Interaction — programs that ask their environment.

A program is a tree: it is done, it has not returned within its fuel, or it
asks a question and goes on with the answer. What the environment may answer is
not fixed, so a statement about every environment is a statement about every
outcome of every call the program makes.

`Prog.run` answers the questions of one run from an environment and folds an
observation of them. `Prog.Ensures` is the weakest precondition of a program
over the answers a predicate allows: `ensures_bind` takes a sequence apart,
`Ensures.mono` weakens a postcondition and `Ensures.of_run` carries it to every
run whose answers are allowed. `Prog.serve` answers from an environment that
sees the observation, and `Prog.Secures` is its total precondition.
-/
import Mathlib

namespace Tessivum.Library

/-- A program over questions `Q` with answers `A`. `stop` is a program
that has not returned. -/
inductive Prog (Q : Type) (A : Q → Type) (α : Type) : Type
  | done (a : α)
  | stop
  | ask (q : Q) (k : A q → Prog Q A α)

namespace Prog

variable {Q : Type} {A : Q → Type} {α β σ : Type}

/-- Sequencing. -/
def bind : Prog Q A α → (α → Prog Q A β) → Prog Q A β
  | .done a, f => f a
  | .stop, _ => .stop
  | .ask q k, f => .ask q fun a => (k a).bind f

instance : Monad (Prog Q A) where
  pure := .done
  bind := bind

/-- Ask one question. -/
def query (q : Q) : Prog Q A (A q) := .ask q .done

/-! ## Runs -/

/-- What an environment answers to the `n`-th question of a run. -/
abbrev Env (Q : Type) (A : Q → Type) : Type := Nat → (q : Q) → A q

/-- One run: the value returned, if any, and what was observed. -/
def run (obs : σ → (q : Q) → A q → σ) (env : Env Q A) : Prog Q A α → Nat → σ → Option α × σ
  | .done a, _, s => (some a, s)
  | .stop, _, s => (none, s)
  | .ask q k, n, s => (k (env n q)).run obs env (n + 1) (obs s q (env n q))

/-- Every answer of the run is allowed. -/
def Allowed (good : (q : Q) → A q → Prop) (env : Env Q A) : Prog Q A α → Nat → Prop
  | .done _, _ => True
  | .stop, _ => True
  | .ask q k, n => good q (env n q) ∧ (k (env n q)).Allowed good env (n + 1)

instance Allowed.decidable {good : (q : Q) → A q → Prop} [∀ q a, Decidable (good q a)]
    {env : Env Q A} : ∀ (p : Prog Q A α) (n : Nat), Decidable (p.Allowed good env n)
  | .done _, _ => .isTrue trivial
  | .stop, _ => .isTrue trivial
  | .ask q k, n =>
    have : Decidable ((k (env n q)).Allowed good env (n + 1)) :=
      Allowed.decidable (k (env n q)) (n + 1)
    inferInstanceAs (Decidable (good q (env n q) ∧ (k (env n q)).Allowed good env (n + 1)))

/-! ## Preconditions -/

/-- From observation `s` the program returns, over allowed answers, only
with values and observations that satisfy `post`. -/
def Ensures (good : (q : Q) → A q → Prop) (obs : σ → (q : Q) → A q → σ) :
    Prog Q A α → σ → (α → σ → Prop) → Prop
  | .done a, s, post => post a s
  | .stop, _, _ => True
  | .ask q k, s, post => ∀ a, good q a → (k a).Ensures good obs (obs s q a) post

variable {good : (q : Q) → A q → Prop} {obs : σ → (q : Q) → A q → σ}
variable {post : α → σ → Prop}

theorem Ensures.mono {post' : α → σ → Prop} (hpost : ∀ a s, post a s → post' a s) :
    ∀ {p : Prog Q A α} {s : σ}, p.Ensures good obs s post → p.Ensures good obs s post' := by
  intro p
  induction p with
  | done a => exact fun {s} h => hpost a s h
  | stop => exact fun _ => trivial
  | ask q k ih => exact fun h a hgood => ih a (h a hgood)

/-- A sequence ensures what its first part ensures its second part needs. -/
@[simp] theorem ensures_bind {f : α → Prog Q A β} {post : β → σ → Prop} :
    ∀ {p : Prog Q A α} {s : σ}, (p >>= f).Ensures good obs s post
      ↔ p.Ensures good obs s fun a s' => (f a).Ensures good obs s' post := by
  intro p
  induction p with
  | done a => exact Iff.rfl
  | stop => exact Iff.rfl
  | ask q k ih =>
    intro s
    constructor
    · exact fun h a hgood => (ih a).mp (h a hgood)
    · exact fun h a hgood => (ih a).mpr (h a hgood)

/-- Every run whose answers are allowed returns as its program ensures. -/
theorem Ensures.of_run {env : Env Q A} :
    ∀ {p : Prog Q A α} {n : Nat} {s : σ}, p.Ensures good obs s post → p.Allowed good env n →
      ∀ a, (p.run obs env n s).1 = some a → post a (p.run obs env n s).2 := by
  intro p
  induction p with
  | done a =>
    intro n s h _ b hb
    cases hb
    exact h
  | stop =>
    intro n s _ _ b hb
    cases hb
  | ask q k ih =>
    intro n s h hallowed b hb
    exact ih (env n q) (h _ hallowed.1) hallowed.2 b hb

end Prog

/-! ## Programs that fail -/

/-- A program whose calls are joined by `?`: it ends at the first
error. -/
abbrev Fallible (ε : Type) (Q : Type) (A : Q → Type) (α : Type) : Type :=
  ExceptT ε (Prog Q A) α

namespace Fallible

variable {ε Q : Type} {A : Q → Type} {α β σ : Type}
variable {good : (q : Q) → A q → Prop} {obs : σ → (q : Q) → A q → σ}

/-- Ask a question that cannot fail. -/
def query (q : Q) : Fallible ε Q A (A q) := ExceptT.lift (Prog.query q)

/-- A program that returns a result, as a call joined by `?`. -/
def ofResult (p : Prog Q A (Except ε α)) : Fallible ε Q A α := ExceptT.mk p

/-- What a program ensures of its result, as one program. -/
def Ensures (good : (q : Q) → A q → Prop) (obs : σ → (q : Q) → A q → σ)
    (p : Fallible ε Q A α) (s : σ) (post : Except ε α → σ → Prop) : Prop :=
  Prog.Ensures good obs p.run s post

variable {q : Q} {s : σ} {f : α → Fallible ε Q A β} {p : Fallible ε Q A α} {post : α → σ → Prop}
  {pre' : σ → Prop}

@[simp] theorem ensures_query {post : Except ε (A q) → σ → Prop} :
    Ensures good obs (query q : Fallible ε Q A (A q)) s post
      ↔ ∀ a, good q a → post (.ok a) (obs s q a) := Iff.rfl

/-- A program whose result is a value. -/
@[simp] theorem ensures_lift {p : Prog Q A α} {post : Except ε α → σ → Prop} :
    Ensures good obs (ExceptT.lift p : Fallible ε Q A α) s post
      ↔ Prog.Ensures good obs p s fun a s' => post (.ok a) s' :=
  Prog.ensures_bind

/-- A sequence goes on from a value and ends with an error. -/
@[simp] theorem ensures_bind {post : Except ε β → σ → Prop} :
    Ensures good obs (p >>= f) s post
      ↔ Ensures good obs p s fun r s' =>
        match r with
        | .ok a => Ensures good obs (f a) s' post
        | .error e => post (.error e) s' := by
  show Prog.Ensures good obs (p.run >>= ExceptT.bindCont f) s post ↔ _
  rw [Prog.ensures_bind]
  constructor
  all_goals
    refine Prog.Ensures.mono ?_
    intro r s' h
    cases r with
    | ok a => exact h
    | error e => exact h

theorem Ensures.mono {post post' : Except ε α → σ → Prop} (hpost : ∀ r s, post r s → post' r s)
    (h : Ensures good obs p s post) : Ensures good obs p s post' :=
  Prog.Ensures.mono hpost h

/-! ### Triples -/

/-- A value that satisfies `post`, or an error in an observation that
satisfies `fail`. -/
def Outcome (post : α → σ → Prop) (fail : σ → Prop) : Except ε α → σ → Prop
  | .ok a, s => post a s
  | .error _, s => fail s

/-- From every observation that satisfies `pre`, over allowed answers,
the program returns a value as `post` says or an error as `fail` says. -/
def Triple (good : (q : Q) → A q → Prop) (obs : σ → (q : Q) → A q → σ) (fail : σ → Prop)
    (pre : σ → Prop) (p : Fallible ε Q A α) (post : α → σ → Prop) : Prop :=
  ∀ s, pre s → Ensures good obs p s (Outcome post fail)

variable {fail pre : σ → Prop}

theorem Triple.bind {mid : α → σ → Prop} {post : β → σ → Prop} (hp : Triple good obs fail pre p mid)
    (hf : ∀ a, Triple good obs fail (mid a) (f a) post) :
    Triple good obs fail pre (p >>= f) post := by
  intro s hs
  rw [ensures_bind]
  refine (hp s hs).mono ?_
  intro r s' h
  cases r with
  | ok a => exact hf a s' h
  | error e => exact h

/-- A triple whose middle and end do not look at the values. -/
theorem Triple.seq {mid : σ → Prop} {post : β → σ → Prop}
    (hp : Triple good obs fail pre p fun _ => mid) (hf : ∀ a, Triple good obs fail mid (f a) post) :
    Triple good obs fail pre (p >>= f) post :=
  Triple.bind hp hf

theorem Triple.pure {a : α} (h : ∀ s, pre s → post a s) :
    Triple good obs fail pre (Pure.pure a : Fallible ε Q A α) post :=
  fun s hs => h s hs

theorem Triple.skip {a : α} :
    Triple good obs fail pre (Pure.pure a : Fallible ε Q A α) fun _ => pre :=
  Triple.pure fun _ h => h

/-- A program that has not returned ensures anything. -/
theorem Triple.stop :
    Triple good obs fail pre (ofResult (Prog.stop : Prog Q A (Except ε α))) post :=
  fun _ _ => trivial

theorem Triple.weaken {post' : α → σ → Prop} (h : Triple good obs fail pre p post)
    (hpre : ∀ s, pre' s → pre s) (hpost : ∀ a s, post a s → post' a s) :
    Triple good obs fail pre' p post' := by
  intro s hs
  refine (h s (hpre s hs)).mono ?_
  intro r s' hr
  cases r with
  | ok a => exact hpost a s' hr
  | error e => exact hr

theorem Triple.of_pre (hpre : ∀ s, pre' s → pre s) (h : Triple good obs fail pre p post) :
    Triple good obs fail pre' p post :=
  fun s hs => h s (hpre s hs)

/-- A question whose allowed answers leave the observation as it was. -/
theorem Triple.query (hobs : ∀ s a, good q a → obs s q a = s) :
    Triple good obs fail pre (query q : Fallible ε Q A (A q))
      fun a s => good q a ∧ pre s := by
  intro s hs
  rw [ensures_query]
  intro a ha
  rw [hobs s a ha]
  exact ⟨ha, hs⟩

/-- Every run over allowed answers ends as its triple says. -/
theorem Triple.of_run {env : Prog.Env Q A} (h : Triple good obs fail pre p post) {n : Nat}
    (hs : pre s) (hallowed : Prog.Allowed good env p.run n) {r : Except ε α}
    (hr : (Prog.run obs env p.run n s).1 = some r) :
    Outcome post fail r (Prog.run obs env p.run n s).2 :=
  Prog.Ensures.of_run (h s hs) hallowed r hr

end Fallible

/-! # Programs whose environment knows the run

An environment of `Library.Interaction` answers the questions of a run by their
number alone. Here it also looks at what has been observed so far, so an
answer can be one that is right for the state the program has led to.

`Prog.Secures` is total: from an observation, over the answers that are allowed
where they are given, the program does return, with a value and an observation
as required. `Secures.of_serve` carries it to the run with any environment
that only gives allowed answers. `Fallible.Contract` is the same for programs
that stop at their first error. -/

namespace Prog

variable {Q : Type} {A : Q → Type} {α β σ : Type}

/-- What an environment answers to the `n`-th question, from what was observed. -/
abbrev Server (Q : Type) (A : Q → Type) (σ : Type) : Type := σ → Nat → (q : Q) → A q

/-- One run: the value returned, if any, and what was observed. -/
def serve (obs : σ → (q : Q) → A q → σ) (server : Server Q A σ) :
    Prog Q A α → Nat → σ → Option α × σ
  | .done a, _, s => (some a, s)
  | .stop, _, s => (none, s)
  | .ask q k, n, s => (k (server s n q)).serve obs server (n + 1) (obs s q (server s n q))

/-- From observation `s` the program returns, and only with values and
observations that satisfy `post`. -/
def Secures (good : σ → (q : Q) → A q → Prop) (obs : σ → (q : Q) → A q → σ) :
    Prog Q A α → σ → (α → σ → Prop) → Prop
  | .done a, s, post => post a s
  | .stop, _, _ => False
  | .ask q k, s, post => ∀ a, good s q a → (k a).Secures good obs (obs s q a) post

variable {good : σ → (q : Q) → A q → Prop} {obs : σ → (q : Q) → A q → σ}
variable {post : α → σ → Prop}

theorem Secures.mono {post' : α → σ → Prop} (hpost : ∀ a s, post a s → post' a s) :
    ∀ {p : Prog Q A α} {s : σ}, p.Secures good obs s post → p.Secures good obs s post' := by
  intro p
  induction p with
  | done a => exact fun {s} h => hpost a s h
  | stop => exact fun h => h
  | ask q k ih => exact fun h a hgood => ih a (h a hgood)

/-- A sequence secures what its first part secures its second part needs. -/
@[simp] theorem secures_bind {f : α → Prog Q A β} {post : β → σ → Prop} :
    ∀ {p : Prog Q A α} {s : σ}, (p >>= f).Secures good obs s post
      ↔ p.Secures good obs s fun a s' => (f a).Secures good obs s' post := by
  intro p
  induction p with
  | done a => exact Iff.rfl
  | stop => exact Iff.rfl
  | ask q k ih =>
    intro s
    constructor
    · exact fun h a hgood => (ih a).mp (h a hgood)
    · exact fun h a hgood => (ih a).mpr (h a hgood)

/-- The run with an environment that only gives allowed answers returns. -/
theorem Secures.of_serve {server : Server Q A σ} (hserver : ∀ s n q, good s q (server s n q)) :
    ∀ {p : Prog Q A α} {n : Nat} {s : σ}, p.Secures good obs s post →
      ∃ a, (p.serve obs server n s).1 = some a ∧ post a (p.serve obs server n s).2 := by
  intro p
  induction p with
  | done a =>
    intro n s h
    exact ⟨a, rfl, h⟩
  | stop =>
    intro n s h
    exact h.elim
  | ask q k ih =>
    intro n s h
    exact ih (server s n q) (h (server s n q) (hserver s n q))

end Prog

namespace Fallible

variable {ε Q : Type} {A : Q → Type} {α β σ : Type}
variable {good : σ → (q : Q) → A q → Prop} {obs : σ → (q : Q) → A q → σ} {fail pre : σ → Prop}

/-- From every observation that satisfies `pre` the program returns a value as
`post` says or an error as `fail` says. -/
def Contract (good : σ → (q : Q) → A q → Prop) (obs : σ → (q : Q) → A q → σ) (fail : σ → Prop)
    (pre : σ → Prop) (p : Fallible ε Q A α) (post : α → σ → Prop) : Prop :=
  ∀ s, pre s → Prog.Secures good obs p.run s (Outcome post fail)

variable {p : Fallible ε Q A α} {post : α → σ → Prop}

theorem Contract.bind {f : α → Fallible ε Q A β} {mid : α → σ → Prop} {post : β → σ → Prop}
    (hp : Contract good obs fail pre p mid) (hf : ∀ a, Contract good obs fail (mid a) (f a) post) :
    Contract good obs fail pre (p >>= f) post := by
  intro s hs
  show Prog.Secures good obs (p.run >>= ExceptT.bindCont f) s _
  rw [Prog.secures_bind]
  refine (hp s hs).mono ?_
  intro r s' h
  cases r with
  | ok a => exact hf a s' h
  | error e => exact h

theorem Contract.pure {a : α} (h : ∀ s, pre s → post a s) :
    Contract good obs fail pre (Pure.pure a : Fallible ε Q A α) post :=
  fun s hs => h s hs

/-- A program without errors of its own. -/
theorem Contract.lift {p : Prog Q A α} (h : ∀ s, pre s → p.Secures good obs s post) :
    Contract good obs fail pre (ExceptT.lift p : Fallible ε Q A α) post := by
  intro s hs
  show Prog.Secures good obs (p >>= fun a => Pure.pure (Except.ok a)) s _
  rw [Prog.secures_bind]
  exact h s hs

theorem Contract.query {q : Q} {post : A q → σ → Prop}
    (h : ∀ s a, pre s → good s q a → post a (obs s q a)) :
    Contract good obs fail pre (query q : Fallible ε Q A (A q)) post := by
  intro s hs a ha
  exact h s a hs ha

end Fallible

end Tessivum.Library
