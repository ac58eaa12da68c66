/-
Tessivum.Library.Machine — deterministic machines and their runs.

A machine takes an input, gives an output and moves on. `runState` is the state
after a list of inputs and `runOutputs` the answers on the way. An invariant
that one step keeps holds after every run (`runState_invariant`), and two
machines whose steps answer alike on related states answer alike over every run
(`runOutputs_eq_of_simulation`).

A machine without outputs runs by a left fold.
-/
import Tessivum.Library.Result

namespace Tessivum.Library

variable {σ τ ι ο : Type}

/-- The state a machine is in after a list of inputs. -/
def runState (step : σ → ι → ο × σ) : σ → List ι → σ
  | s, [] => s
  | s, i :: rest => runState step (step s i).2 rest

/-- The answers a machine gives to a list of inputs. -/
def runOutputs (step : σ → ι → ο × σ) : σ → List ι → List ο
  | _, [] => []
  | s, i :: rest => (step s i).1 :: runOutputs step (step s i).2 rest

variable {allowed : ι → Prop} {cond : σ → ι → Prop} {step : σ → ι → σ}

/-- What one step keeps on every allowed input, every run of allowed
inputs keeps. -/
theorem runState_invariant_of_allowed (inv : σ → Prop) {step : σ → ι → ο × σ}
    (hstep : ∀ s i, allowed i → inv s → inv (step s i).2) :
    ∀ (inputs : List ι) (s : σ), (∀ i ∈ inputs, allowed i) → inv s →
      inv (runState step s inputs)
  | [], _, _, h => h
  | i :: rest, s, hall, h =>
    runState_invariant_of_allowed inv hstep rest (step s i).2
      (fun j hj => hall j (mem_cons_of_mem i hj))
      (hstep s i (hall i mem_cons_self) h)

/-- What one step keeps, every run keeps. -/
theorem runState_invariant {step : σ → ι → ο × σ} {inv : σ → Prop}
    (hstep : ∀ s i, inv s → inv (step s i).2) (inputs : List ι) (s : σ) (h : inv s) :
    inv (runState step s inputs) :=
  runState_invariant_of_allowed inv (fun s i (_ : True) => hstep s i) inputs s
    (fun _ _ => trivial) h

/-- Two machines that answer alike and stay related on every step the
inputs allow answer alike over every run of allowed inputs. -/
theorem runOutputs_eq_of_simulation (rel : σ → τ → Prop) {step : σ → ι → ο × σ}
    {step' : τ → ι → ο × τ}
    (hstep : ∀ s t i, allowed i → rel s t →
      (step s i).1 = (step' t i).1 ∧ rel (step s i).2 (step' t i).2) :
    ∀ (inputs : List ι) (s : σ) (t : τ), (∀ i ∈ inputs, allowed i) → rel s t →
      runOutputs step s inputs = runOutputs step' t inputs
  | [], _, _, _, _ => rfl
  | i :: rest, s, t, hall, h => by
    obtain ⟨hout, hrel⟩ := hstep s t i (hall i mem_cons_self) h
    have hrest : ∀ j ∈ rest, allowed j := fun j hj => hall j (mem_cons_of_mem i hj)
    rw [runOutputs, runOutputs, hout,
      runOutputs_eq_of_simulation rel hstep rest _ _ hrest hrel]

/-! ## Runs whose steps meet a condition -/

/-- Every step of the run meets `cond` in the state it is taken in. -/
def Meets (cond : σ → ι → Prop) (step : σ → ι → σ) : σ → List ι → Prop
  | _, [] => True
  | s, i :: rest => cond s i ∧ Meets cond step (step s i) rest

instance Meets.decidable {cond : σ → ι → Prop} [∀ s i, Decidable (cond s i)]
    {step : σ → ι → σ} : ∀ (s : σ) (inputs : List ι), Decidable (Meets cond step s inputs)
  | _, [] => .isTrue trivial
  | s, i :: rest =>
    have : Decidable (Meets cond step (step s i) rest) := Meets.decidable (step s i) rest
    inferInstanceAs (Decidable (cond s i ∧ Meets cond step (step s i) rest))

/-- What a step that meets the condition keeps, a run of such steps
keeps. -/
theorem foldl_invariant_of_meets (inv : σ → Prop) (hstep : ∀ s i, cond s i → inv s → inv (step s i))
    (inputs : List ι) (s : σ) (hrun : Meets cond step s inputs) (h : inv s) :
    inv (inputs.foldl step s) := by
  induction inputs generalizing s with
  | nil => exact h
  | cons i rest ih => exact ih (step s i) hrun.2 (hstep s i hrun.1 h)

/-- A run of two stretches meets the condition when both do. -/
theorem meets_append :
    ∀ {xs ys : List ι} {s : σ}, Meets cond step s (xs ++ ys) ↔
      Meets cond step s xs ∧ Meets cond step (xs.foldl step s) ys
  | [], ys, s => by simp [Meets]
  | x :: xs, ys, s => by
    simp only [cons_append, Meets, List.foldl_cons, meets_append (s := step s x), and_assoc]

/-- A run that meets one condition and another meets both at every step. -/
theorem Meets.and {good : σ → ι → Prop} :
    ∀ {inputs : List ι} {s : σ}, Meets good step s inputs → Meets cond step s inputs →
      Meets (fun s i => good s i ∧ cond s i) step s inputs
  | [], _, _, _ => trivial
  | _ :: _, _, hgood, hrun => ⟨⟨hgood.1, hrun.1⟩, hgood.2.and hrun.2⟩

/-- A condition that every step meets is met along the run. -/
theorem Meets.and_of_forall {good : ι → Prop} :
    ∀ {inputs : List ι} {s : σ}, Meets cond step s inputs → (∀ i ∈ inputs, good i) →
      Meets (fun s i => good i ∧ cond s i) step s inputs
  | [], _, _, _ => trivial
  | _ :: _, _, hrun, hall =>
    ⟨⟨hall _ mem_cons_self, hrun.1⟩,
      hrun.2.and_of_forall fun i hi => hall i (mem_cons_of_mem _ hi)⟩

/-- Where every step that meets `cond` keeps an invariant and, under it,
meets `good`, so does every run. -/
theorem Meets.imp_of_invariant (inv : σ → Prop) {good : σ → ι → Prop}
    (hstep : ∀ s i, cond s i → inv s → inv (step s i)) (hgood : ∀ s i, cond s i → inv s → good s i)
    (inputs : List ι) (s : σ) (hrun : Meets cond step s inputs) (h : inv s) :
    Meets good step s inputs := by
  induction inputs generalizing s with
  | nil => trivial
  | cons i rest ih => exact ⟨hgood s i hrun.1 h, ih (step s i) hrun.2 (hstep s i hrun.1 h)⟩

end Tessivum.Library
