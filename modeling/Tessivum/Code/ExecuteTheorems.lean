/-
Tessivum.Code.ExecuteTheorems — when a run of the code runtime cannot get
stuck.

A worker that does not read, or a descendant that keeps a pipe open, holds the
run in a write or a drain. `code_run_never_stuck` says when neither does:
`Moving` is what every step keeps, and a run that is moving can be left.
-/
import Tessivum.Code.Execute
import Tessivum.Library.Machine

namespace Tessivum.Code

open Library

variable (capacity : Pipe → Nat) (s : CodeRun)

/-! ## Runs that do not get stuck -/

/-- The reader comes upon a line that is not UTF-8, where a drain ends. -/
def Reader.Breaks (r : Reader) : Prop := ⟨.unreadable, true⟩ ∈ r.unread

/-- A write that starts fits what is free in the pipe, or nobody can read it; and no stream is
drained that a descendant keeps open. -/
def CodeRun.Fits : CodeStep → Prop
  | .host (.boot length) | .host (.reply length) =>
    s.holds .stdin = true → s.stdin + length ≤ capacity .stdin
  | .host .leave => ∀ stream, (s.readers stream).isOpen = true →
    s.ends .descendants (.stream stream) = true → (s.readers stream).Breaks
  | _ => True

/-- What the host waits for will come. -/
structure CodeRun.Moving : Prop where
  writing : ∀ left, s.phase = .writing left → s.holds .stdin = true →
    s.stdin + left ≤ capacity .stdin
  draining : ∀ stream, s.phase = .draining stream → ∀ stream, (s.readers stream).isOpen = true →
    s.holds (.stream stream) = true → (s.readers stream).Breaks

variable {capacity s} {s' : CodeRun}

/-- A run that is moving can be left. -/
theorem CodeRun.Moving.leavable (h : s.Moving capacity) : s.Leavable capacity := by
  intro hstopped hreturned
  cases hphase : s.phase with
  | spawned => exact ⟨.boot 0, by simp [host, hphase]⟩
  | returned => exact absurd hphase hreturned
  | writing left =>
    cases left with
    | zero => exact ⟨.written, by simp [host, hphase]⟩
    | succ left =>
      cases hheld : s.holds .stdin with
      | false => exact ⟨.writeFails, by simp [host, hphase, hheld]⟩
      | true =>
        have hroom := h.writing _ hphase hheld
        exact ⟨.write 1, by simp [host, hphase, hheld]; omega⟩
  | looping =>
    cases hon : s.goesOn with
    | false => exact ⟨.leave, by simp [host, hphase, hon]⟩
    | true =>
      simp only [stopped, or_eq_true] at hstopped
      rcases hstopped with (hstop | hstop) | hstop
      · exact ⟨.cancelled, by simp [host, hon, hstop]⟩
      · exact ⟨.disposed, by simp [host, hon, hstop]⟩
      · exact ⟨.deadline, by simp [host, hon, hstop]⟩
  | draining stream =>
    cases hopen : (s.readers stream).isOpen with
    | false => exact ⟨.drained stream, by simp [host, hphase, hopen]⟩
    | true =>
      refine ⟨.next stream, ?_⟩
      rw [host, if_pos (by simp [reads, hphase, hopen])]
      cases hunread : (s.readers stream).unread with
      | cons piece pieces => cases hends : piece.ends <;> simp [next, hunread, hends]
      | nil =>
        -- nothing is left to read, so nobody holds the stream
        have hfree : s.holds (.stream stream) = false := by
          by_contra hheld
          have hbreaks := h.draining stream hphase stream hopen (by simpa using hheld)
          simp [Reader.Breaks, hunread] at hbreaks
        cases hrest : (s.readers stream).rest <;> simp [next, hunread, hfree, hrest]

/-! ## Steps -/

theorem CodeRun.moving_of_looping (h : s.phase = .looping) : s.Moving capacity :=
  ⟨by simp [h], by simp [h]⟩

/-- What leaves the phase as it is keeps what the host waits for, when no end is gained and every
stream that is still open breaks where it did. -/
theorem CodeRun.Moving.mono (h : s.Moving capacity) (hphase : s'.phase = s.phase)
    (hstdin : s'.stdin ≤ s.stdin) (hholds : ∀ pipe, s'.holds pipe = true → s.holds pipe = true)
    (hreaders : ∀ stream, (s'.readers stream).isOpen = true → (s.readers stream).isOpen = true
      ∧ ((s.readers stream).Breaks → (s'.readers stream).Breaks)) :
    s'.Moving capacity := by
  refine ⟨fun left hwriting hheld => ?_, fun stream hdraining other hopen hheld => ?_⟩
  · have hroom := h.writing left (hphase.symm.trans hwriting) (hholds _ hheld)
    omega
  · obtain ⟨hwas, hbreaks⟩ := hreaders other hopen
    exact hbreaks (h.draining stream (hphase.symm.trans hdraining) other hwas (hholds _ hheld))

theorem CodeRun.Moving.setReader (h : s.Moving capacity) {stream : Stream} {r : Reader}
    (hr : r.isOpen = true → (s.readers stream).isOpen = true
      ∧ ((s.readers stream).Breaks → r.Breaks)) : (s.setReader stream r).Moving capacity := by
  refine h.mono rfl (Nat.le_refl _) (fun _ => id) fun other => ?_
  by_cases hother : other = stream
  · subst hother
    simpa only [CodeRun.setReader, update_self] using hr
  · simp [CodeRun.setReader, hother]

theorem CodeRun.Moving.exit (h : s.Moving capacity) : s.exit.Moving capacity :=
  h.mono rfl (Nat.le_refl _) (fun _ hheld => Bool.or_eq_true_iff.mpr (.inr hheld))
    fun _ hopen => ⟨hopen, id⟩

theorem CodeRun.Moving.process {party : Party} {step : ProcessStep} (h : s.Moving capacity)
    (hstep : s.process capacity party step = some s') : s'.Moving capacity := by
  cases step with
  | read bytes =>
    obtain ⟨-, ⟨⟩⟩ := ite_none_right_eq_some.mp hstep
    exact h.mono rfl (Nat.sub_le _ _) (fun _ => id) fun _ hopen => ⟨hopen, id⟩
  | emit stream piece =>
    obtain ⟨-, ⟨⟩⟩ := ite_none_right_eq_some.mp hstep
    exact h.setReader fun hopen => ⟨hopen, mem_append_left _⟩
  | close pipe =>
    cases hstep
    refine h.mono rfl (Nat.le_refl _) (fun other => ?_) fun _ hopen => ⟨hopen, id⟩
    by_cases hother : other = pipe <;> cases party <;> simp +contextual [holds, hother]

theorem CodeRun.phase_accept (stream : Stream) (line : Line) :
    (s.accept stream line).phase = s.phase := by
  unfold accept log
  repeat' split
  all_goals rfl

/-- A line that is taken from a stream, where the rest of it breaks off if it did. -/
theorem CodeRun.Moving.took {stream : Stream} {r : Reader} {line : Line} (h : s.Moving capacity)
    (hreads : s.reads stream = true)
    (hbreaks : line ≠ .unreadable → r.isOpen = true → (s.readers stream).isOpen = true
      ∧ ((s.readers stream).Breaks → r.Breaks)) :
    (s.took stream r line).Moving capacity := by
  unfold CodeRun.took
  dsimp only
  split
  · cases line with
    | unreadable =>
      have hclosed : (s.setReader stream { r with isOpen := false }).Moving capacity :=
        h.setReader nofun
      simpa [keep, CodeRun.setReader] using hclosed
    | text bytes frame =>
      have hmoved := h.setReader (hbreaks nofun)
      exact ⟨hmoved.writing, hmoved.draining⟩
  · rename_i hlooping
    refine moving_of_looping ((phase_accept stream line).trans ?_)
    simp only [reads, goesOn, and_eq_true, or_eq_true, decide_eq_true_eq] at hreads
    exact (hreads.2.resolve_right hlooping).1.1

theorem CodeRun.Moving.next {stream : Stream} (h : s.Moving capacity)
    (hreads : s.reads stream = true) (hstep : s.next stream = some s') : s'.Moving capacity := by
  unfold CodeRun.next at hstep
  dsimp only at hstep
  split at hstep
  · rename_i hunread
    split at hstep <;> cases hstep
    · refine h.took hreads fun hline hopen => ⟨hopen, fun hbreaks => ?_⟩
      rw [Reader.Breaks, hunread] at hbreaks
      exact (mem_cons.mp hbreaks).resolve_left fun heq => hline (heq ▸ rfl)
    · rename_i hends
      refine h.setReader fun hopen => ⟨hopen, fun hbreaks => ?_⟩
      rw [Reader.Breaks, hunread] at hbreaks
      exact (mem_cons.mp hbreaks).resolve_left fun heq => hends (heq ▸ rfl)
  · rename_i hunread
    split at hstep
    · cases hstep
    · split at hstep <;> cases hstep
      · exact h.setReader nofun
      · exact h.took hreads fun _ hopen => ⟨hopen, id⟩

theorem CodeRun.looping_of_goesOn (h : s.goesOn = true) : s.phase = .looping := by
  simp only [goesOn, and_eq_true, decide_eq_true_eq] at h
  exact h.1.1

/-- A step of the host keeps the run moving, if its writes and drains fit. -/
theorem CodeRun.Moving.ofHost {step : HostStep} (h : s.Moving capacity)
    (hfits : s.Fits capacity (.host step)) (hstep : s.host capacity step = some s') :
    s'.Moving capacity := by
  cases step with
  | boot length | reply length =>
    obtain ⟨-, ⟨⟩⟩ := ite_none_right_eq_some.mp hstep
    refine ⟨fun left hleft hheld => ?_, nofun⟩
    cases hleft
    exact hfits hheld
  | write bytes =>
    simp only [host] at hstep
    split at hstep
    · rename_i left hwriting
      obtain ⟨⟨hheld, -, hle, -⟩, ⟨⟩⟩ := ite_none_right_eq_some.mp hstep
      refine ⟨fun left' hleft _ => ?_, nofun⟩
      cases hleft
      have hroom := h.writing left hwriting hheld
      dsimp only
      omega
    · cases hstep
  | writeFails =>
    simp only [host] at hstep
    split at hstep
    · split at hstep <;> cases hstep
      exact moving_of_looping rfl
    · cases hstep
  | written =>
    obtain ⟨-, ⟨⟩⟩ := ite_none_right_eq_some.mp hstep
    exact moving_of_looping rfl
  | next stream =>
    obtain ⟨hreads, hstep⟩ := ite_none_right_eq_some.mp hstep
    exact h.next hreads hstep
  | waited =>
    obtain ⟨⟨hon, -⟩, ⟨⟩⟩ := ite_none_right_eq_some.mp hstep
    have hlooping := looping_of_goesOn hon
    exact moving_of_looping hlooping
  | deadline | cancelled | disposed =>
    obtain ⟨hon, ⟨⟩⟩ := ite_none_right_eq_some.mp hstep
    have hlooping := looping_of_goesOn (Bool.and_eq_true_iff.mp hon).1
    exact moving_of_looping hlooping
  | leave =>
    obtain ⟨-, ⟨⟩⟩ := ite_none_right_eq_some.mp hstep
    exact ⟨nofun, fun _ _ => hfits⟩
  | drained stream =>
    obtain ⟨⟨hdraining, -⟩, ⟨⟩⟩ := ite_none_right_eq_some.mp hstep
    refine ⟨fun left hleft => ?_, fun _ _ => h.draining stream hdraining⟩
    dsimp only at hleft
    split at hleft <;> cases hleft

/-- One step of the host or a process. -/
theorem CodeRun.Moving.step (step : CodeStep) (hfits : s.Fits capacity step)
    (h : s.Moving capacity) : (s.step capacity step).Moving capacity := by
  unfold CodeRun.step
  cases hstep : s.apply capacity step with
  | none => exact h
  | some s' =>
    rw [getD_some]
    cases step with
    | host step => exact h.ofHost hfits hstep
    | process party step => exact h.process hstep
    | fork =>
      cases hstep
      refine h.mono rfl (Nat.le_refl _) (fun pipe hheld => ?_) fun _ hopen => ⟨hopen, id⟩
      simp only [holds, update_self, ne_eq, reduceCtorEq, not_false_eq_true,
        update_of_ne] at hheld ⊢
      exact (Bool.or_eq_true_iff.mp hheld).elim (fun hheld => by rw [hheld]; rfl) id
    | exit =>
      cases hstep
      exact h.exit
    | cancel | dispose =>
      cases hstep
      exact ⟨h.writing, h.draining⟩
    | expire =>
      obtain ⟨-, ⟨⟩⟩ := ite_none_right_eq_some.mp hstep
      exact ⟨h.writing, h.draining⟩

/-- Where every write that starts has room in the pipe and no descendant keeps a drained stream
open, the run can be left in every state: whatever the worker and its descendants do, and
whenever the run is to stop. -/
theorem code_run_never_stuck (capacity : Pipe → Nat) (max : Nat) (steps : List CodeStep)
    (hrun : Meets (CodeRun.Fits capacity) (CodeRun.step capacity) (.spawn max) steps) :
    (steps.foldl (CodeRun.step capacity) (.spawn max)).Leavable capacity :=
  (foldl_invariant_of_meets (CodeRun.Moving capacity) (fun _ step hfits h => h.step step hfits)
    steps _ hrun ⟨nofun, nofun⟩).leavable

theorem code_run_killed :
    ([CodeStep.host (.boot 4), .host (.write 4), .host .written, .cancel, .host .cancelled,
      .host .leave].foldl (CodeRun.step fun _ => 8) (.spawn 64)).Leavable fun _ => 8 :=
  code_run_never_stuck (fun _ => 8) 64 _ ⟨fun _ => by decide, trivial, trivial, trivial, trivial,
    nofun, trivial⟩

/-- The worker reads nothing: a boot message that is longer than its pipe holds a cancelled run. -/
theorem code_run_stuck :
    ¬ ([CodeStep.host (.boot 9), .host (.write 8), .cancel].foldl (CodeRun.step fun _ => 8)
      (.spawn 64)).Leavable fun _ => 8 := by
  intro h
  obtain ⟨step, hstep⟩ := h rfl nofun
  cases step with
  | write bytes =>
    simp [CodeRun.step, CodeRun.apply, CodeRun.host, CodeRun.spawn, CodeRun.holds] at hstep
    omega
  | _ => simp [CodeRun.step, CodeRun.apply, CodeRun.host, CodeRun.spawn, CodeRun.holds,
      CodeRun.reads, CodeRun.goesOn] at hstep

end Tessivum.Code
