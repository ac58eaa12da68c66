/-
Tessivum.Sandbox.CallsTheorems — no command and no write exceeds the authority
of its session.

A call that is past its admission has a mode at most that of its session, or
its approval said yes (`ToolCall.Permitted`); a shell that is kept was prepared
for the mode it is kept under. What each step does keeps both, and every effect
is bounded by them (`Sound.run`).
-/
import Tessivum.Sandbox.Calls

namespace Tessivum.Sandbox

open Library Protocol List

/-! ## Calls that are past their admission -/

def CallPhase.admitted : CallPhase → Bool
  | .ready | .job | .opening _ | .opened .. | .running _ | .finished => true
  | .asking | .refused _ => false

def CallPhase.shell : CallPhase → Option Shell
  | .opened _ shell | .running shell => some shell
  | _ => none

/-- The mode of the call is one of its session, or it was approved. -/
def ToolCall.Permitted (call : ToolCall) : Prop :=
  call.mode ≤ sessionSandboxMode call.log ∨ call.answer = some (.ok (some true))

section

variable (provider : Option SandboxProvider)

def Shell.Prepared (shell : Shell) : Prop :=
  PreparedFor provider shell.mode shell.plan

structure ToolCall.Sound (call : ToolCall) : Prop where
  permitted : call.phase.admitted = true → call.Permitted
  shells : ∀ shell : Shell, call.phase.shell = some shell →
    shell.mode = call.mode ∧ shell.Prepared provider

def ShellEntry.Sound (entry : ShellEntry) : Prop :=
  ∀ shell : Shell, entry.shell = some shell → shell.Prepared provider

/-- The effect has an authority of its session or an approved one, and a
command was started through the plan for it. -/
def Effect.Bounded (effect : Effect) : Prop :=
  (effect.authority ≤ sessionSandboxMode effect.log ∨
    effect.answer = some (.ok (some true))) ∧
  (effect.kind = .bash →
    ∃ plan, effect.plan = some plan ∧ PreparedFor provider effect.authority plan)

structure Sound (s : ToolSystem) : Prop where
  calls : ∀ call ∈ s.calls, call.Sound provider
  entries : ∀ entry ∈ s.entries, entry.Sound provider
  effects : ∀ effect ∈ s.effects, effect.Bounded provider

end

theorem start_sound (provider : Option SandboxProvider) : Sound provider .start where
  calls _ h := nomatch h
  entries _ h := nomatch h
  effects _ h := nomatch h

theorem sound_of_not_admitted {provider : Option SandboxProvider} {call : ToolCall}
    (h : call.phase.admitted = false) : call.Sound provider where
  permitted hadmitted := by rw [h] at hadmitted; cases hadmitted
  shells shell hshell := by
    cases hphase : call.phase with
    | opened e held | running held => rw [hphase] at h; cases h
    | _ => rw [hphase] at hshell; cases hshell

theorem sound_of_permitted {provider : Option SandboxProvider} {call : ToolCall}
    (h : call.Permitted) (hshell : call.phase.shell = none) : call.Sound provider where
  permitted _ := h
  shells shell hsome := by rw [hshell] at hsome; cases hsome

/-! ## Admission -/

variable {admission : Admission} {arguments : Value} {current : SandboxMode}

theorem admitBash_ok (h : admitBash current arguments = .ok admission) :
    ∃ requested, requestedMode arguments = .ok requested ∧
      admission = { mode := requested.getD current
                    asks := decide (current < requested.getD current) } := by
  obtain ⟨requested, hrequested, h⟩ := bind_eq_ok.mp h
  cases h
  exact ⟨requested, hrequested, rfl⟩

theorem allowWrite_ok {name : String} (h : allowWrite name current arguments = .ok admission) :
    admission = { mode := .workspaceWrite, asks := decide (current ≠ .workspaceWrite) } := by
  obtain ⟨_, _, h⟩ := bind_eq_ok.mp h
  obtain ⟨_, _, h⟩ := bind_eq_ok.mp h
  replace h := after_check h
  replace h := after_check h
  split at h
  all_goals
    rename_i hcurrent
    replace h := after_check h
    cases h
    simp [hcurrent]

theorem checkCall_ok {kind : ToolKind} {lease : Except TessivumError Unit} {cancelled : Bool}
    (h : checkCall kind current lease cancelled arguments = .ok admission)
    (hasks : admission.asks = false) : admission.mode ≤ current := by
  have hfile : ∀ {name : String}, allowWrite name current arguments = .ok admission →
      admission.mode ≤ current := by
    intro name h
    rw [allowWrite_ok h] at hasks ⊢
    simp only [decide_eq_false_iff_not, not_not] at hasks
    exact le_of_eq hasks.symm
  cases kind with
  | bash =>
    obtain ⟨_, _, h⟩ := bind_eq_ok.mp h
    obtain ⟨_, _, h⟩ := bind_eq_ok.mp h
    obtain ⟨_, _, rfl⟩ := admitBash_ok h
    simpa using hasks
  | write | edit =>
    obtain ⟨_, _, h⟩ := bind_eq_ok.mp h
    obtain ⟨_, _, h⟩ := bind_eq_ok.mp h
    exact hfile h

section

variable {provider : Option SandboxProvider} {kind : ToolKind} {session : String}
  {arguments : Value} {persistent : Bool} {log log' : Option (List SessionEvent)}
  {lease : Except TessivumError Unit} {cancelled : Bool}

theorem beginCall_ready :
    (beginCall kind session arguments persistent log lease cancelled).phase = .ready ↔
      ∃ mode, checkCall kind (sessionSandboxMode log) lease cancelled arguments =
        .ok { mode, asks := false } := by
  unfold beginCall
  cases checkCall kind (sessionSandboxMode log) lease cancelled arguments with
  | error e => simp
  | ok admission =>
    obtain ⟨_, asks⟩ := admission
    cases asks <;> simp

theorem beginCall_mode {admission : Admission}
    (h : checkCall kind (sessionSandboxMode log) lease cancelled arguments = .ok admission) :
    (beginCall kind session arguments persistent log lease cancelled).mode = admission.mode := by
  unfold beginCall
  rw [h]

/-- A call begins. -/
theorem beginCall_sound :
    (beginCall kind session arguments persistent log lease cancelled).Sound provider := by
  unfold beginCall
  cases hcheck : checkCall kind (sessionSandboxMode log) lease cancelled arguments with
  | error e => exact sound_of_not_admitted rfl
  | ok admission =>
    obtain ⟨_, asks⟩ := admission
    cases asks with
    | true => exact sound_of_not_admitted rfl
    | false => exact sound_of_permitted (.inl (checkCall_ok hcheck rfl)) rfl

/-- A call gets its answer. -/
theorem decide_sound (call : ToolCall) (answer : ApprovalAnswer) :
    (call.decide answer cancelled).Sound provider := by
  cases answer with
  | error e => exact sound_of_not_admitted rfl
  | ok approved =>
    unfold ToolCall.decide
    simp only
    split
    · exact sound_of_not_admitted rfl
    · split
      · rename_i happroved
        cases approved with
        | none => cases happroved
        | some yes =>
          cases happroved
          exact sound_of_permitted (.inr rfl) rfl
      · exact sound_of_not_admitted rfl

/-! ## Wider modes -/

/-- What `bash` is let through without an approval, it is let through in
every wider session: in the same mode if the call names one, and else in the
mode of the session. -/
theorem beginCall_bash_mono (hle : sessionSandboxMode log ≤ sessionSandboxMode log')
    (h : (beginCall .bash session arguments persistent log lease cancelled).phase = .ready) :
    (beginCall .bash session arguments persistent log' lease cancelled).phase = .ready ∧
      (beginCall .bash session arguments persistent log lease cancelled).mode ≤
        (beginCall .bash session arguments persistent log' lease cancelled).mode ∧
      ((arguments.get "sandbox_permissions").isSome →
        (beginCall .bash session arguments persistent log' lease cancelled).mode =
          (beginCall .bash session arguments persistent log lease cancelled).mode) := by
  obtain ⟨mode, hcheck⟩ := beginCall_ready.mp h
  obtain ⟨_, hcommand, hrest⟩ := bind_eq_ok.mp hcheck
  obtain ⟨_, hlease, hbash⟩ := bind_eq_ok.mp hrest
  obtain ⟨requested, hrequested, hadmission⟩ := admitBash_ok hbash
  simp only [Admission.mk.injEq, eq_comm (a := false), decide_eq_false_iff_not, not_lt]
    at hadmission
  obtain ⟨rfl, hnot⟩ := hadmission
  have hcheck' : checkCall .bash (sessionSandboxMode log') lease cancelled arguments =
      .ok { mode := requested.getD (sessionSandboxMode log'), asks := false } := by
    have hasks : ¬ sessionSandboxMode log' < requested.getD (sessionSandboxMode log') := by
      cases requested with
      | none => exact lt_irrefl _
      | some mode => exact not_lt.mpr (le_trans hnot hle)
    simp only [checkCall, hcommand, hlease, admitBash, hrequested, ok_bind, hasks, decide_false]
  refine ⟨beginCall_ready.mpr ⟨_, hcheck'⟩, ?_, ?_⟩
  · rw [beginCall_mode hcheck, beginCall_mode hcheck']
    cases requested with
    | none => exact hle
    | some mode => exact le_refl _
  · intro hsome
    rw [beginCall_mode hcheck, beginCall_mode hcheck']
    cases requested with
    | some mode => rfl
    | none =>
      unfold requestedMode at hrequested
      split at hrequested
      · rename_i hnone
        rw [hnone] at hsome
        cases hsome
      · split at hrequested <;> cases hrequested

/-- What `write` and `edit` are let through without an approval, they are
let through in every wider session that is not unconfined. -/
theorem beginCall_file_mono (hkind : kind ≠ .bash)
    (hle : sessionSandboxMode log ≤ sessionSandboxMode log')
    (hconfined : sessionSandboxMode log' ≤ .workspaceWrite)
    (h : (beginCall kind session arguments persistent log lease cancelled).phase = .ready) :
    (beginCall kind session arguments persistent log' lease cancelled).phase = .ready := by
  obtain ⟨mode, hcheck⟩ := beginCall_ready.mp h
  have hcurrent : sessionSandboxMode log = .workspaceWrite := by
    have hfile : ∃ name, allowWrite name (sessionSandboxMode log) arguments =
        .ok { mode, asks := false } := by
      cases kind with
      | bash => exact absurd rfl hkind
      | write | edit =>
        obtain ⟨_, _, hrest⟩ := bind_eq_ok.mp hcheck
        obtain ⟨_, _, hfile⟩ := bind_eq_ok.mp hrest
        exact ⟨_, hfile⟩
    obtain ⟨_, hfile⟩ := hfile
    have hadmission := allowWrite_ok hfile
    simp only [Admission.mk.injEq, eq_comm (a := false), decide_eq_false_iff_not, not_not]
      at hadmission
    exact hadmission.2
  have hsame : sessionSandboxMode log' = sessionSandboxMode log := by
    rw [hcurrent] at hle ⊢
    exact le_antisymm hconfined hle
  refine beginCall_ready.mpr ⟨mode, ?_⟩
  rw [hsame]
  exact hcheck

end

/-! ## What a step of a call does -/

section

variable {canonicalDirectory : Path → String → Except TessivumError Path}
  {provider : Option SandboxProvider} {s : ToolSystem} {i : Nat} {call : ToolCall}

variable {phase : CallPhase} {e : Nat} {entry : ShellEntry}

section

variable (h : Sound provider s)

include h

theorem Sound.setPhase (hcall : ({ call with phase } : ToolCall).Sound provider) :
    Sound provider (s.setPhase i call phase) :=
  { h with
    calls := fun other hother => (mem_or_eq_of_mem_set hother).elim (h.calls other)
      fun heq => heq ▸ hcall }

theorem Sound.setEntry (hentry : entry.Sound provider) :
    Sound provider (s.setEntry e entry) :=
  { h with
    entries := fun other hother => (mem_or_eq_of_mem_set hother).elim (h.entries other)
      fun heq => heq ▸ hentry }

theorem Sound.refuse (e : TessivumError) :
    Sound provider (s.setPhase i call (.refused e)) :=
  h.setPhase (sound_of_not_admitted rfl)

theorem Sound.goOn {phase : CallPhase} (hpermitted : call.Permitted)
    (hshell : phase.shell = none) : Sound provider (s.setPhase i call phase) :=
  h.setPhase (sound_of_permitted hpermitted hshell)

theorem Sound.hold {shell : Shell} (hpermitted : call.Permitted)
    (hphase : phase.shell = some shell) (hmode : shell.mode = call.mode)
    (hprepared : shell.Prepared provider) : Sound provider (s.setPhase i call phase) :=
  h.setPhase
    { permitted := fun _ => hpermitted
      shells := fun other hother => by
        obtain rfl : shell = other := some.inj (hphase.symm.trans hother)
        exact ⟨hmode, hprepared⟩ }

/-- A permitted call has its effect. -/
theorem Sound.perform {authority : SandboxMode} {plan : Option SandboxPlan}
    (hpermitted : call.Permitted) (hmode : authority = call.mode)
    (hplan : call.kind = .bash → ∃ p, plan = some p ∧ PreparedFor provider authority p) :
    Sound provider (s.perform i call authority plan) := by
  have hcall : Sound provider (s.setPhase i call .finished) := h.goOn hpermitted rfl
  refine { hcall with effects := fun effect heffect => ?_ }
  rcases mem_append.mp heffect with hold | hnew
  · exact h.effects effect hold
  · obtain rfl := mem_singleton.mp hnew
    subst hmode
    exact ⟨hpermitted, hplan⟩

theorem Sound.runBash (hpermitted : call.Permitted) (outside : Outside) :
    Sound provider (s.runBash canonicalDirectory provider i call outside) := by
  unfold ToolSystem.runBash
  split
  · rename_i plan hplan _
    exact h.perform hpermitted rfl fun _ => ⟨plan, rfl, prepareBash_ok hplan⟩
  · exact h.refuse _
  · exact h.refuse _

/-- A permitted call opens its shell. -/
theorem Sound.openShell (hpermitted : call.Permitted)
    (hentry : entry.Sound provider) (outside : Outside) :
    Sound provider (s.openShell canonicalDirectory provider i call e entry outside) := by
  unfold ToolSystem.openShell
  split
  · exact h.refuse _
  · split
    · rename_i shell hshell
      split
      · rename_i hmode
        have hlocked : Sound provider (s.setEntry e { entry with lock := some i }) :=
          h.setEntry hentry
        exact hlocked.hold hpermitted rfl hmode (hentry shell hshell)
      · exact h.refuse _
    · split
      · rename_i plan hplan _
        have hprepared : PreparedFor provider call.mode plan := prepareBash_ok hplan
        have hstarted : Sound provider (s.setEntry e
            { entry with shell := some { mode := call.mode, plan }, lock := some i }) :=
          h.setEntry fun shell hshell => by
            cases hshell
            exact hprepared
        exact hstarted.hold hpermitted rfl rfl hprepared
      · exact h.refuse _
      · exact h.refuse _

/-- A call goes on. -/
theorem Sound.advance (hcall : call.Sound provider) (outside : Outside) :
    Sound provider (s.advance canonicalDirectory provider i call outside) := by
  unfold ToolSystem.advance
  split
  case h_1 hphase =>
    have hpermitted : call.Permitted := hcall.permitted (by rw [hphase]; rfl)
    split
    · split
      · exact h.refuse _
      · exact h.runBash hpermitted outside
      · split
        · exact h.goOn hpermitted rfl
        · exact h.refuse _
      · split
        · split
          · exact h.goOn hpermitted rfl
          · exact h.refuse _
        · exact h.refuse _
    all_goals
      rename_i hkind
      split
      · exact h.perform hpermitted rfl fun hbash => by rw [hkind] at hbash; cases hbash
      · exact h.refuse _
  case h_2 hphase =>
    exact h.runBash (hcall.permitted (by rw [hphase]; rfl)) outside
  case h_3 e hphase =>
    have hpermitted : call.Permitted := hcall.permitted (by rw [hphase]; rfl)
    split
    · exact h
    · rename_i entry hentry
      split
      · exact h.openShell hpermitted (h.entries entry (mem_of_getElem? hentry)) outside
      · exact h
  case h_4 e shell hphase =>
    have hpermitted : call.Permitted := hcall.permitted (by rw [hphase]; rfl)
    obtain ⟨hmode, hprepared⟩ := hcall.shells shell (by rw [hphase]; rfl)
    split
    · exact h
    · rename_i entry hentry
      have hsound : entry.Sound provider := h.entries entry (mem_of_getElem? hentry)
      split
      · have hreleased : Sound provider (s.setEntry e { entry with lock := none }) :=
          h.setEntry hsound
        exact hreleased.hold hpermitted rfl hmode hprepared
      · have htaken : Sound provider (s.setEntry e { entry with shell := none, lock := none }) :=
          h.setEntry nofun
        exact htaken.refuse _
  case h_5 shell hphase =>
    have hpermitted : call.Permitted := hcall.permitted (by rw [hphase]; rfl)
    obtain ⟨hmode, hprepared⟩ := hcall.shells shell (by rw [hphase]; rfl)
    split
    · exact h.perform hpermitted hmode fun _ => ⟨shell.plan, rfl, hprepared⟩
    · exact h.refuse _
  all_goals exact h

/-! ## Every step -/

/-- A shell entry changes without a new shell. -/
theorem Sound.modifyEntry {f : ShellEntry → ShellEntry}
    (hf : ∀ entry, (f entry).shell = entry.shell ∨ (f entry).shell = none) :
    Sound provider { s with entries := s.entries.modify e f } := by
  refine { h with entries := fun entry hentry => ?_ }
  obtain ⟨j, hj⟩ := mem_iff_getElem?.mp hentry
  obtain ⟨old, hold, hsame⟩ := Keyed.getElem?_modify_eq_some.mp hj
  have hsound : old.Sound provider := h.entries old (mem_of_getElem? hold)
  split at hsame
  · subst hsame
    intro shell hshell
    rcases hf old with hkept | hgone
    · exact hsound shell (hkept ▸ hshell)
    · rw [hgone] at hshell
      cases hshell
  · subst hsame
    exact hsound

/-- Persistent shells are turned on. -/
theorem Sound.enable (session : String) :
    Sound provider (s.enable session) := by
  unfold ToolSystem.enable
  split
  · exact h.modifyEntry fun _ => .inl rfl
  · refine { h with entries := fun entry hentry => ?_ }
    rcases mem_append.mp hentry with hold | hnew
    · exact h.entries entry hold
    · obtain rfl := mem_singleton.mp hnew
      exact nofun

/-- Persistent shells are turned off. -/
theorem Sound.disable (session : String) :
    Sound provider (s.disable session) := by
  unfold ToolSystem.disable
  split
  · rename_i e _
    have hmodified : Sound provider
        { s with entries := s.entries.modify e fun entry => { entry with enabled := false } } :=
      h.modifyEntry fun _ => .inl rfl
    exact { hmodified with }
  · exact h

theorem Sound.dispose (e : Nat) : Sound provider (s.dispose e) :=
  h.modifyEntry fun entry => by
    split
    · exact .inr rfl
    · exact .inl rfl

/-- One step of the calls and sessions. -/
theorem Sound.step (step : ToolStep) :
    Sound provider (s.step canonicalDirectory provider step) := by
  cases step with
  | openSession session events | closeSession session => exact { h with }
  | append session event =>
    unfold ToolSystem.step
    simp only
    split
    · exact { h with }
    · exact h
  | enable session => exact h.enable session
  | disable session => exact h.disable session
  | dispose e => exact h.dispose e
  | call =>
    refine { h with calls := fun call hcall => ?_ }
    rcases mem_append.mp hcall with hold | hnew
    · exact h.calls call hold
    · obtain rfl := mem_singleton.mp hnew
      exact beginCall_sound
  | answer i answer =>
    unfold ToolSystem.step
    simp only
    split
    · rename_i call hcall
      split
      · refine { h with calls := fun other hother => ?_ }
        rcases mem_or_eq_of_mem_set hother with hold | rfl
        · exact h.calls other hold
        · exact decide_sound call answer
      · exact h
    · exact h
  | advance i outside =>
    unfold ToolSystem.step
    simp only
    split
    · rename_i call hcall
      exact h.advance (h.calls call (mem_of_getElem? hcall)) outside
    · exact h

theorem Sound.run (steps : List ToolStep) :
    Sound provider (s.run canonicalDirectory provider steps) := by
  induction steps generalizing s with
  | nil => exact h
  | cons step rest ih => exact ih (h.step step)

end

end

/-! ## Authority -/

/-- Every effect of every run has an authority of its session or an approved
one, and every command was started through the plan for it. What a call may
do without an approval, it may do without one in a wider session: for `bash`
always, for `write` and `edit`, which only `workspace-write` lets pass, up to
that mode. -/
theorem authority_bounded (canonicalDirectory : Path → String → Except TessivumError Path)
    (provider : Option SandboxProvider) :
    (∀ (steps : List ToolStep),
      ∀ effect ∈ (ToolSystem.start.run canonicalDirectory provider steps).effects,
        effect.Bounded provider) ∧
    (∀ (steps : List ToolStep),
      ∀ call ∈ (ToolSystem.start.run canonicalDirectory provider steps).calls,
        ∀ shell : Shell, call.phase.shell = some shell → shell.mode = call.mode) ∧
    (∀ (session : String) (arguments : Value) (persistent cancelled : Bool)
      (log log' : Option (List SessionEvent)) (lease : Except TessivumError Unit),
      sessionSandboxMode log ≤ sessionSandboxMode log' →
      (beginCall .bash session arguments persistent log lease cancelled).phase = .ready →
      (beginCall .bash session arguments persistent log' lease cancelled).phase = .ready ∧
        (beginCall .bash session arguments persistent log lease cancelled).mode ≤
          (beginCall .bash session arguments persistent log' lease cancelled).mode ∧
        ((arguments.get "sandbox_permissions").isSome →
          (beginCall .bash session arguments persistent log' lease cancelled).mode =
            (beginCall .bash session arguments persistent log lease cancelled).mode)) ∧
    (∀ (kind : ToolKind) (session : String) (arguments : Value) (persistent cancelled : Bool)
      (log log' : Option (List SessionEvent)) (lease : Except TessivumError Unit),
      kind ≠ .bash → sessionSandboxMode log ≤ sessionSandboxMode log' →
      sessionSandboxMode log' ≤ .workspaceWrite →
      (beginCall kind session arguments persistent log lease cancelled).phase = .ready →
      (beginCall kind session arguments persistent log' lease cancelled).phase = .ready) := by
  refine ⟨?_, ?_, ?_, ?_⟩
  · intro steps
    exact ((start_sound provider).run steps).effects
  · intro steps call hcall shell hshell
    exact ((((start_sound provider).run steps).calls call hcall).shells shell hshell).1
  · intro session arguments persistent cancelled log log' lease hle h
    exact beginCall_bash_mono hle h
  · intro kind session arguments persistent cancelled log log' lease hkind hle hconfined h
    exact beginCall_file_mono hkind hle hconfined h

/-! ## Where a wider mode takes something away -/

def confineAll : SandboxProvider := fun effective argv =>
  .ok { argv := ["confine", pathText effective.workspace] ++ argv, enforcement := .full
        denial := none }

def sampleRun (steps : List ToolStep) : ToolSystem :=
  ToolSystem.start.run (fun path _ => .ok path) (some confineAll) steps

def modeEvent (name : String) : SessionEvent :=
  .plain "sandbox/mode" 0 0 (.object [("mode", .string name)])

def listFiles : Value := .object [("command", .string "ls")]

def writeNotes : Value :=
  .object [("file_path", .string "notes.md"), ("content", .string "text")]

def call (kind : ToolKind) (arguments : Value) : ToolStep :=
  .call kind "s" arguments (.ok ()) false

def go (i : Nat) : ToolStep := .advance i { workspace := .ok ["work"], outcome := .ok () }

/-- A shell that was started in a read-only session, and two calls. -/
def shellCalls (between : List ToolStep) : List ToolStep :=
  [.openSession "s" [modeEvent "read-only"], .enable "s", call .bash listFiles] ++
    List.replicate 4 (go 0) ++ between ++ [call .bash listFiles] ++ List.replicate 4 (go 1)

def writeCall (mode : String) : List ToolStep :=
  [.openSession "s" [modeEvent mode], call .write writeNotes, go 0]

def CallPhase.refusal : CallPhase → Option String
  | .refused e => some e.code
  | _ => none

/-- The same calls, without an approval, under a mode and a wider one: the
kept shell of the narrower mode takes no call of the wider one, and a write
that `workspace-write` allows is refused under `danger-full-access`. -/
theorem wider_mode_refused :
    ((sampleRun (shellCalls [])).effects.length = 2 ∧
      (sampleRun (shellCalls [.append "s" (modeEvent "workspace-write")])).effects.length = 1 ∧
      (sampleRun (shellCalls [.append "s" (modeEvent "workspace-write")])).calls.map
        (·.phase.refusal) = [none, some "PERSISTENT_SHELL_SANDBOX_POLICY_MISMATCH"]) ∧
    (sampleRun (writeCall "workspace-write")).effects.length = 1 ∧
      (sampleRun (writeCall "danger-full-access")).effects.length = 0 ∧
      (sampleRun (writeCall "danger-full-access")).calls.map (·.phase.refusal) =
        [some "SANDBOX_WRITE_DENIED"] := by
  decide +kernel

end Tessivum.Sandbox
