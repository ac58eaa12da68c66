/-
Tessivum.Tools.RuntimeTheorems — scopes only narrow, execution is gated by the
scope, and a call settles once.

§1 Scopes. `narrowed_access`: a narrowed scope gives a name what the
restrictions request for it, or what the parent gave, and never more than the
parent.

§2 Execution. The one exit that settles under the guard is the one for a name
that is not registered, so a call settles exactly when the name is registered
or the call was cancelled at its entry (`execute_settles_iff`).

§3 What runs. `ran_gated` names every condition under which the handler of a
tool is reached.
-/
import Tessivum.Tools.Runtime
import Tessivum.Tools.SchemaTheorems

namespace Tessivum.Tools

open Library Library.Keyed Protocol List Exec

/-! ## §1 Scopes -/

def ToolRestrictions.requested (r : ToolRestrictions) (name : String) : Option ToolAccess :=
  if name ∈ r.deny then some .deny
  else if name ∈ r.ask then some .ask
  else r.allow.map fun allow => if name ∈ allow then .allow else .deny

theorem requestedAccess_eq (r : ToolRestrictions) (name : String) (parent : ToolAccess) :
    requestedAccess r name parent = (r.requested name).getD parent := by
  unfold requestedAccess ToolRestrictions.requested
  split
  · rfl
  · split
    · rfl
    · cases r.allow <;> rfl

variable {name other : String} {r : ToolRestrictions} {scope : ToolScope}

theorem mem_insertName : ∀ {names : List String},
    other ∈ insertName name names ↔ other = name ∨ other ∈ names
  | [] => by simp [insertName]
  | x :: rest => by
    rw [insertName]
    split
    · exact mem_cons
    · split
      · rename_i heq
        rw [heq, mem_cons]
        tauto
      · rw [mem_cons, mem_insertName, mem_cons]
        tauto

theorem mem_extendNames : ∀ {more names : List String},
    other ∈ extendNames names more ↔ other ∈ names ∨ other ∈ more
  | [], names => by simp [extendNames]
  | name :: rest, names => by
    show other ∈ extendNames (insertName name names) rest ↔ _
    rw [mem_extendNames, mem_insertName, mem_cons]
    tauto

/-- The loop over the named tools: no access is broadened. -/
theorem narrowNames_ok {default : ToolAccess} :
    ∀ {names : List String} {acc named : List (String × ToolAccess)},
      names.foldlM (scope.narrowName r default) acc = .ok named →
        (∀ name ∈ names, requestedAccess r name (scope.access name) ≤ scope.access name)
          ∧ ∀ name, named.lookup name = (acc.lookup name).or
              (if name ∈ names ∧ requestedAccess r name (scope.access name) ≠ default then
                some (requestedAccess r name (scope.access name)) else none)
  | [], acc, named, h => by
    cases h
    exact ⟨fun _ h => absurd h not_mem_nil, fun name => by simp⟩
  | first :: rest, acc, named, h => by
    rw [foldlM_cons] at h
    obtain ⟨_, hmid, hrest⟩ := bind_eq_ok.mp h
    obtain ⟨hrank, hmid⟩ := check_bind_eq_ok.mp hmid
    have hle : requestedAccess r first (scope.access first) ≤ scope.access first :=
      Nat.le_of_not_lt (failIf_eq_ok.mp hrank)
    obtain ⟨hall, hlookup⟩ := narrowNames_ok hrest
    refine ⟨fun name hname => ?_, fun name => ?_⟩
    · rcases mem_cons.mp hname with rfl | hname
      · exact hle
      · exact hall name hname
    · have hmid := ok.inj hmid
      rw [hlookup name, ← hmid]
      by_cases hkeep : requestedAccess r first (scope.access first) ≠ default
      · rw [if_pos hkeep, lookup_append, Option.or_assoc]
        congr 1
        by_cases hname : name = first
        · subst hname
          rw [Keyed.lookup_cons, if_pos rfl, Option.some_or,
            if_pos ⟨mem_cons_self, hkeep⟩]
        · rw [Keyed.lookup_cons, if_neg hname]
          simp only [lookup_nil, Option.none_or, mem_cons, hname, false_or]
      · rw [if_neg hkeep]
        congr 1
        by_cases hname : name = first
        · rw [hname, if_neg fun h => hkeep h.2, if_neg fun h => hkeep h.2]
        · simp only [mem_cons, hname, false_or]

/-- A narrowed scope gives a name what is requested for it, or what it had,
and never more than it had. -/
theorem narrowed_access {child : ToolScope} (h : scope.narrowed r = .ok child) (name : String) :
    child.access name = (r.requested name).getD (scope.access name)
      ∧ child.access name ≤ scope.access name := by
  unfold ToolScope.narrowed at h
  replace h := after_check h
  obtain ⟨hrank, h⟩ := check_bind_eq_ok.mp h
  obtain ⟨named, hnamed, h⟩ := bind_eq_ok.mp h
  cases h
  obtain ⟨hwithin, hlookup⟩ := narrowNames_ok hnamed
  rw [← requestedAccess_eq]
  simp only [mem_extendNames, not_mem_nil, false_or] at hwithin hlookup
  by_cases hvisited : ((name ∈ scope.named.map Prod.fst ∨ name ∈ r.allow.getD [])
      ∨ name ∈ r.deny) ∨ name ∈ r.ask
  · have haccess : ToolScope.access
        { default := if r.allow.isSome then .deny else scope.default, named } name
          = requestedAccess r name (scope.access name) := by
      show (named.lookup name).getD _ = _
      rw [hlookup name, lookup_nil, Option.none_or]
      by_cases hkeep : requestedAccess r name (scope.access name)
          ≠ if r.allow.isSome then .deny else scope.default
      · rw [if_pos ⟨hvisited, hkeep⟩]
        rfl
      · rw [if_neg fun h => hkeep h.2, getD_none]
        exact (not_not.mp hkeep).symm
    rw [haccess]
    exact ⟨rfl, hwithin name hvisited⟩
  · -- nothing is said of the name: it follows the default
    have hparent : scope.access name = scope.default := by
      have hnone := Keyed.lookup_eq_none.mpr fun h => hvisited (.inl (.inl (.inl h)))
      rw [ToolScope.access, hnone]
      rfl
    have haccess : ToolScope.access
        { default := if r.allow.isSome then .deny else scope.default, named } name
          = if r.allow.isSome then .deny else scope.default := by
      show (named.lookup name).getD _ = _
      rw [hlookup name, lookup_nil, Option.none_or, if_neg fun h => hvisited h.1]
      rfl
    have hrequested : requestedAccess r name (scope.access name)
        = if r.allow.isSome then .deny else scope.default := by
      unfold requestedAccess
      rw [if_neg fun h => hvisited (.inl (.inr h)), if_neg fun h => hvisited (.inr h), hparent]
      cases hallow : r.allow with
      | none => rfl
      | some allow =>
        refine if_neg fun hmem => hvisited (.inl (.inl (.inr ?_)))
        rw [hallow]
        exact hmem
    rw [haccess, hrequested, hparent]
    exact ⟨rfl, Nat.le_of_not_lt (failIf_eq_ok.mp hrank)⟩

/-- `ToolRuntime::scoped`, restriction after restriction, from a scope. -/
def scopedBy (scope : ToolScope) (rs : List ToolRestrictions) : Except TessivumError ToolScope :=
  rs.foldlM ToolScope.narrowed scope

theorem scopedBy_append {last : ToolScope} {front back : List ToolRestrictions} :
    scopedBy scope (front ++ back) = .ok last ↔
      ∃ mid, scopedBy scope front = .ok mid ∧ scopedBy mid back = .ok last := by
  unfold scopedBy
  rw [foldlM_append]
  exact bind_eq_ok

/-- The minimum of an access and what each restriction requests. -/
def leastRequested (access : ToolAccess) (rs : List ToolRestrictions) (name : String) :
    ToolAccess :=
  (rs.filterMap fun r => r.requested name).foldl min access

/-- The access in the last scope is the minimum of the first and every
request, and not more than in the first. -/
theorem scopedBy_access : ∀ {rs : List ToolRestrictions} {scope last : ToolScope},
    scopedBy scope rs = .ok last → ∀ name,
      last.access name = leastRequested (scope.access name) rs name
        ∧ last.access name ≤ scope.access name
  | [], scope, last, h, name => by
    cases h
    exact ⟨rfl, le_refl _⟩
  | r :: rest, scope, last, h, name => by
    rw [scopedBy, foldlM_cons] at h
    obtain ⟨_, hchild, hrest⟩ := bind_eq_ok.mp h
    obtain ⟨hrequested, hle⟩ := narrowed_access hchild name
    obtain ⟨hleast, hlast⟩ := scopedBy_access hrest name
    refine ⟨?_, hlast.trans hle⟩
    rw [hleast]
    unfold leastRequested
    rw [filterMap_cons]
    cases hr : r.requested name with
    | none => rw [hrequested, hr, getD_none]
    | some access =>
      rw [hr, getD_some] at hrequested
      rw [foldl_cons, hrequested, min_eq_right (hrequested ▸ hle)]

theorem narrowed_rejects {scope : ToolScope} {r : ToolRestrictions} {name : String}
    {access : ToolAccess} (h : r.requested name = some access)
    (hbroad : scope.access name < access) :
    ∃ e, scope.narrowed r = .error e := by
  cases hnarrowed : scope.narrowed r with
  | error e => exact ⟨e, rfl⟩
  | ok child =>
    obtain ⟨hrequested, hle⟩ := narrowed_access hnarrowed name
    rw [h, getD_some] at hrequested
    rw [hrequested] at hle
    exact absurd hbroad (not_lt_of_ge hle)

/-! ## §2 Execution -/

namespace Exec

variable {α β : Type}

@[simp] theorem bind_apply (x : Exec α) (f : α → Exec β) (p : Progress) :
    (x >>= f) p = match x p with
      | (.ok a, p) => f a p
      | (.error stop, p) => (.error stop, p) := rfl

@[simp] theorem pure_apply (a : α) (p : Progress) : (pure a : Exec α) p = (.ok a, p) := rfl

@[simp] theorem emit_apply (effect : Effect) (p : Progress) :
    emit effect p = (.ok (), { p with effects := p.effects ++ [effect] }) := rfl

@[simp] theorem stop_apply (reason : Stop) (p : Progress) :
    (stop reason : Exec α) p = (.error reason, p) := rfl

@[simp] theorem release_apply (p : Progress) :
    release p = (.ok (), { held := false, effects := p.effects ++ [.released] }) := rfl

variable {p : Progress}

theorem acquire_free (h : p.held = false) :
    acquire p = (.ok (), { held := true, effects := p.effects ++ [.acquired] }) := by
  simp [acquire, h]

theorem acquire_held (h : p.held = true) : acquire p = (.error .blocked, p) := by
  simp [acquire, h]

end Exec

section Settlement

variable {T : Texts} (world : CallWorld T)

@[simp] theorem isCancelled_apply (point : CheckPoint) (p : Progress) :
    isCancelled world point p
      = (.ok (world.token point),
          { p with effects := p.effects ++ [.checked (world.token point)] }) := rfl

theorem observe_apply (output : ToolOutput) (observer : Nat × ResultObserver) (p : Progress) :
    observe output observer p
      = (.ok (), { p with effects := p.effects ++ [.observed observer.1 output] }) := by
  unfold observe catchUnwind
  by_cases hpanics : observer.2.panics output = true
  · simp [hpanics]
  · simp [hpanics]

theorem forEach_observe (output : ToolOutput) :
    ∀ (observers : List (Nat × ResultObserver)) (p : Progress),
      forEach (observe output) observers p
        = (.ok (), { p with effects :=
            p.effects ++ observers.map fun o => .observed o.1 output })
  | [], p => by simp [forEach]
  | o :: rest, p => by
    rw [forEach, bind_apply, observe_apply]
    simp only [forEach_observe output rest, map_cons, append_assoc,
      singleton_append]

def settlement (output : ToolOutput) : List Effect :=
  [.acquired, .released] ++ world.settlement.resultObservers.map fun o => .observed o.1 output

variable {output : ToolOutput} {p : Progress}

theorem settle_free (h : p.held = false) :
    settle world output p
      = (.ok output, { held := false, effects := p.effects ++ settlement world output }) := by
  simp only [settle, notifyResult, bind_apply, acquire_free h, release_apply,
    forEach_observe, pure_apply, settlement, append_assoc, cons_append,
    nil_append]

theorem settle_held (h : p.held = true) : settle world output p = (.error .blocked, p) := by
  simp only [settle, notifyResult, bind_apply, acquire_held h]

def observations (effects : List Effect) : List (Nat × ToolOutput) :=
  effects.filterMap fun
    | .observed observer output => some (observer, output)
    | _ => none

/-- The call returned this output: it holds no guard, every observer that is
registered at the settlement was told the output, in one notice each (their
identities are distinct), and a cancellation that was observed made the
output. -/
structure SettledWith (run : Except Stop ToolOutput × Progress) (output : ToolOutput) : Prop where
  returned : run.1 = .ok output
  unlocked : run.2.held = false
  told : observations run.2.effects
    = world.settlement.resultObservers.map fun o => (o.1, output)
  cancelled : .checked true ∈ run.2.effects → output = cancelledOutput

/-- The call settles: it never waits for the guard it holds, and returns one
output. -/
def SettlesOnce (run : Except Stop ToolOutput × Progress) : Prop :=
  run.1 ≠ .error .blocked ∧ ∃ output, SettledWith world run output

/-- Nothing was told yet, no guard is held, no cancellation was observed. -/
structure Clean (p : Progress) : Prop where
  unlocked : p.held = false
  untold : observations p.effects = []
  uncancelled : .checked true ∉ p.effects

theorem observations_append (front back : List Effect) :
    observations (front ++ back) = observations front ++ observations back :=
  filterMap_append

theorem observations_settlement (output : ToolOutput) :
    observations (settlement world output)
      = world.settlement.resultObservers.map fun o => (o.1, output) := by
  show observations (world.settlement.resultObservers.map fun o => .observed o.1 output) = _
  unfold observations
  rw [filterMap_map]
  show List.filterMap (fun o : Nat × ResultObserver => some (o.1, output)) _ = _
  rw [filterMap_eq_map']

theorem not_mem_settlement (output : ToolOutput) (cancelled : Bool) :
    .checked cancelled ∉ settlement world output := by
  simp [settlement]

theorem settle_settles (hheld : p.held = false) (huntold : observations p.effects = [])
    (hcancelled : .checked true ∈ p.effects → output = cancelledOutput) :
    SettlesOnce world (settle world output p) := by
  rw [settle_free world hheld]
  refine ⟨nofun, output, rfl, rfl, ?_, fun hmem => ?_⟩
  · rw [observations_append, huntold, observations_settlement]
    rfl
  · rcases mem_append.mp hmem with hmem | hmem
    · exact hcancelled hmem
    · exact absurd hmem (not_mem_settlement world output true)

theorem Clean.settles (h : Clean p) (output : ToolOutput) :
    SettlesOnce world (settle world output p) :=
  settle_settles world h.unlocked h.untold fun hmem => absurd hmem h.uncancelled

theorem Clean.emit (h : Clean p) {effect : Effect} (htells : observations [effect] = [])
    (hcancel : effect ≠ .checked true) :
    Clean { p with effects := p.effects ++ [effect] } where
  unlocked := h.unlocked
  untold := by rw [observations_append, h.untold, htells, nil_append]
  uncancelled := fun hmem => by
    rcases mem_append.mp hmem with hmem | hmem
    · exact h.uncancelled hmem
    · exact hcancel (mem_singleton.mp hmem).symm

theorem Clean.check (h : Clean p) (point : CheckPoint) {rest : Exec ToolOutput}
    (hrest : ∀ p, Clean p → world.token point = false → SettlesOnce world (rest p)) :
    SettlesOnce world ((isCancelled world point >>= fun cancelled =>
      if cancelled = true then settle world cancelledOutput else rest) p) := by
  rw [bind_apply, isCancelled_apply]
  cases htoken : world.token point with
  | true =>
    refine settle_settles world h.unlocked ?_ fun _ => rfl
    rw [observations_append, h.untold]
    rfl
  | false => exact hrest _ (h.emit rfl (by simp)) htoken

theorem runHandler_settles (tool : RegisteredTool T) (arguments : Value) (h : Clean p) :
    SettlesOnce world (runHandler world tool arguments p) := by
  have hran : Clean { p with effects := p.effects ++ [.ran tool.id arguments] } :=
    h.emit rfl (by simp)
  exact hran.check world .handled fun p hp _ => hp.settles world _

theorem askApproval_apply (p : Progress) :
    ∃ approved effects, askApproval world p
        = (.ok approved, { p with effects := p.effects ++ effects })
      ∧ (∀ e ∈ effects, e = .approved world.approve)
      ∧ (approved = true → world.lookup.approval = true ∧ world.approve = .ok (some true)) := by
  unfold askApproval
  cases happroval : world.lookup.approval with
  | false => exact ⟨false, [], by simp, by simp, by simp⟩
  | true =>
    refine ⟨_, [.approved world.approve], rfl, by simp, fun h => ⟨rfl, ?_⟩⟩
    cases hanswer : world.approve with
    | error e => rw [hanswer] at h; cases h
    | ok answer =>
      rw [hanswer] at h
      cases answer with
      | none => cases h
      | some b => rw [show b = true from h]

theorem Clean.asked (h : Clean p) {effects : List Effect}
    (heffects : ∀ e ∈ effects, e = .approved world.approve) :
    Clean { p with effects := p.effects ++ effects } where
  unlocked := h.unlocked
  untold := by
    rw [observations_append, h.untold, nil_append]
    refine filterMap_eq_nil_iff.mpr fun e he => ?_
    rw [heffects e he]
  uncancelled := fun hmem => by
    rcases mem_append.mp hmem with hmem | hmem
    · exact h.uncancelled hmem
    · cases heffects _ hmem

theorem RegisteredTool.accepted (tool : RegisteredTool T) :
    validateSchema T tool.definition.parameters "$" = .ok () :=
  (check_bind_eq_ok.mp tool.valid).2

theorem executeTool_settles (scope : ToolScope) (name : String) (arguments : Value)
    (tool : RegisteredTool T) (h : Clean p) :
    SettlesOnce world (executeTool world scope name arguments tool p) := by
  unfold executeTool
  by_cases hdeny : scope.access name = .deny
  · rw [if_pos hdeny]
    exact h.settles world _
  · rw [if_neg hdeny]
    have hsafe := (validateInstance_exact T tool.accepted arguments "$").1
    cases hvalid : validateInstance tool.definition.parameters arguments "$" with
    | error fault =>
      cases fault with
      | panicked message => exact absurd hvalid (hsafe message)
      | error error => exact h.settles world _
    | ok _ =>
      by_cases hask : scope.access name = .ask
      · simp only [if_pos hask, bind_apply]
        obtain ⟨approved, _, heq, heffects, -⟩ := askApproval_apply world p
        rw [heq]
        refine (h.asked world heffects).check world .approved fun p hp _ => ?_
        cases approved with
        | false => exact hp.settles world _
        | true => exact runHandler_settles world tool arguments hp
      · simp only [if_neg hask]
        exact runHandler_settles world tool arguments h

/-- A call settles once exactly when it was cancelled at its entry or its
name is registered when it looks. -/
theorem execute_settles_iff (scope : ToolScope) (name : String) (arguments : Value) :
    SettlesOnce world (executeFrom world scope name arguments) ↔
      world.token .entry = true ∨ (world.lookup.tools.lookup name).isSome := by
  have hstart : Clean { held := false, effects := [] } := ⟨rfl, rfl, not_mem_nil⟩
  cases hentry : world.token .entry with
  | true =>
    refine iff_of_true (hstart.check world .entry fun p _ hfalse => ?_) (.inl rfl)
    rw [hentry] at hfalse
    cases hfalse
  | false =>
    cases htool : world.lookup.tools.lookup name with
    | some tool =>
      refine iff_of_true (hstart.check world .entry fun p hp _ => ?_) (.inr rfl)
      rw [bind_apply, acquire_free hp.unlocked]
      simp only [htool, bind_apply, release_apply]
      refine executeTool_settles world scope name arguments tool ?_
      have hacquired : Clean { p with effects := p.effects ++ [.acquired] } :=
        hp.emit rfl (by simp)
      have hreleased : Clean { p with effects := p.effects ++ [.acquired] ++ [.released] } :=
        hacquired.emit rfl (by simp)
      exact ⟨rfl, hreleased.untold, hreleased.uncancelled⟩
    | none =>
      -- the guard of the lookup is held when the call settles
      have hblocked : (executeFrom world scope name arguments).1 = .error .blocked := by
        simp [executeFrom, execute, hentry, htool, acquire, settle_held]
      simp [SettlesOnce, hblocked]

end Settlement

def quietWorld {T : Texts} (state : RuntimeState T) : CallWorld T :=
  { lookup := state, settlement := state, token := fun _ => false
    approve := .ok none, handle := .ok { content := [], isError := false, metaData := .null } }

/-- Calling a tool that is not registered never returns: the settlement asks
for the guard the lookup holds. -/
theorem unregistered_call_blocks :
    let world := quietWorld (RuntimeState.new ⟨id, fun _ => ""⟩)
    (executeFrom world .root "missing" .null).1 = .error .blocked
      ∧ ¬ SettlesOnce world (executeFrom world .root "missing" .null) := by
  have hblocked : (executeFrom (quietWorld (RuntimeState.new ⟨id, fun _ => ""⟩)) .root "missing"
      .null).1 = .error .blocked := rfl
  exact ⟨hblocked, fun h => h.1 hblocked⟩

/-! ## §3 What runs -/

section Gate

variable {T : Texts} (world : CallWorld T)
variable {given arguments : Value} {id : Nat} {p : Progress} {tool : RegisteredTool T}
  {name : String} {scope : ToolScope}

theorem ran_settle {output : ToolOutput} (h : .ran id given ∈ (settle world output p).2.effects) :
    .ran id given ∈ p.effects := by
  cases hheld : p.held with
  | true =>
    rw [settle_held world hheld] at h
    exact h
  | false =>
    rw [settle_free world hheld] at h
    rcases mem_append.mp h with h | h
    · exact h
    · simp [settlement] at h

theorem ran_check {point : CheckPoint} {rest : Exec ToolOutput} (hp : .ran id given ∉ p.effects)
    (h : .ran id given ∈ ((isCancelled world point >>= fun cancelled =>
      if cancelled = true then settle world cancelledOutput else rest) p).2.effects) :
    world.token point = false
      ∧ .ran id given ∈ (rest { p with effects := p.effects ++ [.checked false] }).2.effects := by
  rw [bind_apply, isCancelled_apply] at h
  cases htoken : world.token point with
  | true =>
    rw [htoken] at h
    have hbefore := ran_settle world h
    simp [hp] at hbefore
  | false =>
    rw [htoken] at h
    exact ⟨rfl, h⟩

/-- What must hold for the handler of a tool to be run by a call. -/
structure Gated (scope : ToolScope) (name : String) (arguments : Value) (id : Nat)
    (given : Value) : Prop where
  given : given = arguments
  registered : ∃ tool, world.lookup.tools.lookup name = some tool ∧ tool.id = id
    ∧ Satisfies tool.definition.parameters arguments
  uncancelled : world.token .entry = false
  access : scope.access name = .allow
    ∨ scope.access name = .ask ∧ world.lookup.approval = true
      ∧ world.approve = .ok (some true) ∧ world.token .approved = false

theorem ran_runHandler (hp : .ran id given ∉ p.effects)
    (h : .ran id given ∈ (runHandler world tool arguments p).2.effects) :
    id = tool.id ∧ given = arguments := by
  unfold runHandler at h
  rw [bind_apply, emit_apply] at h
  by_cases hran : Effect.ran id given ∈ p.effects ++ [.ran tool.id arguments]
  · rcases mem_append.mp hran with hran | hran
    · exact absurd hran hp
    · cases mem_singleton.mp hran
      exact ⟨rfl, rfl⟩
  · obtain ⟨-, hsettled⟩ := ran_check world hran h
    have hbefore := ran_settle world hsettled
    rcases mem_append.mp hbefore with hbefore | hbefore
    · exact absurd hbefore hran
    · simp at hbefore

/-- A handler that is run was let through the checks. -/
theorem ran_executeTool (hp : .ran id given ∉ p.effects)
    (h : .ran id given ∈ (executeTool world scope name arguments tool p).2.effects) :
    id = tool.id ∧ given = arguments
      ∧ validateInstance tool.definition.parameters arguments "$" = .ok ()
      ∧ (scope.access name = .allow
        ∨ scope.access name = .ask ∧ world.lookup.approval = true
          ∧ world.approve = .ok (some true) ∧ world.token .approved = false) := by
  unfold executeTool at h
  by_cases hdeny : scope.access name = .deny
  · rw [if_pos hdeny] at h
    exact absurd (ran_settle world h) hp
  · rw [if_neg hdeny] at h
    cases hvalid : validateInstance tool.definition.parameters arguments "$" with
    | error fault =>
      rw [hvalid] at h
      cases fault with
      | panicked message => exact absurd h hp
      | error error => exact absurd (ran_settle world h) hp
    | ok _ =>
      rw [hvalid] at h
      by_cases hask : scope.access name = .ask
      · simp only [if_pos hask, bind_apply] at h
        obtain ⟨approved, effects, heq, heffects, happroved⟩ := askApproval_apply world p
        rw [heq] at h
        have hasked : Effect.ran id given ∉ p.effects ++ effects := fun hmem => by
          rcases mem_append.mp hmem with hmem | hmem
          · exact hp hmem
          · cases heffects _ hmem
        obtain ⟨htoken, h⟩ := ran_check world hasked h
        have hchecked : Effect.ran id given ∉ p.effects ++ effects ++ [.checked false] := by
          simpa using hasked
        cases approved with
        | false => exact absurd (ran_settle world h) hchecked
        | true =>
          obtain ⟨hid, hgiven⟩ := ran_runHandler world hchecked h
          exact ⟨hid, hgiven, rfl, .inr ⟨hask, (happroved rfl).1, (happroved rfl).2, htoken⟩⟩
      · simp only [if_neg hask] at h
        obtain ⟨hid, hgiven⟩ := ran_runHandler world hp h
        have hallow : scope.access name = .allow := by
          cases haccess : scope.access name with
          | allow => rfl
          | deny => exact absurd haccess hdeny
          | ask => exact absurd haccess hask
        exact ⟨hid, hgiven, rfl, .inl hallow⟩

theorem ran_gated (h : .ran id given ∈ (executeFrom world scope name arguments).2.effects) :
    Gated world scope name arguments id given := by
  obtain ⟨hentry, h⟩ := ran_check world not_mem_nil h
  rw [bind_apply, acquire_free rfl] at h
  cases htool : world.lookup.tools.lookup name with
  | none =>
    rw [htool] at h
    simp only [bind_apply, settle_held] at h
    simp at h
  | some tool =>
    rw [htool] at h
    simp only [bind_apply, release_apply] at h
    obtain ⟨rfl, hgiven, hvalid, haccess⟩ := ran_executeTool world (by simp) h
    have hsatisfies := (validateInstance_exact T tool.accepted arguments "$").2.mp hvalid
    exact ⟨hgiven, ⟨tool, htool, rfl, hsatisfies⟩, hentry, haccess⟩

end Gate

/-- Tool scopes only narrow, and they gate execution. -/
theorem scopes_narrow_and_gate (T : Texts) {rs : List ToolRestrictions} {scope : ToolScope}
    (h : scopedBy .root rs = .ok scope) :
    (∀ name, scope.access name = leastRequested .allow rs name)
      ∧ (∀ front back mid, rs = front ++ back → scopedBy .root front = .ok mid →
          ∀ name, scope.access name ≤ mid.access name)
      ∧ (∀ (r : ToolRestrictions) name access, r.requested name = some access →
          scope.access name < access → ∃ e, scope.narrowed r = .error e)
      ∧ ∀ (world : CallWorld T) name arguments id given,
          .ran id given ∈ (executeFrom world scope name arguments).2.effects →
            Gated world scope name arguments id given := by
  refine ⟨fun name => (scopedBy_access h name).1, fun front back mid hrs hmid name => ?_,
    fun r name access hrequested hbroad => narrowed_rejects hrequested hbroad,
    fun world name arguments id given hran => ran_gated world hran⟩
  rw [hrs, scopedBy_append] at h
  obtain ⟨_, hmid', hback⟩ := h
  rw [hmid] at hmid'
  cases hmid'
  exact (scopedBy_access hback name).2

/-! ## §4 Two layers over one tool -/

/-- A tool that asks for a `path`. -/
def writeTool : RegisteredTool ⟨id, fun _ => ""⟩ where
  id := 1
  definition :=
    { name := "write", description := "Write a file."
      parameters := .object
        [("properties", .object [("path", .object [("type", .string "string")])]),
         ("required", .array [.string "path"]), ("type", .string "object")] }
  valid := by decide +kernel

/-- The tool is registered, and every call of it is approved. -/
def writeWorld : CallWorld ⟨id, fun _ => ""⟩ :=
  { quietWorld { RuntimeState.new ⟨id, fun _ => ""⟩ with
      tools := [("write", writeTool)], approval := true
      toolsDistinct := List.nodup_singleton "write" } with
    approve := .ok (some true) }

def writeArguments : Value := .object [("path", .string "a")]

def readWriteScope : ToolScope := ⟨.deny, [("read", .allow), ("write", .ask)]⟩

theorem writeWorld_effects :
    (executeFrom writeWorld readWriteScope "write" writeArguments).2.effects =
      [.checked false, .acquired, .released, .approved (.ok (some true)), .checked false,
        .ran 1 writeArguments, .checked false, .acquired, .released] := by
  have hvalid : validateInstance writeTool.definition.parameters writeArguments "$" = .ok () := by
    decide +kernel
  show (executeTool writeWorld readWriteScope "write" writeArguments writeTool
    { held := false, effects := [.checked false, .acquired, .released] }).2.effects = _
  rw [executeTool, hvalid]
  rfl

/-- Only `read` and `write` stay allowed, then `write` asks: the approved call
is run. -/
theorem scopes_narrow_and_gate_twoLayers :
    let rs : List ToolRestrictions :=
      [⟨some ["read", "write"], [], []⟩, ⟨none, [], ["write"]⟩]
    scopedBy .root rs = .ok readWriteScope
      ∧ readWriteScope.access "write" = leastRequested .allow rs "write"
      ∧ (∃ e, readWriteScope.narrowed ⟨none, [], ["bash"]⟩ = .error e)
      ∧ .ran 1 writeArguments
        ∈ (executeFrom writeWorld readWriteScope "write" writeArguments).2.effects
      ∧ Gated writeWorld readWriteScope "write" writeArguments 1 writeArguments := by
  have hscope : scopedBy .root [⟨some ["read", "write"], [], []⟩, ⟨none, [], ["write"]⟩]
      = .ok readWriteScope := by decide
  have hran : .ran 1 writeArguments
      ∈ (executeFrom writeWorld readWriteScope "write" writeArguments).2.effects := by
    rw [writeWorld_effects]
    simp
  obtain ⟨hleast, -, hrejects, hgated⟩ := scopes_narrow_and_gate ⟨id, fun _ => ""⟩ hscope
  refine ⟨hscope, hleast "write", hrejects _ "bash" .ask (by decide) ?_, hran,
    hgated writeWorld "write" writeArguments 1 writeArguments hran⟩
  show ToolAccess.rank .deny < ToolAccess.rank .ask
  decide

end Tessivum.Tools
