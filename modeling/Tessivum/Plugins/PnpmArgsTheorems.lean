/-
Tessivum.Plugins.PnpmArgsTheorems — when the pnpm command that runs is the one
that was validated.

The three scans for command and target do not agree: the check takes a second
command word for the target, the two others never do. And a target is checked
as the path it is not, with its `file:` in front of it.
`pnpm_args_faithful_iff` says that there is no third way to differ.
-/
import Tessivum.Plugins.PnpmArgs

namespace Tessivum.Plugins

open Library Protocol List

/-! ## What the scans agree on -/

def mutationOf (command : String) (target : Option String) : Option PluginMutation :=
  if command = "add" then target.map .add
  else if command = "remove" then target.map .remove
  else none

/-- The target is a path, with or without `file:`, that leaves the profile. -/
def LeavesProfile (target : String) : Prop :=
  let path := (stripFile target).getD target
  isAbsolute path = true ∨ .parentDir ∈ components path

/-- What runs, and what is checked, is the command and the target that were validated. -/
structure Faithful (args : List String) (command : String) (target : Option String) : Prop where
  routed : ∀ manifest, ∃ argv, routePnpmArgs (.ok manifest) args = .ok argv
  argv : ∀ manifest argv, routePnpmArgs manifest args = .ok argv →
    argv.head? = some command ∧ argv.filter (fun argument => !isFlag argument) =
        command :: target.toList
      ∧ (∀ argument ∈ argv, isFlag argument = true →
        argument ∈ marketPnpmFlags ∨ argument = ignoreScripts command)
      ∧ (profileAllowsBuilds manifest = .ok false → ignoreScripts command ∈ argv)
  mutation : pnpmRequestMutation args = mutationOf command target
  inside : ∀ path ∈ target, ¬ LeavesProfile path

variable {argument} {args : List String} {scan scan' : PnpmScan} {command : String}
  {target : Option String}

/-- What the loop of the check knows of the arguments it has read. -/
structure Scanned (args : List String) (scan : PnpmScan) : Prop where
  commands : args.filter isCommand = scan.command.toList ++ scan.target.toList.filter isCommand
  targets : args.filter isTarget = scan.target.toList.filter fun target => !isCommand target
  first : scan.command = none → scan.target.toList.filter isCommand = []
  target : ∀ target ∈ scan.target,
    targetRefused target = false ∧ isFlag target = false ∧ target ∉ marketPnpmFlags

theorem isFlag_of_mem (h : argument ∈ marketPnpmFlags) : isFlag argument = true := by
  revert argument
  decide

theorem not_isFlag_of_isCommand (h : isCommand argument = true) : isFlag argument = false := by
  simp only [isCommand, or_eq_true, decide_eq_true_eq] at h
  rcases h with (rfl | rfl) | rfl <;> decide

/-- One argument more. -/
theorem Scanned.read (h : Scanned args scan) (hread : scan.read argument = .ok scan') :
    Scanned (args ++ [argument]) scan' := by
  unfold PnpmScan.read at hread
  split at hread
  · rename_i hcommand
    cases hread
    have hnone := isNone_iff_eq_none.mp hcommand.2
    have htarget : isTarget argument = false := by rw [isTarget, hcommand.1]; rfl
    refine ⟨?_, ?_, nofun, h.target⟩
    · simp [h.commands, h.first hnone, hnone, hcommand.1]
    · simp [h.targets, htarget]
  · rename_i hcommand
    split at hread
    · rename_i hflag
      have hnot : isCommand argument = false := by
        cases hcase : isCommand argument with
        | false => rfl
        | true => exact absurd (isFlag_of_mem hflag) (by simp [not_isFlag_of_isCommand hcase])
      have htarget : isTarget argument = false := by simp [isTarget, hflag]
      split at hread
      · cases hread
      · cases hread
        exact ⟨by simp [h.commands, hnot], by simp [h.targets, htarget], h.first, h.target⟩
    · rename_i hflag
      split at hread
      · cases hread
      · rename_i hdash
        split at hread
        · cases hread
        · rename_i hok
          cases hread
          obtain ⟨hrefused, hnone⟩ := not_or.mp hok
          have hnone' : scan.target = none := by simpa using hnone
          refine ⟨?_, ?_, fun hfirst => ?_, ?_⟩
          · simp [h.commands, hnone', filter_cons]
          · cases hcase : isCommand argument <;>
              simp [h.targets, hnone', isTarget, hcase, hflag]
          · have hnot : isCommand argument = false := by
              have hfirst' : scan.command = none := hfirst
              simpa [hfirst'] using hcommand
            simp [hnot]
          · rintro _ htarget
            cases htarget
            exact ⟨by simpa using hrefused, by simpa using hdash, hflag⟩

theorem scanPnpmArgs_scanned (h : scanPnpmArgs args = .ok scan) : Scanned args scan := by
  induction args using reverseRecOn generalizing scan with
  | nil =>
    cases h
    exact ⟨rfl, rfl, fun _ => rfl, nofun⟩
  | append_singleton args argument ih =>
    rw [scanPnpmArgs, foldlM_append_one] at h
    obtain ⟨_, hbefore, hread⟩ := bind_eq_ok.mp h
    exact (ih hbefore).read hread

theorem Scanned.isCommand (h : Scanned args scan) (hcommand : scan.command = some command) :
    isCommand command = true := by
  have hmem : command ∈ args.filter Plugins.isCommand := by
    rw [h.commands, hcommand]
    exact mem_cons_self
  exact (mem_filter.mp hmem).2

theorem Scanned.find_target (h : Scanned args scan)
    (hword : ∀ target ∈ scan.target, Plugins.isCommand target = false) :
    args.find? isTarget = scan.target := by
  rw [← head?_filter, h.targets]
  cases htarget : scan.target with
  | none => rfl
  | some target => simp [hword target htarget]

theorem Scanned.filter_commands (h : Scanned args scan) (hcommand : scan.command = some command)
    (hword : ∀ target ∈ scan.target, Plugins.isCommand target = false) :
    args.filter Plugins.isCommand = [command] := by
  rw [h.commands, hcommand]
  cases htarget : scan.target with
  | none => rfl
  | some target => simp [hword target htarget]

theorem validateMarketPnpmArgs_ok (hscan : scanPnpmArgs args = .ok scan)
    (hvalid : validateMarketPnpmArgs args = .ok ()) :
    ∃ command, scan.command = some command
      ∧ ((command = "add" ∨ command = "remove") ↔ scan.target.isSome = true) := by
  obtain ⟨-, -, hvalid⟩ := bind_eq_ok.mp hvalid
  obtain ⟨_, hread, hvalid⟩ := bind_eq_ok.mp hvalid
  obtain rfl := ok.inj (hread.symm.trans hscan)
  obtain ⟨_, hsome, hchecks⟩ := bind_eq_ok.mp hvalid
  obtain ⟨command, hcommand⟩ := Option.ne_none_iff_exists'.mp (failIf_eq_ok.mp hsome)
  have hpermitted := failIf_eq_ok.mp hchecks
  refine ⟨command, hcommand, ?_⟩
  simp only [hcommand, some.injEq, not_or, ne_eq, not_not] at hpermitted
  rw [← hpermitted.2.1, decide_eq_true_iff]

theorem pnpmRequestMutation_eq (h : Scanned args scan) (hcommand : scan.command = some command)
    (hword : ∀ target ∈ scan.target, Plugins.isCommand target = false) :
    pnpmRequestMutation args = mutationOf command scan.target := by
  have hfind : args.find? (fun argument => argument = "add" || argument = "remove") =
      [command].find? fun argument => argument = "add" || argument = "remove" := by
    rw [← h.filter_commands hcommand hword, find?_filter]
    congr 1
    funext argument
    cases hcase : (decide (argument = "add") || decide (argument = "remove")) <;>
      simp [Plugins.isCommand, hcase]
  rw [pnpmRequestMutation, hfind, h.find_target hword]
  by_cases hadd : command = "add"
  · cases htarget : scan.target <;> simp [hadd, mutationOf]
  · by_cases hremove : command = "remove"
    · cases htarget : scan.target <;> simp [hremove, mutationOf]
    · simp [hadd, hremove, mutationOf]

theorem routePnpmArgs_eq_ok {manifest : Except String Value} {argv : List String}
    (h : Scanned args scan) (hcommand : scan.command = some command)
    (hword : ∀ target ∈ scan.target, Plugins.isCommand target = false)
    (hroute : routePnpmArgs manifest args = .ok argv) :
    ∃ allows, profileAllowsBuilds manifest = .ok allows
      ∧ argv = command :: ((if "-w" ∈ args then ["-w"] else []) ++ scan.target.toList
        ++ ((marketPnpmFlags.drop 2).take 3).filter (args.contains ·)
        ++ ["--reporter=ndjson", "--config.auto-install-peers=false"]
        ++ if allows then [] else [ignoreScripts command]) := by
  obtain ⟨-, -, hroute⟩ := bind_eq_ok.mp hroute
  obtain ⟨allows, hallows, hargv⟩ := bind_eq_ok.mp hroute
  have hfirst : args.find? Plugins.isCommand = some command := by
    rw [← head?_filter, h.filter_commands hcommand hword]
    rfl
  rw [hfirst, h.find_target hword] at hargv
  exact ⟨allows, hallows, (ok.inj hargv).symm⟩

theorem routePnpmArgs_isOk (hvalid : validateMarketPnpmArgs args = .ok ()) (manifest : Value) :
    ∃ argv, routePnpmArgs (.ok manifest) args = .ok argv := by
  rw [routePnpmArgs, hvalid]
  exact ⟨_, rfl⟩

theorem isFlag_ignoreScripts : isFlag (ignoreScripts command) = true := by
  unfold ignoreScripts
  split <;> decide

/-- A word that is accepted leaves the profile only behind `file:`. -/
theorem leavesProfile_iff (haccepted : targetRefused argument = false) :
    LeavesProfile argument ↔ ∃ path, stripFile argument = some path
      ∧ (isAbsolute path = true ∨ .parentDir ∈ components path) := by
  unfold LeavesProfile
  cases hstrip : stripFile argument with
  | some path => simp
  | none =>
    simp only [targetRefused, or_eq_false_iff, any_eq_false, decide_eq_true_eq,
      or_eq_true] at haccepted
    obtain ⟨⟨-, habsolute⟩, hparts⟩ := haccepted
    constructor
    · rintro (hroot | hparent)
      · rw [getD_none, habsolute] at hroot
        cases hroot
      · exact absurd (.inl (.inl rfl)) (hparts _ hparent)
    · rintro ⟨_, h, -⟩
      cases h

/-- The command that runs is the one that was validated, exactly when the target is no command
word and no path out of the profile behind `file:`. -/
theorem pnpm_args_faithful_iff (args : List String) (scan : PnpmScan)
    (hscan : scanPnpmArgs args = .ok scan) (hvalid : validateMarketPnpmArgs args = .ok ()) :
    (∃ command, scan.command = some command ∧ Faithful args command scan.target)
      ↔ ∀ target ∈ scan.target, isCommand target = false
        ∧ ∀ path, stripFile target = some path →
          isAbsolute path = false ∧ .parentDir ∉ components path := by
  have h := scanPnpmArgs_scanned hscan
  obtain ⟨command, hcommand, hchanges⟩ := validateMarketPnpmArgs_ok hscan hvalid
  constructor
  · rintro ⟨other, hother, hfaithful⟩ target htarget
    obtain rfl : other = command := some.inj (hother.symm.trans hcommand)
    refine ⟨?_, fun path hpath => ?_⟩
    · -- a command word is found by neither search
      cases hword : isCommand target with
      | false => rfl
      | true =>
        have hnone : args.find? isTarget = none := by
          rw [← head?_filter, h.targets, htarget]
          simp [hword]
        have hmutation := hfaithful.mutation
        rw [pnpmRequestMutation, hnone, htarget] at hmutation
        have hsome := hchanges.mpr (by rw [htarget]; rfl)
        rcases hsome with rfl | rfl <;> simp [mutationOf] at hmutation
    · have hinside := hfaithful.inside target htarget
      rw [leavesProfile_iff (h.target target htarget).1] at hinside
      simp only [not_exists, not_and, not_or, not_eq_true] at hinside
      exact hinside path hpath
  · intro hcond
    have hword := fun target htarget => (hcond target htarget).1
    refine ⟨command, hcommand, ⟨routePnpmArgs_isOk hvalid, fun manifest argv hroute => ?_,
      pnpmRequestMutation_eq h hcommand hword, fun path hpath => ?_⟩⟩
    · obtain ⟨allows, hallows, rfl⟩ := routePnpmArgs_eq_ok h hcommand hword hroute
      have hcommandFlag := not_isFlag_of_isCommand (h.isCommand hcommand)
      have htargetFlag : scan.target.toList.filter (fun argument => !isFlag argument) =
          scan.target.toList :=
        filter_eq_self.mpr fun target htarget => by
          rw [(h.target target (mem_toList.mp htarget)).2.1]
          rfl
      have hlisted : (((marketPnpmFlags.drop 2).take 3).filter (args.contains ·)).filter
          (fun argument => !isFlag argument) = [] := by
        rw [filter_eq_nil_iff]
        intro flag hflag
        rw [isFlag_of_mem (mem_of_mem_drop (mem_of_mem_take (mem_filter.mp hflag).1))]
        exact Bool.false_ne_true
      refine ⟨rfl, ?_, fun argument hmem hflag => ?_, fun hrefuses => ?_⟩
      · rw [filter_cons, if_pos (by rw [hcommandFlag]; rfl)]
        simp only [filter_append, htargetFlag, hlisted]
        have hworkspace : (if "-w" ∈ args then ["-w"] else []).filter
            (fun argument => !isFlag argument) = [] := by
          split <;> decide
        have hscripts : (if allows = true then [] else [ignoreScripts command]).filter
            (fun argument => !isFlag argument) = [] := by
          split <;> simp [isFlag_ignoreScripts]
        have hfixed : ["--reporter=ndjson", "--config.auto-install-peers=false"].filter
            (fun argument => !isFlag argument) = [] := by
          decide
        rw [hworkspace, hscripts, hfixed, nil_append, append_nil, append_nil, append_nil]
      · simp only [mem_cons, mem_append] at hmem
        rcases hmem with rfl | (((hmem | hmem) | hmem) | hmem) | hmem
        · rw [hcommandFlag] at hflag
          cases hflag
        · split at hmem
          · rw [mem_singleton.mp hmem]
            exact .inl (by decide)
          · cases hmem
        · rw [(h.target argument (mem_toList.mp hmem)).2.1] at hflag
          cases hflag
        · exact .inl (mem_of_mem_drop (mem_of_mem_take (mem_filter.mp hmem).1))
        · simp only [not_mem_nil, or_false] at hmem
          rcases hmem with rfl | rfl <;> exact .inl (by decide)
        · split at hmem
          · cases hmem
          · exact .inr (mem_singleton.mp hmem)
      · rw [hallows] at hrefuses
        cases hrefuses
        simp
    · rw [leavesProfile_iff (h.target path hpath).1]
      rintro ⟨inner, hinner, hleaves⟩
      obtain ⟨habsolute, hparent⟩ := (hcond path hpath).2 inner hinner
      rcases hleaves with hroot | hmem
      · rw [habsolute] at hroot
        cases hroot
      · exact hparent hmem

theorem pnpm_args_faithful_add :
    (∃ command, (⟨some "add", some "left-pad@1.3.0", []⟩ : PnpmScan).command = some command
        ∧ Faithful ["add", "left-pad@1.3.0"] command (some "left-pad@1.3.0"))
      ↔ ∀ target ∈ some "left-pad@1.3.0", isCommand target = false
        ∧ ∀ path, stripFile target = some path →
          isAbsolute path = false ∧ .parentDir ∉ components path :=
  pnpm_args_faithful_iff ["add", "left-pad@1.3.0"] ⟨some "add", some "left-pad@1.3.0", []⟩
    (by decide +kernel) (by decide +kernel)

theorem pnpm_target_leaves_profile :
    validateMarketPnpmArgs ["add", "file:.."] = .ok ()
      ∧ scanPnpmArgs ["add", "file:.."] = .ok ⟨some "add", some "file:..", []⟩
      ∧ ¬ Faithful ["add", "file:.."] "add" (some "file:..") := by
  refine ⟨by decide +kernel, by decide +kernel, fun h => h.inside _ rfl ?_⟩
  exact .inr (by decide +kernel)

end Tessivum.Plugins
