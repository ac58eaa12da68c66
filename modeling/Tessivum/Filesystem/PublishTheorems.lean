/-
Tessivum.Filesystem.PublishTheorems — what a failed call of `write` or `edit`
leaves behind.

`Publishes` says on the inputs of a call when it comes to its rename and with
which text. A call that fails has changed nothing, or it has published: then
the file holds the whole new text and the error is one of the looks behind the
rename (`failed_call_changes_nothing_iff`).
-/
import Tessivum.Filesystem.EditTheorems
import Tessivum.Filesystem.Publish

namespace Tessivum.Filesystem

open Library Protocol Sandbox Except

/-! ## §1 The inputs of a call -/

/-- The string a call gives for an argument. -/
def given (arguments : Value) (name : String) : Option String :=
  (arguments.get name).bind Value.asStr

/-- The arguments the handler accepts. -/
def Arguments (kind : FileKind) (arguments : Value) : Prop :=
  (∃ path, given arguments "file_path" = some path ∧ isBlank path = false) ∧
    match kind with
    | .write => ∃ content, given arguments "content" = some content
    | .edit => ∃ old new, given arguments "old_string" = some old ∧
        given arguments "new_string" = some new ∧ old ≠ "" ∧ old ≠ new

/-- The session may write and the call asks for nothing more; or the call asks
for `workspace-write` with a justification and is granted it before it is
cancelled. -/
def Admitted (world : FileWorld) (arguments : Value) : Prop :=
  (world.current = .workspaceWrite ∧ arguments.get "sandbox_permissions" = none ∧
      arguments.get "justification" = none) ∨
    (world.current ≠ .workspaceWrite ∧
      (arguments.get "sandbox_permissions").bind SandboxMode.fromValue = some .workspaceWrite ∧
      (∃ reason, given arguments "justification" = some reason ∧ isBlank reason = false) ∧
      world.answer = some (.ok (some true)) ∧ world.token .approved = false)

/-- What the file is to hold: the argument of `write`, or the text that is
there with the matches of the edit replaced. -/
def Rewrites (world : FileWorld) (kind : FileKind) (arguments : Value)
    (file : Option FileContent) (after : String) : Prop :=
  match kind with
  | .write =>
    (file = none ∨ ∃ content, file = some (.text content) ∧ world.failure .read = none) ∧
      after = normalizeLf (argument arguments "content")
  | .edit =>
    ∃ content, file = some (.text content) ∧ world.failure .read = none ∧
      let expected := normalizeLf (argument arguments "old_string")
      let found := matchIndices (normalizeLf content) expected
      expected ≠ "" ∧ found ≠ [] ∧
        (((arguments.get "replace_all").bind Value.asBool).getD false = false →
          found.length = 1) ∧
        after = replaceAt (normalizeLf content) expected
          (normalizeLf (argument arguments "new_string")) found

/-- What the system does before a call has published. -/
def FileOp.early : FileOp → Prop
  | .workspace | .target | .writePath | .metadata => True
  | .createTemp | .writeTemp | .syncTemp | .rename => True
  | .read | .observe | .lease => False

/-- The call comes to its rename, with `after` as the new text. -/
structure Publishes (world : FileWorld) (kind : FileKind) (arguments : Value)
    (file : Option FileContent) (after : String) : Prop where
  accepted : Arguments kind arguments
  live : world.token .entry = false ∧ world.token .allowed = false
  admitted : Admitted world arguments
  performed : ∀ op : FileOp, op.early → world.failure op = none
  text : Rewrites world kind arguments file after

/-- Nothing goes wrong behind the publication. -/
def Settles (world : FileWorld) : Prop :=
  world.failure .observe = none ∧ world.token .published = false ∧ world.failure .lease = none
    ∧ world.token .handled = false

/-- The error is one of a look behind the publication. -/
def LateError (world : FileWorld) (e : TessivumError) : Prop :=
  world.failure .observe = some e ∨ world.failure .lease = some e ∨
    (world.token .published = true ∨ world.token .handled = true) ∧ e = cancelledError

/-! ## §2 The steps of a call -/

variable {world : FileWorld} {kind : FileKind} {arguments : Value} {file : Option FileContent}
  {after : String} {op : FileOp} {name : String}

theorem perform_eq_ok {done : Unit} : perform world op = .ok done ↔ world.failure op = none := by
  unfold perform
  cases world.failure op <;> simp

theorem checkCancelled_eq_ok {cancelled : Bool} :
    checkCancelled cancelled = .ok () ↔ cancelled = false :=
  failIf_eq_ok.trans (not_eq_true cancelled).to_iff

theorem requiredString_eq_ok {text : String} :
    requiredString arguments name = .ok text ↔ given arguments name = some text := by
  unfold requiredString given
  cases (arguments.get name).bind Value.asStr <;> simp

theorem requiredNonblank_eq_ok {text : String} :
    requiredNonblank arguments name = .ok text ↔
      given arguments name = some text ∧ isBlank text = false := by
  simp only [requiredNonblank, bind_eq_ok, exists_unit, requiredString_eq_ok, failIf_eq_ok,
    ok.injEq, Bool.not_eq_true]
  constructor
  · rintro ⟨_, hgiven, hblank, rfl⟩
    exact ⟨hgiven, hblank⟩
  · rintro ⟨hgiven, hblank⟩
    exact ⟨text, hgiven, hblank, rfl⟩

theorem checkArguments_eq_ok :
    checkArguments kind arguments = .ok () ↔ Arguments kind arguments := by
  cases kind with
  | write =>
    simp only [checkArguments, checkWrite, bind_eq_ok, requiredNonblank_eq_ok,
      requiredString_eq_ok, Arguments, exists_and_right, and_true]
  | edit =>
    simp only [checkArguments, checkEdit, bind_eq_ok, exists_unit, requiredNonblank_eq_ok,
      requiredString_eq_ok, failIf_eq_ok, Arguments]
    constructor
    · rintro ⟨path, hpath, old, hold, new, hnew, hne, hdiffer⟩
      exact ⟨⟨path, hpath⟩, old, new, hold, hnew, hne, hdiffer⟩
    · rintro ⟨⟨path, hpath⟩, old, new, hold, hnew, hne, hdiffer⟩
      exact ⟨path, hpath, old, hold, new, hnew, hne, hdiffer⟩

theorem requestedMode_eq_ok {requested : Option SandboxMode} :
    requestedMode arguments = .ok requested ↔
      arguments.get "sandbox_permissions" = none ∧ requested = none ∨
      ∃ mode, (arguments.get "sandbox_permissions").bind SandboxMode.fromValue = some mode ∧
        requested = some mode := by
  unfold requestedMode
  cases arguments.get "sandbox_permissions" with
  | none => simp [eq_comm]
  | some value =>
    simp only [bind_some]
    cases SandboxMode.fromValue value <;> simp [eq_comm]

theorem optionalString_eq_ok {text : Option String} :
    optionalString arguments name = .ok text ↔
      arguments.get name = none ∧ text = none ∨
      ∃ found, given arguments name = some found ∧ text = some found := by
  unfold optionalString given
  cases arguments.get name with
  | none => simp [eq_comm]
  | some value =>
    simp only [bind_some]
    cases value.asStr <;> simp [eq_comm]

/-- A call goes on unasked in `workspace-write`, and asks for it elsewhere. -/
theorem allowWrite_eq_ok {current : SandboxMode} {admission : Admission} :
    allowWrite name current arguments = .ok admission ↔
      (current = .workspaceWrite ∧ arguments.get "sandbox_permissions" = none ∧
        arguments.get "justification" = none ∧
        admission = { mode := .workspaceWrite, asks := false }) ∨
      (current ≠ .workspaceWrite ∧
        (arguments.get "sandbox_permissions").bind SandboxMode.fromValue = some .workspaceWrite ∧
        (∃ reason, given arguments "justification" = some reason ∧ isBlank reason = false) ∧
        admission = { mode := .workspaceWrite, asks := true }) := by
  simp only [allowWrite, bind_eq_ok, exists_unit, requestedMode_eq_ok, optionalString_eq_ok,
    failIf_eq_ok]
  constructor
  · rintro ⟨requested, hrequested, justification, hjustification, hpair, hdanger, h⟩
    by_cases hcurrent : current = .workspaceWrite
    · rw [if_pos hcurrent] at h
      obtain ⟨hnone, h⟩ := check_bind_eq_ok.mp h
      rw [failIf_eq_ok] at hnone
      rcases hrequested with ⟨hget, rfl⟩ | ⟨mode, _, rfl⟩
      · rcases hjustification with ⟨hgetj, rfl⟩ | ⟨reason, _, rfl⟩
        · exact .inl ⟨hcurrent, hget, hgetj, (ok.inj h).symm⟩
        · exact absurd (.inl (by simp)) hpair
      · exact absurd rfl hnone
    · rw [if_neg hcurrent] at h
      obtain ⟨hwrite, h⟩ := check_bind_eq_ok.mp h
      rw [failIf_eq_ok, not_not] at hwrite
      subst hwrite
      rcases hrequested with ⟨_, hnone⟩ | ⟨mode, hmode, hsome⟩
      · cases hnone
      · cases hsome
        rcases hjustification with ⟨_, rfl⟩ | ⟨reason, hreason, rfl⟩
        · exact absurd (.inl (by simp)) hpair
        · refine .inr ⟨hcurrent, hmode, ⟨reason, hreason, ?_⟩, (ok.inj h).symm⟩
          by_contra hblank
          exact hpair (.inr (by simpa using hblank))
  · rintro (⟨hcurrent, hget, hgetj, rfl⟩ | ⟨hcurrent, hmode, ⟨reason, hreason, hblank⟩, rfl⟩)
    · refine ⟨none, .inl ⟨hget, rfl⟩, none, .inl ⟨hgetj, rfl⟩, by simp, by simp, ?_⟩
      rw [if_pos hcurrent]
      rfl
    · refine ⟨some .workspaceWrite, .inr ⟨_, hmode, rfl⟩, some reason, .inr ⟨_, hreason, rfl⟩,
        by simp [hblank], by simp, ?_⟩
      rw [if_neg hcurrent]
      rfl

/-- Which calls are let through to the file. -/
theorem allow_eq_ok :
    allow world kind arguments = .ok () ↔
      world.token .entry = false ∧ Admitted world arguments := by
  simp only [allow, bind_eq_ok, exists_unit, checkCancelled_eq_ok, allowWrite_eq_ok, Admitted]
  refine and_congr_right fun _ => ?_
  constructor
  · rintro ⟨admission, ⟨hcurrent, hget, hgetj, rfl⟩ | ⟨hcurrent, hmode, hreason, rfl⟩, h⟩
    · exact .inl ⟨hcurrent, hget, hgetj⟩
    · refine .inr ⟨hcurrent, hmode, hreason, ?_⟩
      rw [if_pos rfl] at h
      cases hanswer : world.answer with
      | none => rw [hanswer] at h; cases h
      | some answer =>
        rw [hanswer] at h
        obtain ⟨approved, rfl, h⟩ := bind_eq_ok.mp h
        obtain ⟨htoken, h⟩ := check_bind_eq_ok.mp h
        rw [failIf_eq_ok] at h
        have happroved : approved = some true := by
          rcases approved with _ | _ | _
          · exact absurd rfl h
          · exact absurd rfl h
          · rfl
        exact ⟨by rw [happroved], checkCancelled_eq_ok.mp htoken⟩
  · rintro (⟨hcurrent, hget, hgetj⟩ | ⟨hcurrent, hmode, hreason, hanswer, htoken⟩)
    · exact ⟨_, .inl ⟨hcurrent, hget, hgetj, rfl⟩, rfl⟩
    · refine ⟨_, .inr ⟨hcurrent, hmode, hreason, rfl⟩, ?_⟩
      rw [if_pos rfl, hanswer]
      exact bind_eq_ok.mpr ⟨some true, rfl, check_bind_eq_ok.mpr
        ⟨checkCancelled_eq_ok.mpr htoken, failIf_eq_ok.mpr (by simp)⟩⟩

theorem readText_eq_ok {content : FileContent} {text : String} :
    readText world content = .ok text ↔
      content = .text text ∧ world.failure .read = none := by
  simp only [readText, bind_eq_ok, exists_unit, perform_eq_ok]
  cases content with
  | text content => simp [and_comm]
  | binary bytes => simp

/-- The text a call is to publish, from the file and the arguments. -/
theorem newText_eq_ok :
    newText world kind arguments file = .ok after ↔ Rewrites world kind arguments file after := by
  unfold newText Rewrites
  cases kind with
  | write =>
    cases file with
    | none => simp [eq_comm]
    | some content =>
      simp only [bind_eq_ok, readText_eq_ok, ok.injEq]
      constructor
      · rintro ⟨text, ⟨rfl, hread⟩, rfl⟩
        exact ⟨.inr ⟨text, rfl, hread⟩, rfl⟩
      · rintro ⟨hnone | ⟨text, hfile, hread⟩, rfl⟩
        · cases hnone
        · exact ⟨text, ⟨some.inj hfile, hread⟩, rfl⟩
  | edit =>
    cases file with
    | none => simp
    | some content =>
      simp only [bind_eq_ok, readText_eq_ok, editTexts_ok, ok.injEq]
      constructor
      · rintro ⟨text, ⟨rfl, hread⟩, texts, ⟨hne, hfound, hone, -, hafter⟩, rfl⟩
        exact ⟨text, rfl, hread, hne, hfound, hone, hafter⟩
      · rintro ⟨text, hfile, hread, hne, hfound, hone, hafter⟩
        exact ⟨text, ⟨some.inj hfile, hread⟩, ⟨normalizeLf text, after⟩,
          ⟨hne, hfound, hone, rfl, hafter⟩, rfl⟩

/-- A call renames its temporary exactly where its inputs let it through. -/
theorem publishFile_eq_ok :
    publishFile world kind arguments file = .ok after ↔
      Publishes world kind arguments file after := by
  simp only [publishFile, bind_eq_ok, exists_unit, checkArguments_eq_ok, allow_eq_ok,
    checkCancelled_eq_ok, perform_eq_ok, newText_eq_ok, ok.injEq]
  constructor
  · rintro ⟨haccepted, ⟨hentry, hadmitted⟩, hallowed, hworkspace, htarget, hpath, hmetadata, text,
      htext, hcreate, hwrite, hsync, hrename, rfl⟩
    refine ⟨haccepted, ⟨hentry, hallowed⟩, hadmitted, fun op hearly => ?_, htext⟩
    cases op with
    | read | observe | lease => cases hearly
    | _ => assumption
  · rintro ⟨haccepted, ⟨hentry, hallowed⟩, hadmitted, hperformed, htext⟩
    exact ⟨haccepted, ⟨hentry, hadmitted⟩, hallowed, hperformed _ trivial, hperformed _ trivial,
      hperformed _ trivial, hperformed _ trivial, after, htext, hperformed _ trivial,
      hperformed _ trivial, hperformed _ trivial, hperformed _ trivial, rfl⟩

theorem finishCall_eq_ok {result : Except TessivumError Unit} :
    finishCall world result = .ok () ↔ world.token .handled = false ∧ result = .ok () := by
  unfold finishCall
  cases world.token .handled <;> simp

theorem settles_iff : finishCall world (settleFile world) = .ok () ↔ Settles world := by
  simp only [finishCall_eq_ok, settleFile, Settles, bind_eq_ok, exists_unit, perform_eq_ok,
    checkCancelled_eq_ok]
  constructor
  · rintro ⟨hhandled, hobserve, hpublished, hlease⟩
    exact ⟨hobserve, hpublished, hlease, hhandled⟩
  · rintro ⟨hobserve, hpublished, hlease, hhandled⟩
    exact ⟨hhandled, hobserve, hpublished, hlease⟩

theorem perform_eq_error {e : TessivumError} :
    perform world op = .error e ↔ world.failure op = some e := by
  unfold perform
  cases world.failure op <;> simp

/-- A call that fails behind its rename fails at one of the looks there. -/
theorem lateError_of_settleFile {e : TessivumError}
    (h : finishCall world (settleFile world) = .error e) : LateError world e := by
  unfold finishCall at h
  split at h
  case isTrue hhandled => exact .inr (.inr ⟨.inr hhandled, (error.inj h).symm⟩)
  case isFalse hhandled =>
    unfold settleFile at h
    cases hobserve : perform world .observe with
    | error e' =>
      rw [hobserve] at h
      cases h
      exact .inl (perform_eq_error.mp hobserve)
    | ok _ =>
      rw [hobserve] at h
      cases hpublished : world.token .published with
      | true =>
        rw [hpublished] at h
        exact .inr (.inr ⟨.inl hpublished, (error.inj h).symm⟩)
      | false =>
        rw [hpublished] at h
        exact .inr (.inl (perform_eq_error.mp h))

/-! ## §3 Failed calls -/

/-- The file after a failed call is the one before it, or the whole new text of
a call that had published and failed at a look behind its rename. -/
theorem failed_call_file {e : TessivumError}
    (h : (callFile world kind arguments file).1 = .error e) :
    (callFile world kind arguments file).2 = file ∨
      ∃ after, Publishes world kind arguments file after ∧
        (callFile world kind arguments file).2 = some (.text after) ∧ LateError world e := by
  unfold callFile at h ⊢
  cases hpublish : publishFile world kind arguments file with
  | error e' => exact .inl rfl
  | ok after =>
    rw [hpublish] at h
    exact .inr ⟨after, publishFile_eq_ok.mp hpublish, rfl, lateError_of_settleFile h⟩

/-- A call that fails has left the file as it was, or has published: then the
file holds the whole new text and the error is one of a look behind the rename.
The first is so of every failure exactly when nothing goes wrong behind a
publication that changes the file. -/
theorem failed_call_changes_nothing_iff (world : FileWorld) (kind : FileKind) (arguments : Value)
    (file : Option FileContent) :
    (∀ e, (callFile world kind arguments file).1 = .error e →
        (callFile world kind arguments file).2 = file ∨
          ∃ after, Publishes world kind arguments file after ∧
            (callFile world kind arguments file).2 = some (.text after) ∧ LateError world e) ∧
      ((∀ e, (callFile world kind arguments file).1 = .error e →
          (callFile world kind arguments file).2 = file)
        ↔ ∀ after, Publishes world kind arguments file after →
          file ≠ some (.text after) → Settles world) := by
  refine ⟨fun e => failed_call_file, ?_⟩
  simp only [← publishFile_eq_ok]
  unfold callFile
  cases hpublish : publishFile world kind arguments file with
  | error e =>
    constructor
    · intro _ _ hafter
      cases hafter
    · exact fun _ _ _ => rfl
  | ok text =>
    constructor
    · intro h after hafter hchanges
      obtain rfl := ok.inj hafter
      rw [← settles_iff]
      cases hsettle : finishCall world (settleFile world) with
      | ok _ => rfl
      | error e => exact absurd (h e hsettle).symm hchanges
    · intro h e hsettle
      -- an error behind the publication is no failure where the text was there already
      by_contra hchanges
      rw [settles_iff.mpr (h text rfl (Ne.symm hchanges))] at hsettle
      cases hsettle

/-- The token fires between the publication and the look behind it. -/
def cancelledLate : FileWorld :=
  { current := .workspaceWrite, answer := none
    token := fun point => point = .published || point = .handled
    failure := fun _ => none, path := "/w/a" }

/-- `write` of a new file answers `CANCELLED`, and the file is there. -/
theorem cancelled_write_changed :
    ¬ ∀ e, (callFile cancelledLate .write
          (.object [("content", .string "x"), ("file_path", .string "a")]) none).1 = .error e →
        (callFile cancelledLate .write
          (.object [("content", .string "x"), ("file_path", .string "a")]) none).2 = none := by
  intro h
  have hcall : (callFile cancelledLate .write
      (.object [("content", .string "x"), ("file_path", .string "a")]) none) =
      (.error cancelledError, some (.text "x")) := by
    decide +kernel
  have hunchanged := h cancelledError (by rw [hcall])
  rw [hcall] at hunchanged
  cases hunchanged

end Tessivum.Filesystem
