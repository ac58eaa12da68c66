/-
Tessivum.Settings.UpdateTheorems — the laws of path updates.

§1 describes `setAtPath` by what it does to one member, §2 says what is read
where it wrote, and §3 what is read elsewhere: a write leaves every value whose
path does not meet its own (`Meets`), except that an extended array shows
nulls. §4 carries the laws along a list of operations, and §5 states them for
the changes the service accepts.

A write is silently given up where its path enters an array by a member that is
no index (`Blocked`), and two spellings of one index are one step of a path.
-/
import Tessivum.Settings.PathTheorems

namespace Tessivum.Settings

open Library Protocol List SettingsPathOp

/-! ## §1 One member -/

/-- What `setAtPath` leaves behind its first step, where `old` was. -/
def below (value : Value) (rest : SettingPath) (old : Option Value) : Value :=
  match rest with
  | [] => value
  | next :: _ => setAtPath (containerOr next old) value rest

theorem setAtPath_object (fields : List (String × Value)) (value : Value) (member : String)
    (rest : SettingPath) :
    setAtPath (.object fields) value (member :: rest) =
      .object (insertField fields member (below value rest (fields.lookup member))) := by
  cases rest with
  | nil | cons next rest => rw [setAtPath, below]

theorem setAtPath_array (items : List Value) (value : Value) (member : String)
    (rest : SettingPath) :
    setAtPath (.array items) value (member :: rest) =
      match arrayIndex member with
      | none => .array items
      | some index => .array ((resizeTo items index).set index
          (below value rest (resizeTo items index)[index]?)) := by
  cases rest with
  | nil | cons next rest => rw [setAtPath]; rfl

variable {document value user : Value} {path rest other : SettingPath} {index room : Nat}
  {items : List Value} {member name : String} {after : Option Value} {op : SettingsPathOp}
  {ops : List SettingsPathOp}

theorem setAtPath_scalar (hobject : isObject document = false) (harray : isArray document = false)
    (value : Value) (hpath : path ≠ []) : setAtPath document value path = document := by
  cases path with
  | nil => exact absurd rfl hpath
  | cons member rest =>
    cases document with
    | object fields => cases hobject
    | array items => cases harray
    | _ => cases rest <;> simp [setAtPath]

theorem getElem?_resizeTo (items : List Value) (index i : Nat) :
    (resizeTo items index)[i]? =
      if i < items.length then items[i]? else if i ≤ index then some .null else none := by
  rw [resizeTo]
  by_cases hi : i < items.length
  · rw [if_pos hi, getElem?_append_left hi]
  · rw [if_neg hi, getElem?_append_right (Nat.le_of_not_lt hi), getElem?_replicate]
    by_cases hle : i ≤ index
    · rw [if_pos hle, if_pos (by omega)]
    · rw [if_neg hle, if_neg (by omega)]

theorem length_resizeTo (items : List Value) (index : Nat) :
    index < (resizeTo items index).length := by
  rw [resizeTo, length_append, length_replicate]
  omega

theorem child_set_array (hindex : arrayIndex member = some index) (value : Value)
    (rest : SettingPath) (name : String) :
    child (setAtPath (.array items) value (member :: rest)) name =
      (arrayIndex name).bind fun i =>
        if i = index then some (below value rest (resizeTo items index)[index]?)
        else (resizeTo items index)[i]? := by
  rw [setAtPath_array, hindex, child_array]
  congr 1
  funext i
  rw [getElem?_set]
  by_cases hi : index = i
  · subst hi
    simp [length_resizeTo]
  · simp [hi, Ne.symm hi]

/-! ## §2 What is read where it wrote -/

def Blocked (document : Value) (path : SettingPath) : Prop :=
  ∃ front member rest, path = front ++ member :: rest ∧ arrayIndex member = none ∧
    ∃ items, readAt document front = some (.array items)

def isContainer (value : Value) : Bool := isObject value || isArray value

theorem newPathContainer_container (next : String) :
    isContainer (newPathContainer next) = true := by
  unfold newPathContainer
  split <;> rfl

theorem containerOr_container (next : String) (old : Option Value) :
    isContainer (containerOr next old) = true := by
  unfold containerOr
  split
  · split
    · assumption
    · exact newPathContainer_container next
  · exact newPathContainer_container next

theorem child_newPathContainer (next member : String) :
    child (newPathContainer next) member = none := by
  unfold newPathContainer
  split
  · rw [child_array]
    cases arrayIndex member <;> rfl
  · rfl

theorem readAt_containerOr (next : String) (old : Option Value) (hpath : path ≠ []) :
    readAt (containerOr next old) path = old.bind fun value => readAt value path := by
  cases path with
  | nil => exact absurd rfl hpath
  | cons member rest =>
    have hnew : readAt (newPathContainer next) (member :: rest) = none := by
      rw [readAt, child_newPathContainer]
      rfl
    unfold containerOr
    split
    next value =>
      split
      · rfl
      next hscalar =>
        rw [hnew, bind_some, readAt, child_scalar]
        · rfl
        · cases value <;> simp_all [isObject, isArray]
        · cases value <;> simp_all [isObject, isArray]
    next => exact hnew

theorem blocked_cons :
    Blocked document (member :: rest) ↔
      (isArray document = true ∧ arrayIndex member = none) ∨
        ∃ inner, child document member = some inner ∧ Blocked inner rest := by
  constructor
  · rintro ⟨front, name, tail, hpath, hname, items, hread⟩
    cases front with
    | nil =>
      obtain ⟨rfl, rfl⟩ := cons.inj hpath
      cases hread
      exact .inl ⟨rfl, hname⟩
    | cons first front =>
      obtain ⟨rfl, rfl⟩ := cons.inj hpath
      obtain ⟨inner, hinner, hread⟩ := bind_eq_some_iff.mp hread
      exact .inr ⟨inner, hinner, front, name, tail, rfl, hname, items, hread⟩
  · rintro (⟨harray, hmember⟩ | ⟨_, hinner, front, name, tail, rfl, hname, items, hread⟩)
    · cases document with
      | array items => exact ⟨[], member, rest, rfl, hmember, items, rfl⟩
      | _ => cases harray
    · refine ⟨member :: front, name, tail, rfl, hname, items, ?_⟩
      rw [readAt, hinner]
      exact hread

theorem not_blocked_nil (document : Value) : ¬ Blocked document [] := by
  rintro ⟨front, _, _, hpath, -⟩
  cases front <;> cases hpath

theorem Blocked.container (h : Blocked document path) : isContainer document = true := by
  cases path with
  | nil => exact absurd h (not_blocked_nil document)
  | cons member rest =>
    rcases blocked_cons.mp h with ⟨harray, -⟩ | ⟨_, hinner, -⟩
    · rw [isContainer, harray, Bool.or_true]
    · cases document with
      | object fields => rfl
      | array items => rfl
      | _ => cases hinner

theorem not_blocked_containerOr {next : String} {old : Option Value}
    (h : ∀ value, old = some value → ¬ Blocked value (next :: rest)) :
    ¬ Blocked (containerOr next old) (next :: rest) := by
  have hnew : ¬ Blocked (newPathContainer next) (next :: rest) := by
    intro hblocked
    rcases blocked_cons.mp hblocked with ⟨harray, hindex⟩ | ⟨_, hinner, -⟩
    · simp [newPathContainer, hindex, emptyDocument, isArray] at harray
    · rw [child_newPathContainer] at hinner
      cases hinner
  unfold containerOr
  split
  next value =>
    split
    · exact h value rfl
    · exact hnew
  next => exact hnew

theorem child_setAtPath (hcontainer : isContainer document = true)
    (hopen : ¬ (isArray document = true ∧ arrayIndex member = none)) (value : Value)
    (rest : SettingPath) :
    ∃ old, child (setAtPath document value (member :: rest)) member
        = some (below value rest old) ∧
      (old = child document member ∨ child document member = none ∧ old = some .null) := by
  cases document with
  | object fields =>
    refine ⟨fields.lookup member, ?_, .inl rfl⟩
    rw [setAtPath_object, child_object, lookup_insertField, if_pos rfl]
  | array items =>
    cases hindex : arrayIndex member with
    | none => exact absurd ⟨rfl, hindex⟩ hopen
    | some index =>
      refine ⟨(resizeTo items index)[index]?, ?_, ?_⟩
      · rw [child_set_array hindex, hindex, bind_some, if_pos rfl]
      · rw [child_array, hindex, bind_some, getElem?_resizeTo]
        by_cases hlt : index < items.length
        · exact .inl (by rw [if_pos hlt])
        · refine .inr ⟨getElem?_eq_none (Nat.le_of_not_lt hlt), ?_⟩
          rw [if_neg hlt, if_pos (le_refl _)]
  | _ => cases hcontainer

theorem readAt_setAtPath (hcontainer : isContainer document = true)
    (hopen : ¬ Blocked document path) (value : Value) :
    readAt (setAtPath document value path) path = some value := by
  induction path generalizing document with
  | nil => rw [setAtPath]; rfl
  | cons member rest ih =>
    have hsplit := mt blocked_cons.mpr hopen
    rw [not_or] at hsplit
    obtain ⟨old, hchild, hold⟩ := child_setAtPath hcontainer hsplit.1 value rest
    rw [readAt, hchild, bind_some]
    have hinner : ∀ inner, old = some inner → ¬ Blocked inner rest := by
      rintro inner rfl hblocked
      rcases hold with hold | ⟨-, hold⟩
      · exact hsplit.2 ⟨inner, hold.symm, hblocked⟩
      · cases hold
        exact absurd hblocked.container (by decide)
    cases rest with
    | nil => rfl
    | cons next rest =>
      exact ih (containerOr_container next old) (not_blocked_containerOr hinner)

theorem readAt_of_blocked (hblocked : Blocked document path) (value : Value) :
    readAt (setAtPath document value path) path = none := by
  induction path generalizing document with
  | nil => exact absurd hblocked (not_blocked_nil document)
  | cons member rest ih =>
    by_cases hfirst : isArray document = true ∧ arrayIndex member = none
    · cases document with
      | array items => rw [setAtPath_array, hfirst.2, readAt, child_array, hfirst.2]; rfl
      | _ => cases hfirst.1
    · obtain ⟨inner, hinner, hrest⟩ := (blocked_cons.mp hblocked).resolve_left hfirst
      obtain ⟨_, hchild, hold⟩ := child_setAtPath hblocked.container hfirst value rest
      rw [hinner] at hold
      rcases hold with rfl | ⟨hnone, -⟩
      · rw [readAt, hchild, bind_some]
        cases rest with
        | nil => exact absurd hrest (not_blocked_nil inner)
        | cons next rest =>
          have hcontainer : containerOr next (some inner) = inner := by
            rw [containerOr]
            exact if_pos hrest.container
          rw [below, hcontainer]
          exact ih hrest
      · cases hnone

/-! ## §3 What is read elsewhere -/

/-- Two members lead through a value to the same place: they are equal, or
spellings of one index of an array. -/
def SameStep (document : Value) (member name : String) : Prop :=
  member = name ∨ isArray document = true ∧ ∃ index, arrayIndex member = some index ∧
    arrayIndex name = some index

/-- One of two paths is the beginning of the other, in a document. -/
def Meets (document : Value) : SettingPath → SettingPath → Prop
  | [], _ => True
  | _ :: _, [] => True
  | member :: path, name :: other =>
    SameStep document member name ∧ Meets ((child document member).getD .null) path other

theorem child_of_sameStep (h : SameStep document member name) :
    child document name = child document member := by
  rcases h with rfl | ⟨harray, _, hmember, hname⟩
  · rfl
  · cases document with
    | array items => rw [child_array, child_array, hmember, hname]
    | _ => cases harray

def Kept (before after : Option Value) : Prop :=
  after = before ∨ before = none ∧ after = some .null

theorem Kept.trans {a b c : Option Value} (hab : Kept a b) (hbc : Kept b c) : Kept a c := by
  rcases hbc with rfl | ⟨rfl, rfl⟩
  · exact hab
  · rcases hab with hab | ⟨-, hab⟩
    · exact .inr ⟨hab.symm, rfl⟩
    · cases hab

/-- A write keeps the members it does not step through. -/
theorem child_setAtPath_other (hother : ¬ SameStep document member name) (value : Value)
    (rest : SettingPath) :
    Kept (child document name) (child (setAtPath document value (member :: rest)) name) := by
  have hne : name ≠ member := fun h => hother (.inl h.symm)
  cases document with
  | object fields =>
    rw [setAtPath_object, child_object, child_object, lookup_insertField, if_neg hne]
    exact .inl rfl
  | array items =>
    cases hindex : arrayIndex member with
    | none =>
      rw [setAtPath_array, hindex]
      exact .inl rfl
    | some index =>
      rw [child_set_array hindex, child_array]
      cases hname : arrayIndex name with
      | none => exact .inl rfl
      | some i =>
        have hi : i ≠ index := by
          rintro rfl
          exact hother (.inr ⟨rfl, i, hindex, hname⟩)
        rw [bind_some, bind_some, if_neg hi, getElem?_resizeTo]
        by_cases hlt : i < items.length
        · rw [if_pos hlt]
          exact .inl rfl
        · rw [if_neg hlt, getElem?_eq_none (Nat.le_of_not_lt hlt)]
          split
          · exact .inr ⟨rfl, rfl⟩
          · exact .inl rfl
  | _ =>
    rw [setAtPath_scalar rfl rfl value (cons_ne_nil _ _)]
    exact .inl rfl

theorem Kept.read {before : Option Value} (h : Kept before after) (path : SettingPath) :
    Kept (before.bind fun value => readAt value path)
      (after.bind fun value => readAt value path) := by
  rcases h with rfl | ⟨rfl, rfl⟩
  · exact .inl rfl
  · cases path with
    | nil => exact .inr ⟨rfl, rfl⟩
    | cons member rest => exact .inl rfl

/-- A write keeps the values its path does not meet. -/
theorem kept_setAtPath (h : ¬ Meets (setAtPath document value path) path other) :
    Kept (readAt document other) (readAt (setAtPath document value path) other) := by
  induction path generalizing document other with
  | nil => exact absurd trivial h
  | cons member rest ih =>
    cases other with
    | nil => exact absurd trivial h
    | cons name other =>
      by_cases hcontainer : isContainer document = true
      · by_cases hblock : isArray document = true ∧ arrayIndex member = none
        · cases document with
          | array items => rw [setAtPath_array, hblock.2]; exact .inl rfl
          | _ => cases hblock.1
        · have hkind : isArray (setAtPath document value (member :: rest))
              = isArray document := by
            cases document with
            | object fields => rw [setAtPath_object]; rfl
            | array items =>
              rw [setAtPath_array]
              cases arrayIndex member <;> rfl
            | _ => cases hcontainer
          by_cases hstep : SameStep document member name
          · have hstep' : SameStep (setAtPath document value (member :: rest)) member name := by
              rwa [SameStep, hkind]
            obtain ⟨old, hchild, hold⟩ := child_setAtPath hcontainer hblock value rest
            have hdeeper : ¬ Meets (below value rest old) rest other := by
              intro hmeets
              exact h ⟨hstep', by rw [hchild]; exact hmeets⟩
            rw [readAt, readAt, child_of_sameStep hstep', child_of_sameStep hstep, hchild]
            cases rest with
            | nil => exact absurd trivial hdeeper
            | cons next rest =>
              have hother : other ≠ [] := by
                rintro rfl
                exact hdeeper trivial
              have hih := ih hdeeper
              rw [readAt_containerOr next old hother] at hih
              have hnull : readAt .null other = none := by
                cases other with
                | nil => exact absurd rfl hother
                | cons _ _ => rfl
              rcases hold with rfl | ⟨hnone, rfl⟩
              · exact hih
              · rw [hnone, Option.bind_none]
                rw [bind_some, hnull] at hih
                exact hih
          · exact (child_setAtPath_other hstep value rest).read other
      · rw [setAtPath_scalar _ _ value (cons_ne_nil _ _)]
        · exact .inl rfl
        · cases document <;> simp_all [isContainer, isObject]
        · cases document <;> simp_all [isContainer, isArray]

/-- A removal keeps the values its path does not meet. -/
theorem readAt_removeAtPath (h : ¬ Meets (removeAtPath document path) path other) :
    readAt (removeAtPath document path) other = readAt document other := by
  induction path generalizing document other with
  | nil => exact absurd trivial h
  | cons member rest ih =>
    cases other with
    | nil => exact absurd trivial h
    | cons name other =>
      cases document with
      | object fields =>
        rw [removeAtPath_object] at h ⊢
        rw [readAt, readAt, child_object, child_object, lookup_removeFields]
        by_cases hname : name = member
        · subst hname
          rw [if_pos rfl]
          have hdeeper : ¬ Meets ((removeField rest (fields.lookup name)).getD .null)
              rest other := by
            intro hmeets
            refine h ⟨.inl rfl, ?_⟩
            rwa [child_object, lookup_removeFields, if_pos rfl]
          cases hlook : fields.lookup name with
          | none => rfl
          | some old =>
            rw [hlook, removeField] at hdeeper
            by_cases hrest : rest = []
            · subst hrest
              exact absurd trivial hdeeper
            · rw [if_neg hrest] at hdeeper
              rw [removeField, if_neg hrest]
              exact ih hdeeper
        · rw [if_neg hname]
      | array items =>
        rw [removeAtPath_array] at h ⊢
        rw [readAt, readAt, child_array, child_array]
        cases hname : arrayIndex name with
        | none => rfl
        | some i =>
          rw [bind_some, bind_some, getElem?_removeItems]
          by_cases hmember : arrayIndex member = some i
          · rw [if_pos hmember]
            cases hitem : items[i]? with
            | none => rfl
            | some old =>
              have hdeeper : ¬ Meets (removeItem rest old) rest other := by
                intro hmeets
                refine h ⟨.inr ⟨rfl, i, hmember, hname⟩, ?_⟩
                rw [child_array, hmember, bind_some, getElem?_removeItems,
                  if_pos hmember, hitem]
                exact hmeets
              by_cases hrest : rest = []
              · subst hrest
                exact absurd trivial hdeeper
              · rw [removeItem, if_neg hrest] at hdeeper
                rw [map_some, removeItem, if_neg hrest]
                exact ih hdeeper
          · rw [if_neg hmember]
      | _ => rw [removeAtPath_scalar rfl rfl]

/-! ## §4 Lists of operations -/

def applyAll (user : Value) (ops : List SettingsPathOp) : Value :=
  ops.foldl SettingsPathOp.apply user

theorem applyAll_append (user : Value) (ops later : List SettingsPathOp) :
    applyAll user (ops ++ later) = applyAll (applyAll user ops) later :=
  foldl_append

/-- No operation's path meets the path, in the document the operation leaves. -/
def Untouched (user : Value) (ops : List SettingsPathOp) (path : SettingPath) : Prop :=
  ∀ earlier op later, ops = earlier ++ op :: later →
    ¬ Meets (applyAll user (earlier ++ [op])) op.path path

theorem Untouched.tail (h : Untouched user (op :: ops) path) : Untouched (op.apply user) ops path :=
  fun earlier op' later hops => h (op :: earlier) op' later (by rw [hops]; rfl)

/-- An operation keeps the values its path does not meet. -/
theorem kept_apply (h : ¬ Meets (op.apply user) op.path path) :
    Kept (readAt user path) (readAt (op.apply user) path) := by
  cases op with
  | set target value =>
    cases target with
    | nil => exact absurd trivial h
    | cons member rest => exact kept_setAtPath h
  | unset target =>
    cases target with
    | nil => exact absurd trivial h
    | cons member rest => exact .inl (readAt_removeAtPath h)

theorem kept_applyAll (h : Untouched user ops path) :
    Kept (readAt user path) (readAt (applyAll user ops) path) := by
  induction ops generalizing user with
  | nil => exact .inl rfl
  | cons op ops ih => exact (kept_apply (h [] op ops rfl)).trans (ih h.tail)

theorem Kept.of_some (h : Kept (some value) after) : after = some value := by
  rcases h with h | ⟨h, -⟩
  · exact h
  · cases h

theorem Kept.blank {before after : Value} (h : Kept (readAt before path) (readAt after path))
    (hblank : Blank before path) : Blank after path := by
  rcases h with h | ⟨-, h⟩
  · rwa [Blank, h]
  · exact .inr h

/-- Checked operations leave an object for each operation inside the document.
-/
theorem isObject_applyAll {rootIsDocument : Bool} (hops : validateOps rootIsDocument ops = .ok ())
    (huser : rootIsDocument = true → isObject user = true) :
    ∀ earlier op later, ops = earlier ++ op :: later → op.path ≠ [] →
      isObject (applyAll user earlier) = true := by
  induction ops generalizing rootIsDocument user with
  | nil =>
    intro earlier op later hsplit
    exact absurd hsplit.symm (by simp)
  | cons first ops ih =>
    intro earlier op later hsplit hpath
    unfold validateOps at hops
    rw [check_bind_eq_ok] at hops
    obtain ⟨-, hops⟩ := hops
    have hnext : ∃ b, validateOps b ops = .ok () ∧
        (b = true → isObject (first.apply user) = true) ∧
        (first.path ≠ [] → isObject user = true) := by
      cases first with
      | set target value =>
        cases target with
        | nil => exact ⟨_, hops, fun h => h, fun h => absurd rfl h⟩
        | cons member rest =>
          obtain ⟨hroot, hrest⟩ := check_bind_eq_ok.mp hops
          rw [failIf_eq_ok, not_eq_false] at hroot
          refine ⟨_, hrest, fun _ => ?_, fun _ => huser hroot⟩
          have hobject := huser hroot
          cases user with
          | object fields =>
            rw [apply, if_neg (by simp), setAtPath_object]
            rfl
          | _ => cases hobject
      | unset target =>
        cases target with
        | nil => exact ⟨_, hops, fun _ => rfl, fun h => absurd rfl h⟩
        | cons member rest =>
          obtain ⟨hroot, hrest⟩ := check_bind_eq_ok.mp hops
          rw [failIf_eq_ok, not_eq_false] at hroot
          refine ⟨_, hrest, fun _ => ?_, fun _ => huser hroot⟩
          rw [apply, if_neg (by simp), isObject_removeAtPath]
          exact huser hroot
    obtain ⟨b, hrest, hobject, hfirst⟩ := hnext
    cases earlier with
    | nil =>
      obtain ⟨rfl, rfl⟩ := cons.inj hsplit
      exact hfirst hpath
    | cons first' earlier =>
      obtain ⟨rfl, rfl⟩ := cons.inj hsplit
      exact ih hrest hobject earlier op later rfl hpath

/-! ## §5 Panics -/

theorem resizeWithin_eq (h : index + 1 < u64Bound ∧ index + 1 ≤ room) :
    resizeWithin room items index = some (resizeTo items index) := by
  unfold resizeWithin
  split
  · rfl
  next hlong => rw [resizeTo, show index + 1 - items.length = 0 by omega]; simp

/-- The indices of a path are within what a vector can hold. -/
def Fits (room : Nat) (path : SettingPath) : Prop :=
  ∀ member ∈ path, ∀ index, arrayIndex member = some index →
    index + 1 < u64Bound ∧ index + 1 ≤ room

theorem setAtPathWithin_eq (h : Fits room path) (document value : Value) :
    setAtPathWithin room document value path = some (setAtPath document value path) := by
  induction path generalizing document with
  | nil => rw [setAtPathWithin, setAtPath]
  | cons member rest ih =>
    have hrest : Fits room rest := fun name hname => h name (mem_cons_of_mem _ hname)
    cases document with
    | object fields =>
      cases rest with
      | nil => rw [setAtPathWithin, setAtPath]
      | cons next rest => rw [setAtPathWithin, setAtPath, ih hrest]; rfl
    | array items =>
      cases hindex : arrayIndex member with
      | none =>
        cases rest <;> simp [setAtPathWithin, setAtPath, hindex]
      | some index =>
        have hresize : resizeWithin room items index = some (resizeTo items index) :=
          resizeWithin_eq (h member mem_cons_self index hindex)
        cases rest with
        | nil => simp [setAtPathWithin, setAtPath, hindex, hresize]
        | cons next rest => simp [setAtPathWithin, setAtPath, hindex, hresize, ih hrest]
    | _ => cases rest <;> simp [setAtPathWithin, setAtPath]

theorem applyAllWithin_eq (h : ∀ path value, SettingsPathOp.set path value ∈ ops → Fits room path)
    (user : Value) : applyAllWithin room user ops = some (applyAll user ops) := by
  induction ops generalizing user with
  | nil => rfl
  | cons op ops ih =>
    have hop : op.applyWithin room user = some (op.apply user) := by
      cases op with
      | set path value =>
        rw [applyWithin, apply]
        split
        · rfl
        · exact setAtPathWithin_eq (h path value mem_cons_self) user value
      | unset path =>
        rw [applyWithin, apply]
    have hrest := ih (fun path value hmem => h path value (mem_cons_of_mem _ hmem))
      (op.apply user)
    rw [applyAllWithin, foldlM_cons, hop]
    exact hrest

/-! ## §6 Path updates -/

theorem pathOps_apply {change : Change} (hops : change.pathOps = some ops)
    (hvalid : change.validate = .ok ()) (user : Value) :
    change.apply user = applyAll user ops ∧ validateOps true ops = .ok () := by
  cases change with
  | update patch => cases hops
  | replace document => cases hops
  | mutate ops' =>
    cases hops
    exact ⟨rfl, hvalid⟩
  | setPath path value | removePath path =>
    cases hops
    have hpath : path.isEmpty = false := by
      cases path with
      | nil => cases hvalid
      | cons member rest => rfl
    refine ⟨?_, ?_⟩
    · rw [Change.apply, applyAll, foldl_cons, foldl_nil, apply, hpath]
      rfl
    · unfold validateOps
      rw [SettingsPathOp.path, validatePathOrRoot, hpath]
      exact check_bind_eq_ok.mpr ⟨hvalid, rfl⟩

/-- The laws of an accepted path update of a user document. A value set and
not written over later is read, unless its path enters an array by a member
that is no index: then nothing stands at the path. Nothing but a null stands at
a path that was unset and not written over, and the document is empty where
that is the root. What no operation meets is kept. And nothing panics whose
indices are within what a vector can hold. -/
theorem path_update_laws (room : Nat) (user : Value) (huser : isObject user = true)
    (change : Change) (ops : List SettingsPathOp) (hops : change.pathOps = some ops)
    (hvalid : change.validate = .ok ()) :
    (∀ earlier path value later, ops = earlier ++ .set path value :: later →
      Untouched (applyAll user (earlier ++ [.set path value])) later path →
      (¬ Blocked (applyAll user earlier) path →
        readAt (change.apply user) path = some value) ∧
      (Blocked (applyAll user earlier) path → Blank (change.apply user) path)) ∧
    (∀ earlier path later, ops = earlier ++ .unset path :: later →
      Untouched (applyAll user (earlier ++ [.unset path])) later path →
      (path ≠ [] → Blank (change.apply user) path) ∧
      (path = [] → change.apply user = emptyDocument)) ∧
    (∀ path, Untouched user ops path →
      Kept (readAt user path) (readAt (change.apply user) path)) ∧
    ((∀ path value, SettingsPathOp.set path value ∈ ops → Fits room path) →
      applyAllWithin room user ops = some (change.apply user)) := by
  obtain ⟨hchange, haccepted⟩ := pathOps_apply hops hvalid user
  rw [hchange]
  -- the document behind one operation and what comes later
  have hsplit : ∀ earlier op later, ops = earlier ++ op :: later →
      applyAll user ops = applyAll (applyAll user (earlier ++ [op])) later := by
    rintro _ _ _ rfl
    rw [← applyAll_append, append_assoc, singleton_append]
  have hlast : ∀ earlier (op : SettingsPathOp),
      applyAll user (earlier ++ [op]) = op.apply (applyAll user earlier) :=
    fun earlier op => applyAll_append user earlier [op]
  refine ⟨?_, ?_, fun path huntouched => kept_applyAll huntouched,
    fun hfits => applyAllWithin_eq hfits user⟩
  · intro earlier path value later hmid huntouched
    have hkept := kept_applyAll huntouched
    rw [hsplit _ _ _ hmid]
    rw [hlast] at hkept ⊢
    cases path with
    | nil =>
      refine ⟨fun _ => hkept.of_some, fun hblocked => ?_⟩
      exact absurd hblocked (not_blocked_nil _)
    | cons member rest =>
      have hobject := isObject_applyAll haccepted (fun _ => huser) earlier _ later hmid
        (cons_ne_nil member rest)
      have happly : (SettingsPathOp.set (member :: rest) value).apply (applyAll user earlier)
          = setAtPath (applyAll user earlier) value (member :: rest) := rfl
      rw [happly] at hkept ⊢
      constructor
      · intro hopen
        rw [readAt_setAtPath (by rw [isContainer, hobject, Bool.true_or]) hopen] at hkept
        exact hkept.of_some
      · intro hblocked
        exact hkept.blank (.inl (readAt_of_blocked hblocked value))
  · intro earlier path later hmid huntouched
    have hkept := kept_applyAll huntouched
    rw [hsplit _ _ _ hmid]
    rw [hlast] at hkept ⊢
    constructor
    · intro hpath
      have happly : (unset path).apply (applyAll user earlier)
          = removeAtPath (applyAll user earlier) path := by
        cases path with
        | nil => exact absurd rfl hpath
        | cons member rest => rfl
      rw [happly] at hkept ⊢
      exact hkept.blank (blank_removeAtPath hpath _)
    · rintro rfl
      have hnil : ((unset []).apply (applyAll user earlier)) = emptyDocument := rfl
      rw [hlast, hnil] at huntouched
      rw [hnil]
      cases later with
      | nil => rfl
      | cons op later =>
        refine absurd ?_ (huntouched [] op later rfl)
        cases op.path <;> trivial

/-- A list with one element, and its element by both spellings. -/
def listDocument : Value := .object [("list", .array [.ofNat 1])]

theorem arrayIndex_of_digits (hne : member ≠ "") (hdigits : member.toList.all Char.isDigit = true)
    (hindex : Nat.ofDigitChars 10 (member.toList.filter (· != '_')) 0 = index)
    (hbound : index < u64Bound) : arrayIndex member = some index := by
  have hnat : member.isNat = true :=
    String.isNat_of_isDigit hne (all_eq_true.mp hdigits)
  rw [arrayIndex, if_pos hdigits, String.toNat?_eq_some_ofDigitChars hnat, hindex,
    bind_some, if_pos hbound]

/-- A write through an array by a name is accepted and lost, one below another
spelling of an index changes the element, the root is not blank after it was
unset, and the last index panics. -/
theorem path_updates_fail :
    (Change.validate (.mutate [.set ["list", "name"] (.ofNat 2)]) = .ok () ∧
      readAt (Change.apply listDocument (.mutate [.set ["list", "name"] (.ofNat 2)]))
        ["list", "name"] = none) ∧
    (Change.validate (.mutate [.set ["list", "00"] (.ofNat 2)]) = .ok () ∧
      readAt listDocument ["list", "0"] = some (.ofNat 1) ∧
      readAt (Change.apply listDocument (.mutate [.set ["list", "00"] (.ofNat 2)]))
        ["list", "0"] = some (.ofNat 2)) ∧
    (Change.validate (.mutate [.unset []]) = .ok () ∧
      readAt (Change.apply listDocument (.mutate [.unset []])) [] = some emptyDocument) ∧
    (Change.validate (.mutate [.set ["list", "18446744073709551615"] .null]) = .ok () ∧
      ∀ room, applyAllWithin room listDocument [.set ["list", "18446744073709551615"] .null]
        = none) := by
  have hzero : arrayIndex "0" = some 0 :=
    arrayIndex_of_digits (by decide) (by decide) (by simp [Nat.ofDigitChars_cons]) (by decide)
  have hzeros : arrayIndex "00" = some 0 :=
    arrayIndex_of_digits (by decide) (by decide) (by simp [Nat.ofDigitChars_cons]) (by decide)
  have hlast : arrayIndex "18446744073709551615" = some 18446744073709551615 :=
    arrayIndex_of_digits (by decide) (by decide) (by simp [Nat.ofDigitChars_cons]) (by decide)
  refine ⟨⟨by decide, by decide⟩, ⟨by decide, ?_, ?_⟩, ⟨by decide, rfl⟩, by decide, fun room => ?_⟩
  · simp [readAt, listDocument, child, hzero]
  · simp [Change.apply, apply, setAtPath, listDocument, containerOr, isObject,
      isArray, hzero, hzeros, insertField, readAt, child, resizeTo]
  · simp [applyAllWithin, applyWithin, setAtPathWithin, listDocument, containerOr,
      isObject, isArray, hlast, resizeWithin, u64Bound]

/-! ### One accepted list -/

theorem not_sameStep {document : Value} (hne : member ≠ name)
    (hindex : ∀ index, arrayIndex member = some index → arrayIndex name ≠ some index) :
    ¬ SameStep document member name := by
  rintro (heq | ⟨_, index, hmember, hname⟩)
  · exact hne heq
  · exact hindex index hmember hname

theorem untouched_nil (user : Value) (path : SettingPath) : Untouched user [] path := by
  intro earlier op later hnil
  cases earlier <;> cases hnil

theorem untouched_cons {user : Value} {op : SettingsPathOp} {ops : List SettingsPathOp}
    (hop : ¬ Meets (op.apply user) op.path path) (hops : Untouched (op.apply user) ops path) :
    Untouched user (op :: ops) path := by
  intro earlier op' later hsplit
  cases earlier with
  | nil =>
    cases hsplit
    exact hop
  | cons first earlier =>
    cases hsplit
    exact hops earlier op' later rfl

/-- A list of a number and of an object, and a name beside it. -/
def nestedDocument : Value :=
  .object [("list", .array [.ofNat 1, .object [("on", .bool true)]]), ("name", .string "a")]

/-- An object behind the end of the list, a member inside it and a new field. -/
def nestedOps : List SettingsPathOp :=
  [.set ["list", "3", "deep"] (.ofNat 2), .unset ["list", "1", "on"], .set ["size"] (.ofNat 5)]

/-- What was set is read and what was unset is blank, the first element and the
gap before the new one are kept, and nothing panics. -/
theorem path_update_laws_nested :
    readAt (Change.apply nestedDocument (.mutate nestedOps)) ["list", "3", "deep"]
        = some (.ofNat 2) ∧
      Blank (Change.apply nestedDocument (.mutate nestedOps)) ["list", "1", "on"] ∧
      Kept (some (.ofNat 1))
        (readAt (Change.apply nestedDocument (.mutate nestedOps)) ["list", "0"]) ∧
      Kept none (readAt (Change.apply nestedDocument (.mutate nestedOps)) ["list", "2"]) ∧
      applyAllWithin 4 nestedDocument nestedOps
        = some (Change.apply nestedDocument (.mutate nestedOps)) := by
  have hzero : arrayIndex "0" = some 0 :=
    arrayIndex_of_digits (by decide) (by decide) (by simp [Nat.ofDigitChars_cons]) (by decide)
  have hone : arrayIndex "1" = some 1 :=
    arrayIndex_of_digits (by decide) (by decide) (by simp [Nat.ofDigitChars_cons]) (by decide)
  have htwo : arrayIndex "2" = some 2 :=
    arrayIndex_of_digits (by decide) (by decide) (by simp [Nat.ofDigitChars_cons]) (by decide)
  have hthree : arrayIndex "3" = some 3 :=
    arrayIndex_of_digits (by decide) (by decide) (by simp [Nat.ofDigitChars_cons]) (by decide)
  obtain ⟨hset, hunset, hkept, hfits⟩ := path_update_laws 4 nestedDocument rfl
    (.mutate nestedOps) nestedOps rfl (by decide)
  -- where the paths part: at the field, or at the index
  have hsize : ∀ {document other}, ¬ Meets document ["size"] ("list" :: other) := fun h =>
    not_sameStep (by decide) (fun _ h => by simp [arrayIndex] at h) h.1
  have happart : ∀ {document m n i j rest other}, arrayIndex m = some i → arrayIndex n = some j →
      i ≠ j → ¬ Meets document ("list" :: m :: rest) ("list" :: n :: other) := by
    intro document m n i j rest other hm hn hne h
    refine not_sameStep (fun heq => hne ?_) (fun index hi hj => hne ?_) h.2.1
    · exact some.inj (hm.symm.trans ((congrArg arrayIndex heq).trans hn))
    · exact (some.inj (hm.symm.trans hi)).trans (some.inj (hn.symm.trans hj)).symm
  refine ⟨(hset [] _ _ _ rfl ?_).1 ?_, (hunset [_] _ _ rfl ?_).1 (by decide), ?_, ?_, hfits ?_⟩
  · exact untouched_cons (happart hone hthree (by decide))
      (untouched_cons hsize (untouched_nil _ _))
  · -- the list ends before the index that is set
    intro hblocked
    rcases blocked_cons.mp hblocked with ⟨harray, -⟩ | ⟨inner, hinner, hblocked⟩
    · cases harray
    · cases hinner
      rcases blocked_cons.mp hblocked with ⟨-, hnone⟩ | ⟨inner, hinner, -⟩
      · cases hthree.symm.trans hnone
      · simp [hthree] at hinner
  · exact untouched_cons hsize (untouched_nil _ _)
  · have hfirst := hkept ["list", "0"] (untouched_cons (happart hthree hzero (by decide))
      (untouched_cons (happart hone hzero (by decide)) (untouched_cons hsize (untouched_nil _ _))))
    have hread : readAt nestedDocument ["list", "0"] = some (.ofNat 1) := by
      simp [readAt, nestedDocument, hzero]
    rwa [hread] at hfirst
  · have hgap := hkept ["list", "2"] (untouched_cons (happart hthree htwo (by decide))
      (untouched_cons (happart hone htwo (by decide)) (untouched_cons hsize (untouched_nil _ _))))
    have hread : readAt nestedDocument ["list", "2"] = none := by
      simp [readAt, nestedDocument, htwo]
    rwa [hread] at hgap
  · intro path value hmem member hmember index hindex
    simp only [nestedOps, mem_cons, reduceCtorEq, SettingsPathOp.set.injEq, not_mem_nil, or_false,
      false_or] at hmem
    rcases hmem with ⟨rfl, -⟩ | ⟨rfl, -⟩
    · simp only [mem_cons, not_mem_nil, or_false] at hmember
      rcases hmember with rfl | rfl | rfl
      · simp [arrayIndex] at hindex
      · cases hthree.symm.trans hindex
        exact ⟨by decide, by decide⟩
      · simp [arrayIndex] at hindex
    · rw [mem_singleton.mp hmember] at hindex
      simp [arrayIndex] at hindex

end Tessivum.Settings
