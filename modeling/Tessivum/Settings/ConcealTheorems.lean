/-
Tessivum.Settings.ConcealTheorems — descriptors do not show what stands at a
secret path.

Redaction is a mask for the merge of two layers (`redact_isMask`): the redacted
result depends on the redacted layers only, whatever objects, arrays and
scalars meet at a secret path. In every run the resolved document is that of
the user document (`Resolving`), so what two descriptors show differs only
where what may be shown of their layers does (`describe_conceals`).
-/
import Tessivum.Library.Mask
import Tessivum.Settings.MoveTheorems
import Tessivum.Settings.PathTheorems

namespace Tessivum.Settings

open Library Library.OrderedMap Library.Mask Protocol List

/-! ## §1 Redaction is a mask -/

def documents : Set Value := { v | Ordered v }

theorem removeField_mergeField {rest : SettingPath} {left right : Option Value}
    (hl : ∀ v, left = some v → Ordered v) (hr : ∀ v, right = some v → Ordered v)
    (ih : ∀ {x y : Value}, Ordered x → Ordered y → removeAtPath (merge x y) rest =
      removeAtPath (merge (removeAtPath x rest) (removeAtPath y rest)) rest) :
    removeField rest (mergeField left right) =
      removeField rest (mergeField (removeField rest left) (removeField rest right)) := by
  by_cases hrest : rest = []
  · have hnone : ∀ v, removeField [] v = none := by
      intro v
      cases v <;> rfl
    rw [hrest, hnone, hnone]
  · cases left with
    | none =>
      cases right with
      | none => rfl
      | some y => simp [mergeField, removeField, hrest, removeAtPath_idem rest (hr y rfl)]
    | some x =>
      cases right with
      | none => simp [mergeField, removeField, hrest, removeAtPath_idem rest (hl x rfl)]
      | some y => simp [mergeField, removeField, hrest, ih (hl x rfl) (hr y rfl)]

/-- A removal lets nothing of what it takes out of two layers through their
merge. -/
theorem removeAtPath_merge (path : SettingPath) {left right : Value} (hl : Ordered left)
    (hr : Ordered right) :
    removeAtPath (merge left right) path =
      removeAtPath (merge (removeAtPath left path) (removeAtPath right path)) path := by
  induction path generalizing left right with
  | nil => simp only [removeAtPath_nil]
  | cons member rest ih =>
    cases hboth : isObject left && isObject right with
    | false =>
      -- one layer replaces the other, before and behind the mask
      have hor : isObject left = false ∨ isObject right = false := by
        simpa only [and_eq_false_iff] using hboth
      rw [merge_eq_right hor, merge_eq_right, removeAtPath_idem _ hr]
      rwa [isObject_removeAtPath, isObject_removeAtPath]
    | true =>
      obtain ⟨hlo, hro⟩ := Bool.and_eq_true_iff.mp hboth
      cases left with
      | object xs =>
        cases right with
        | object ys =>
          have hxs := removeFields_ordered hl member rest
          have hys := removeFields_ordered hr member rest
          have hmerged := merge_ordered hl hr
          have hmasked := merge_ordered hxs hys
          simp only [merge_object] at hmerged hmasked
          simp only [removeAtPath_object, merge_object]
          congr 1
          refine (removeFields_ordered hmerged member rest).ascending.ext
            (removeFields_ordered hmasked member rest).ascending fun key => ?_
          simp only [lookup_removeFields, lookup_mergeFields _ hr.ascending.distinct,
            lookup_mergeFields _ hys.ascending.distinct]
          by_cases hkey : key = member
          · simp only [if_pos hkey, if_true]
            exact removeField_mergeField (fun _ => hl.of_lookup) (fun _ => hr.of_lookup) ih
          · simp only [if_neg hkey]
        | _ => cases hro
      | _ => cases hlo

theorem removeAtPath_isMask (path : SettingPath) :
    IsMask documents merge fun value => removeAtPath value path where
  stays _ hx := removeAtPath_ordered path hx
  closed _ hx _ hy := merge_ordered hx hy
  idem _ hx := removeAtPath_idem path hx
  through _ hx _ hy := removeAtPath_merge path hx hy

theorem redact_isMask (paths : List SettingPath) :
    IsMask documents merge fun value => redact value paths :=
  isMask_foldl removeAtPath_isMask (fun _ hx _ hy => merge_ordered hx hy)
    (fun p q _ hx => removeAtPath_comm p q hx) paths

/-- What is shown of the resolved document depends on what is shown of its
three layers. -/
theorem redact_resolve (paths : List SettingPath) {defaults base user defaults' base' user' : Value}
    (hd : Ordered defaults) (hb : Ordered base) (hu : Ordered user) (hd' : Ordered defaults')
    (hb' : Ordered base') (hu' : Ordered user')
    (hdd : redact defaults paths = redact defaults' paths)
    (hbb : redact base paths = redact base' paths) (huu : redact user paths = redact user' paths) :
    redact (resolve defaults base user) paths = redact (resolve defaults' base' user') paths := by
  have hmask := redact_isMask paths
  have hlower := hmask.congr hd hd' hb hb' hdd hbb
  exact hmask.congr (merge_ordered hd hb) (merge_ordered hd' hb') hu hu' hlower huu

theorem blank_redact {paths : List SettingPath} (hpaths : [] ∉ paths) {path : SettingPath}
    (hmem : path ∈ paths) (value : Value) (rest : SettingPath) :
    Blank (redact value paths) (path ++ rest) := by
  have hkeep : ∀ (others : List SettingPath) (v : Value), Blank v path →
      Blank (redact v others) path := by
    intro others
    induction others with
    | nil => exact fun _ h => h
    | cons other others ih => exact fun v h => ih _ (h.removeAtPath other)
  refine Blank.append ?_ rest
  induction paths generalizing value with
  | nil => cases hmem
  | cons other paths ih =>
    rw [mem_cons, not_or] at hpaths
    rcases mem_cons.mp hmem with rfl | hmem
    · exact hkeep paths _ (blank_removeAtPath (Ne.symm hpaths.1) value)
    · exact ih hpaths.2 hmem _

namespace SettingsService

/-! ## §2 Descriptors -/

/-- The documents a state was given are documents of the source. -/
structure WellFormed (state : NamespaceState) : Prop where
  defaults : Ordered state.registration.defaults
  base : Ordered state.registration.base
  user : Ordered state.user
  secretPaths : ∀ path ∈ state.registration.secretPaths, validPath path = true

/-- Two states that differ in nothing but what stands at their secret
paths. -/
structure LookAlike (a b : NamespaceState) : Prop where
  schema : a.registration.schema = b.registration.schema
  applies : a.registration.applies = b.registration.applies
  secretPaths : a.registration.secretPaths = b.registration.secretPaths
  revision : a.revision = b.revision
  userPresent : a.userPresent = b.userPresent
  defaults : redact a.registration.defaults a.registration.secretPaths
    = redact b.registration.defaults a.registration.secretPaths
  base : redact a.registration.base a.registration.secretPaths
    = redact b.registration.base a.registration.secretPaths
  user : redact a.user a.registration.secretPaths = redact b.user a.registration.secretPaths

/-- A descriptor without the list that says at which secret paths there is a
value. -/
def withoutSecretSet (d : SettingsDescriptor) : SettingsDescriptor := { d with secretSet := [] }

def shownDocuments (d : SettingsDescriptor) : List Value :=
  [d.defaults, d.base, d.user, d.resolved]

variable {s : SettingsService}

theorem describe_of_named {ns : String} {id : Nat} (h : s.namespaces ns = some id) :
    s.describe ns = .ok {
      ns := ns
      revision := (s.states id).revision
      schema := (s.states id).registration.schema
      defaults := redact (s.states id).registration.defaults
        (s.states id).registration.secretPaths
      base := redact (s.states id).registration.base (s.states id).registration.secretPaths
      user := redact (s.states id).user (s.states id).registration.secretPaths
      applies := (s.states id).registration.applies
      resolved := redact (s.states id).resolved (s.states id).registration.secretPaths
      secretPaths := (s.states id).registration.secretPaths
      secretSet := (s.states id).registration.secretPaths.map (hasPath (s.states id).resolved)
      userPresent := (s.states id).userPresent } := by
  unfold describe lookup
  rw [h]
  rfl

/-- After any two runs, the descriptors of two states that differ only at
their secret paths agree but for `secretSet`; and none of their documents has
a value at a secret path or below it. -/
theorem describe_conceals (sections sections' : String → Option Value) (writable writable' : Bool)
    (steps steps' : List SettingsStep) (ns : String) (id id' : Nat)
    (hid : ((fresh sections writable).runFrom steps).namespaces ns = some id)
    (hid' : ((fresh sections' writable').runFrom steps').namespaces ns = some id')
    (hstate : WellFormed (((fresh sections writable).runFrom steps).states id))
    (hstate' : WellFormed (((fresh sections' writable').runFrom steps').states id'))
    (halike : LookAlike (((fresh sections writable).runFrom steps).states id)
      (((fresh sections' writable').runFrom steps').states id')) :
    ∃ d d', ((fresh sections writable).runFrom steps).describe ns = .ok d
      ∧ ((fresh sections' writable').runFrom steps').describe ns = .ok d'
      ∧ withoutSecretSet d = withoutSecretSet d'
      ∧ ∀ path ∈ d.secretPaths, ∀ rest, ∀ document ∈ shownDocuments d ++ shownDocuments d',
          Blank document (path ++ rest) := by
  have hrun := (fresh_resolving sections writable).run steps
  have hrun' := (fresh_resolving sections' writable').run steps'
  generalize (fresh sections writable).runFrom steps = s at *
  generalize (fresh sections' writable').runFrom steps' = s' at *
  have hresolved := hrun.states id (hrun.named ns id hid)
  have hresolved' := hrun'.states id' (hrun'.named ns id' hid')
  refine ⟨_, _, describe_of_named hid, describe_of_named hid', ?_, ?_⟩
  · have hshown : redact (s.states id).resolved (s.states id).registration.secretPaths
        = redact (s'.states id').resolved (s.states id).registration.secretPaths := by
      rw [hresolved, hresolved']
      exact redact_resolve _ hstate.defaults hstate.base hstate.user hstate'.defaults
        hstate'.base hstate'.user halike.defaults halike.base halike.user
    simp only [withoutSecretSet, ← halike.schema, ← halike.applies, ← halike.secretPaths,
      ← halike.revision, ← halike.userPresent, ← halike.defaults, ← halike.base, ← halike.user,
      ← hshown]
  · intro path hpath rest document hdocument
    have hpaths : [] ∉ (s.states id).registration.secretPaths := fun hmem =>
      absurd (hstate.secretPaths [] hmem) (by decide)
    have hpaths' : (s'.states id').registration.secretPaths
        = (s.states id).registration.secretPaths := halike.secretPaths.symm
    simp only [shownDocuments, cons_append, nil_append, mem_cons, not_mem_nil,
      or_false, hpaths'] at hdocument
    rcases hdocument with rfl | rfl | rfl | rfl | rfl | rfl | rfl | rfl <;>
      exact blank_redact hpaths hpath _ rest

def secretRegistration : SettingsRegistration :=
  { ns := "demo", schema := .null, defaults := emptyDocument, base := emptyDocument
    applies := .live, secretPaths := [["auth", "key"]], validator := none }

def describedRun (user : Value) : SettingsService :=
  (fresh (fun _ => some user) true).runFrom
    [.begin (.register secretRegistration), .enter 0, .load 0 none, .finish 0]

def keyDocument (key : Value) : Value := .object [("auth", .object [("key", key)])]

theorem describedRun_state (key : Value) :
    (describedRun (keyDocument key)).states 0 =
      newState secretRegistration (keyDocument key) true (keyDocument key) := rfl

theorem describedRun_wellFormed {key : Value} (h : Ordered key) :
    WellFormed ((describedRun (keyDocument key)).states 0) := by
  rw [describedRun_state]
  have hempty : Ordered emptyDocument := .object .nil fun _ hx => absurd hx not_mem_nil
  have hpaths : ∀ path ∈ secretRegistration.secretPaths, validPath path = true := by decide
  refine ⟨hempty, hempty, ?_, hpaths⟩
  refine .object (pairwise_singleton _ _) fun x hx => ?_
  rw [mem_singleton] at hx
  subst hx
  refine .object (pairwise_singleton _ _) fun y hy => ?_
  rw [mem_singleton] at hy
  subst hy
  exact h

/-- Two keys are not told apart, nor a key from a whole object. -/
theorem describe_conceals_keys :
    ∃ d d', (describedRun (keyDocument (.string "one"))).describe "demo" = .ok d
      ∧ (describedRun (keyDocument emptyDocument)).describe "demo" = .ok d'
      ∧ withoutSecretSet d = withoutSecretSet d'
      ∧ ∀ path ∈ d.secretPaths, ∀ rest, ∀ document ∈ shownDocuments d ++ shownDocuments d',
          Blank document (path ++ rest) :=
  describe_conceals _ _ true true _ _ "demo" 0 0 rfl rfl
    (describedRun_wellFormed (.string "one"))
    (describedRun_wellFormed (.object .nil fun _ hx => absurd hx not_mem_nil))
    ⟨rfl, rfl, rfl, rfl, rfl, rfl, rfl, rfl⟩

end SettingsService

end Tessivum.Settings
