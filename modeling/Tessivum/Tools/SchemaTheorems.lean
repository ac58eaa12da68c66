/-
Tessivum.Tools.SchemaTheorems — the argument check is exact and does not panic.

`Satisfies schema value` is the meaning of the supported keywords: it is the
one predicate that holds of a value when every keyword of the schema does, with
the predicate itself at the sub-schemas (`satisfies_iff`).

`Decides check p` says that a check ends, without a panic, and passes exactly
when `p` holds. What `validate_schema` establishes for the other `expect`s is
`Checked`.
-/
import Tessivum.Tools.Schema

namespace Tessivum.Tools

open Library Protocol List

/-! ## What the keywords mean -/

/-- What the type names mean. -/
inductive HasType : Value → String → Prop
  | object (fields : Fields) : HasType (.object fields) "object"
  | array (items : List Value) : HasType (.array items) "array"
  | string (s : String) : HasType (.string s) "string"
  | number (n : Number) : HasType (.number n) "number"
  | natural (n : Nat) : HasType (.number (.posInt n)) "integer"
  | negative (n : Int) : HasType (.number (.negInt n)) "integer"
  | boolean (b : Bool) : HasType (.bool b) "boolean"
  | null : HasType .null "null"

/-- Every keyword of a schema holds of a value, given what the sub-schemas
mean. -/
structure Keywords (sat : Value → Value → Prop) (schema value : Value) : Prop where
  type : ∀ typeName, schema.get "type" = some (.string typeName) → HasType value typeName
  enum : ∀ values, schema.get "enum" = some (.array values) → value ∈ values
  oneOf : ∀ options, schema.get "oneOf" = some (.array options) →
    ∃! i : Fin options.length, sat (options.get i) value
  required : ∀ names name fields, schema.get "required" = some (.array names) →
    .string name ∈ names → value = .object fields → (fields.lookup name).isSome
  properties : ∀ declared fields name sub v, schema.get "properties" = some (.object declared) →
    value = .object fields → (name, v) ∈ fields → declared.lookup name = some sub → sat sub v
  additional : ∀ declared fields name v, schema.get "properties" = some (.object declared) →
    schema.get "additionalProperties" = some (.bool false) → value = .object fields →
    (name, v) ∈ fields → (declared.lookup name).isSome
  items : ∀ sub elements v, schema.get "items" = some sub → value = .array elements →
    v ∈ elements → sat sub v

def Satisfies : Value → Value → Prop := tied depth (fun _ _ => False) Keywords

variable {schema value : Value} {check : Except Fault Unit} {p q : Prop} {α : Type} {x : α}
  {xs : List α} {object : Fields} {path : String} {typeName : Option String} {T : Texts}

theorem depth_get_lt {v : Value} {key : String} (h : schema.get key = some v) :
    depth v < depth schema := by
  cases schema with
  | object fields => exact depth_lookup_lt h
  | _ => cases h

theorem Keywords.congr {f g : Value → Value → Prop}
    (h : ∀ sub, depth sub < depth schema → f sub = g sub) (hk : Keywords f schema value) :
    Keywords g schema value where
  type := hk.type
  enum := hk.enum
  oneOf := fun options hget => by
    have hsame : ∀ i : Fin options.length, g (options.get i) value = f (options.get i) value :=
      fun i => by
        rw [h _ ((depth_item_lt (get_mem options i)).trans (depth_get_lt hget))]
    simpa only [hsame] using hk.oneOf options hget
  required := hk.required
  properties := fun declared fields name sub v hget hvalue hv hsub => by
    rw [← h sub ((depth_lookup_lt hsub).trans (depth_get_lt hget))]
    exact hk.properties declared fields name sub v hget hvalue hv hsub
  additional := hk.additional
  items := fun sub elements v hget hvalue hv => by
    rw [← h sub (depth_get_lt hget)]
    exact hk.items sub elements v hget hvalue hv

theorem keywords_descends : Descends depth Keywords := by
  intro f g schema h
  funext value
  exact propext ⟨Keywords.congr h, Keywords.congr fun sub hsub => (h sub hsub).symm⟩

theorem satisfies_iff : Satisfies schema value ↔ Keywords Satisfies schema value :=
  iff_of_eq (congrFun (tied_eq keywords_descends schema) value)

/-- The type test of the code. -/
theorem valueHasType_iff {typeName : String} :
    valueHasType value typeName = true ↔ HasType value typeName := by
  constructor
  · intro h
    unfold valueHasType at h
    split at h
    all_goals first
      | constructor
      | cases h
  · intro h
    cases h <;> rfl

theorem HasType.eq_object (h : HasType value "object") : ∃ fields, value = .object fields := by
  rw [← valueHasType_iff] at h
  cases value with
  | object fields => exact ⟨fields, rfl⟩
  | _ => cases h

theorem HasType.eq_array (h : HasType value "array") : ∃ items, value = .array items := by
  rw [← valueHasType_iff] at h
  cases value with
  | array items => exact ⟨items, rfl⟩
  | _ => cases h

/-! ## Checks that decide -/

/-- The check ends without a panic, and passes exactly when `p` holds. -/
def Decides (check : Except Fault Unit) (p : Prop) : Prop :=
  (check = .ok () ∧ p) ∨ ((∃ e, check = .error (.error e)) ∧ ¬ p)

theorem Decides.iff (h : Decides check p) : check = .ok () ↔ p := by
  rcases h with ⟨hok, hp⟩ | ⟨⟨e, herror⟩, hp⟩
  · exact ⟨fun _ => hp, fun _ => hok⟩
  · exact ⟨fun hok => (by rw [herror] at hok; cases hok), fun h => absurd h hp⟩

theorem Decides.ne_panicked (h : Decides check p) (message : String) :
    check ≠ .error (.panicked message) := by
  rcases h with ⟨hok, _⟩ | ⟨⟨e, herror⟩, _⟩
  · rw [hok]
    exact nofun
  · rw [herror]
    exact nofun

theorem Decides.of_iff (h : Decides check p) (hpq : p ↔ q) : Decides check q := by
  rwa [← propext hpq]

theorem decides_ok : Decides (.ok ()) True := .inl ⟨rfl, trivial⟩

theorem decides_refuseIf {c : Prop} [Decidable c] (e : TessivumError) :
    Decides (refuseIf c e) (¬ c) := by
  unfold refuseIf failIf
  by_cases hc : c
  · rw [if_pos hc]
    exact .inr ⟨⟨e, rfl⟩, not_not_intro hc⟩
  · rw [if_neg hc]
    exact .inl ⟨rfl, hc⟩

theorem Decides.seq {first : Except Fault Unit} {second : Unit → Except Fault Unit}
    (hfirst : Decides first p) (hsecond : p → Decides (second ()) q) :
    Decides (first >>= second) (p ∧ q) := by
  rcases hfirst with ⟨rfl, hp⟩ | ⟨⟨e, rfl⟩, hp⟩
  · exact (hsecond hp).of_iff (and_iff_right hp).symm
  · exact .inr ⟨⟨e, rfl⟩, fun h => hp h.1⟩

theorem decides_forAllOk {check : α → Except Fault Unit} {p : α → Prop} :
    ∀ {xs : List α}, (∀ x ∈ xs, Decides (check x) (p x)) →
      Decides (forAllOk check xs) (∀ x ∈ xs, p x)
  | [], _ => .inl ⟨rfl, fun _ h => absurd h (not_mem_nil)⟩
  | x :: rest, h => by
    rw [forAllOk]
    refine ((h x mem_cons_self).seq fun _ =>
      decides_forAllOk fun y hy => h y (mem_cons_of_mem x hy)).of_iff ?_
    exact forall_mem_cons.symm

/-- One of the elements satisfies `p`, and no other. -/
def ExactlyOne {α : Type} (p : α → Prop) (xs : List α) : Prop :=
  ∃! i : Fin xs.length, p (xs.get i)

theorem exactlyOne_cons_of_pos {p : α → Prop} (h : p x) :
    ExactlyOne p (x :: xs) ↔ ∀ y ∈ xs, ¬ p y := by
  constructor
  · rintro ⟨i, _, hunique⟩ y hy hpy
    obtain ⟨j, rfl⟩ := mem_iff_get.mp hy
    have hzero := hunique ⟨0, Nat.succ_pos _⟩ h
    have hsucc := hunique j.succ hpy
    exact absurd (hzero.trans hsucc.symm) (Fin.succ_ne_zero j).symm
  · intro hnone
    refine ⟨⟨0, Nat.succ_pos _⟩, h, fun i hi => ?_⟩
    refine Fin.cases (fun _ => rfl) (fun j hj => ?_) i hi
    exact absurd hj (hnone _ (get_mem xs j))

theorem exactlyOne_cons_of_neg {p : α → Prop} (h : ¬ p x) :
    ExactlyOne p (x :: xs) ↔ ExactlyOne p xs := by
  constructor
  · rintro ⟨i, hi, hunique⟩
    revert hi hunique
    refine Fin.cases (fun hi _ => absurd hi h) (fun j hj hunique => ?_) i
    exact ⟨j, hj, fun k hk => Fin.succ_inj.mp (hunique k.succ hk)⟩
  · rintro ⟨j, hj, hunique⟩
    refine ⟨j.succ, hj, fun i hi => ?_⟩
    revert hi
    refine Fin.cases (fun hi => absurd hi h) (fun k hk => ?_) i
    rw [hunique k hk]

theorem countMatching_decides {check : Value → Except Fault Unit} {p : Value → Prop} :
    ∀ {options : List Value}, (∀ option ∈ options, Decides (check option) (p option)) →
      ∃ n, countMatching check options = .ok n ∧ (n = 0 ↔ ∀ option ∈ options, ¬ p option)
        ∧ (n = 1 ↔ ExactlyOne p options)
  | [], _ => by
    refine ⟨0, rfl, ⟨fun _ _ h => absurd h not_mem_nil, fun _ => rfl⟩, ?_⟩
    exact ⟨fun h => absurd h (by decide), fun ⟨i, _⟩ => i.elim0⟩
  | option :: rest, h => by
    have hrest : ∀ o ∈ rest, Decides (check o) (p o) := fun o ho =>
      h o (mem_cons_of_mem option ho)
    obtain ⟨n, hn, hzero, hone⟩ := countMatching_decides hrest
    rcases h option mem_cons_self with ⟨hok, hp⟩ | ⟨⟨e, herror⟩, hp⟩
    · refine ⟨n + 1, ?_, ?_, ?_⟩
      · rw [countMatching, hok, hn]
        rfl
      · exact ⟨fun h => absurd h (Nat.succ_ne_zero n),
          fun hnone => absurd hp (hnone option mem_cons_self)⟩
      · rw [exactlyOne_cons_of_pos hp, ← hzero]
        omega
    · refine ⟨n, ?_, ?_, ?_⟩
      · rw [countMatching, herror, hn]
      · rw [hzero, forall_mem_cons]
        exact (and_iff_right hp).symm
      · rw [exactlyOne_cons_of_neg hp, hone]

/-! ## What the schema check establishes -/

/-- What a schema that passed the check is like, for the argument check. -/
structure Checked (accepted : Value → Prop) (object : Fields) : Prop where
  type : ∀ v, object.lookup "type" = some v → ∃ typeName, v = .string typeName
  oneOf : ∀ v, object.lookup "oneOf" = some v →
    ∃ options, v = .array options ∧ ∀ option ∈ options, accepted option
  enum : ∀ v, object.lookup "enum" = some v → ∃ values, v = .array values
  properties : object.lookup "type" = some (.string "object") →
    ∃ declared, object.lookup "properties" = some (.object declared)
      ∧ ∀ name sub, declared.lookup name = some sub → accepted sub
  required : object.lookup "type" = some (.string "object") →
    ∀ v, object.lookup "required" = some v → ∃ names, v = .array names
      ∧ ∀ required ∈ names, ∃ name, required = .string name
  additional : object.lookup "type" = some (.string "object") →
    ∀ v, object.lookup "additionalProperties" = some v → ∃ b, v = .bool b
  items : object.lookup "type" = some (.string "array") →
    ∃ sub, object.lookup "items" = some sub ∧ accepted sub
  nowhere : (∀ typeName, object.lookup "type" = some (.string typeName) →
      typeName ≠ "object" ∧ typeName ≠ "array") →
    ∀ key ∈ ["properties", "required", "additionalProperties", "items"], object.lookup key = none

def Accepted (T : Texts) (schema : Value) : Prop := ∃ path, validateSchema T schema path = .ok ()

theorem schemaType_ok (h : schemaType object path = .ok typeName) :
    object.lookup "type" = typeName.map Value.string := by
  unfold schemaType at h
  split at h
  · rename_i hlookup
    split at h
    · cases h
      exact hlookup
    · cases h
  · cases h
  · cases h
    assumption

theorem checkOneOf_ok (h : checkOneOf (validateSchema T) object path = .ok ()) :
    ∀ v, object.lookup "oneOf" = some v →
      ∃ options, v = .array options ∧ ∀ option ∈ options, Accepted T option := by
  intro v hv
  unfold checkOneOf at h
  rw [hv] at h
  cases v with
  | array options =>
    refine ⟨options, rfl, fun option hoption => ?_⟩
    obtain ⟨i, hi⟩ := mem_iff_getElem?.mp hoption
    have hall := (forAllOk_eq_ok _ _).mp (check_bind_eq_ok.mp h).2
    exact ⟨_, hall (option, i) (mem_zipIdx_iff_getElem?.mpr hi)⟩
  | _ => cases h

theorem checkEnum_ok (h : checkEnum object typeName path = .ok ()) :
    ∀ v, object.lookup "enum" = some v → ∃ values, v = .array values := by
  intro v hv
  unfold checkEnum at h
  rw [hv] at h
  cases v with
  | array values => exact ⟨values, rfl⟩
  | _ => cases h

theorem checkRequired_ok {properties : Fields} :
    ∀ {seen : List String} {names : List Value},
      checkRequired properties path seen names = .ok () →
        ∀ required ∈ names, ∃ name, required = .string name
  | _, [], _, _, hmem => absurd hmem not_mem_nil
  | seen, head :: rest, h, required, hmem => by
    cases head with
    | string name =>
      rw [checkRequired, check_bind_eq_ok, check_bind_eq_ok] at h
      rcases mem_cons.mp hmem with rfl | hmem
      · exact ⟨name, rfl⟩
      · exact checkRequired_ok h.2.2 required hmem
    | _ => cases h

theorem validateObjectSchema_ok (h : validateObjectSchema (validateSchema T) object path = .ok ()) :
    (∃ declared, object.lookup "properties" = some (.object declared)
        ∧ ∀ name sub, declared.lookup name = some sub → Accepted T sub)
      ∧ (∀ v, object.lookup "required" = some v → ∃ names, v = .array names
        ∧ ∀ required ∈ names, ∃ name, required = .string name)
      ∧ ∀ v, object.lookup "additionalProperties" = some v → ∃ b, v = .bool b := by
  unfold validateObjectSchema at h
  split at h
  · rename_i properties hproperties
    obtain ⟨hsubs, h⟩ := check_bind_eq_ok.mp h
    obtain ⟨hrequired, hadditional⟩ := check_bind_eq_ok.mp h
    refine ⟨⟨properties, hproperties, fun name sub hsub => ?_⟩, fun v hv => ?_, fun v hv => ?_⟩
    · exact ⟨_, (forAllOk_eq_ok _ _).mp hsubs (name, sub) (Keyed.mem_of_lookup hsub)⟩
    · rw [checkRequiredKeyword, hv] at hrequired
      cases v with
      | array names => exact ⟨names, rfl, checkRequired_ok hrequired⟩
      | _ => cases hrequired
    · rw [checkAdditional, hv] at hadditional
      cases v with
      | bool b => exact ⟨b, rfl⟩
      | _ => cases hadditional
  · cases h
  · cases h

theorem validateArraySchema_ok (h : validateArraySchema (validateSchema T) object path = .ok ()) :
    ∃ sub, object.lookup "items" = some sub ∧ Accepted T sub := by
  unfold validateArraySchema at h
  split at h
  · rename_i items hitems
    exact ⟨items, hitems, _, h⟩
  · cases h

theorem checkNotHere_ok (h : checkNotHere object path = .ok ()) :
    ∀ key ∈ ["properties", "required", "additionalProperties", "items"],
      object.lookup key = none := by
  intro key hkey
  have hfree := failIf_eq_ok.mp ((forAllOk_eq_ok _ _).mp h key hkey)
  rwa [not_isSome_iff_eq_none] at hfree

/-- What the check of a schema has found of its keywords. -/
theorem Accepted.checked (h : Accepted T schema) :
    ∃ object, schema = .object object ∧ Checked (Accepted T) object := by
  obtain ⟨path, h⟩ := h
  rw [validateSchema_eq] at h
  cases schema with
  | object object =>
    simp only [schemaLevel] at h
    replace h := after_check h
    replace h := after_check h
    obtain ⟨typeName, htype, h⟩ := bind_eq_ok.mp h
    replace h := after_check h
    obtain ⟨honeOf, h⟩ := check_bind_eq_ok.mp h
    obtain ⟨henum, h⟩ := check_bind_eq_ok.mp h
    have hname := schemaType_ok htype
    have hobject : object.lookup "type" = some (.string "object") →
        validateObjectSchema (validateSchema T) object path = .ok () := by
      intro heq
      rw [hname] at heq
      cases typeName with
      | none => cases heq
      | some name => cases heq; exact h
    have harray : object.lookup "type" = some (.string "array") →
        validateArraySchema (validateSchema T) object path = .ok () := by
      intro heq
      rw [hname] at heq
      cases typeName with
      | none => cases heq
      | some name => cases heq; exact h
    refine ⟨object, rfl, ?_⟩
    exact {
      type := fun v hv => by
        rw [hname] at hv
        obtain ⟨name, _, rfl⟩ := map_eq_some_iff.mp hv
        exact ⟨name, rfl⟩
      oneOf := checkOneOf_ok honeOf
      enum := checkEnum_ok henum
      properties := fun heq => (validateObjectSchema_ok (hobject heq)).1
      required := fun heq => (validateObjectSchema_ok (hobject heq)).2.1
      additional := fun heq => (validateObjectSchema_ok (hobject heq)).2.2
      items := fun heq => validateArraySchema_ok (harray heq)
      nowhere := fun hother => by
        split at h
        · exact absurd rfl (hother "object" hname).1
        · exact absurd rfl (hother "array" hname).2
        · exact checkNotHere_ok h }
  | _ => cases h

/-! ## One level decides -/

section Level

variable {accepted : Value → Prop} {sat : Value → Value → Prop} {recur : InstanceCheck}
  {object : Fields}

theorem instanceOneOf_decides (hc : Checked accepted object) (value : Value) (path : String)
    (hrec : ∀ sub, depth sub < depth (.object object) → accepted sub →
      ∀ v p, Decides (recur sub v p) (sat sub v)) :
    Decides (instanceOneOf recur object value path)
      (∀ options, object.lookup "oneOf" = some (.array options) →
        ExactlyOne (fun option => sat option value) options) := by
  unfold instanceOneOf
  cases hlookup : object.lookup "oneOf" with
  | none => exact decides_ok.of_iff ⟨nofun, fun _ => trivial⟩
  | some oneOf =>
    obtain ⟨options, rfl, haccepted⟩ := hc.oneOf oneOf hlookup
    have hoptions : ∀ option ∈ options, Decides (recur option value path) (sat option value) :=
      fun option hoption => hrec option ((depth_item_lt hoption).trans (depth_lookup_lt hlookup))
        (haccepted option hoption) value path
    obtain ⟨n, hn, -, hone⟩ := countMatching_decides hoptions
    simp only [bind_some, Value.asArray, hn, ok_bind]
    refine (decides_refuseIf _).of_iff ?_
    rw [not_not, hone]
    exact ⟨fun h _ heq => by cases heq; exact h, fun h => h options rfl⟩

theorem instanceType_decides (hc : Checked accepted object) (value : Value) (path : String) :
    Decides (instanceType object value path)
      (∀ typeName, object.lookup "type" = some (.string typeName) → HasType value typeName) := by
  unfold instanceType
  cases hlookup : object.lookup "type" with
  | none => exact decides_ok.of_iff ⟨nofun, fun _ => trivial⟩
  | some v =>
    obtain ⟨typeName, rfl⟩ := hc.type v hlookup
    refine (decides_refuseIf _).of_iff ?_
    rw [not_eq_false, valueHasType_iff]
    exact ⟨fun h _ heq => by cases heq; exact h, fun h => h typeName rfl⟩

theorem instanceEnum_decides (hc : Checked accepted object) (value : Value) (path : String) :
    Decides (instanceEnum object value path)
      (∀ values, object.lookup "enum" = some (.array values) → value ∈ values) := by
  unfold instanceEnum
  cases hlookup : object.lookup "enum" with
  | none => exact decides_ok.of_iff ⟨nofun, fun _ => trivial⟩
  | some v =>
    obtain ⟨values, rfl⟩ := hc.enum v hlookup
    refine (decides_refuseIf _).of_iff ?_
    rw [not_not]
    exact ⟨fun h _ heq => by cases heq; exact h, fun h => h values rfl⟩

/-- The keywords of an object, of the value's fields. -/
structure ObjectKeywords (sat : Value → Value → Prop) (object fields : Fields) : Prop where
  required : ∀ names name, object.lookup "required" = some (.array names) →
    .string name ∈ names → (fields.lookup name).isSome
  properties : ∀ declared name sub v, object.lookup "properties" = some (.object declared) →
    (name, v) ∈ fields → declared.lookup name = some sub → sat sub v
  additional : ∀ declared name v, object.lookup "properties" = some (.object declared) →
    object.lookup "additionalProperties" = some (.bool false) →
    (name, v) ∈ fields → (declared.lookup name).isSome

theorem instanceRequired_decides (fields : Fields) (path name : String) :
    Decides (instanceRequired fields path (.string name)) (fields.lookup name).isSome := by
  show Decides (refuseIf (fields.lookup name).isNone _) _
  refine (decides_refuseIf _).of_iff ?_
  rw [isNone_iff_eq_none, ← ne_eq, Option.ne_none_iff_isSome]

theorem instanceField_decides {declared : Fields} (additional : Bool) (path : String)
    (field : String × Value)
    (hrec : ∀ name sub, declared.lookup name = some sub → ∀ v p, Decides (recur sub v p) (sat sub v)) :
    Decides (instanceField recur declared additional path field)
      ((∀ sub, declared.lookup field.1 = some sub → sat sub field.2)
        ∧ (additional = false → (declared.lookup field.1).isSome)) := by
  unfold instanceField
  split
  · rename_i sub hsub
    refine (hrec field.1 sub hsub field.2 _).of_iff ?_
    rw [hsub]
    exact ⟨fun h => ⟨fun _ heq => (by cases heq; exact h), fun _ => rfl⟩, fun h => h.1 sub rfl⟩
  · rename_i hsub
    refine (decides_refuseIf _).of_iff ?_
    rw [hsub]
    exact ⟨fun h => ⟨nofun, fun heq => absurd heq h⟩,
      fun h heq => absurd (h.2 heq) (by simp)⟩

/-- The keywords of an object are decided. -/
theorem instanceObject_decides (hc : Checked accepted object)
    (htype : object.lookup "type" = some (.string "object")) (fields : Fields) (path : String)
    (hrec : ∀ sub, depth sub < depth (.object object) → accepted sub →
      ∀ v p, Decides (recur sub v p) (sat sub v)) :
    Decides (instanceObject recur object (.object fields) path)
      (ObjectKeywords sat object fields) := by
  obtain ⟨declared, hdeclared, haccepted⟩ := hc.properties htype
  have hsubs : ∀ name sub, declared.lookup name = some sub →
      ∀ v p, Decides (recur sub v p) (sat sub v) := fun name sub hsub =>
    hrec sub ((depth_lookup_lt hsub).trans (depth_lookup_lt hdeclared)) (haccepted name sub hsub)
  have hrequired : Decides
      (forAllOk (instanceRequired fields path)
        (((object.lookup "required").bind Value.asArray).getD []))
      (∀ names name, object.lookup "required" = some (.array names) →
        .string name ∈ names → (fields.lookup name).isSome) := by
    cases hlookup : object.lookup "required" with
    | none => exact decides_ok.of_iff ⟨fun _ _ _ hnone => (by cases hnone), fun _ => trivial⟩
    | some v =>
      obtain ⟨names, rfl, hstrings⟩ := hc.required htype v hlookup
      have hloop : Decides (forAllOk (instanceRequired fields path) names)
          (∀ required ∈ names, ∀ name, required = .string name → (fields.lookup name).isSome) :=
        decides_forAllOk fun required hmem => by
          obtain ⟨name, rfl⟩ := hstrings required hmem
          refine (instanceRequired_decides fields path name).of_iff ?_
          exact ⟨fun h _ heq => by cases heq; exact h, fun h => h name rfl⟩
      refine hloop.of_iff ⟨fun h _ name heq hmem => ?_, fun h required hmem name heq => ?_⟩
      · cases heq
        exact h _ hmem name rfl
      · exact h names name rfl (heq ▸ hmem)
  have hfields : Decides
      (forAllOk (instanceField recur declared
        (((object.lookup "additionalProperties").bind Value.asBool).getD true) path) fields)
      ((∀ declared name sub v, object.lookup "properties" = some (.object declared) →
          (name, v) ∈ fields → declared.lookup name = some sub → sat sub v)
        ∧ ∀ declared name v, object.lookup "properties" = some (.object declared) →
          object.lookup "additionalProperties" = some (.bool false) →
          (name, v) ∈ fields → (declared.lookup name).isSome) := by
    refine (decides_forAllOk fun field _ => instanceField_decides _ path field hsubs).of_iff ?_
    have hadditional : ((object.lookup "additionalProperties").bind Value.asBool).getD true = false
        ↔ object.lookup "additionalProperties" = some (.bool false) := by
      cases hlookup : object.lookup "additionalProperties" with
      | none => simp
      | some v =>
        obtain ⟨b, rfl⟩ := hc.additional htype v hlookup
        simp [Value.asBool]
    rw [hdeclared]
    constructor
    · intro h
      refine ⟨fun _ name sub v heq hv => ?_, fun _ name v heq hfalse hv => ?_⟩
      · cases heq
        exact (h (name, v) hv).1 sub
      · cases heq
        exact (h (name, v) hv).2 (hadditional.mpr hfalse)
    · rintro ⟨hsat, hknown⟩ ⟨name, v⟩ hv
      exact ⟨fun sub hsub => hsat declared name sub v rfl hv hsub,
        fun hfalse => hknown declared name v rfl (hadditional.mp hfalse) hv⟩
  simp only [instanceObject, asObject, expect, ok_bind, hdeclared, bind_some]
  refine (hrequired.seq fun _ => hfields).of_iff ?_
  exact ⟨fun h => ⟨h.1, h.2.1, h.2.2⟩, fun h => ⟨h.required, h.properties, h.additional⟩⟩

theorem instanceArray_decides (hc : Checked accepted object)
    (htype : object.lookup "type" = some (.string "array")) (elements : List Value) (path : String)
    (hrec : ∀ sub, depth sub < depth (.object object) → accepted sub →
      ∀ v p, Decides (recur sub v p) (sat sub v)) :
    Decides (instanceArray recur object (.array elements) path)
      (∀ sub v, object.lookup "items" = some sub → v ∈ elements → sat sub v) := by
  obtain ⟨items, hitems, haccepted⟩ := hc.items htype
  simp only [instanceArray, hitems, expect, Value.asArray, ok_bind]
  have hloop : Decides
      (forAllOk (fun element : Value × Nat =>
        recur items element.1 (path ++ "[" ++ toString element.2 ++ "]")) elements.zipIdx)
      (∀ element ∈ elements.zipIdx, sat items element.1) :=
    decides_forAllOk fun element _ =>
      hrec items (depth_lookup_lt hitems) haccepted element.1 _
  refine hloop.of_iff ⟨fun h sub v heq hv => ?_, fun h element hmem => ?_⟩
  · cases heq
    obtain ⟨i, hi⟩ := mem_iff_getElem?.mp hv
    exact h (v, i) (mem_zipIdx_iff_getElem?.mpr hi)
  · exact h items element.1 rfl (fst_mem_of_mem_zipIdx hmem)

/-- The keywords that depend on the kind of the value. -/
structure KindKeywords (sat : Value → Value → Prop) (object : Fields) (value : Value) : Prop where
  ofObject : ∀ fields, value = .object fields → ObjectKeywords sat object fields
  ofArray : ∀ elements, value = .array elements →
    ∀ sub v, object.lookup "items" = some sub → v ∈ elements → sat sub v

/-- The keywords that apply to a value, in the order of the check. -/
theorem keywords_iff {value : Value} : Keywords sat (.object object) value ↔
    (∀ options, object.lookup "oneOf" = some (.array options) →
        ExactlyOne (fun option => sat option value) options)
      ∧ (∀ typeName, object.lookup "type" = some (.string typeName) → HasType value typeName)
      ∧ (∀ values, object.lookup "enum" = some (.array values) → value ∈ values)
      ∧ KindKeywords sat object value := by
  constructor
  · intro h
    refine ⟨h.oneOf, h.type, h.enum, fun fields hvalue => ⟨?_, ?_, ?_⟩, fun elements hvalue => ?_⟩
    · exact fun names name hget hmem => h.required names name fields hget hmem hvalue
    · exact fun declared name sub v hget hv hsub =>
        h.properties declared fields name sub v hget hvalue hv hsub
    · exact fun declared name v hget hfalse hv =>
        h.additional declared fields name v hget hfalse hvalue hv
    · exact fun sub v hget hv => h.items sub elements v hget hvalue hv
  · rintro ⟨honeOf, htype, henum, hkind⟩
    exact {
      type := htype
      enum := henum
      oneOf := honeOf
      required := fun names name fields hget hmem hvalue =>
        (hkind.ofObject fields hvalue).required names name hget hmem
      properties := fun declared fields name sub v hget hvalue hv hsub =>
        (hkind.ofObject fields hvalue).properties declared name sub v hget hv hsub
      additional := fun declared fields name v hget hfalse hvalue hv =>
        (hkind.ofObject fields hvalue).additional declared name v hget hfalse hv
      items := fun sub elements v hget hvalue hv =>
        hkind.ofArray elements hvalue sub v hget hv }

/-- The keywords of a kind are decided. -/
theorem instanceKind_decides (hc : Checked accepted object) (value : Value) (path : String)
    (htype : ∀ typeName, object.lookup "type" = some (.string typeName) → HasType value typeName)
    (hrec : ∀ sub, depth sub < depth (.object object) → accepted sub →
      ∀ v p, Decides (recur sub v p) (sat sub v)) :
    Decides (match (object.lookup "type").bind Value.asStr with
      | some "object" => instanceObject recur object value path
      | some "array" => instanceArray recur object value path
      | _ => .ok ()) (KindKeywords sat object value) := by
  have hname : ∀ typeName, (object.lookup "type").bind Value.asStr = some typeName →
      object.lookup "type" = some (.string typeName) := by
    intro typeName h
    obtain ⟨v, hv, hstr⟩ := bind_eq_some_iff.mp h
    obtain ⟨_, rfl⟩ := hc.type v hv
    rw [hv]
    cases hstr
    rfl
  split
  · rename_i h
    have hobject := hname "object" h
    obtain ⟨fields, rfl⟩ := (htype "object" hobject).eq_object
    refine (instanceObject_decides hc hobject fields path hrec).of_iff ?_
    exact ⟨fun h => ⟨fun _ heq => (by cases heq; exact h), nofun⟩,
      fun h => h.ofObject fields rfl⟩
  · rename_i h
    have harray := hname "array" h
    obtain ⟨elements, rfl⟩ := (htype "array" harray).eq_array
    refine (instanceArray_decides hc harray elements path hrec).of_iff ?_
    exact ⟨fun h => ⟨nofun, fun _ heq => (by cases heq; exact h)⟩,
      fun h => h.ofArray elements rfl⟩
  · -- a schema of neither kind has none of these keywords
    rename_i hobject harray
    have hnone := hc.nowhere fun typeName heq => by
      refine ⟨?_, ?_⟩
      · rintro rfl
        exact hobject (by rw [heq]; rfl)
      · rintro rfl
        exact harray (by rw [heq]; rfl)
    have hproperties := hnone "properties" (by decide)
    have hrequired := hnone "required" (by decide)
    have hitems := hnone "items" (by decide)
    refine decides_ok.of_iff ⟨fun _ => ⟨fun fields _ => ⟨?_, ?_, ?_⟩, ?_⟩, fun _ => trivial⟩
    · exact fun _ _ heq => (by rw [hrequired] at heq; cases heq)
    · exact fun _ _ _ _ heq => (by rw [hproperties] at heq; cases heq)
    · exact fun _ _ _ heq => (by rw [hproperties] at heq; cases heq)
    · exact fun _ _ _ _ heq => (by rw [hitems] at heq; cases heq)

/-- One level of the argument check decides the keywords of its schema,
where the recursive call decides those of the sub-schemas. -/
theorem instanceLevel_decides (hc : Checked accepted object) (value : Value) (path : String)
    (hrec : ∀ sub, depth sub < depth (.object object) → accepted sub →
      ∀ v p, Decides (recur sub v p) (sat sub v)) :
    Decides (instanceLevel recur (.object object) value path)
      (Keywords sat (.object object) value) := by
  rw [keywords_iff]
  exact (instanceOneOf_decides hc value path hrec).seq fun _ =>
    (instanceType_decides hc value path).seq fun htype =>
      (instanceEnum_decides hc value path).seq fun _ =>
        instanceKind_decides hc value path htype hrec

end Level

/-! ## Every level -/

theorem validateInstance_decides (h : Accepted T schema) (value : Value) (path : String) :
    Decides (validateInstance schema value path) (Satisfies schema value) := by
  suffices hall : ∀ n schema, depth schema < n → Accepted T schema → ∀ value path,
      Decides (validateInstance schema value path) (Satisfies schema value) from
    hall _ schema (lt_succ_self _) h value path
  intro n
  induction n with
  | zero => exact fun _ hn => absurd hn (Nat.not_lt_zero _)
  | succ n ih =>
    intro schema hn h value path
    obtain ⟨_, rfl, hc⟩ := h.checked
    rw [validateInstance_eq, satisfies_iff]
    exact instanceLevel_decides hc value path fun sub hsub haccepted =>
      ih sub (lt_of_lt_of_le hsub (Nat.le_of_lt_succ hn)) haccepted

/-- For every schema `validate_schema` accepts and every value,
`validate_instance` ends without a panic and accepts the value exactly when
it satisfies the schema. -/
theorem validateInstance_exact (T : Texts) {schema : Value} {schemaPath : String}
    (h : validateSchema T schema schemaPath = .ok ()) (value : Value) (path : String) :
    (∀ message, validateInstance schema value path ≠ .error (.panicked message))
      ∧ (validateInstance schema value path = .ok () ↔ Satisfies schema value) :=
  have hdecides := validateInstance_decides ⟨schemaPath, h⟩ value path
  ⟨hdecides.ne_panicked, hdecides.iff⟩

/-- A schema with every keyword but `description`: an edit of lines, or a
note. -/
def sampleSchema : Value :=
  .object [("oneOf", .array
    [ .object
        [ ("additionalProperties", .bool false)
        , ("properties", .object
            [ ("lines", .object
                [("items", .object [("type", .string "integer")]), ("type", .string "array")])
            , ("mode", .object
                [("enum", .array [.string "cut", .string "keep"]), ("type", .string "string")]) ])
        , ("required", .array [.string "lines"]), ("type", .string "object") ]
    , .object [("type", .string "string")] ])]

theorem validateInstance_exact_sampleSchema :
    validateInstance sampleSchema
        (.object [("lines", .array [.ofNat 1, .ofNat 2]), ("mode", .string "cut")]) "$" = .ok ()
      ∧ Satisfies sampleSchema
        (.object [("lines", .array [.ofNat 1, .ofNat 2]), ("mode", .string "cut")])
      ∧ ¬ Satisfies sampleSchema (.object [("lines", .array [.string "1"])]) := by
  have hschema : validateSchema ⟨id, fun _ => ""⟩ sampleSchema "$" = .ok () := by decide
  have hgood : validateInstance sampleSchema
      (.object [("lines", .array [.ofNat 1, .ofNat 2]), ("mode", .string "cut")]) "$" = .ok () := by
    decide
  refine ⟨hgood, (validateInstance_exact _ hschema _ "$").2.mp hgood, fun hbad => ?_⟩
  exact absurd ((validateInstance_exact _ hschema _ "$").2.mpr hbad) (by decide)

end Tessivum.Tools
