/-
Tessivum.Tools.Schema — the schemas of tool arguments: the check a definition
passes when it is registered, and the check of the arguments of a call
(`validate_schema` and `validate_instance` of `src/tools.rs`).

A schema is a JSON value of a small subset of JSON Schema. `validate_schema`
accepts the schemas the runtime can work with; `validate_instance` then reads a
schema without looking back, and where a keyword is not as `validate_schema`
would have demanded it panics. A panic is an outcome of its own here, so that
its absence can be stated.

Two texts of the standard library only appear in error messages and are
parameters: the `{:?}` form of a string and the JSON text of a value.
-/
import Tessivum.Library.Keyed
import Tessivum.Library.Levels
import Tessivum.Protocol.Message

namespace Tessivum.Tools

open Library Protocol

/-- The texts error messages quote: `{:?}` of a string, and a value as
`Display` prints it. -/
structure Texts where
  debug : String → String
  display : Value → String

/-! ## JSON values -/

/-- The fields of an object (`serde_json::Map`). -/
abbrev Fields : Type := List (String × Value)

def asObject : Value → Option Fields
  | .object fields => some fields
  | _ => none

mutual
def depth : Value → Nat
  | .array items => depthItems items + 1
  | .object fields => depthFields fields + 1
  | _ => 0

def depthItems : List Value → Nat
  | [] => 0
  | v :: rest => max (depth v) (depthItems rest)

def depthFields : Fields → Nat
  | [] => 0
  | (_, v) :: rest => max (depth v) (depthFields rest)
end

variable {v : Value} {k : String} {fields : Fields}

theorem depth_le_of_mem_items : ∀ {items : List Value}, v ∈ items → depth v ≤ depthItems items
  | w :: rest, h => by
    rw [depthItems]
    rcases mem_cons.mp h with rfl | h
    · exact Nat.le_max_left _ _
    · exact le_trans (depth_le_of_mem_items h) (Nat.le_max_right _ _)

theorem depth_le_of_mem_fields : ∀ {fields : Fields},
    (k, v) ∈ fields → depth v ≤ depthFields fields
  | (l, w) :: rest, h => by
    rw [depthFields]
    rcases mem_cons.mp h with heq | h
    · cases heq
      exact Nat.le_max_left _ _
    · exact le_trans (depth_le_of_mem_fields h) (Nat.le_max_right _ _)

theorem depth_item_lt {items : List Value} (h : v ∈ items) : depth v < depth (.array items) := by
  rw [depth]
  exact Nat.lt_succ_of_le (depth_le_of_mem_items h)

theorem depth_field_lt (h : (k, v) ∈ fields) : depth v < depth (.object fields) := by
  rw [depth]
  exact Nat.lt_succ_of_le (depth_le_of_mem_fields h)

theorem depth_lookup_lt (h : fields.lookup k = some v) : depth v < depth (.object fields) :=
  depth_field_lt (Keyed.mem_of_lookup h)

/-! ## Errors -/

def toolError (code message : String) (details : Value) : TessivumError :=
  { code, message, phase := "tools", details }

def schemaError (path message : String) : TessivumError :=
  toolError "INVALID_TOOL_SCHEMA" message (.object [("path", .string path)])

def argumentError (path message : String) : TessivumError :=
  toolError "INVALID_TOOL_ARGUMENTS" message (.object [("path", .string path)])

/-! ## Types -/

def isSupportedType (value : String) : Bool :=
  ["object", "array", "string", "number", "integer", "boolean", "null"].contains value

/-- `value_has_type`. A number is an integer when `as_i64` or `as_u64`
answers, that is unless it is a float. -/
def valueHasType (value : Value) (typeName : String) : Bool :=
  match typeName, value with
  | "object", .object _ => true
  | "array", .array _ => true
  | "string", .string _ => true
  | "number", .number _ => true
  | "integer", .number (.posInt _) => true
  | "integer", .number (.negInt _) => true
  | "boolean", .bool _ => true
  | "null", .null => true
  | _, _ => false

/-! ## The schema check -/

def schemaKeywords : List String :=
  ["type", "properties", "required", "additionalProperties", "items", "enum", "oneOf",
    "description"]

variable (object : Fields)

/-- The `type` of a schema: absent, or a supported one. -/
def schemaType (path : String) : Except TessivumError (Option String) :=
  match object.lookup "type" with
  | some (.string value) =>
    if isSupportedType value then .ok (some value)
    else .error (schemaError path "type is not supported")
  | some _ => .error (schemaError path "type must be a string")
  | none => .ok none

def checkKeywords (T : Texts) (object : Fields) (path : String) : Except TessivumError Unit :=
  forAllOk (fun field : String × Value =>
    failIf (!schemaKeywords.contains field.1)
      (schemaError path ("unsupported keyword " ++ T.debug field.1))) object

def checkDescription (path : String) : Except TessivumError Unit :=
  match object.lookup "description" with
  | some (.string _) | none => .ok ()
  | some _ => .error (schemaError path "description must be a string")

variable (recur : Value → String → Except TessivumError Unit)

/-- The options of a `oneOf`, each a schema. -/
def checkOneOf (object : Fields) (path : String) : Except TessivumError Unit :=
  match object.lookup "oneOf" with
  | some (.array options) => do
    failIf options.isEmpty (schemaError path "oneOf must not be empty")
    forAllOk (fun option : Value × Nat =>
      recur option.1 (path ++ ".oneOf[" ++ toString option.2 ++ "]")) options.zipIdx
  | some _ => .error (schemaError path "oneOf must be an array")
  | none => .ok ()

/-- The values of an `enum`, of the schema's type where it has one. -/
def checkEnum (typeName : Option String) (path : String) : Except TessivumError Unit :=
  match object.lookup "enum" with
  | some (.array values) => do
    failIf values.isEmpty (schemaError path "enum must not be empty")
    forAllOk (fun value => failIf (typeName.any fun typeName => !valueHasType value typeName)
      (schemaError path "enum value does not match type")) values
  | some _ => .error (schemaError path "enum must be an array")
  | none => .ok ()

/-- The entries of `required`: strings, unique, and declared. `seen` are
the names already read. -/
def checkRequired (properties : Fields) (path : String) :
    List String → List Value → Except TessivumError Unit
  | _, [] => .ok ()
  | seen, .string name :: rest => do
    failIf (seen.contains name) (schemaError path "required entries must be unique")
    failIf (properties.lookup name).isNone
      (schemaError path "required property is not declared")
    checkRequired properties path (name :: seen) rest
  | _, _ :: _ => .error (schemaError path "required entries must be strings")

/-- The `required` keyword of an object schema. -/
def checkRequiredKeyword (object properties : Fields) (path : String) :
    Except TessivumError Unit :=
  match object.lookup "required" with
  | some (.array required) => checkRequired properties path [] required
  | some _ => .error (schemaError path "required must be an array")
  | none => .ok ()

def checkAdditional (path : String) : Except TessivumError Unit :=
  match object.lookup "additionalProperties" with
  | some (.bool _) | none => .ok ()
  | some _ => .error (schemaError path "additionalProperties must be a boolean")

def validateObjectSchema (object : Fields) (path : String) : Except TessivumError Unit :=
  match object.lookup "properties" with
  | some (.object properties) => do
    forAllOk (fun field : String × Value =>
      recur field.2 (path ++ ".properties." ++ field.1)) properties
    checkRequiredKeyword object properties path
    checkAdditional object path
  | some _ => .error (schemaError path "properties must be an object")
  | none => .error (schemaError path "object schemas require properties")

def validateArraySchema (object : Fields) (path : String) : Except TessivumError Unit :=
  match object.lookup "items" with
  | some items => recur items (path ++ ".items")
  | none => .error (schemaError path "array schemas require items")

def checkNotHere (path : String) : Except TessivumError Unit :=
  forAllOk (fun key => failIf (object.lookup key).isSome
    (schemaError path (key ++ " is not valid here")))
    ["properties", "required", "additionalProperties", "items"]

/-- One level of `validate_schema`. -/
def schemaLevel (T : Texts) (recur : Value → String → Except TessivumError Unit)
    (schema : Value) (path : String) : Except TessivumError Unit :=
  match schema with
  | .object object => do
    checkKeywords T object path
    checkDescription object path
    let typeName ← schemaType object path
    failIf (typeName.isNone ∧ (object.lookup "oneOf").isNone)
      (schemaError path "schema requires type or oneOf")
    checkOneOf recur object path
    checkEnum object typeName path
    match typeName with
    | some "object" => validateObjectSchema recur object path
    | some "array" => validateArraySchema recur object path
    | _ => checkNotHere object path
  | _ => .error (schemaError path "schema must be an object")

/-- `validate_schema`. The bottom is never reached. -/
def validateSchema (T : Texts) : Value → String → Except TessivumError Unit :=
  tied depth (fun _ path => .error (schemaError path "")) (schemaLevel T)

/-! ## The argument check -/

/-- How a computation stops before its result: an error the caller gets,
or a panic. -/
inductive Fault where
  | error (error : TessivumError)
  | panicked (message : String)
  deriving DecidableEq, Repr

def expect {α : Type} (x : Option α) (message : String) : Except Fault α :=
  match x with
  | some a => .ok a
  | none => .error (.panicked message)

/-- Return an error when `c` holds. -/
def refuseIf (c : Prop) [Decidable c] (error : TessivumError) : Except Fault Unit :=
  failIf c (.error error)

/-- How many options a check accepts: a refusal is not counted, a panic
unwinds. -/
def countMatching (check : Value → Except Fault Unit) : List Value → Except Fault Nat
  | [] => .ok 0
  | option :: rest =>
    match check option with
    | .ok () => do
      let matched ← countMatching check rest
      .ok (matched + 1)
    | .error (.error _) => countMatching check rest
    | .error (.panicked message) => .error (.panicked message)

/-- The recursive call of `validate_instance`. -/
abbrev InstanceCheck : Type := Value → Value → String → Except Fault Unit

def instanceOneOf (recur : InstanceCheck) (object : Fields) (value : Value) (path : String) :
    Except Fault Unit :=
  match (object.lookup "oneOf").bind Value.asArray with
  | some options => do
    let matched ← countMatching (fun option => recur option value path) options
    refuseIf (matched ≠ 1) (argumentError path "value must match exactly one oneOf option")
  | none => .ok ()

def instanceType (value : Value) (path : String) : Except Fault Unit :=
  match (object.lookup "type").bind Value.asStr with
  | some typeName => refuseIf (valueHasType value typeName = false)
      (argumentError path ("expected " ++ typeName))
  | none => .ok ()

def instanceEnum (value : Value) (path : String) : Except Fault Unit :=
  match (object.lookup "enum").bind Value.asArray with
  | some values => refuseIf (value ∉ values) (argumentError path "value is not in enum")
  | none => .ok ()

/-- One entry of `required`. -/
def instanceRequired (fields : Fields) (path : String) (required : Value) : Except Fault Unit := do
  let name ← expect required.asStr "registered required entries are strings"
  refuseIf (fields.lookup name).isNone (argumentError (path ++ "." ++ name) "property is required")

def instanceField (recur : InstanceCheck) (properties : Fields) (additional : Bool)
    (path : String) (field : String × Value) : Except Fault Unit :=
  match properties.lookup field.1 with
  | some schema => recur schema field.2 (path ++ "." ++ field.1)
  | none => refuseIf (additional = false)
      (argumentError (path ++ "." ++ field.1) "additional property is not allowed")

def instanceObject (recur : InstanceCheck) (object : Fields) (value : Value) (path : String) :
    Except Fault Unit := do
  let fields ← expect (asObject value) "object values passed the type validation"
  let properties ← expect ((object.lookup "properties").bind asObject)
    "registered object schemas have properties"
  forAllOk (instanceRequired fields path)
    (((object.lookup "required").bind Value.asArray).getD [])
  let additional := ((object.lookup "additionalProperties").bind Value.asBool).getD true
  forAllOk (instanceField recur properties additional path) fields

def instanceArray (recur : InstanceCheck) (object : Fields) (value : Value) (path : String) :
    Except Fault Unit := do
  let items ← expect (object.lookup "items") "registered array schemas have items"
  let elements ← expect value.asArray "array values passed the type validation"
  forAllOk (fun element : Value × Nat =>
    recur items element.1 (path ++ "[" ++ toString element.2 ++ "]")) elements.zipIdx

/-- One level of `validate_instance`. -/
def instanceLevel (recur : InstanceCheck) (schema value : Value) (path : String) :
    Except Fault Unit := do
  let object ← expect (asObject schema) "registered schemas are validated as objects"
  instanceOneOf recur object value path
  instanceType object value path
  instanceEnum object value path
  match (object.lookup "type").bind Value.asStr with
  | some "object" => instanceObject recur object value path
  | some "array" => instanceArray recur object value path
  | _ => .ok ()

/-- `validate_instance`. The bottom is never reached. -/
def validateInstance : InstanceCheck :=
  tied depth (fun _ _ _ => .error (.panicked "")) instanceLevel

/-! ## The recursions close -/

theorem forAllOk_congr {ε α : Type} {f g : α → Except ε Unit} : ∀ {xs : List α},
    (∀ x ∈ xs, f x = g x) → forAllOk f xs = forAllOk g xs
  | [], _ => rfl
  | x :: rest, h => by
    rw [forAllOk, forAllOk, h x mem_cons_self,
      forAllOk_congr fun y hy => h y (mem_cons_of_mem x hy)]

theorem countMatching_congr {f g : Value → Except Fault Unit} : ∀ {options : List Value},
    (∀ option ∈ options, f option = g option) → countMatching f options = countMatching g options
  | [], _ => rfl
  | option :: rest, h => by
    rw [countMatching, countMatching, h option mem_cons_self,
      countMatching_congr fun o ho => h o (mem_cons_of_mem option ho)]

/-- The check of a schema only goes down to its parts. -/
theorem schemaLevel_descends (T : Texts) : Descends depth (schemaLevel T) := by
  intro f g schema h
  funext path
  cases schema with
  | object object =>
    have honeOf : checkOneOf f object path = checkOneOf g object path := by
      unfold checkOneOf
      split
      · rename_i options hlookup
        congr 1
        funext _
        refine forAllOk_congr fun option hoption => ?_
        have hmem : option.1 ∈ options := List.fst_mem_of_mem_zipIdx hoption
        rw [h option.1 ((depth_item_lt hmem).trans (depth_lookup_lt hlookup))]
      · rfl
      · rfl
    have hobject : validateObjectSchema f object path = validateObjectSchema g object path := by
      unfold validateObjectSchema
      split
      · rename_i hlookup
        congr 1
        refine forAllOk_congr fun field hfield => ?_
        rw [h field.2 ((depth_field_lt hfield).trans (depth_lookup_lt hlookup))]
      · rfl
      · rfl
    have harray : validateArraySchema f object path = validateArraySchema g object path := by
      unfold validateArraySchema
      split
      · rename_i items hlookup
        rw [h items (depth_lookup_lt hlookup)]
      · rfl
    simp only [schemaLevel, honeOf, hobject, harray]
  | _ => rfl

/-- The check of arguments only goes down to the parts of the schema. -/
theorem instanceLevel_descends : Descends depth instanceLevel := by
  intro f g schema h
  funext value path
  cases schema with
  | object object =>
    have honeOf : instanceOneOf f object value path = instanceOneOf g object value path := by
      unfold instanceOneOf
      cases hlookup : object.lookup "oneOf" with
      | none => rfl
      | some oneOf =>
        cases oneOf with
        | array options =>
          have hcount : countMatching (fun option => f option value path) options
              = countMatching (fun option => g option value path) options :=
            countMatching_congr fun option hoption => by
              rw [h option ((depth_item_lt hoption).trans (depth_lookup_lt hlookup))]
          simp only [bind_some, Value.asArray, hcount]
        | _ => rfl
    have hobject : instanceObject f object value path = instanceObject g object value path := by
      unfold instanceObject
      cases hlookup : object.lookup "properties" with
      | none => rfl
      | some declared =>
        cases declared with
        | object properties =>
          have hfields : ∀ (additional : Bool) (fields : Fields),
              forAllOk (instanceField f properties additional path) fields
                = forAllOk (instanceField g properties additional path) fields := by
            intro additional fields
            refine forAllOk_congr fun field _ => ?_
            unfold instanceField
            split
            · rename_i sub hsub
              rw [h sub ((depth_lookup_lt hsub).trans (depth_lookup_lt hlookup))]
            · rfl
          simp only [hfields, bind_some, asObject, expect, ok_bind]
        | _ => rfl
    have harray : instanceArray f object value path = instanceArray g object value path := by
      unfold instanceArray
      cases hlookup : object.lookup "items" with
      | none => rfl
      | some items =>
        have hitems : f items = g items := h items (depth_lookup_lt hlookup)
        simp only [hitems, expect, ok_bind]
    simp only [instanceLevel, asObject, expect, ok_bind, honeOf, hobject, harray]
  | _ => rfl

theorem validateSchema_eq (T : Texts) (schema : Value) :
    validateSchema T schema = schemaLevel T (validateSchema T) schema :=
  tied_eq (schemaLevel_descends T) schema

theorem validateInstance_eq (schema : Value) :
    validateInstance schema = instanceLevel validateInstance schema :=
  tied_eq instanceLevel_descends schema

end Tessivum.Tools
