/-
Tessivum.Protocol.Value — JSON values as the protocol handles them in memory
(`serde_json::Value`), with the accessors the session, goal and inbox code
reads event payloads through.

A JSON number is kept the way `serde_json::Number` keeps it: a non-negative
integer, a negative integer or a finite binary float. Finite floats are carried
by their numeric value, so that `0.0` and `-0.0` are equal here as they are
under the source's `PartialEq`.

An object is the list of its fields in map order. No function of the model
builds an object with a repeated key.
-/
import Mathlib

namespace Tessivum.Protocol

inductive Number where
  | posInt (n : Nat)
  | negInt (n : Int)
  | float (q : Rat)
  deriving DecidableEq, Repr

inductive Value where
  | null
  | bool (b : Bool)
  | number (n : Number)
  | string (s : String)
  | array (items : List Value)
  | object (fields : List (String × Value))
  deriving Repr, Inhabited

namespace Value

/-! ## Decidable equality

The type nests through lists, so the equality test is written out and
proved rather than derived. -/

mutual
def beq : Value → Value → Bool
  | .null, .null => true
  | .bool a, .bool b => a == b
  | .number a, .number b => a == b
  | .string a, .string b => a == b
  | .array a, .array b => beqItems a b
  | .object a, .object b => beqFields a b
  | _, _ => false

def beqItems : List Value → List Value → Bool
  | [], [] => true
  | a :: as, b :: bs => beq a b && beqItems as bs
  | _, _ => false

def beqFields : List (String × Value) → List (String × Value) → Bool
  | [], [] => true
  | (k, a) :: as, (l, b) :: bs => k == l && beq a b && beqFields as bs
  | _, _ => false
end

mutual
/-- The comparison of values is equality. -/
theorem beq_iff : ∀ a b : Value, beq a b = true ↔ a = b
  | .null, b | .bool a, b | .number a, b | .string a, b => by cases b <;> simp [beq]
  | .array a, b => by
    cases b with
    | array b => simpa [beq] using beqItems_iff a b
    | _ => simp [beq]
  | .object a, b => by
    cases b with
    | object b => simpa [beq] using beqFields_iff a b
    | _ => simp [beq]

theorem beqItems_iff : ∀ as bs : List Value, beqItems as bs = true ↔ as = bs
  | [], bs => by cases bs <;> simp [beqItems]
  | a :: as, bs => by
    cases bs with
    | nil => simp [beqItems]
    | cons b bs =>
      rw [beqItems, Bool.and_eq_true, beq_iff a b, beqItems_iff as bs, List.cons.injEq]

theorem beqFields_iff : ∀ as bs : List (String × Value), beqFields as bs = true ↔ as = bs
  | [], bs => by cases bs <;> simp [beqFields]
  | (k, a) :: as, bs => by
    cases bs with
    | nil => simp [beqFields]
    | cons b bs =>
      obtain ⟨l, b⟩ := b
      rw [beqFields, Bool.and_eq_true, Bool.and_eq_true, beq_iff_eq, beq_iff a b,
        beqFields_iff as bs, List.cons.injEq, Prod.mk.injEq]
end

instance : DecidableEq Value := fun a b => decidable_of_iff _ (beq_iff a b)

/-! ## Accessors -/

/-- `Value::get` with a string index: a field of an object, nothing of
any other value. -/
def get (v : Value) (key : String) : Option Value :=
  match v with
  | .object fields => fields.lookup key
  | _ => none

/-- `Value::as_u64`. -/
def asU64 : Value → Option Nat
  | .number (.posInt n) => some n
  | _ => none

def asStr : Value → Option String
  | .string s => some s
  | _ => none

def asBool : Value → Option Bool
  | .bool b => some b
  | _ => none

/-- `Map::remove` of one key of an object. -/
def remove (v : Value) (key : String) : Value :=
  match v with
  | .object fields => .object (fields.filter fun field => field.1 != key)
  | v => v

def asArray : Value → Option (List Value)
  | .array items => some items
  | _ => none

/-- A natural number as `json!` embeds a `u64`. -/
def ofNat (n : Nat) : Value := .number (.posInt n)

/-- An optional `u64` as `json!` embeds it. -/
def ofOptNat : Option Nat → Value
  | none => .null
  | some n => ofNat n

@[simp] theorem get_object (fields : List (String × Value)) (key : String) :
    (Value.object fields).get key = fields.lookup key := rfl

@[simp] theorem asU64_ofNat (n : Nat) : (ofNat n).asU64 = some n := rfl

@[simp] theorem asStr_string (s : String) : (Value.string s).asStr = some s := rfl

@[simp] theorem asArray_array (items : List Value) :
    (Value.array items).asArray = some items := rfl

end Value

end Tessivum.Protocol
