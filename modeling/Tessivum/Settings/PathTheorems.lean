/-
Tessivum.Settings.PathTheorems — what the operations on a document do to the
members of its objects and the elements of its arrays.

A document is an ordered map all the way down (`Ordered`), so an object is what
it answers to lookups, and an array what stands at its indices. §1 describes
`merge` by lookups, §2 `removeAtPath` by lookups and indices; §3 says that
removals may be repeated and exchanged, and §4 what is read after them.
-/
import Tessivum.Library.Keyed
import Tessivum.Settings.Service

namespace Tessivum.Settings

open Library Library.OrderedMap Protocol List

/-- The fields of every object stand in the order of their names, each name
once, as in the map of the source. -/
inductive Ordered : Value → Prop
  | null : Ordered .null
  | bool (b : Bool) : Ordered (.bool b)
  | number (n : Number) : Ordered (.number n)
  | string (s : String) : Ordered (.string s)
  | array {items : List Value} (values : ∀ v ∈ items, Ordered v) : Ordered (.array items)
  | object {fields : List (String × Value)} (ascending : Ascending fields)
      (values : ∀ x ∈ fields, Ordered x.2) : Ordered (.object fields)

variable {fields : List (String × Value)} {value left right : Value} {path : SettingPath}

theorem Ordered.ascending (h : Ordered (.object fields)) : Ascending fields := by
  cases h with
  | object hasc _ => exact hasc

theorem Ordered.of_values (h : Ordered (.object fields)) : ∀ x ∈ fields, Ordered x.2 := by
  cases h with
  | object _ hvalues => exact hvalues

theorem Ordered.of_lookup (h : Ordered (.object fields)) {key : String}
    (hlook : fields.lookup key = some value) : Ordered value :=
  h.of_values _ (Keyed.mem_of_lookup hlook)

theorem insertField_eq (fields : List (String × Value)) (key : String) (value : Value) :
    insertField fields key value = OrderedMap.insert key value fields := by
  induction fields with
  | nil => rfl
  | cons x rest ih =>
    obtain ⟨k, v⟩ := x
    rw [insertField, OrderedMap.insert, ih]

theorem lookup_insertField (fields : List (String × Value)) (key other : String) (value : Value) :
    (insertField fields key value).lookup other =
      if other = key then some value else fields.lookup other := by
  rw [insertField_eq, lookup_insert]

theorem Ordered.insertField (h : Ordered (.object fields)) (key : String) (hvalue : Ordered value) :
    Ordered (.object (insertField fields key value)) := by
  rw [insertField_eq]
  refine .object (h.ascending.insert key value) fun x hx => ?_
  rcases mem_insert hx with rfl | hx
  · exact hvalue
  · exact h.of_values x hx

/-! ## §1 Merging -/

def mergeField : Option Value → Option Value → Option Value
  | left, none => left
  | none, some right => some right
  | some left, some right => some (merge left right)

theorem merge_object (left right : List (String × Value)) :
    merge (.object left) (.object right) = .object (mergeFields left right) := by
  rw [merge]

theorem merge_eq_right (h : isObject left = false ∨ isObject right = false) :
    merge left right = right := by
  cases right with
  | object fields =>
    cases left with
    | object other => rcases h with h | h <;> cases h
    | _ => simp only [merge]
  | _ => simp only [merge]

theorem lookup_mergeFields (left : List (String × Value)) {right : List (String × Value)}
    (hright : Keyed.Distinct right) (key : String) :
    (mergeFields left right).lookup key = mergeField (left.lookup key) (right.lookup key) := by
  induction right generalizing left with
  | nil => simp [mergeFields, mergeField]
  | cons x rest ih =>
    obtain ⟨k, v⟩ := x
    obtain ⟨hnew, hrest⟩ := nodup_cons.mp hright
    rw [mergeFields, ih _ hrest, lookup_insertField, Keyed.lookup_cons]
    by_cases hk : key = k
    · subst hk
      rw [if_pos rfl, if_pos rfl, Keyed.lookup_eq_none.mpr hnew]
      cases left.lookup key <;> rfl
    · rw [if_neg hk, if_neg hk]

theorem merge_ordered (hl : Ordered left) (hr : Ordered right) : Ordered (merge left right) := by
  induction hr generalizing left with
  | null | bool b | number n | string s =>
    simp only [merge]
    constructor
  | array items _ => simpa only [merge] using Ordered.array items
  | @object right hasc hvalues ih =>
    cases hobject : isObject left with
    | false =>
      rw [merge_eq_right (.inl hobject)]
      exact .object hasc hvalues
    | true =>
      cases left with
      | object left =>
        rw [merge_object]
        clear hasc hobject
        induction right generalizing left with
        | nil => simpa only [mergeFields] using hl
        | cons x rest ihr =>
          obtain ⟨k, v⟩ := x
          rw [mergeFields]
          refine ihr (fun y hy => hvalues y (mem_cons_of_mem _ hy))
            (fun y hy => ih y (mem_cons_of_mem _ hy)) _ (hl.insertField k ?_)
          cases hlook : left.lookup k with
          | none => exact hvalues _ mem_cons_self
          | some old => exact ih _ mem_cons_self (hl.of_lookup hlook)
      | _ => cases hobject

/-! ## §2 Removing -/

def removeField (rest : SettingPath) : Option Value → Option Value
  | none => none
  | some value => if rest = [] then none else some (removeAtPath value rest)

def removeItem (rest : SettingPath) (value : Value) : Value :=
  if rest = [] then .null else removeAtPath value rest

def removeFields (fields : List (String × Value)) (member : String) (rest : SettingPath) :
    List (String × Value) :=
  match removeField rest (fields.lookup member) with
  | none => Keyed.without member fields
  | some value => insertField fields member value

variable (items : List Value)

def removeItems (member : String) (rest : SettingPath) : List Value :=
  match arrayIndex member with
  | none => items
  | some index => items.modify index (removeItem rest)

@[simp] theorem removeAtPath_nil (value : Value) : removeAtPath value [] = value := by
  rw [removeAtPath]

theorem removeAtPath_object (fields : List (String × Value)) (member : String)
    (rest : SettingPath) :
    removeAtPath (.object fields) (member :: rest) = .object (removeFields fields member rest) := by
  have hwithout : (fields.filter fun field => field.1 != member) = Keyed.without member fields := by
    rw [Keyed.without]
    congr 1
    funext field
    by_cases hfield : field.1 = member <;> simp [hfield]
  cases rest with
  | nil =>
    have hnone : removeField [] (fields.lookup member) = none := by
      cases fields.lookup member <;> rfl
    rw [removeAtPath, removeFields, hnone, hwithout]
  | cons next rest =>
    rw [removeAtPath, removeFields]
    cases hlook : fields.lookup member with
    | none =>
      rw [removeField]
      dsimp only
      rw [Keyed.without_of_not_mem (Keyed.lookup_eq_none.mp hlook)]
    | some child => rw [removeField, if_neg (cons_ne_nil _ _)]

/-- A removal inside an array is a removal in one of its items. -/
theorem removeAtPath_array (member : String) (rest : SettingPath) :
    removeAtPath (.array items) (member :: rest) = .array (removeItems items member rest) := by
  cases rest with
  | nil =>
    rw [removeAtPath, removeItems]
    cases arrayIndex member with
    | none => rfl
    | some index =>
      dsimp only
      congr 1
      apply ext_getElem?
      intro i
      rw [getElem?_modify, getElem?_set]
      by_cases hi : index = i
      · subst hi
        cases hitem : items[index]? with
        | none => simp [List.getElem?_eq_none_iff.mp hitem]
        | some item =>
          have hlt := (List.getElem?_eq_some_iff.mp hitem).1
          simp [hlt, removeItem]
      · cases items[i]? <;> simp [hi]
  | cons next rest =>
    rw [removeAtPath, removeItems]
    cases arrayIndex member with
    | none => rfl
    | some index =>
      dsimp only
      cases hitem : items[index]? with
      | none =>
        rw [modify_eq_self (List.getElem?_eq_none_iff.mp hitem)]
      | some item =>
        dsimp only
        congr 1
        apply ext_getElem?
        intro i
        rw [getElem?_modify, getElem?_set]
        by_cases hi : index = i
        · subst hi
          have hlt := (List.getElem?_eq_some_iff.mp hitem).1
          have hget := (List.getElem?_eq_some_iff.mp hitem).2
          simp [hlt, hget, removeItem]
        · cases items[i]? <;> simp [hi]

theorem removeAtPath_scalar (hobject : isObject value = false) (harray : isArray value = false)
    (path : SettingPath) : removeAtPath value path = value := by
  cases path with
  | nil => exact removeAtPath_nil value
  | cons member rest =>
    cases value with
    | object fields => cases hobject
    | array items => cases harray
    | _ => cases rest <;> simp [removeAtPath]

theorem lookup_removeFields (fields : List (String × Value)) (member key : String)
    (rest : SettingPath) :
    (removeFields fields member rest).lookup key =
      if key = member then removeField rest (fields.lookup member) else fields.lookup key := by
  rw [removeFields]
  split
  next hnone => rw [Keyed.lookup_without, hnone]
  next value hsome => rw [lookup_insertField, hsome]

theorem getElem?_removeItems (member : String) (rest : SettingPath) (i : Nat) :
    (removeItems items member rest)[i]? =
      if arrayIndex member = some i then items[i]?.map (removeItem rest) else items[i]? := by
  rw [removeItems]
  cases arrayIndex member with
  | none => rw [if_neg (by simp)]
  | some index =>
    dsimp only
    rw [getElem?_modify]
    by_cases hi : index = i
    · subst hi
      cases items[index]? <;> simp
    · cases items[i]? <;> simp [hi]

/-! ## §3 Removals together -/

/-- A removal keeps the order of the keys. -/
theorem removeAtPath_ordered (path : SettingPath) (h : Ordered value) :
    Ordered (removeAtPath value path) := by
  induction path generalizing value with
  | nil => rwa [removeAtPath_nil]
  | cons member rest ih =>
    cases h with
    | @object fields hasc hvalues =>
      have hobject : Ordered (.object fields) := .object hasc hvalues
      rw [removeAtPath_object, removeFields]
      split
      next hnone =>
        exact .object (hasc.without member) fun x hx => hvalues x (Keyed.mem_without.mp hx).1
      next left hsome =>
        refine hobject.insertField member ?_
        cases hlook : fields.lookup member with
        | none => rw [hlook] at hsome; cases hsome
        | some old =>
          rw [hlook, removeField] at hsome
          split at hsome
          · cases hsome
          · cases hsome
            exact ih (hobject.of_lookup hlook)
    | @array items hitems =>
      rw [removeAtPath_array]
      refine .array fun v hv => ?_
      obtain ⟨i, hi⟩ := getElem?_of_mem hv
      rw [getElem?_removeItems] at hi
      split at hi
      · obtain ⟨old, hold, rfl⟩ := map_eq_some_iff.mp hi
        rw [removeItem]
        split
        · exact .null
        · exact ih (hitems old (mem_of_getElem? hold))
      · exact hitems v (mem_of_getElem? hi)
    | null | bool b | number n | string s =>
      rw [removeAtPath_scalar rfl rfl]
      constructor

theorem removeFields_ordered (h : Ordered (.object fields)) (member : String) (rest : SettingPath) :
    Ordered (.object (removeFields fields member rest)) := by
  rw [← removeAtPath_object]
  exact removeAtPath_ordered _ h

theorem removeItem_nil (value : Value) : removeItem [] value = .null := if_pos rfl

theorem removeItem_null (rest : SettingPath) : removeItem rest .null = .null := by
  rw [removeItem]
  split
  · rfl
  · exact removeAtPath_scalar rfl rfl rest

/-- Two removals commute. -/
theorem removeAtPath_comm (p q : SettingPath) (h : Ordered value) :
    removeAtPath (removeAtPath value q) p = removeAtPath (removeAtPath value p) q := by
  induction p generalizing value q with
  | nil => rw [removeAtPath_nil, removeAtPath_nil]
  | cons m p ih =>
    cases q with
    | nil => rw [removeAtPath_nil, removeAtPath_nil]
    | cons n q =>
      by_cases hscalar : isObject value = false ∧ isArray value = false
      · simp only [removeAtPath_scalar hscalar.1 hscalar.2]
      cases h with
      | @object fields hasc hvalues =>
        have hobject : Ordered (.object fields) := .object hasc hvalues
        simp only [removeAtPath_object]
        congr 1
        refine (removeFields_ordered (removeFields_ordered hobject n q) m p).ascending.ext
          (removeFields_ordered (removeFields_ordered hobject m p) n q).ascending
          fun key => ?_
        simp only [lookup_removeFields]
        -- the removals meet in one field
        have hmeet : ∀ k, removeField p (removeField q (fields.lookup k)) =
            removeField q (removeField p (fields.lookup k)) := by
          intro k
          cases hlook : fields.lookup k with
          | none => rfl
          | some old =>
            have hih := ih q (hobject.of_lookup hlook)
            simp only [removeField]
            by_cases hp : p = [] <;> by_cases hq : q = [] <;>
              simp [hp, hq]
            exact hih
        grind
      | @array items hitems =>
        simp only [removeAtPath_array]
        congr 1
        apply ext_getElem?
        intro i
        simp only [getElem?_removeItems]
        have hmeet : (items[i]?.map (removeItem q)).map (removeItem p) =
            (items[i]?.map (removeItem p)).map (removeItem q) := by
          cases hitem : items[i]? with
          | none => rfl
          | some old =>
            have hih := ih q (hitems old (mem_of_getElem? hitem))
            simp only [map_some, some.injEq]
            by_cases hp : p = []
            · rw [hp, removeItem_nil, removeItem_nil, removeItem_null]
            · by_cases hq : q = []
              · rw [hq, removeItem_nil, removeItem_nil, removeItem_null]
              · simpa only [removeItem, if_neg hp, if_neg hq] using hih
        grind
      | null | bool b | number n | string s => exact absurd ⟨rfl, rfl⟩ hscalar

/-- A removal done twice is done once. -/
theorem removeAtPath_idem (path : SettingPath) (h : Ordered value) :
    removeAtPath (removeAtPath value path) path = removeAtPath value path := by
  induction path generalizing value with
  | nil => rw [removeAtPath_nil]
  | cons member rest ih =>
    by_cases hscalar : isObject value = false ∧ isArray value = false
    · simp only [removeAtPath_scalar hscalar.1 hscalar.2]
    cases h with
    | @object fields hasc hvalues =>
      have hobject : Ordered (.object fields) := .object hasc hvalues
      simp only [removeAtPath_object]
      congr 1
      refine (removeFields_ordered (removeFields_ordered hobject member rest)
        member rest).ascending.ext (removeFields_ordered hobject member rest).ascending
        fun key => ?_
      simp only [lookup_removeFields]
      by_cases hkey : key = member
      · rw [if_pos hkey, if_pos trivial, if_pos hkey]
        cases hlook : fields.lookup member with
        | none => rfl
        | some old =>
          simp only [removeField]
          by_cases hrest : rest = []
          · simp [hrest]
          · simp [hrest, ih (hobject.of_lookup hlook)]
      · rw [if_neg hkey, if_neg hkey]
    | @array items hitems =>
      simp only [removeAtPath_array]
      congr 1
      apply ext_getElem?
      intro i
      simp only [getElem?_removeItems]
      by_cases hi : arrayIndex member = some i
      · rw [if_pos hi, if_pos hi]
        cases hitem : items[i]? with
        | none => rfl
        | some old =>
          simp only [map_some, some.injEq]
          by_cases hrest : rest = []
          · rw [hrest, removeItem_nil, removeItem_nil]
          · simpa only [removeItem, if_neg hrest] using
              ih (hitems old (mem_of_getElem? hitem))
      · rw [if_neg hi, if_neg hi]
    | null | bool b | number n | string s => exact absurd ⟨rfl, rfl⟩ hscalar

theorem isObject_removeAtPath (value : Value) (path : SettingPath) :
    isObject (removeAtPath value path) = isObject value := by
  cases path with
  | nil => rw [removeAtPath_nil]
  | cons member rest =>
    cases value with
    | object fields => rw [removeAtPath_object]; rfl
    | array items => rw [removeAtPath_array]; rfl
    | _ => rw [removeAtPath_scalar rfl rfl]

/-! ## §4 Reading -/

def readAt (value : Value) : SettingPath → Option Value
  | [] => some value
  | member :: rest => (child value member).bind fun current => readAt current rest

theorem readAt_append (value : Value) (path rest : SettingPath) :
    readAt value (path ++ rest) = (readAt value path).bind fun current => readAt current rest := by
  induction path generalizing value with
  | nil => rfl
  | cons member path ih =>
    rw [cons_append, readAt, readAt]
    cases child value member with
    | none => rfl
    | some current => exact ih current

@[simp] theorem child_object (fields : List (String × Value)) (member : String) :
    child (.object fields) member = fields.lookup member := rfl

@[simp] theorem child_array (member : String) :
    child (.array items) member = (arrayIndex member).bind fun index => items[index]? := rfl

theorem child_scalar (hobject : isObject value = false) (harray : isArray value = false)
    (member : String) : child value member = none := by
  cases value with
  | object fields => cases hobject
  | array items => cases harray
  | _ => rfl

def Blank (value : Value) (path : SettingPath) : Prop :=
  readAt value path = none ∨ readAt value path = some .null

theorem blank_null (path : SettingPath) : Blank .null path := by
  cases path with
  | nil => exact .inr rfl
  | cons member rest => exact .inl rfl

theorem Blank.append (h : Blank value path) (rest : SettingPath) : Blank value (path ++ rest) := by
  rw [Blank, readAt_append]
  rcases h with h | h
  · exact .inl (by rw [h]; rfl)
  · rw [h]
    exact blank_null rest

theorem blank_cons {member : String} {rest : SettingPath} :
    Blank value (member :: rest) ↔ ∀ current, child value member = some current →
      Blank current rest := by
  rw [Blank, readAt]
  cases child value member with
  | none => simp
  | some current => simp [Blank]

/-- After a removal there is nothing at the path. -/
theorem blank_removeAtPath (hpath : path ≠ []) (value : Value) :
    Blank (removeAtPath value path) path := by
  induction path generalizing value with
  | nil => exact absurd rfl hpath
  | cons member rest ih =>
    rw [blank_cons]
    intro current hcurrent
    cases value with
    | object fields =>
      rw [removeAtPath_object, child_object, lookup_removeFields, if_pos rfl] at hcurrent
      cases hlook : fields.lookup member with
      | none => rw [hlook] at hcurrent; cases hcurrent
      | some old =>
        rw [hlook, removeField] at hcurrent
        split at hcurrent
        · cases hcurrent
        next hrest =>
          cases hcurrent
          exact ih hrest old
    | array items =>
      rw [removeAtPath_array, child_array] at hcurrent
      obtain ⟨_, hindex, hitem⟩ := bind_eq_some_iff.mp hcurrent
      rw [getElem?_removeItems, if_pos hindex] at hitem
      obtain ⟨old, -, rfl⟩ := map_eq_some_iff.mp hitem
      rw [removeItem]
      split
      · exact blank_null _
      next hrest => exact ih hrest old
    | _ =>
      rw [removeAtPath_scalar rfl rfl] at hcurrent
      cases hcurrent

/-- A path without a value stays so under other removals. -/
theorem Blank.removeAtPath (h : Blank value path) (other : SettingPath) :
    Blank (removeAtPath value other) path := by
  induction path generalizing value other with
  | nil =>
    rcases h with h | h
    · cases h
    · cases h
      rw [removeAtPath_scalar rfl rfl]
      exact blank_null []
  | cons member rest ih =>
    rw [blank_cons] at h ⊢
    cases other with
    | nil => rwa [removeAtPath_nil]
    | cons name other =>
      intro current hcurrent
      cases value with
      | object fields =>
        rw [removeAtPath_object, child_object, lookup_removeFields] at hcurrent
        split at hcurrent
        next hname =>
          cases hlook : fields.lookup name with
          | none => rw [hlook] at hcurrent; cases hcurrent
          | some old =>
            rw [hlook, removeField] at hcurrent
            split at hcurrent
            · cases hcurrent
            · cases hcurrent
              exact ih (h old (hname ▸ hlook)) other
        next hname => exact h current hcurrent
      | array items =>
        rw [removeAtPath_array, child_array] at hcurrent
        obtain ⟨_, hindex, hitem⟩ := bind_eq_some_iff.mp hcurrent
        rw [getElem?_removeItems] at hitem
        split at hitem
        · obtain ⟨old, hold, rfl⟩ := map_eq_some_iff.mp hitem
          rw [removeItem]
          split
          · exact blank_null _
          · exact ih (h old (by rw [child_array, hindex]; exact hold)) other
        · exact h current (by rw [child_array, hindex]; exact hitem)
      | _ =>
        rw [removeAtPath_scalar rfl rfl] at hcurrent
        cases hcurrent

end Tessivum.Settings
