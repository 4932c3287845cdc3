import Ctem.Foundation.JsData

/-!
# Schemas

The part of Zod the contracts are written in, as a language of schemas with the parser of each.
What a producer has parsed is written as JSON, and a consumer parses what it reads with the same
schema.

* `parse` is built from one parser for each construction; an object is stripped to its shape.
* `Agrees` says of what the two have parsed that it is equal, apart from contents of unknown
  records that are no JSON values.
* `Survives` is the condition on the payload: no number is infinite, every record of unknown
  values can be written, and none has a `toJSON` that writes something else than an object.
-/

namespace Ctem
namespace Foundation
namespace Zod

/-! ## The language -/

mutual

inductive Schema where
  | string (check : String → Bool)
  | number (check : JsNumber → Bool)
  | boolean
  /-- `z.coerce.date()`. -/
  | coerceDate
  | array (element : Schema) (length : Nat → Bool)
  | record (value : Schema)
  /-- `z.record(z.unknown())`, and whether `.default({})` is behind it. -/
  | unknownRecord (orEmpty : Bool)
  | object (shape : Shape)
  | nullable (inner : Schema)
  | optional (inner : Schema)
  | default (value : JsValue) (inner : Schema)

inductive Shape where
  | nil
  | cons (key : String) (schema : Schema) (rest : Shape)

end

def Shape.ofList : List (String × Schema) → Shape
  | [] => .nil
  | (key, schema) :: rest => .cons key schema (Shape.ofList rest)

def Shape.keys : Shape → List String
  | .nil => []
  | .cons key _ rest => key :: rest.keys

/-- The members of an object. -/
def members? : JsValue → Option (List (String × JsValue))
  | .obj members => some members
  | .hooked members _ => some members
  | _ => none

/-- The value of a member; one that is not there is `undefined`. -/
def memberOf (members : List (String × JsValue)) (key : String) : JsValue :=
  (members.lookup key).getD .undefined

/-- The entry is not the one that is dropped. -/
def isOwn {α : Type} (entry : String × α) : Bool :=
  decide (entry.1 ≠ "__proto__")

/-- The value, or the default for `undefined`. -/
def orDefault (default : JsValue) : JsValue → JsValue
  | .undefined => default
  | value => value

/-! ## The parsers -/

section Parsers

def parseString (check : String → Bool) : JsValue → Option JsValue
  | .str s => if check s then some (.str s) else none
  | _ => none

def parseNumber (check : JsNumber → Bool) : JsValue → Option JsValue
  | .num n => if check n then some (.num n) else none
  | _ => none

def parseBoolean : JsValue → Option JsValue
  | .bool b => some (.bool b)
  | _ => none

/-- `new Date(value)`; another text than an ISO one, and what is made a primitive value first, is
left to the parameter. -/
def newDate (dateOf : JsValue → Option Int) (value : JsValue) : Option Int :=
  let time :=
    match value with
    | .date time => time
    | .null => some 0
    | .bool b => some (if b then 1 else 0)
    | .num (.finite n) => some (if 0 ≤ n then n.floor else n.ceil)
    | .num _ => none
    | .nan => none
    | .undefined => none
    | .str s => (readTimeValue s.toList).or (dateOf value)
    | _ => dateOf value
  time.filter fun t => decide (-maxTimeValue ≤ t) && decide (t ≤ maxTimeValue)

def parseDate (dateOf : JsValue → Option Int) (value : JsValue) : Option JsValue :=
  (newDate dateOf value).map fun t => .date (some t)

def parseArray (element : JsValue → Option JsValue) (length : Nat → Bool) :
    JsValue → Option JsValue
  | .arr items => if length items.length then (items.mapM element).map .arr else none
  | _ => none

def parseEntry (value : JsValue → Option JsValue) (entry : String × JsValue) :
    Option (String × JsValue) :=
  (value entry.2).map fun parsed => (entry.1, parsed)

/-- Every entry is parsed, but one of `__proto__` is dropped. -/
def parseRecord (value : JsValue → Option JsValue) : JsValue → Option JsValue
  | .obj members =>
      (members.mapM (parseEntry value)).map fun entries => .obj (entries.filter isOwn)
  | _ => none

def parseUnknownRecord (orEmpty : Bool) : JsValue → Option JsValue
  | .obj members => some (.obj (members.filter isOwn))
  | .hooked members written => some (.hooked (members.filter isOwn) written)
  | .undefined => if orEmpty then some (.obj []) else none
  | _ => none

def parseNullable (inner : JsValue → Option JsValue) : JsValue → Option JsValue
  | .null => some .null
  | value => inner value

def parseOptional (inner : JsValue → Option JsValue) : JsValue → Option JsValue
  | .undefined => some .undefined
  | value => inner value

/-- A member that is `undefined` is set only where it is there. -/
def setMember (members : List (String × JsValue)) (key : String) (value : JsValue)
    (parsed : List (String × JsValue)) : List (String × JsValue) :=
  match value, members.lookup key with
  | .undefined, none => parsed
  | value, _ => (key, value) :: parsed

variable (dateOf : JsValue → Option Int)

mutual

/-- `schema.parse`, without its errors. -/
def Schema.parse : Schema → JsValue → Option JsValue
  | .string check => parseString check
  | .number check => parseNumber check
  | .boolean => parseBoolean
  | .coerceDate => parseDate dateOf
  | .array element length => parseArray element.parse length
  | .record value => parseRecord value.parse
  | .unknownRecord orEmpty => parseUnknownRecord orEmpty
  | .object shape => fun value => (members? value).bind fun members =>
      (shape.parse members).map .obj
  | .nullable inner => parseNullable inner.parse
  | .optional inner => parseOptional inner.parse
  | .default value inner => fun given => inner.parse (orDefault value given)

def Shape.parse : Shape → List (String × JsValue) → Option (List (String × JsValue))
  | .nil => fun _ => some []
  | .cons key schema rest => fun members =>
      (schema.parse (memberOf members key)).bind fun value =>
        (rest.parse members).map (setMember members key value)

end

end Parsers

/-! ## Agreement -/

def AgreeItems (agree : JsValue → JsValue → Prop) (a b : JsValue) : Prop :=
  ∃ items items', a = .arr items ∧ b = .arr items' ∧ List.Forall₂ agree items items'

def AgreeEntries (agree : JsValue → JsValue → Prop) (a b : JsValue) : Prop :=
  ∃ members members', a = .obj members ∧ b = .obj members' ∧
    List.Forall₂ (fun entry entry' => entry'.1 = entry.1 ∧ agree entry.2 entry'.2) members members'

/-- Nothing is written of the entry. -/
def isLeftOut (entry : String × JsValue) : Bool :=
  match stringify entry.2 with
  | .leftOut => true
  | _ => false

/-- The entries that are JSON values are the same; the others are contents that are none.  A
record with a `toJSON` is no JSON value as a whole. -/
def AgreeUnknown : JsValue → JsValue → Prop
  | .obj members, b => ∃ members', b = .obj members' ∧
      List.Forall₂ (fun entry entry' => entry'.1 = entry.1 ∧
        (entry.2.isJson = true → entry'.2 = entry.2))
        (members.filter fun entry => !isLeftOut entry) members'
  | .hooked _ _, _ => True
  | _, _ => False

mutual

/-- The values are equal, as values of the schema. -/
def Schema.Agrees : Schema → JsValue → JsValue → Prop
  | .string _ => fun a b => b = a
  | .number _ => fun a b => b = a
  | .boolean => fun a b => b = a
  | .coerceDate => fun a b => b = a
  | .array element _ => AgreeItems element.Agrees
  | .record value => AgreeEntries value.Agrees
  | .unknownRecord _ => AgreeUnknown
  | .object shape => fun a b => ∃ members members', a = .obj members ∧ b = .obj members' ∧
      shape.Agrees members members'
  | .nullable inner => fun a b => (a = .null ∧ b = .null) ∨ (a ≠ .null ∧ inner.Agrees a b)
  | .optional inner => fun a b =>
      (a = .undefined ∧ b = .undefined) ∨ (a ≠ .undefined ∧ inner.Agrees a b)
  | .default _ inner => inner.Agrees

/-- The members of the shape read the same. -/
def Shape.Agrees : Shape → List (String × JsValue) → List (String × JsValue) → Prop
  | .nil => fun _ _ => True
  | .cons key schema rest => fun members members' =>
      schema.Agrees (memberOf members key) (memberOf members' key) ∧ rest.Agrees members members'

end

/-! ## What survives -/

def isFinite : JsNumber → Bool
  | .finite _ => true
  | _ => false

/-- The entries can be written; what a `toJSON` writes is an object, or nothing before a
`.default({})`. -/
def SurvivesUnknown (orEmpty : Bool) (v : JsValue) : Prop :=
  (∀ members, v = .obj members → stringifyMembers (members.filter isOwn) ≠ none) ∧
    ∀ members written, v = .hooked members written →
      (∃ object, written = .json (.obj object)) ∨ (orEmpty = true ∧ written = .leftOut)

mutual

/-- No number of the payload is infinite, a record of unknown values can be written, and what a
`toJSON` writes for it is an object. -/
def Schema.Survives : Schema → JsValue → Prop
  | .string _ => fun _ => True
  | .number _ => fun v => ∀ n, v = .num n → isFinite n = true
  | .boolean => fun _ => True
  | .coerceDate => fun _ => True
  | .array element _ => fun v => ∀ items, v = .arr items → ∀ item ∈ items, element.Survives item
  | .record value => fun v => ∀ members, v = .obj members → ∀ entry ∈ members,
      entry.1 ≠ "__proto__" → value.Survives entry.2
  | .unknownRecord orEmpty => SurvivesUnknown orEmpty
  | .object shape => fun v => ∀ members, members? v = some members → shape.Survives members
  | .nullable inner => fun v => v ≠ .null → inner.Survives v
  | .optional inner => fun v => v ≠ .undefined → inner.Survives v
  | .default value inner => fun v => inner.Survives (orDefault value v)

def Shape.Survives : Shape → List (String × JsValue) → Prop
  | .nil => fun _ => True
  | .cons key schema rest => fun members =>
      schema.Survives (memberOf members key) ∧ rest.Survives members

end

/-! ## Well-formed schemas -/

/-- The schema takes neither `null` nor `undefined` for its value. -/
def Schema.plain : Schema → Bool
  | .unknownRecord _ => false
  | .nullable _ => false
  | .optional _ => false
  | .default _ _ => false
  | _ => true

/-- A value of the schema is not left out of its JSON. -/
def Schema.solid : Schema → Bool
  | .nullable _ => true
  | schema => schema.plain

mutual

/-- Elements, entries and what may be `null` or missing are plain, what has a default is solid,
and a shape names a key once. -/
def Schema.wellFormed : Schema → Bool
  | .array element _ => element.plain && element.wellFormed
  | .record value => value.plain && value.wellFormed
  | .object shape => decide shape.keys.Nodup && shape.wellFormed
  | .nullable inner => inner.plain && inner.wellFormed
  | .optional inner => inner.plain && inner.wellFormed
  | .default _ inner => inner.solid && inner.wellFormed
  | _ => true

def Shape.wellFormed : Shape → Bool
  | .nil => true
  | .cons _ schema rest => schema.wellFormed && rest.wellFormed

end


/-! ## What a parser returns -/

section Parsed

variable {parse : JsValue → Option JsValue} {v a : JsValue}

theorem parseString_eq_some {check : String → Bool} :
    parseString check v = some a ↔ ∃ s, v = .str s ∧ check s = true ∧ a = .str s := by
  constructor
  · intro h
    unfold parseString at h
    split at h
    · split at h
      case isTrue hcheck => exact ⟨_, rfl, hcheck, (Option.some.inj h).symm⟩
      case isFalse => cases h
    · cases h
  · rintro ⟨s, rfl, hcheck, rfl⟩
    exact if_pos hcheck

theorem parseNumber_eq_some {check : JsNumber → Bool} :
    parseNumber check v = some a ↔ ∃ n, v = .num n ∧ check n = true ∧ a = .num n := by
  constructor
  · intro h
    unfold parseNumber at h
    split at h
    · split at h
      case isTrue hcheck => exact ⟨_, rfl, hcheck, (Option.some.inj h).symm⟩
      case isFalse => cases h
    · cases h
  · rintro ⟨n, rfl, hcheck, rfl⟩
    exact if_pos hcheck

theorem parseBoolean_eq_some : parseBoolean v = some a ↔ ∃ b, v = .bool b ∧ a = .bool b := by
  cases v <;> simp [parseBoolean, eq_comm]

theorem parseArray_eq_some {length : Nat → Bool} :
    parseArray parse length v = some a ↔ ∃ items parsed, v = .arr items ∧
      length items.length = true ∧ items.mapM parse = some parsed ∧ a = .arr parsed := by
  constructor
  · intro h
    unfold parseArray at h
    split at h
    · split at h
      case isTrue hlength =>
        obtain ⟨parsed, hparsed, rfl⟩ := Option.map_eq_some_iff.mp h
        exact ⟨_, parsed, rfl, hlength, hparsed, rfl⟩
      case isFalse => cases h
    · cases h
  · rintro ⟨items, parsed, rfl, hlength, hparsed, rfl⟩
    unfold parseArray
    simp only [hlength, if_true, hparsed, Option.map_some]

/-- A parsed date is in the range of time values. -/
theorem parseDate_eq_some {dateOf : JsValue → Option Int} (h : parseDate dateOf v = some a) :
    ∃ t, a = .date (some t) ∧ -maxTimeValue ≤ t ∧ t ≤ maxTimeValue := by
  obtain ⟨t, ht, rfl⟩ := Option.map_eq_some_iff.mp h
  obtain ⟨-, hrange⟩ := Option.filter_eq_some_iff.mp ht
  rw [Bool.and_eq_true, decide_eq_true_eq, decide_eq_true_eq] at hrange
  exact ⟨t, rfl, hrange⟩

theorem parseRecord_eq_some :
    parseRecord parse v = some a ↔ ∃ members entries, v = .obj members ∧
      members.mapM (parseEntry parse) = some entries ∧ a = .obj (entries.filter isOwn) := by
  constructor
  · intro h
    unfold parseRecord at h
    split at h
    · obtain ⟨entries, hentries, rfl⟩ := Option.map_eq_some_iff.mp h
      exact ⟨_, entries, rfl, hentries, rfl⟩
    · cases h
  · rintro ⟨members, entries, rfl, hentries, rfl⟩
    show (members.mapM (parseEntry parse)).map _ = _
    rw [hentries]
    rfl

end Parsed

end Zod
end Foundation
end Ctem
