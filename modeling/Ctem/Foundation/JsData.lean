import Ctem.Foundation.JsCoercion
import Ctem.Foundation.TimeValues

/-!
# Values and their JSON

What `JSON.stringify` writes of a value, and what `JSON.parse` makes of it.

* `JsValue` is a value as data.  An object whose `toJSON` is a function is `hooked`, with what is
  written in its place; `other` is everything that is no data: a function, a symbol, a bigint, a
  map.
* `stringify` throws, leaves a value out or writes it; an infinite number is written as `null`, a
  date as its text.
* `ofJson_of_isJson`: a JSON value comes back as it is.
-/

namespace Ctem
namespace Foundation

/-- What `JSON.stringify` makes of a value. -/
inductive Written where
  | throws
  /-- Nothing: the member of an object is not there, an element of an array is `null`. -/
  | leftOut
  | json (value : Json)

inductive JsValue where
  | undefined
  | null
  | bool (b : Bool)
  | num (n : JsNumber)
  | nan
  | str (s : String)
  /-- A date, with its time value if it is valid. -/
  | date (time : Option Int)
  | arr (items : List JsValue)
  | obj (members : List (String × JsValue))
  | hooked (members : List (String × JsValue)) (written : Written)
  | other (written : Written)

/-! ## Writing and reading -/

mutual

/-- `JSON.stringify(value)`. -/
def stringify : JsValue → Written
  | .undefined => .leftOut
  | .null => .json .null
  | .bool b => .json (.bool b)
  | .num (.finite n) => .json (.num n)
  | .num _ => .json .null
  | .nan => .json .null
  | .str s => .json (.str s)
  | .date (some time) => .json (.str (isoString time))
  | .date none => .json .null
  | .arr items =>
      match stringifyItems items with
      | none => .throws
      | some items => .json (.arr items)
  | .obj members =>
      match stringifyMembers members with
      | none => .throws
      | some members => .json (.obj members)
  | .hooked _ written => written
  | .other written => written

def stringifyItems : List JsValue → Option (List Json)
  | [] => some []
  | item :: rest =>
      match stringify item with
      | .throws => none
      | .leftOut => (stringifyItems rest).map (Json.null :: ·)
      | .json value => (stringifyItems rest).map (value :: ·)

def stringifyMembers : List (String × JsValue) → Option JsonObject
  | [] => some []
  | (key, member) :: rest =>
      match stringify member with
      | .throws => none
      | .leftOut => stringifyMembers rest
      | .json value => (stringifyMembers rest).map ((key, value) :: ·)

end

mutual

/-- The value that a text of JSON is parsed as. -/
def ofJson : Json → JsValue
  | .null => .null
  | .bool b => .bool b
  | .num n => .num (.finite n)
  | .str s => .str s
  | .arr items => .arr (ofItems items)
  | .obj members => .obj (ofMembers members)

def ofItems : List Json → List JsValue
  | [] => []
  | item :: rest => ofJson item :: ofItems rest

def ofMembers : JsonObject → List (String × JsValue)
  | [] => []
  | (key, value) :: rest => (key, ofJson value) :: ofMembers rest

end

/-- What is received of a member that is written so. -/
def Written.received : Written → JsValue
  | .json value => ofJson value
  | _ => .undefined

/-! ## JSON values -/

mutual

/-- The value is one that JSON can write and read. -/
def JsValue.isJson : JsValue → Bool
  | .null => true
  | .bool _ => true
  | .num (.finite _) => true
  | .str _ => true
  | .arr items => areJson items
  | .obj members => membersAreJson members
  | _ => false

def areJson : List JsValue → Bool
  | [] => true
  | item :: rest => item.isJson && areJson rest

def membersAreJson : List (String × JsValue) → Bool
  | [] => true
  | (_, member) :: rest => member.isJson && membersAreJson rest

end

mutual

/-- **A JSON value comes back as it is.** -/
theorem ofJson_of_isJson : ∀ {value : JsValue}, value.isJson = true →
    ∃ json, stringify value = .json json ∧ ofJson json = value
  | .null, _ => ⟨.null, by simp [stringify], by simp [ofJson]⟩
  | .bool b, _ => ⟨.bool b, by simp [stringify], by simp [ofJson]⟩
  | .num (.finite n), _ => ⟨.num n, by simp [stringify], by simp [ofJson]⟩
  | .str s, _ => ⟨.str s, by simp [stringify], by simp [ofJson]⟩
  | .arr items, h => by
      rw [JsValue.isJson] at h
      obtain ⟨json, hwritten, hread⟩ := ofItems_of_areJson h
      exact ⟨.arr json, by simp [stringify, hwritten], by simp [ofJson, hread]⟩
  | .obj members, h => by
      rw [JsValue.isJson] at h
      obtain ⟨json, hwritten, hread⟩ := ofMembers_of_areJson h
      exact ⟨.obj json, by simp [stringify, hwritten], by simp [ofJson, hread]⟩

theorem ofItems_of_areJson : ∀ {items : List JsValue}, areJson items = true →
    ∃ json, stringifyItems items = some json ∧ ofItems json = items
  | [], _ => ⟨[], by simp [stringifyItems], by simp [ofItems]⟩
  | item :: rest, h => by
      rw [areJson, Bool.and_eq_true] at h
      obtain ⟨first, hfirst, hreadFirst⟩ := ofJson_of_isJson h.1
      obtain ⟨json, hwritten, hread⟩ := ofItems_of_areJson h.2
      exact ⟨first :: json, by simp [stringifyItems, hfirst, hwritten],
        by simp [ofItems, hreadFirst, hread]⟩

theorem ofMembers_of_areJson : ∀ {members : List (String × JsValue)},
    membersAreJson members = true →
    ∃ json, stringifyMembers members = some json ∧ ofMembers json = members
  | [], _ => ⟨[], by simp [stringifyMembers], by simp [ofMembers]⟩
  | (key, member) :: rest, h => by
      rw [membersAreJson, Bool.and_eq_true] at h
      obtain ⟨first, hfirst, hreadFirst⟩ := ofJson_of_isJson h.1
      obtain ⟨json, hwritten, hread⟩ := ofMembers_of_areJson h.2
      exact ⟨(key, first) :: json, by simp [stringifyMembers, hfirst, hwritten],
        by simp [ofMembers, hreadFirst, hread]⟩

end

end Foundation
end Ctem
