import Mathlib.Data.Rat.Defs
import Mathlib.Data.List.Basic
import Mathlib.Tactic.Cases

/-!
# JSON values

Values as a dynamically typed program reads them.  An object is the list of its
assignments in order, and the last assignment to a key counts; so spreading one
object over another is appending, and what a later object assigns wins:
`get?_append`.

`undefined` is `none`: a missing member and a member that was never assigned are
the same thing.
-/

namespace Ctem
namespace Foundation

/-- A JSON value. -/
inductive Json where
  | null
  | bool (b : Bool)
  | num (n : Rat)
  | str (s : String)
  | arr (items : List Json)
  | obj (fields : List (String × Json))

/-- The assignments of an object, in order. -/
abbrev JsonObject := List (String × Json)

namespace JsonObject

/-- The value of a key: its last assignment. -/
def get? (o : JsonObject) (k : String) : Option Json :=
  match o with
  | [] => none
  | (k', v) :: rest =>
      match get? rest k with
      | some w => some w
      | none => if k' = k then some v else none

@[simp] theorem get?_nil (k : String) : get? [] k = none := rfl

theorem get?_cons (k' : String) (v : Json) (o : JsonObject) (k : String) :
    get? ((k', v) :: o) k = (get? o k).or (if k' = k then some v else none) := by
  rw [get?]
  cases get? o k with
  | none => rfl
  | some w => rfl

/-- Spreading `later` behind `base`: what `later` assigns wins. -/
theorem get?_append (base later : JsonObject) (k : String) :
    get? (base ++ later) k = (get? later k).or (get? base k) := by
  induction base with
  | nil => simp
  | cons f rest ih =>
      obtain ⟨k', v⟩ := f
      rw [List.cons_append, get?_cons, ih, get?_cons, Option.or_assoc]

/-- Assigning a key makes that its value. -/
theorem get?_concat_self (o : JsonObject) (k : String) (v : Json) :
    get? (o ++ [(k, v)]) k = some v := by
  rw [get?_append]
  simp [get?_cons]

end JsonObject

namespace Json

/-- The members of a value that is an object; other values have none. -/
def fields : Json → JsonObject
  | obj fs => fs
  | _ => []

/-- `value.key` on a value that may be anything. -/
def get? (j : Json) (k : String) : Option Json :=
  j.fields.get? k

/-- The string a value is, if it is one. -/
def str? : Json → Option String
  | str s => some s
  | _ => none

/-- What a condition makes of the value. -/
def truthy : Json → Bool
  | null => false
  | bool b => b
  | num n => decide (n ≠ 0)
  | str s => decide (s ≠ "")
  | arr _ => true
  | obj _ => true

@[simp] theorem truthy_str (s : String) : (str s).truthy = decide (s ≠ "") := rfl

@[simp] theorem str?_str (s : String) : (str s).str? = some s := rfl

end Json

end Foundation
end Ctem
