import Ctem.Foundation.JsonText

/-!
# Writing JSON

`JSON.stringify` of a value of objects, arrays, strings, booleans and `null`, and that
`JSON.parse` reads it back (`parseJson_print`).
-/

namespace Ctem
namespace Foundation
namespace JsonPrint

mutual

/-- `JSON.stringify(value)`; numbers are written by a parameter. -/
def print (numberText : Rat → List Char) : Json → List Char
  | .null => ['n', 'u', 'l', 'l']
  | .bool true => ['t', 'r', 'u', 'e']
  | .bool false => ['f', 'a', 'l', 's', 'e']
  | .num n => numberText n
  | .str s => quoted s
  | .arr items => '[' :: printItems numberText items ++ [']']
  | .obj fields => '\x7b' :: printMembers numberText fields ++ ['\x7d']

def printItems (numberText : Rat → List Char) : List Json → List Char
  | [] => []
  | [item] => print numberText item
  | item :: rest => print numberText item ++ ',' :: printItems numberText rest

def printMembers (numberText : Rat → List Char) : List (String × Json) → List Char
  | [] => []
  | [(key, value)] => quoted key ++ ':' :: print numberText value
  | (key, value) :: rest =>
      quoted key ++ ':' :: print numberText value ++ ',' :: printMembers numberText rest

end

mutual

/-- No number anywhere. -/
def numberless : Json → Bool
  | .num _ => false
  | .arr items => numberlessItems items
  | .obj fields => numberlessMembers fields
  | _ => true

def numberlessItems : List Json → Bool
  | [] => true
  | item :: rest => numberless item && numberlessItems rest

def numberlessMembers : List (String × Json) → Bool
  | [] => true
  | (_, value) :: rest => numberless value && numberlessMembers rest

end

variable (numberText : Rat → List Char)

/-- The first character of a value that is no number. -/
theorem print_head {v : Json} (h : numberless v = true) :
    ∃ c rest, print numberText v = c :: rest ∧ isJsonSpace c = false ∧ c ≠ ']' := by
  cases v with
  | null => exact ⟨'n', _, rfl, by decide, by decide⟩
  | bool b =>
      cases b with
      | true => exact ⟨'t', _, rfl, by decide, by decide⟩
      | false => exact ⟨'f', _, rfl, by decide, by decide⟩
  | num n => cases h
  | str s => exact ⟨'"', _, rfl, by decide, by decide⟩
  | arr items => exact ⟨'[', _, rfl, by decide, by decide⟩
  | obj fields => exact ⟨'\x7b', _, rfl, by decide, by decide⟩

theorem print_ne_nil {v : Json} (h : numberless v = true) : print numberText v ≠ [] := by
  obtain ⟨c, rest, htext, -, -⟩ := print_head numberText h
  rw [htext]
  exact List.cons_ne_nil _ _

/-- A value of which more than the head is read anew. -/
theorem skipSpace_print {v : Json} (h : numberless v = true) (rest : List Char) :
    skipSpace (print numberText v ++ rest) = print numberText v ++ rest ∧
      (print numberText v ++ rest).head? ≠ some ']' := by
  obtain ⟨c, more, htext, hspace, hne⟩ := print_head numberText h
  rw [htext, List.cons_append]
  refine ⟨skipSpace_cons hspace _, ?_⟩
  rw [List.head?_cons]
  exact fun heq => hne (Option.some.inj heq)

/-- An array with a first item. -/
theorem parseValue_arr (fuel : Nat) {body : List Char} (hskip : skipSpace body = body)
    (hhead : body.head? ≠ some ']') :
    parseValue (fuel + 1) ('[' :: body) =
      (parseItems fuel body).map fun r => (.arr r.1, r.2) := by
  rw [parseValue, skipSpace_cons (by decide)]
  simp only [hskip]
  split
  · exact absurd rfl hhead
  · cases parseItems fuel body <;> rfl

theorem printItems_cons (item : Json) (items : List Json) :
    ∃ more, printItems numberText (item :: items) = print numberText item ++ more := by
  cases items with
  | nil => exact ⟨[], by rw [printItems, List.append_nil]⟩
  | cons next items => exact ⟨_, rfl⟩

theorem printMembers_cons (field : String × Json) (fields : List (String × Json)) :
    ∃ more, printMembers numberText (field :: fields) = '"' :: more := by
  cases fields with
  | nil => exact ⟨_, rfl⟩
  | cons next fields => exact ⟨_, rfl⟩

mutual

/-- A value is read up to what follows it. -/
theorem parseValue_print (v : Json) (h : numberless v = true) (fuel : Nat)
    (hfuel : (print numberText v).length ≤ fuel) (rest : List Char) :
    parseValue fuel (print numberText v ++ rest) = some (v, rest) := by
  have hpos := List.length_pos_iff.mpr (print_ne_nil numberText h)
  obtain ⟨fuel, rfl⟩ : ∃ n, fuel = n + 1 := ⟨fuel - 1, by omega⟩
  match v with
  | .null => rfl
  | .bool true => rfl
  | .bool false => rfl
  | .num n => cases h
  | .str s => exact parseValue_quoted fuel s rest
  | .arr [] => rfl
  | .arr (item :: items) =>
      have hitem : numberless item = true := by
        simp only [numberless, numberlessItems, Bool.and_eq_true] at h
        exact h.1
      obtain ⟨more, hmore⟩ := printItems_cons numberText item items
      have htext : print numberText (.arr (item :: items)) ++ rest =
          '[' :: (printItems numberText (item :: items) ++ ']' :: rest) := by
        simp [print]
      have hbody := skipSpace_print numberText hitem (more ++ ']' :: rest)
      rw [← List.append_assoc, ← hmore] at hbody
      have hlength : (printItems numberText (item :: items)).length < fuel := by
        simp only [print, List.length_append, List.length_cons, List.length_nil] at hfuel
        omega
      rw [htext, parseValue_arr fuel hbody.1 hbody.2,
        parseItems_print (item :: items) (List.cons_ne_nil _ _) h fuel hlength rest]
      rfl
  | .obj [] => rfl
  | .obj (field :: fields) =>
      obtain ⟨more, hmore⟩ := printMembers_cons numberText field fields
      have htext : print numberText (.obj (field :: fields)) ++ rest =
          '\x7b' :: '"' :: (more ++ '\x7d' :: rest) := by
        simp [print, hmore]
      have hlength : (printMembers numberText (field :: fields)).length < fuel := by
        simp only [print, List.length_append, List.length_cons, List.length_nil] at hfuel
        omega
      have hmembers :=
        parseMembers_print (field :: fields) (List.cons_ne_nil _ _) h fuel hlength rest
      rw [hmore, List.cons_append] at hmembers
      rw [htext, parseValue_obj, hmembers]
      rfl

/-- The items are read up to the bracket. -/
theorem parseItems_print (items : List Json) (hne : items ≠ []) (h : numberlessItems items = true)
    (fuel : Nat) (hfuel : (printItems numberText items).length < fuel) (rest : List Char) :
    parseItems fuel (printItems numberText items ++ ']' :: rest) = some (items, rest) := by
  obtain ⟨fuel, rfl⟩ : ∃ n, fuel = n + 1 := ⟨fuel - 1, by omega⟩
  match items with
  | [] => exact absurd rfl hne
  | [item] =>
      simp only [numberlessItems, Bool.and_true] at h
      simp only [printItems] at hfuel ⊢
      rw [parseItems, parseValue_print item h fuel (by omega), Option.bind_eq_bind,
        Option.bind_some]
      simp only [skipSpace_cons (show isJsonSpace ']' = false by decide)]
  | item :: next :: items =>
      simp only [numberlessItems, Bool.and_eq_true] at h
      have hrest : numberlessItems (next :: items) = true := by
        simp only [numberlessItems, Bool.and_eq_true]
        exact h.2
      have htext : printItems numberText (item :: next :: items) =
          print numberText item ++ ',' :: printItems numberText (next :: items) := rfl
      rw [htext, List.length_append, List.length_cons] at hfuel
      rw [htext, List.append_assoc, List.cons_append, parseItems,
        parseValue_print item h.1 fuel (by omega), Option.bind_eq_bind, Option.bind_some]
      simp only [skipSpace_cons (show isJsonSpace ',' = false by decide)]
      rw [parseItems_print (next :: items) (List.cons_ne_nil _ _) hrest fuel (by omega) rest]
      rfl

/-- The members are read up to the brace. -/
theorem parseMembers_print (fields : List (String × Json)) (hne : fields ≠ [])
    (h : numberlessMembers fields = true) (fuel : Nat)
    (hfuel : (printMembers numberText fields).length < fuel) (rest : List Char) :
    parseMembers fuel (printMembers numberText fields ++ '\x7d' :: rest) = some (fields, rest) := by
  obtain ⟨fuel, rfl⟩ : ∃ n, fuel = n + 1 := ⟨fuel - 1, by omega⟩
  have hkey : ∀ (key : String) (tail : List Char), quoted key ++ tail =
      '"' :: (key.toList.flatMap escapeChar ++ '"' :: tail) := by
    intro key tail
    simp [quoted]
  match fields with
  | [] => exact absurd rfl hne
  | [(key, value)] =>
      simp only [numberlessMembers, Bool.and_true] at h
      simp only [printMembers, List.length_append, List.length_cons] at hfuel
      rw [printMembers, List.append_assoc, List.cons_append, hkey, parseMembers,
        skipSpace_cons (by decide)]
      simp only [parseUnits_quoted, charsOfUnits_unitsOf, String.ofList_toList, Option.bind_eq_bind,
        Option.bind_some, skipSpace_cons (show isJsonSpace ':' = false by decide)]
      rw [parseValue_print value h fuel (by omega), Option.bind_some]
      simp only [skipSpace_cons (show isJsonSpace '\x7d' = false by decide)]
  | (key, value) :: next :: fields =>
      simp only [numberlessMembers, Bool.and_eq_true] at h
      have hrest : numberlessMembers (next :: fields) = true := by
        obtain ⟨key', value'⟩ := next
        simp only [numberlessMembers, Bool.and_eq_true]
        exact h.2
      have htext : printMembers numberText ((key, value) :: next :: fields) =
          quoted key ++ ':' :: print numberText value ++
            ',' :: printMembers numberText (next :: fields) := by
        rw [printMembers]
        exact List.cons_ne_nil _ _
      rw [htext] at hfuel
      simp only [List.length_append, List.length_cons] at hfuel
      rw [htext, List.append_assoc, List.append_assoc, List.cons_append, hkey, parseMembers,
        skipSpace_cons (by decide)]
      simp only [parseUnits_quoted, charsOfUnits_unitsOf, String.ofList_toList, Option.bind_eq_bind,
        Option.bind_some, skipSpace_cons (show isJsonSpace ':' = false by decide)]
      rw [parseValue_print value h.1 fuel (by omega), Option.bind_some]
      simp only [List.cons_append, skipSpace_cons (show isJsonSpace ',' = false by decide)]
      rw [parseMembers_print (next :: fields) (List.cons_ne_nil _ _) hrest fuel (by omega) rest]
      rfl

end

/-- **A value that has been written is read back.** -/
theorem parseJson_print {v : Json} (h : numberless v = true) :
    parseJson (String.ofList (print numberText v)) = some v := by
  unfold parseJson
  rw [String.toList_ofList]
  have hvalue := parseValue_print numberText v h
    (2 * (print numberText v).length + 2) (by omega) []
  rw [List.append_nil] at hvalue
  rw [hvalue]
  rfl

end JsonPrint
end Foundation
end Ctem
