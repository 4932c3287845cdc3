import Ctem.Foundation.PathText
import Mathlib.Data.List.Count

/-!
# Fields joined by a separator

The fields of a record are written one behind the other with a separator between them.  The text
says what the fields are cut to pieces at every separator, but not which pieces belong to one
field: a separator inside a field reads like one between two.

* `cutFields` are the fields cut at every separator.
* `joined_eq_iff`: two texts are equal exactly when their pieces are.
* `eq_of_cutFields`: with the number of separators in each field, the pieces say what the fields
  are.
-/

namespace Ctem
namespace Foundation

/-- The fields cut at every separator. -/
def cutFields (sep : Char) (fields : List (List Char)) : List (List Char) :=
  fields.flatMap (splitOn sep)

section Split

variable {sep : Char} {as bs : List Char}

/-- Joining what was split gives the text back. -/
theorem intercalate_splitOn (sep : Char) (cs : List Char) :
    [sep].intercalate (splitOn sep cs) = cs := by
  induction cs with
  | nil => rfl
  | cons c rest ih =>
      by_cases hsep : c = sep
      · subst hsep
        obtain ⟨piece, more, hrest⟩ := List.exists_cons_of_ne_nil (splitOn_ne_nil c rest)
        rw [splitOn_cons_sep, hrest, List.intercalate_cons_cons, ← hrest, ih]
        rfl
      · obtain ⟨piece, more, hrest, heq⟩ := splitOn_cons_ne hsep rest
        rw [heq]
        rw [hrest] at ih
        -- The first character stands in front of the first piece, whether more follow or not.
        cases more with
        | nil =>
            rw [List.intercalate_singleton] at ih ⊢
            rw [ih]
        | cons next more =>
            rw [List.intercalate_cons_cons] at ih ⊢
            rw [List.cons_append, List.cons_append, ih]

theorem splitOn_injective (h : splitOn sep as = splitOn sep bs) : as = bs := by
  rw [← intercalate_splitOn sep as, h, intercalate_splitOn]

/-- One piece more than separators. -/
theorem length_splitOn_eq_count (sep : Char) (cs : List Char) :
    (splitOn sep cs).length = cs.count sep + 1 := by
  induction cs with
  | nil => rfl
  | cons c rest ih =>
      by_cases hsep : c = sep
      · subst hsep
        rw [splitOn_cons_sep, List.length_cons, ih, List.count_cons_self]
      · obtain ⟨piece, more, hrest, heq⟩ := splitOn_cons_ne hsep rest
        rw [heq, List.length_cons, List.count_cons_of_ne hsep, ← ih, hrest, List.length_cons]

end Split

section Fields

variable {sep : Char} {fields others : List (List Char)}

/-- A joined text is split to the pieces of its fields. -/
theorem splitOn_joined (hne : fields ≠ []) :
    splitOn sep ([sep].intercalate fields) = cutFields sep fields := by
  induction fields with
  | nil => exact absurd rfl hne
  | cons field fields ih =>
      cases fields with
      | nil => simp [cutFields]
      | cons next rest =>
          rw [List.intercalate_cons_cons, List.append_assoc, List.singleton_append,
            splitOn_append_sep, ih (List.cons_ne_nil next rest)]
          rfl

/-- Joined texts are equal exactly when the fields are cut to the same pieces. -/
theorem joined_eq_iff (hne : fields ≠ []) (hne' : others ≠ []) :
    [sep].intercalate fields = [sep].intercalate others ↔
      cutFields sep fields = cutFields sep others := by
  rw [← splitOn_joined hne, ← splitOn_joined hne']
  constructor
  · intro h
    rw [h]
  · exact fun h => splitOn_injective h

/-- The pieces, and how many separators each field has, say what the fields are. -/
theorem eq_of_cutFields (hcount : fields.map (List.count sep) = others.map (List.count sep))
    (hpieces : cutFields sep fields = cutFields sep others) : fields = others := by
  induction fields generalizing others with
  | nil =>
      cases others with
      | nil => rfl
      | cons other others => cases hcount
  | cons field fields ih =>
      cases others with
      | nil => cases hcount
      | cons other others =>
          obtain ⟨hfirst, hrest⟩ := List.cons.inj hcount
          have hlength : (splitOn sep field).length = (splitOn sep other).length := by
            rw [length_splitOn_eq_count, length_splitOn_eq_count, hfirst]
          obtain ⟨hsplit, hmore⟩ := List.append_inj hpieces hlength
          rw [splitOn_injective hsplit, ih hrest hmore]

end Fields

/-- `joinWith` with a separator of one character. -/
theorem toList_joinWith (sep : Char) (fields : List String) :
    (joinWith (String.singleton sep) fields).toList =
      [sep].intercalate (fields.map String.toList) := by
  induction fields with
  | nil => rfl
  | cons field fields ih =>
      cases fields with
      | nil => simp [joinWith]
      | cons next rest =>
          rw [List.map_cons, List.map_cons, List.intercalate_cons_cons, ← List.map_cons, ← ih,
            joinWith, String.toList_append, String.toList_append, String.toList_singleton]
          exact List.cons_ne_nil next rest

end Foundation
end Ctem
