import Ctem.Foundation.IsoText
import Ctem.Scanner.TarBytes

/-!
# Writing the records of an extended header

A record begins with its own length, in bytes and in decimal digits.  `parsePax` counts code
units of the decoded text.

* `PaxRecord` is a record whose length is right.
* `paxRecords_record`: a record is read back if it has as many units as bytes, or nothing
  stands behind it.
* `parsePax_lookup?`: in both cases the last record of a key counts.
-/

namespace Ctem
namespace Scanner

open Foundation

/-- A record: its length, a key, and a value up to the end of the line. -/
structure PaxRecord where
  key : String
  value : String
  text : String
  keyGiven : key ≠ ""
  keyPlain : key.toList.all (fun c => c.toNat != 0x3D) = true
  counted : text =
    String.ofList (Nat.toDigits 10 (utf8Bytes text).length) ++ " " ++ key ++ "=" ++ value ++ "\n"

namespace PaxRecord

variable (r : PaxRecord)

def digits : String := String.ofList (Nat.toDigits 10 (utf8Bytes r.text).length)

def bytes : List UInt8 := utf8Bytes r.text

def units : List Nat := utf16Units r.text

def IsAscii : Prop := r.text.toList.all (fun c => decide (c.toNat < 0x80)) = true

end PaxRecord

theorem dropLineEnd_concat (units : List Nat) : dropLineEnd (units ++ [0x0A]) = units := by
  rw [dropLineEnd, if_pos List.getLast?_concat, List.dropLast_concat]

/-- A record is cut at its first `=`. -/
theorem recordOf_units {key value : String} (hgiven : key ≠ "")
    (hplain : key.toList.all (fun c => c.toNat != 0x3D) = true) :
    recordOf (utf16Units key ++ 0x3D :: utf16Units value) = some (key, value) := by
  have hnone : ∀ u ∈ utf16Units key, (u != 0x3D) = true := by
    intro u hu
    rw [bne_iff_ne]
    rintro rfl
    obtain ⟨c, hc, hnat⟩ := mem_of_mem_utf16Units hu (by decide)
    exact bne_iff_ne.mp (List.all_eq_true.mp hplain c hc) hnat
  have htake : (utf16Units key ++ 0x3D :: utf16Units value).takeWhile (fun u => u != 0x3D) =
      utf16Units key := by
    rw [List.takeWhile_append_of_pos hnone, List.takeWhile_cons_of_neg (by decide),
      List.append_nil]
  rw [recordOf, htake, List.drop_left]
  cases hunits : utf16Units key with
  | nil =>
      refine absurd (utf16Units_injective ?_) hgiven
      exact hunits
  | cons u us =>
      dsimp only
      rw [← hunits, unitsText_utf16Units, unitsText_utf16Units]

/-- Digits are ASCII and no spaces. -/
theorem toDigits_spec {n : Nat} {c : Char} (hc : c ∈ Nat.toDigits 10 n) :
    48 ≤ c.toNat ∧ c.toNat ≤ 57 ∧ isJsSpace c = false := by
  have hdigit := Nat.isDigit_of_mem_toDigits (by decide) (by decide) hc
  exact ⟨(range_of_isDigit hdigit).1, (range_of_isDigit hdigit).2, isJsSpace_of_isDigit hdigit⟩

theorem utf16Units_toDigits (n : Nat) :
    utf16Units (String.ofList (Nat.toDigits 10 n)) = (Nat.toDigits 10 n).map Char.toNat := by
  rw [utf16Units_ascii, String.toList_ofList]
  rw [String.toList_ofList]
  intro c hc
  have hrange := toDigits_spec hc
  omega

/-- The length of a record is read. -/
theorem recordLength?_toDigits {n : Nat} (h : 0 < n) :
    recordLength? ((Nat.toDigits 10 n).map Char.toNat) = some n := by
  have hascii : ((Nat.toDigits 10 n).map Char.toNat).filter (fun u => decide (u < 128)) =
      (Nat.toDigits 10 n).map Char.toNat := by
    rw [List.filter_eq_self]
    intro u hu
    obtain ⟨c, hc, rfl⟩ := List.mem_map.mp hu
    have hrange := toDigits_spec hc
    exact decide_eq_true (by omega)
  have hchars : ((Nat.toDigits 10 n).map Char.toNat).map Char.ofNat = Nat.toDigits 10 n := by
    rw [List.map_map]
    exact List.map_id'' (fun c => Char.ofNat_toNat c) _
  have htrim : trimChars (Nat.toDigits 10 n) = Nat.toDigits 10 n :=
    trimChars_of_noSpace fun c hc => (toDigits_spec hc).2.2
  simp only [recordLength?, hascii, hchars, htrim, List.length_map, if_true, isDigits_toDigits,
    digitsValue_toDigits, decide_eq_true h, Bool.and_self]

namespace PaxRecord

variable (r : PaxRecord)

/-- The units of a record, part by part. -/
theorem units_eq :
    r.units = (Nat.toDigits 10 r.bytes.length).map Char.toNat ++
      0x20 :: (utf16Units r.key ++ 0x3D :: utf16Units r.value ++ [0x0A]) := by
  have hsigns : utf16Units " " = [0x20] ∧ utf16Units "=" = [0x3D] ∧ utf16Units "\n" = [0x0A] :=
    ⟨rfl, rfl, rfl⟩
  rw [units, r.counted]
  simp only [utf16Units_append, utf16Units_toDigits, hsigns, List.append_assoc,
    List.nil_append, List.cons_append, bytes]

theorem length_bytes_pos : 0 < r.bytes.length := by
  have hle := length_utf16Units_le r.text
  have hunits : (utf16Units r.text).length = r.units.length := rfl
  rw [hunits, units_eq, List.length_append, List.length_cons] at hle
  unfold bytes
  omega

/-- A record is read back if it has as many units as bytes, or nothing stands behind it. -/
theorem paxRecords_record {rest : List Nat} (h : r.IsAscii ∨ rest = []) (turns : Nat) :
    paxRecords (turns + 1) (r.units ++ rest) = (r.key, r.value) :: paxRecords turns rest := by
  have hdigits : ∀ tail : List Nat, ((Nat.toDigits 10 r.bytes.length).map Char.toNat ++
      0x20 :: tail).takeWhile (fun u => u != 0x20) =
        (Nat.toDigits 10 r.bytes.length).map Char.toNat := by
    intro tail
    rw [List.takeWhile_append_of_pos, List.takeWhile_cons_of_neg (by decide), List.append_nil]
    intro u hu
    obtain ⟨c, hc, rfl⟩ := List.mem_map.mp hu
    have hrange := toDigits_spec hc
    exact bne_iff_ne.mpr (by omega)
  have hle : r.units.length ≤ r.bytes.length := length_utf16Units_le r.text
  -- What `slice` takes is the record, and what stands behind it is left.
  have hcut : (r.units ++ rest).take r.bytes.length = r.units ∧
      (r.units ++ rest).drop r.bytes.length = rest := by
    rcases h with hascii | rfl
    · have hlen : r.bytes.length = r.units.length := length_utf8Bytes_ascii fun c hc =>
        of_decide_eq_true (List.all_eq_true.mp hascii c hc)
      rw [hlen, List.take_left, List.drop_left]
      exact ⟨rfl, rfl⟩
    · rw [List.append_nil, List.take_of_length_le hle, List.drop_eq_nil_of_le hle]
      exact ⟨rfl, rfl⟩
  rw [paxRecords]
  have htake : (r.units ++ rest).takeWhile (fun u => u != 0x20) =
      (Nat.toDigits 10 r.bytes.length).map Char.toNat := by
    rw [units_eq, List.append_assoc, List.cons_append, hdigits]
  have hshort : ((Nat.toDigits 10 r.bytes.length).map Char.toNat).length ≠
      (r.units ++ rest).length := by
    rw [units_eq, List.length_append, List.length_append, List.length_cons]
    omega
  simp only [htake, if_neg hshort, recordLength?_toDigits r.length_bytes_pos, hcut.1, hcut.2]
  have hinner : r.units.drop (((Nat.toDigits 10 r.bytes.length).map Char.toNat).length + 1) =
      utf16Units r.key ++ 0x3D :: utf16Units r.value ++ [0x0A] := by
    rw [units_eq, List.drop_append, List.drop_eq_nil_of_le (Nat.le_succ _), List.nil_append,
      Nat.add_sub_cancel_left, List.drop_succ_cons, List.drop_zero]
  rw [hinner, dropLineEnd_concat, recordOf_units r.keyGiven r.keyPlain]
  rfl

end PaxRecord

/-! ## The records of a header -/

/-- The last value of a key. -/
def lastValue (key : String) (records : List PaxRecord) : Option String :=
  ((records.filter fun r => decide (r.key = key)).getLast?).map PaxRecord.value

/-- The text of the records. -/
def paxBody (records : List PaxRecord) : List UInt8 := records.flatMap PaxRecord.bytes

/-- Every record but the last is ASCII. -/
def AsciiBeforeLast (records : List PaxRecord) : Prop := ∀ r ∈ records.dropLast, r.IsAscii

theorem AsciiBeforeLast.cons {r : PaxRecord} {rest : List PaxRecord}
    (h : AsciiBeforeLast (r :: rest)) : (r.IsAscii ∨ rest = []) ∧ AsciiBeforeLast rest := by
  cases rest with
  | nil => exact ⟨Or.inr rfl, fun _ hr => nomatch hr⟩
  | cons r' rest =>
      refine ⟨Or.inl (h r ?_), fun q hq => h q ?_⟩
      · rw [List.dropLast_cons_cons]
        exact List.mem_cons_self
      · rw [List.dropLast_cons_cons]
        exact List.mem_cons_of_mem r hq

theorem paxRecords_units {records : List PaxRecord} (h : AsciiBeforeLast records) {turns : Nat}
    (hturns : records.length ≤ turns) :
    paxRecords turns (records.flatMap PaxRecord.units) = records.map fun r => (r.key, r.value) := by
  induction records generalizing turns with
  | nil => cases turns <;> rfl
  | cons r rest ih =>
      obtain ⟨hr, hrest⟩ := h.cons
      cases turns with
      | zero => exact absurd hturns (Nat.not_succ_le_zero _)
      | succ turns =>
          rw [List.flatMap_cons, r.paxRecords_record, ih hrest (Nat.le_of_succ_le_succ hturns),
            List.map_cons]
          exact hr.imp_right fun hnil => by rw [hnil, List.flatMap_nil]

/-- The text of the records, their bytes and their units. -/
theorem paxText (records : List PaxRecord) :
    ∃ text, utf8Bytes text = paxBody records ∧
      utf16Units text = records.flatMap PaxRecord.units := by
  induction records with
  | nil => exact ⟨"", rfl, rfl⟩
  | cons r rest ih =>
      obtain ⟨text, hbytes, hunits⟩ := ih
      exact ⟨r.text ++ text, by rw [utf8Bytes_append, hbytes]; rfl,
        by rw [utf16Units_append, hunits]; rfl⟩

theorem length_le_flatMap_units (records : List PaxRecord) :
    records.length ≤ (records.flatMap PaxRecord.units).length := by
  induction records with
  | nil => exact Nat.le_refl 0
  | cons r rest ih =>
      have hunits : 0 < r.units.length := by
        rw [r.units_eq, List.length_append, List.length_cons]
        omega
      rw [List.flatMap_cons, List.length_append, List.length_cons]
      omega

/-- **The last record of a key counts.** -/
theorem parsePax_lookup? {records : List PaxRecord} (h : AsciiBeforeLast records) (key : String) :
    (parsePax (paxBody records)).lookup? key = lastValue key records := by
  obtain ⟨text, hbytes, hunits⟩ := paxText records
  have hread : paxRecords (utf16Units text).length (utf16Units text) =
      records.map fun r => (r.key, r.value) := by
    rw [hunits]
    exact paxRecords_units h (length_le_flatMap_units records)
  have hmap : parsePax (paxBody records) = AssocMap.groupFold Prod.fst (fun r _ => r.2)
      (records.map fun r => (r.key, r.value)) := by
    rw [← hread, parsePax, ← hbytes, utf8Lossy_bytes]
    rfl
  rw [hmap, AssocMap.lookup?_groupFold_last, List.filter_map, List.getLast?_map, Option.map_map,
    lastValue]
  rfl

theorem nodup_keys_parsePax (body : List UInt8) : (parsePax body).keys.Nodup := by
  exact AssocMap.nodup_keys_groupFold Prod.fst (fun r _ => r.2) _

end Scanner
end Ctem
