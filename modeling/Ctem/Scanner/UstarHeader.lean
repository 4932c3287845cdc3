import Mathlib.Data.List.GetD
import Mathlib.Data.List.TakeWhile
import Ctem.Scanner.TarBytes

/-!
# Writing a header

A ustar header as POSIX has it: texts that end at a zero, and numbers in octal digits.

* `textField` writes a text, `IsOctalField` says that a field is a number.
* `UstarHeader` is a header whose checksum is right.
* `readHeader_bytes`: the parser reads its fields back.
-/

namespace Ctem
namespace Scanner

open Foundation

/-! ## Fields -/

/-- A text and the zeros that fill its field. -/
def textField (width : Nat) (text : String) : List UInt8 :=
  utf8Bytes text ++ List.replicate (width - (utf8Bytes text).length) 0

/-- Octal digits, and the zeros and spaces behind them. -/
def IsOctalField (n : Nat) (field : List UInt8) : Prop :=
  ∃ digits ending, field = utf8Bytes (String.ofList digits) ++ ending ∧
    digits.all isOctalDigit = true ∧ octalValue digits = n ∧
    ending.all (fun b => b == 0 || b == 0x20) = true

/-- A text that no zero ends. -/
def NoZero (text : String) : Prop := text.toList.all (fun c => c.toNat != 0) = true

theorem length_textField {width : Nat} {text : String} (h : (utf8Bytes text).length ≤ width) :
    (textField width text).length = width := by
  rw [textField, List.length_append, List.length_replicate]
  omega

/-- The bytes of a text in front of a zero. -/
theorem takeWhile_utf8Bytes {text : String} (h : NoZero text) {rest : List UInt8}
    (hrest : rest.head? = some 0 ∨ rest = []) :
    (utf8Bytes text ++ rest).takeWhile (fun b => b != 0) = utf8Bytes text := by
  have hnone : ∀ b ∈ utf8Bytes text, (b != 0) = true := by
    intro b hb
    obtain ⟨c, hc, hbyte⟩ := List.mem_flatMap.mp hb
    have hnat : c.toNat ≠ 0 := bne_iff_ne.mp (List.all_eq_true.mp h c hc)
    exact bne_iff_ne.mpr (utf8EncodeChar_ne_zero hnat b hbyte)
  rw [List.takeWhile_append_of_pos hnone]
  rcases hrest with hrest | rfl
  · cases rest with
    | nil => cases hrest
    | cons b rest =>
        obtain rfl := Option.some.inj hrest
        rw [List.takeWhile_cons_of_neg (by decide), List.append_nil]
  · rw [List.takeWhile_nil, List.append_nil]

/-- A text is read up to the zeros behind it. -/
theorem readCString_zeros {text : String} (h : NoZero text) (zeros : Nat) :
    readCString (utf8Bytes text ++ List.replicate zeros 0) = trimText text := by
  rw [readCString, takeWhile_utf8Bytes h, utf8Lossy_bytes]
  cases zeros with
  | zero => exact Or.inr rfl
  | succ k => exact Or.inl rfl

theorem readCString_textField {width : Nat} {text : String} (h : NoZero text) :
    readCString (textField width text) = trimText text := readCString_zeros h _

/-! ## Numbers -/

theorem isOctalDigit_spec {c : Char} (h : isOctalDigit c = true) :
    48 ≤ c.toNat ∧ c.toNat ≤ 55 := by
  unfold isOctalDigit at h
  obtain ⟨hlow, hhigh⟩ := Bool.and_eq_true_iff.mp h
  exact ⟨UInt32.le_iff_toNat_le.mp (of_decide_eq_true hlow),
    UInt32.le_iff_toNat_le.mp (of_decide_eq_true hhigh)⟩

theorem isJsSpace_octalDigit {c : Char} (h : isOctalDigit c = true) : isJsSpace c = false := by
  have hrange := isOctalDigit_spec h
  unfold isJsSpace
  rw [Bool.or_eq_false_iff, Bool.and_eq_false_iff, decide_eq_false_iff_not,
    decide_eq_false_iff_not]
  refine ⟨?_, Or.inl (by omega)⟩
  simp only [List.mem_cons, List.not_mem_nil, or_false]
  omega

/-- Spaces behind a text are trimmed. -/
theorem trimChars_append_spaces {cs : List Char} (h : ∀ c ∈ cs, isJsSpace c = false) (k : Nat) :
    trimChars (cs ++ List.replicate k ' ') = cs := by
  have hspaces : ∀ c ∈ List.replicate k ' ', isJsSpace c = true := by
    intro c hc
    rw [(List.mem_replicate.mp hc).2]
    rfl
  cases cs with
  | nil =>
      rw [List.nil_append, trimChars, List.dropWhile_eq_nil_iff.mpr hspaces]
      rfl
  | cons c cs =>
      exact @trimChars_around (c :: cs) [] _ (fun _ h => nomatch h) hspaces
        (List.cons_ne_nil c cs) (fun d hd => h d (List.mem_of_mem_head? hd))
        (fun d hd => h d (List.mem_of_mem_getLast? hd))

/-- What ends a number is spaces, up to the first zero. -/
theorem takeWhile_ending {ending : List UInt8}
    (h : ending.all (fun b => b == 0 || b == 0x20) = true) :
    ∃ k, ending.takeWhile (fun b => b != 0) = utf8Bytes (String.ofList (List.replicate k ' ')) := by
  induction ending with
  | nil => exact ⟨0, rfl⟩
  | cons b rest ih =>
      rw [List.all_cons, Bool.and_eq_true_iff, Bool.or_eq_true_iff, beq_iff_eq, beq_iff_eq] at h
      obtain ⟨rfl | rfl, hrest⟩ := h
      · exact ⟨0, rfl⟩
      · obtain ⟨k, hk⟩ := ih hrest
        refine ⟨k + 1, ?_⟩
        rw [List.takeWhile_cons_of_pos (by decide), hk, utf8Bytes, utf8Bytes, String.toList_ofList,
          String.toList_ofList, List.replicate_succ, List.flatMap_cons]
        rfl

theorem readCString_octal {digits : List Char} {ending : List UInt8}
    (hdigits : digits.all isOctalDigit = true)
    (hending : ending.all (fun b => b == 0 || b == 0x20) = true) :
    readCString (utf8Bytes (String.ofList digits) ++ ending) = String.ofList digits := by
  have hspace : ∀ c ∈ digits, isJsSpace c = false := fun c hc =>
    isJsSpace_octalDigit (List.all_eq_true.mp hdigits c hc)
  have hnone : ∀ b ∈ utf8Bytes (String.ofList digits), (b != 0) = true := by
    intro b hb
    obtain ⟨c, hc, hbyte⟩ := List.mem_flatMap.mp hb
    rw [String.toList_ofList] at hc
    have hrange := isOctalDigit_spec (List.all_eq_true.mp hdigits c hc)
    exact bne_iff_ne.mpr (utf8EncodeChar_ne_zero (by omega) b hbyte)
  obtain ⟨k, hk⟩ := takeWhile_ending hending
  rw [readCString, List.takeWhile_append_of_pos hnone, hk, ← utf8Bytes_append, utf8Lossy_bytes,
    trimText, String.toList_append, String.toList_ofList, String.toList_ofList,
    trimChars_append_spaces hspace]

/-- Zeros in front of a number. -/
theorem octalValue_dropWhile {digits : List Char} (hdigits : digits.all isOctalDigit = true) :
    octalValue (digits.dropWhile fun c => decide (c = '0') || isJsSpace c) = octalValue digits := by
  induction digits with
  | nil => rfl
  | cons c rest ih =>
      rw [List.all_cons, Bool.and_eq_true_iff] at hdigits
      obtain ⟨hc, hrest⟩ := hdigits
      by_cases hzero : c = '0'
      · subst hzero
        rw [List.dropWhile_cons_of_pos (by decide), ih hrest]
        rfl
      · rw [List.dropWhile_cons_of_neg]
        rw [isJsSpace_octalDigit hc, decide_eq_false hzero]
        decide

theorem parseOctal_field {n : Nat} {field : List UInt8} (h : IsOctalField n field) :
    parseOctal field = .ok n := by
  obtain ⟨digits, ending, rfl, hdigits, rfl, hending⟩ := h
  have hsub := (List.dropWhile_sublist
    (fun c => decide (c = '0') || isJsSpace c) (l := digits)).subset
  have hoctal : ∀ c ∈ digits.dropWhile (fun c => decide (c = '0') || isJsSpace c),
      isOctalDigit c = true := fun c hc => List.all_eq_true.mp hdigits c (hsub hc)
  have hvalue := octalValue_dropWhile hdigits
  rw [parseOctal, octalText, readCString_octal hdigits hending, String.toList_ofList,
    trimChars_of_noSpace fun c hc => isJsSpace_octalDigit (hoctal c hc), ← hvalue]
  generalize digits.dropWhile (fun c => decide (c = '0') || isJsSpace c) = ds at hoctal
  cases ds with
  | nil => rfl
  | cons c rest =>
      have hrange := isOctalDigit_spec (hoctal c List.mem_cons_self)
      have hminus : c ≠ '-' := by rintro rfl; exact absurd hrange (by decide)
      have hplus : c ≠ '+' := by rintro rfl; exact absurd hrange (by decide)
      have htake : (c :: rest).takeWhile isOctalDigit = c :: rest :=
        List.takeWhile_eq_self_iff.mpr hoctal
      rw [if_neg (List.cons_ne_nil c rest), parseIntOctal]
      simp only [List.head?_cons, Option.some.injEq, hminus, hplus, or_self, if_false, htake,
        reduceCtorEq]
      rw [if_neg (by omega)]
      rfl

/-! ## Headers -/

/-- The fields in front of the checksum and those behind it. -/
structure UstarHeader where
  rawName : String
  owner : List UInt8
  size : Nat
  sizeField : List UInt8
  mtime : List UInt8
  checksum : List UInt8
  typeflag : Char
  linkname : String
  middle : List UInt8
  namePrefix : String
  fill : List UInt8
  nameFits : (utf8Bytes rawName).length ≤ 100 ∧ NoZero rawName
  linkFits : (utf8Bytes linkname).length ≤ 100 ∧ NoZero linkname
  prefixFits : (utf8Bytes namePrefix).length ≤ 155 ∧ NoZero namePrefix
  lengths : owner.length = 24 ∧ sizeField.length = 12 ∧ mtime.length = 12 ∧
    checksum.length = 8 ∧ middle.length = 88 ∧ fill.length = 12
  typeAscii : typeflag.toNat < 0x80
  isSize : IsOctalField size sizeField
  isChecksum : IsOctalField
    (((textField 100 rawName ++ owner ++ sizeField ++ mtime).map UInt8.toNat).sum + 256 +
      ((UInt8.ofNat typeflag.toNat :: (textField 100 linkname ++ middle ++
        textField 155 namePrefix ++ fill)).map UInt8.toNat).sum) checksum

namespace UstarHeader

variable (h : UstarHeader)

def front : List UInt8 := textField 100 h.rawName ++ h.owner ++ h.sizeField ++ h.mtime

def behind : List UInt8 :=
  UInt8.ofNat h.typeflag.toNat :: (textField 100 h.linkname ++ h.middle ++
    textField 155 h.namePrefix ++ h.fill)

def bytes : List UInt8 := h.front ++ h.checksum ++ h.behind

/-- What the parser reads: texts are trimmed. -/
def fields : ByteHeader :=
  { typeflag := h.typeflag
    size := h.size
    rawName := trimText h.rawName
    namePrefix := trimText h.namePrefix
    linkname := trimText h.linkname }

theorem length_front : h.front.length = 148 := by
  obtain ⟨howner, hsize, hmtime, -⟩ := h.lengths
  simp only [front, List.length_append, length_textField h.nameFits.1, howner, hsize, hmtime]

theorem length_behind : h.behind.length = 356 := by
  obtain ⟨-, -, -, -, hmiddle, hfill⟩ := h.lengths
  simp only [behind, List.length_cons, List.length_append, length_textField h.linkFits.1,
    length_textField h.prefixFits.1, hmiddle, hfill]

theorem length_bytes : h.bytes.length = 512 := by
  obtain ⟨-, -, -, hchecksum, -⟩ := h.lengths
  simp only [bytes, List.length_append, h.length_front, h.length_behind, hchecksum]

end UstarHeader

/-- The values at a row of indices are the values of the list. -/
theorem map_getD_range (l : List UInt8) (f : UInt8 → Nat) :
    (List.range l.length).map (fun i => f (l.getD i 0)) = l.map f := by
  apply List.ext_getElem
  · rw [List.length_map, List.length_map, List.length_range]
  · intro i hi _
    rw [List.length_map, List.length_range] at hi
    rw [List.getElem_map, List.getElem_map, List.getElem_range, List.getD_eq_getElem _ _ hi]

/-- The sum of a header in three parts. -/
theorem headerSum_append {front checksum behind : List UInt8} (hfront : front.length = 148)
    (hchecksum : checksum.length = 8) (hbehind : behind.length = 356) :
    headerSum (front ++ checksum ++ behind) =
      (front.map UInt8.toNat).sum + 256 + (behind.map UInt8.toNat).sum := by
  have hrange : List.range 512 = List.range 148 ++ (List.range 8).map (148 + ·) ++
      (List.range 356).map (156 + ·) := by
    rw [show 512 = 148 + 8 + 356 from rfl, List.range_add, List.range_add]
  have hfirst : (List.range 148).map (fun i => if 148 ≤ i ∧ i < 156 then 0x20 else
      ((front ++ checksum ++ behind).getD i 0).toNat) = front.map UInt8.toNat := by
    rw [← map_getD_range front UInt8.toNat, hfront]
    refine List.map_congr_left fun i hi => ?_
    have hlt : i < 148 := List.mem_range.mp hi
    rw [if_neg (by omega), List.append_assoc, List.getD_append _ _ _ _ (by omega)]
  have hmid : ((List.range 8).map (148 + ·)).map (fun i => if 148 ≤ i ∧ i < 156 then 0x20 else
      ((front ++ checksum ++ behind).getD i 0).toNat) = List.replicate 8 0x20 := by
    have hspace : ∀ i ∈ List.range 8, ((fun i => if 148 ≤ i ∧ i < 156 then 0x20 else
        ((front ++ checksum ++ behind).getD i 0).toNat) ∘ (148 + ·)) i = 0x20 := by
      intro i hi
      have hlt : 148 + i < 156 := Nat.add_lt_add_left (List.mem_range.mp hi) 148
      exact if_pos ⟨Nat.le_add_right 148 i, hlt⟩
    rw [List.map_map, List.map_congr_left hspace]
    rfl
  have hlast : ((List.range 356).map (156 + ·)).map (fun i => if 148 ≤ i ∧ i < 156 then 0x20 else
      ((front ++ checksum ++ behind).getD i 0).toNat) = behind.map UInt8.toNat := by
    rw [List.map_map, ← map_getD_range behind UInt8.toNat, hbehind]
    refine List.map_congr_left fun i hi => ?_
    have hlen : (front ++ checksum).length = 156 := by
      rw [List.length_append, hfront, hchecksum]
    rw [Function.comp, if_neg (by omega), List.getD_append_right _ _ _ _ (by omega), hlen,
      Nat.add_sub_cancel_left]
  rw [headerSum, hrange, List.map_append, List.map_append, hfirst, hmid, hlast, List.sum_append,
    List.sum_append]
  rfl

namespace UstarHeader

variable (h : UstarHeader)

theorem headerSum_bytes : IsOctalField (headerSum h.bytes) h.checksum := by
  rw [bytes, headerSum_append h.length_front h.lengths.2.2.2.1 h.length_behind]
  exact h.isChecksum

/-- A field of the header, between what is in front of it and what is behind. -/
theorem subarray_of_eq {whole before field rest : List UInt8} {start stop : Nat}
    (hwhole : whole = before ++ (field ++ rest)) (hbefore : before.length = start)
    (hfield : field.length = stop - start) : subarray whole start stop = field := by
  rw [subarray, hwhole, ← hbefore, List.drop_left, hbefore, ← hfield, List.take_left]

theorem subarray_checksum : subarray h.bytes 148 156 = h.checksum := by
  refine @subarray_of_eq _ h.front _ h.behind _ _ ?_ h.length_front h.lengths.2.2.2.1
  rw [bytes, List.append_assoc]

theorem subarray_size : subarray h.bytes 124 136 = h.sizeField := by
  obtain ⟨howner, hsize, -⟩ := h.lengths
  refine @subarray_of_eq _ (textField 100 h.rawName ++ h.owner) _
    (h.mtime ++ (h.checksum ++ h.behind)) _ _ ?_ ?_ hsize
  · simp only [bytes, front, List.append_assoc]
  · rw [List.length_append, length_textField h.nameFits.1, howner]

theorem subarray_name : subarray h.bytes 0 100 = textField 100 h.rawName := by
  refine @subarray_of_eq _ [] _
    (h.owner ++ (h.sizeField ++ (h.mtime ++ (h.checksum ++ h.behind)))) _ _ ?_ rfl
    (length_textField h.nameFits.1)
  simp only [bytes, front, List.append_assoc, List.nil_append]

theorem subarray_link : subarray h.bytes 157 257 = textField 100 h.linkname := by
  refine @subarray_of_eq _ (h.front ++ h.checksum ++ [UInt8.ofNat h.typeflag.toNat]) _
    (h.middle ++ (textField 155 h.namePrefix ++ h.fill)) _ _ ?_ ?_ (length_textField h.linkFits.1)
  · simp only [bytes, behind, List.append_assoc, List.singleton_append]
  · rw [List.length_append, List.length_append, h.length_front, h.lengths.2.2.2.1,
      List.length_singleton]

theorem subarray_prefix : subarray h.bytes 345 500 = textField 155 h.namePrefix := by
  refine @subarray_of_eq _ (h.front ++ h.checksum ++ [UInt8.ofNat h.typeflag.toNat] ++
    textField 100 h.linkname ++ h.middle) _ h.fill _ _ ?_ ?_ (length_textField h.prefixFits.1)
  · simp only [bytes, behind, List.append_assoc, List.cons_append, List.nil_append]
  · rw [List.length_append, List.length_append, List.length_append, List.length_append,
      h.length_front, h.lengths.2.2.2.1, List.length_singleton, length_textField h.linkFits.1,
      h.lengths.2.2.2.2.1]

theorem typeflag_bytes : Char.ofNat (h.bytes.getD 156 0).toNat = h.typeflag := by
  have hlen : (h.front ++ h.checksum).length = 156 := by
    rw [List.length_append, h.length_front, h.lengths.2.2.2.1]
  have hlt : h.typeflag.toNat < 2 ^ 8 := Nat.lt_trans h.typeAscii (by decide)
  rw [bytes, List.getD_append_right _ _ _ _ (Nat.le_of_eq hlen), hlen, Nat.sub_self, behind,
    List.getD_cons_zero, UInt8.toNat_ofNat', Nat.mod_eq_of_lt hlt, Char.ofNat_toNat]

/-- **The fields of a header are read back.** -/
theorem readHeader_bytes : readHeader h.bytes = .ok h.fields := by
  have hvalid : validChecksum h.bytes = .ok true := by
    rw [validChecksum, h.subarray_checksum, parseOctal_field h.headerSum_bytes, Except.map,
      decide_eq_true rfl]
  rw [readHeader, hvalid, h.subarray_size, parseOctal_field h.isSize, h.typeflag_bytes,
    h.subarray_name, h.subarray_prefix, h.subarray_link, readCString_textField h.nameFits.2,
    readCString_textField h.prefixFits.2, readCString_textField h.linkFits.2]
  rfl

/-- A header is no block of zeros: its sum is written in it. -/
theorem not_isZeroBlock : isZeroBlock h.bytes = false := by
  rw [← Bool.not_eq_true]
  intro hzero
  have hall : ∀ b ∈ h.checksum, b = 0 := by
    intro b hb
    have hmem : b ∈ h.bytes := by
      rw [bytes, List.mem_append, List.mem_append]
      exact Or.inl (Or.inr hb)
    exact beq_iff_eq.mp (List.all_eq_true.mp hzero b hmem)
  obtain ⟨digits, ending, hfield, hdigits, hvalue, -⟩ := h.headerSum_bytes
  -- No digit is a zero byte, so there is none, and the sum would be zero.
  cases digits with
  | nil =>
      rw [bytes, headerSum_append h.length_front h.lengths.2.2.2.1 h.length_behind] at hvalue
      change 0 = _ at hvalue
      omega
  | cons c rest =>
      have hrange := isOctalDigit_spec (List.all_eq_true.mp hdigits c List.mem_cons_self)
      obtain ⟨b, hb⟩ := List.exists_mem_of_ne_nil (String.utf8EncodeChar c) (by
        rw [Ne, ← List.length_eq_zero_iff, String.length_utf8EncodeChar]
        exact Nat.ne_of_gt c.utf8Size_pos)
      refine utf8EncodeChar_ne_zero (by omega) b hb (hall b ?_)
      rw [hfield, utf8Bytes, String.toList_ofList, List.flatMap_cons]
      exact List.mem_append_left _ (List.mem_append_left _ hb)

end UstarHeader

/-- A header without owner, times and link; `digits` and `sum` are the octal digits of its size
and of its checksum. -/
def plainHeader (name : String) (typeflag : Char) (digits sum : String)
    (hname : (utf8Bytes name).length ≤ 100 ∧ NoZero name) (htype : typeflag.toNat < 0x80)
    (hdigits : (utf8Bytes digits).length = 11 ∧ digits.toList.all isOctalDigit = true)
    (hsum : (utf8Bytes sum).length = 6 ∧ sum.toList.all isOctalDigit = true)
    (hvalue : octalValue sum.toList = ((textField 100 name).map UInt8.toNat).sum +
      ((utf8Bytes digits).map UInt8.toNat).sum + 256 + typeflag.toNat) : UstarHeader where
  rawName := name
  owner := List.replicate 24 0
  size := octalValue digits.toList
  sizeField := utf8Bytes digits ++ [0]
  mtime := List.replicate 12 0
  checksum := utf8Bytes sum ++ [0, 0x20]
  typeflag := typeflag
  linkname := ""
  middle := List.replicate 88 0
  namePrefix := ""
  fill := List.replicate 12 0
  nameFits := hname
  linkFits := ⟨Nat.zero_le _, rfl⟩
  prefixFits := ⟨Nat.zero_le _, rfl⟩
  lengths := ⟨rfl, by rw [List.length_append, hdigits.1]; rfl, rfl,
    by rw [List.length_append, hsum.1]; rfl, rfl, rfl⟩
  typeAscii := htype
  isSize := ⟨digits.toList, [0], by rw [String.ofList_toList], hdigits.2, rfl, rfl⟩
  isChecksum := by
    refine ⟨sum.toList, [0, 0x20], by rw [String.ofList_toList], hsum.2, ?_, rfl⟩
    have hempty : ∀ width, textField width "" = List.replicate width 0 := fun _ => rfl
    have hflag : (UInt8.ofNat typeflag.toNat).toNat = typeflag.toNat := by
      rw [UInt8.toNat_ofNat', Nat.mod_eq_of_lt (Nat.lt_trans htype (by decide))]
    simp only [hvalue, hempty, hflag, List.map_append, List.map_cons, List.map_nil,
      List.map_replicate, List.sum_append, List.sum_cons, List.sum_nil, List.sum_replicate,
      UInt8.toNat_zero, nsmul_zero, Nat.add_zero]

end Scanner
end Ctem
