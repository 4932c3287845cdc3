import Ctem.Foundation.Base64Url
import Ctem.Foundation.JsonText
import Ctem.Foundation.Utf16Order

/-!
# Text as bytes and as code units

A text is read back from its bytes in UTF-8 and from its code units.

* `Utf8Decoder.foldl_next_char`: the bytes of one character, in the four lengths they have.
* `utf8Lossy_bytes` and `unitsText_utf16Units` are the two round trips.
-/

namespace Ctem
namespace Foundation

/-- The bytes of a character, in the four lengths they have. -/
theorem utf8EncodeChar_eq (c : Char) :
    String.utf8EncodeChar c =
      if c.toNat ≤ 0x7f then [.ofNat c.toNat]
      else if c.toNat ≤ 0x7ff then
        [.ofNat (c.toNat / 64 % 0x20 + 0xc0), .ofNat (c.toNat % 0x40 + 0x80)]
      else if c.toNat ≤ 0xffff then
        [.ofNat (c.toNat / 4096 % 0x10 + 0xe0), .ofNat (c.toNat / 64 % 0x40 + 0x80),
          .ofNat (c.toNat % 0x40 + 0x80)]
      else
        [.ofNat (c.toNat / 262144 % 0x08 + 0xf0), .ofNat (c.toNat / 4096 % 0x40 + 0x80),
          .ofNat (c.toNat / 64 % 0x40 + 0x80), .ofNat (c.toNat % 0x40 + 0x80)] :=
  rfl

/-- No byte of a character is zero, unless the character is. -/
theorem utf8EncodeChar_ne_zero {c : Char} (h : c.toNat ≠ 0) :
    ∀ b ∈ String.utf8EncodeChar c, b ≠ 0 := by
  have hbyte : ∀ n, n ≠ 0 → n < 256 → UInt8.ofNat n ≠ 0 := by
    intro n hpos hlt hzero
    have hnat := congrArg UInt8.toNat hzero
    rw [UInt8.toNat_ofNat', Nat.mod_eq_of_lt hlt] at hnat
    exact hpos hnat
  have hrange := char_range c
  rw [utf8EncodeChar_eq]
  split
  · simp only [List.mem_singleton]
    rintro b rfl
    exact hbyte _ h (by omega)
  split
  · simp only [List.mem_cons, List.not_mem_nil, or_false]
    rintro b (rfl | rfl) <;> exact hbyte _ (by omega) (by omega)
  split
  · simp only [List.mem_cons, List.not_mem_nil, or_false]
    rintro b (rfl | rfl | rfl) <;> exact hbyte _ (by omega) (by omega)
  · simp only [List.mem_cons, List.not_mem_nil, or_false]
    rintro b (rfl | rfl | rfl | rfl) <;> exact hbyte _ (by omega) (by omega)

namespace Utf8Decoder

/-- A byte that begins a character. -/
theorem next_first (text : List Char) {b : Nat} (hb : b < 256) :
    next { text := text } (.ofNat b) = start text b := by
  have hbyte : (UInt8.ofNat b).toNat = b := by rw [UInt8.toNat_ofNat', Nat.mod_eq_of_lt hb]
  rw [next, if_pos rfl, hbyte]

/-- A byte that continues a character and does not end it. -/
theorem next_inner {text : List Char} {bits needed lower upper b : Nat} (hb : b < 256)
    (hlower : lower ≤ b) (hupper : b ≤ upper) :
    next { text := text, bits := bits, needed := needed + 2, lower := lower, upper := upper }
        (.ofNat b) =
      { text := text, bits := bits * 64 + (b - 0x80), needed := needed + 1 } := by
  have hbyte : (UInt8.ofNat b).toNat = b := by rw [UInt8.toNat_ofNat', Nat.mod_eq_of_lt hb]
  rw [next, if_neg (Nat.succ_ne_zero _), hbyte]
  dsimp only
  rw [if_pos ⟨hlower, hupper⟩, if_neg (by omega)]
  rfl

/-- The byte that ends a character. -/
theorem next_last {text : List Char} {bits lower upper b : Nat} (hb : b < 256)
    (hlower : lower ≤ b) (hupper : b ≤ upper) :
    next { text := text, bits := bits, needed := 1, lower := lower, upper := upper } (.ofNat b) =
      { text := text ++ [Char.ofNat (bits * 64 + (b - 0x80))] } := by
  have hbyte : (UInt8.ofNat b).toNat = b := by rw [UInt8.toNat_ofNat', Nat.mod_eq_of_lt hb]
  rw [next, if_neg Nat.one_ne_zero, hbyte]
  dsimp only
  rw [if_pos ⟨hlower, hupper⟩, if_pos rfl]

/-- The bytes of a character add that character. -/
theorem foldl_next_char (c : Char) (text : List Char) :
    (String.utf8EncodeChar c).foldl next { text := text } = { text := text ++ [c] } := by
  have hrange : c.toNat < 0xD800 ∨ (0xDFFF < c.toNat ∧ c.toNat < 0x110000) := char_range c
  have hself : ∀ n, n = c.toNat → Char.ofNat n = c := fun n h => by rw [h, Char.ofNat_toNat]
  rw [utf8EncodeChar_eq]
  split
  · rw [List.foldl_cons, List.foldl_nil, next_first text (by omega), start, if_pos (by omega),
      Char.ofNat_toNat]
  split
  · rw [List.foldl_cons, List.foldl_cons, List.foldl_nil, next_first text (by omega), start,
      if_neg (by omega), if_neg (by omega), if_pos (by omega),
      next_last (by omega) (by omega) (by omega), hself _ (by omega)]
  split
  · rw [List.foldl_cons, List.foldl_cons, List.foldl_cons, List.foldl_nil,
      next_first text (by omega), start, if_neg (by omega), if_neg (by omega), if_neg (by omega),
      if_pos (by omega), next_inner (by omega) (by split <;> omega) (by split <;> omega),
      next_last (by omega) (by omega) (by omega), hself _ (by omega)]
  · rw [List.foldl_cons, List.foldl_cons, List.foldl_cons, List.foldl_cons, List.foldl_nil,
      next_first text (by omega), start, if_neg (by omega), if_neg (by omega), if_neg (by omega),
      if_neg (by omega), if_pos (by omega),
      next_inner (by omega) (by split <;> omega) (by split <;> omega),
      next_inner (by omega) (by omega) (by omega),
      next_last (by omega) (by omega) (by omega), hself _ (by omega)]

theorem foldl_next_chars (cs text : List Char) :
    (cs.flatMap String.utf8EncodeChar).foldl next { text := text } = { text := text ++ cs } := by
  induction cs generalizing text with
  | nil => rw [List.flatMap_nil, List.foldl_nil, List.append_nil]
  | cons c cs ih =>
      rw [List.flatMap_cons, List.foldl_append, foldl_next_char, ih, List.append_assoc,
        List.singleton_append]

end Utf8Decoder

theorem utf8Lossy_bytes (s : String) : utf8Lossy (utf8Bytes s) = s := by
  rw [utf8Lossy, utf8Bytes, Utf8Decoder.foldl_next_chars, List.nil_append]
  exact String.ofList_toList

theorem utf8Bytes_append (s t : String) : utf8Bytes (s ++ t) = utf8Bytes s ++ utf8Bytes t := by
  rw [utf8Bytes, String.toList_append, List.flatMap_append]
  rfl

/-! ## Code units -/

/-- Code units as text; a lone surrogate becomes the replacement character. -/
def unitsText (units : List Nat) : String := String.ofList (charsOfUnits units)

theorem unitsText_utf16Units (s : String) : unitsText (utf16Units s) = s := by
  have hunits : utf16Units s = s.toList.flatMap unitsOf := rfl
  rw [unitsText, hunits, charsOfUnits_unitsOf, String.ofList_toList]

theorem utf16Units_append (s t : String) :
    utf16Units (s ++ t) = utf16Units s ++ utf16Units t := by
  rw [utf16Units_eq, String.toList_append, List.flatMap_append]
  rfl

/-- Units below the surrogates are characters of the text. -/
theorem mem_of_mem_utf16Units {s : String} {u : Nat} (h : u ∈ utf16Units s) (hu : u < 0xD800) :
    ∃ c ∈ s.toList, c.toNat = u := by
  rw [utf16Units_eq] at h
  obtain ⟨c, hc, hunit⟩ := List.mem_flatMap.mp h
  unfold charUnits at hunit
  split at hunit
  · exact ⟨c, hc, (List.mem_singleton.mp hunit).symm⟩
  · rcases List.mem_cons.mp hunit with rfl | hunit
    · omega
    · have := List.mem_singleton.mp hunit
      omega

theorem utf16Units_ascii {s : String} (hascii : ∀ c ∈ s.toList, c.toNat < 0x80) :
    utf16Units s = s.toList.map Char.toNat := by
  rw [utf16Units_eq, List.map_eq_flatMap]
  refine List.flatMap_congr fun c hc => if_pos ?_
  have hc := hascii c hc
  omega

/-- Text in ASCII has as many bytes as units. -/
theorem length_utf8Bytes_ascii {s : String} (hascii : ∀ c ∈ s.toList, c.toNat < 0x80) :
    (utf8Bytes s).length = (utf16Units s).length := by
  rw [length_utf8Bytes hascii, utf16Units_ascii hascii, List.length_map]

/-- A text has no more units than bytes. -/
theorem length_utf16Units_le (s : String) : (utf16Units s).length ≤ (utf8Bytes s).length := by
  rw [utf16Units_eq, utf8Bytes]
  induction s.toList with
  | nil => exact Nat.le_refl 0
  | cons c cs ih =>
      have hchar : (charUnits c).length ≤ (String.utf8EncodeChar c).length := by
        rw [String.length_utf8EncodeChar]
        unfold charUnits
        split
        · exact c.utf8Size_pos
        · have hmore : c.utf8Size ≠ 1 := by
            rw [Ne, Char.utf8Size_eq_one_iff, UInt32.le_iff_toNat_le]
            change ¬ c.toNat ≤ 127
            omega
          have hpos := c.utf8Size_pos
          change 2 ≤ c.utf8Size
          omega
      rw [List.flatMap_cons, List.flatMap_cons, List.length_append, List.length_append]
      omega

end Foundation
end Ctem
