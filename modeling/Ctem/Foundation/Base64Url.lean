import Mathlib.Data.List.Basic
import Mathlib.Tactic.Cases

/-!
# Bytes as text

Base64 in the alphabet for file names, without padding, and UTF-8.

* `Base64Url.encode` writes three bytes as four characters; `decode` reads the characters of
  either alphabet and passes over all others.
* `utf8Lossy` reads bytes as UTF-8 and puts the replacement character where they are none.

What is written is read back: `Base64Url.decode_encode`, and `utf8Lossy_utf8Bytes` for text in
ASCII.
-/

namespace Ctem
namespace Foundation

namespace Base64Url

/-- The digits, in order. -/
def alphabet : List Char :=
  "ABCDEFGHIJKLMNOPQRSTUVWXYZabcdefghijklmnopqrstuvwxyz0123456789-_".toList

def digit (n : Nat) : Char :=
  alphabet.getD n 'A'

/-- The value of a character; the last two digits have a second spelling. -/
def value? (c : Char) : Option Nat :=
  if c = '+' then some 62 else if c = '/' then some 63 else alphabet.idxOf? c

/-- Six bits a digit: three bytes are four digits. -/
def sextets : List UInt8 → List Nat
  | a :: b :: c :: rest =>
      a.toNat / 4 :: (a.toNat % 4 * 16 + b.toNat / 16) ::
        (b.toNat % 16 * 4 + c.toNat / 64) :: c.toNat % 64 :: sextets rest
  | [a, b] => [a.toNat / 4, a.toNat % 4 * 16 + b.toNat / 16, b.toNat % 16 * 4]
  | [a] => [a.toNat / 4, a.toNat % 4 * 16]
  | [] => []

/-- Four digits are three bytes; a digit alone at the end is none. -/
def bytes : List Nat → List UInt8
  | p :: q :: r :: s :: rest =>
      .ofNat (p * 4 + q / 16) :: .ofNat (q % 16 * 16 + r / 4) :: .ofNat (r % 4 * 64 + s) ::
        bytes rest
  | [p, q, r] => [.ofNat (p * 4 + q / 16), .ofNat (q % 16 * 16 + r / 4)]
  | [p, q] => [.ofNat (p * 4 + q / 16)]
  | _ => []

def encode (data : List UInt8) : String :=
  String.ofList ((sextets data).map digit)

def decode (text : String) : List UInt8 :=
  bytes (text.toList.filterMap value?)

theorem value?_digit : ∀ n < 64, value? (digit n) = some n := by
  decide +kernel

theorem sextets_lt (data : List UInt8) : ∀ n ∈ sextets data, n < 64 := by
  induction data using sextets.induct with
  | case1 a b c rest ih =>
      have ha := a.toNat_lt
      have hb := b.toNat_lt
      have hc := c.toNat_lt
      simp only [sextets, List.mem_cons]
      rintro n (rfl | rfl | rfl | rfl | hn)
      · omega
      · omega
      · omega
      · omega
      · exact ih n hn
  | case2 a b =>
      have ha := a.toNat_lt
      have hb := b.toNat_lt
      simp only [sextets, List.mem_cons, List.not_mem_nil, or_false]
      rintro n (rfl | rfl | rfl) <;> omega
  | case3 a =>
      have ha := a.toNat_lt
      simp only [sextets, List.mem_cons, List.not_mem_nil, or_false]
      rintro n (rfl | rfl) <;> omega
  | case4 => simp [sextets]

/-- A byte put together again. -/
theorem ofNat_eq {b : UInt8} {n : Nat} (h : n = b.toNat) : UInt8.ofNat n = b := by
  rw [h, UInt8.ofNat_toNat]

theorem bytes_sextets (data : List UInt8) : bytes (sextets data) = data := by
  induction data using sextets.induct with
  | case1 a b c rest ih =>
      have hb := b.toNat_lt
      have hc := c.toNat_lt
      rw [sextets, bytes, ih, ofNat_eq (b := a) (by omega), ofNat_eq (b := b) (by omega),
        ofNat_eq (b := c) (by omega)]
  | case2 a b =>
      have hb := b.toNat_lt
      rw [sextets, bytes, ofNat_eq (b := a) (by omega), ofNat_eq (b := b) (by omega)]
  | case3 a => rw [sextets, bytes, ofNat_eq (b := a) (by omega)]
  | case4 => rfl

/-- **What is encoded is decoded.** -/
theorem decode_encode (data : List UInt8) : decode (encode data) = data := by
  have hvalues : ((sextets data).map digit).filterMap value? = sextets data := by
    rw [List.filterMap_map]
    have hsome : ∀ n ∈ sextets data, (value? ∘ digit) n = some n :=
      fun n hn => value?_digit n (sextets_lt data n hn)
    rw [List.filterMap_congr hsome, List.filterMap_some]
  unfold decode encode
  rw [String.toList_ofList, hvalues, bytes_sextets]

theorem digit_lt : ∀ n < 64, (digit n).toNat < 0x80 := by
  decide +kernel

theorem ascii_encode (data : List UInt8) : ∀ c ∈ (encode data).toList, c.toNat < 0x80 := by
  intro c hc
  unfold encode at hc
  rw [String.toList_ofList] at hc
  obtain ⟨n, hn, rfl⟩ := List.mem_map.mp hc
  exact digit_lt n (sextets_lt data n hn)

theorem length_sextets_le (data : List UInt8) : (sextets data).length ≤ 2 * data.length := by
  induction data using sextets.induct with
  | case1 a b c rest ih =>
      rw [sextets]
      simp only [List.length_cons]
      omega
  | case2 a b => simp [sextets]
  | case3 a => simp [sextets]
  | case4 => simp [sextets]

theorem length_encode_le (data : List UInt8) :
    (encode data).toList.length ≤ 2 * data.length := by
  unfold encode
  rw [String.toList_ofList, List.length_map]
  exact length_sextets_le data

theorem encode_ne_empty {data : List UInt8} (h : data ≠ []) : encode data ≠ "" := by
  intro hempty
  have hdecode := decode_encode data
  rw [hempty] at hdecode
  exact h hdecode.symm

end Base64Url

/-! ## UTF-8 -/

/-- The bytes of a text. -/
def utf8Bytes (s : String) : List UInt8 :=
  s.toList.flatMap String.utf8EncodeChar

/-- A decoder between two bytes: the text so far, and the character it is in: its bits so far,
how many bytes it still needs, and the range of the next one. -/
structure Utf8Decoder where
  text : List Char := []
  bits : Nat := 0
  needed : Nat := 0
  lower : Nat := 0x80
  upper : Nat := 0xBF

namespace Utf8Decoder

def replacement : Char := '\uFFFD'

/-- The first byte of a character. -/
def start (text : List Char) (b : Nat) : Utf8Decoder :=
  if b < 0x80 then { text := text ++ [Char.ofNat b] }
  else if b < 0xC2 then { text := text ++ [replacement] }
  else if b < 0xE0 then { text := text, bits := b - 0xC0, needed := 1 }
  else if b < 0xF0 then
    { text := text
      bits := b - 0xE0
      needed := 2
      lower := if b = 0xE0 then 0xA0 else 0x80
      upper := if b = 0xED then 0x9F else 0xBF }
  else if b < 0xF5 then
    { text := text
      bits := b - 0xF0
      needed := 3
      lower := if b = 0xF0 then 0x90 else 0x80
      upper := if b = 0xF4 then 0x8F else 0xBF }
  else { text := text ++ [replacement] }

/-- One byte.  One that does not continue the character it is in begins another. -/
def next (d : Utf8Decoder) (b : UInt8) : Utf8Decoder :=
  if d.needed = 0 then start d.text b.toNat
  else if d.lower ≤ b.toNat ∧ b.toNat ≤ d.upper then
    let bits := d.bits * 64 + (b.toNat - 0x80)
    if d.needed = 1 then { text := d.text ++ [Char.ofNat bits] }
    else { text := d.text, bits := bits, needed := d.needed - 1 }
  else start (d.text ++ [replacement]) b.toNat

end Utf8Decoder

/-- `buffer.toString('utf8')`. -/
def utf8Lossy (data : List UInt8) : String :=
  let d := data.foldl Utf8Decoder.next {}
  String.ofList (if d.needed = 0 then d.text else d.text ++ [Utf8Decoder.replacement])

/-- A character of ASCII is one byte. -/
theorem utf8EncodeChar_ascii {c : Char} (hc : c.toNat < 0x80) :
    String.utf8EncodeChar c = [c.val.toUInt8] := by
  have hval : c.val.toNat < 128 := hc
  exact String.utf8EncodeChar_eq_singleton (Char.utf8Size_eq_one_iff.mpr
    (UInt32.le_iff_toNat_le.mpr (Nat.le_of_lt_succ hval)))

theorem length_utf8Bytes {s : String} (hascii : ∀ c ∈ s.toList, c.toNat < 0x80) :
    (utf8Bytes s).length = s.toList.length := by
  unfold utf8Bytes
  generalize s.toList = cs at hascii
  induction cs with
  | nil => rfl
  | cons c cs ih =>
      rw [List.flatMap_cons, List.length_append, ih fun c' hc' =>
        hascii c' (List.mem_cons_of_mem c hc'), utf8EncodeChar_ascii (hascii c List.mem_cons_self),
        List.length_singleton, List.length_cons, Nat.add_comm]

theorem foldl_next_ascii (cs : List Char) (hascii : ∀ c ∈ cs, c.toNat < 0x80) (text : List Char) :
    (cs.flatMap String.utf8EncodeChar).foldl Utf8Decoder.next { text := text } =
      { text := text ++ cs } := by
  induction cs generalizing text with
  | nil => simp
  | cons c cs ih =>
      have hc : c.toNat < 0x80 := hascii c List.mem_cons_self
      have hnat : c.val.toUInt8.toNat = c.toNat := by
        rw [UInt32.toNat_toUInt8]
        exact Nat.mod_eq_of_lt (Nat.lt_trans hc (by decide))
      have hnext : Utf8Decoder.next { text := text } c.val.toUInt8 = { text := text ++ [c] } := by
        unfold Utf8Decoder.next Utf8Decoder.start
        rw [hnat, if_pos rfl, if_pos hc, Char.ofNat_toNat]
      rw [List.flatMap_cons, utf8EncodeChar_ascii hc, List.singleton_append, List.foldl_cons, hnext,
        ih fun c' hc' => hascii c' (List.mem_cons_of_mem c hc')]
      simp

/-- Text in ASCII is read back. -/
theorem utf8Lossy_utf8Bytes {s : String} (hascii : ∀ c ∈ s.toList, c.toNat < 0x80) :
    utf8Lossy (utf8Bytes s) = s := by
  unfold utf8Lossy utf8Bytes
  rw [foldl_next_ascii s.toList hascii]
  simp

end Foundation
end Ctem
