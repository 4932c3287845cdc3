import Ctem.Foundation.InetText

/-!
# Addresses that may be probed

The surface scanner and the DNS connector ask `isPublicAddress` before they connect to an
address.  Both have a copy of it, with errors of their own.

* `publicIPv4` and `publicIPv6` say which addresses are public, as numbers.
* `screened_iff`: both copies give that answer for a text of an address, except that they know the
  unspecified and the loopback address of IPv6 by their shortest texts only.
-/

namespace Ctem
namespace Scanner

open Foundation

/-! ## The copies -/

/-- `Number(p)` of a text of decimal digits; behind `isIP` there is no other. -/
def numberOf (p : List Char) : Option Nat :=
  let digits := trimChars p
  if digits = [] then some 0
  else if isDigits digits then some (digitsValue digits)
  else none

/-- An octet of an address. -/
def octetOf (p : List Char) : Option (BitVec 32) :=
  ((numberOf p).filter fun n => decide (n ≤ 255)).map (BitVec.ofNat 32)

/-- `parseIPv4`. -/
def parseIPv4 (ip : List Char) : Option Nat :=
  match splitOn '.' ip with
  | [a, b, c, d] => do
      let a ← octetOf a
      let b ← octetOf b
      let c ← octetOf c
      let d ← octetOf d
      some ((a <<< 24) ||| (b <<< 16) ||| (c <<< 8) ||| d).toNat
  | _ => none

/-- `inIPv4Prefix`. -/
def inIPv4Prefix (ip base prefixLen : Nat) : Bool :=
  decide (ip >>> (32 - prefixLen) = base >>> (32 - prefixLen))

/-- The checks of `isPublicIPv4`. -/
def refusedIPv4 (n : Nat) (ip : List Char) : Bool :=
  inIPv4Prefix n 0x0a000000 8 || inIPv4Prefix n 0xac100000 12 || inIPv4Prefix n 0xc0a80000 16 ||
    inIPv4Prefix n 0x7f000000 8 || inIPv4Prefix n 0xa9fe0000 16 || inIPv4Prefix n 0x64400000 10 ||
    inIPv4Prefix n 0x00000000 8 || inIPv4Prefix n 0xe0000000 4 || inIPv4Prefix n 0xf0000000 4 ||
    inIPv4Prefix n 0xc0000200 24 || inIPv4Prefix n 0xc6336400 24 ||
    inIPv4Prefix n 0xcb007100 24 || decide (ip = "169.254.169.254".toList) ||
    inIPv4Prefix n 0xc0000000 24 || inIPv4Prefix n 0xc0586300 24

/-- `isPublicIPv4`, of the copy whose errors begin with `name`. -/
def isPublicIPv4 (name : String) (ip : List Char) : Except String Bool :=
  match parseIPv4 ip with
  | none => .error (name ++ " refused malformed IPv4: " ++ String.ofList ip)
  | some n => .ok (!refusedIPv4 n ip)

/-- `parseIPv4ToTwo16`, and the two groups in hexadecimal. -/
def tailGroups : Option (List Char) → List (List Char)
  | none => []
  | some ipv4 =>
      let n := (parseIPv4 ipv4).getD 0
      [Nat.toDigits 16 ((n >>> 16) &&& 0xffff), Nat.toDigits 16 (n &&& 0xffff)]

/-- The last part, where there is an IPv4 address; an empty one counts as none. -/
def ipv4Tail (hasIpv4Tail : Bool) (parts : List (List Char)) : Option (List Char) :=
  if hasIpv4Tail then parts.getLast?.filter fun part => decide (part ≠ []) else none

/-- The parts before it. -/
def beforeTail (hasIpv4Tail : Bool) (parts : List (List Char)) : List (List Char) :=
  if hasIpv4Tail then parts.dropLast else parts

/-- The parts of a text, a gap filled with zeros. -/
def expandGroups (lower : List Char) : Option (List (List Char)) :=
  let hasIpv4Tail := decide ('.' ∈ lower)
  if hasDouble ':' lower then
    match splitDouble ':' lower with
    | [left, right] =>
        let tail := ipv4Tail hasIpv4Tail (colonPieces right)
        let leftGroups := (colonPieces left).filter fun part => decide (part ≠ [])
        let rightGroups :=
          (beforeTail hasIpv4Tail (colonPieces right)).filter fun part => decide (part ≠ [])
        let totalGroups := leftGroups.length + rightGroups.length + 2 * tail.toList.length
        if totalGroups > 8 then none
        else
          some (leftGroups ++ List.replicate (8 - totalGroups) ['0'] ++ rightGroups ++
            tailGroups tail)
    | _ => none
  else
    let tail := ipv4Tail hasIpv4Tail (splitOn ':' lower)
    let split := beforeTail hasIpv4Tail (splitOn ':' lower)
    if split.length + 2 * tail.toList.length ≠ 8 then none else some (split ++ tailGroups tail)

/-- Without a sign. -/
def dropSign : List Char → List Char
  | '-' :: rest => rest
  | '+' :: rest => rest
  | rest => rest

/-- Without the `0x` that may stand before hexadecimal digits. -/
def dropRadix : List Char → List Char
  | '0' :: 'x' :: rest => rest
  | '0' :: 'X' :: rest => rest
  | rest => rest

/-- `parseInt(part, 16)`; `none` is `NaN`. -/
def parseInt16 (part : List Char) : Option Int :=
  let cs := part.dropWhile isJsSpace
  let digits := (dropRadix (dropSign cs)).takeWhile fun c => (hexValue c).isSome
  if digits = [] then none
  else if cs.head? = some '-' then some (-(hexNumber digits : Int))
  else some (hexNumber digits)

/-- One more group. -/
def pushGroup (out : Nat) (part : List Char) : Option Nat :=
  match parseInt16 part with
  | none => none
  | some n => if n < 0 ∨ n > 0xffff then none else some ((out <<< 16) ||| n.toNat)

/-- The groups as one number. -/
def readGroups (parts : List (List Char)) : Option Nat :=
  if parts.length ≠ 8 then none else parts.foldlM pushGroup 0

/-- Without the brackets around it. -/
def unbracket (s : List Char) : List Char :=
  if s.head? = some '[' ∧ s.getLast? = some ']' then s.tail.dropLast else s

/-- `parseIPv6ToBigInt`. -/
def parseIPv6ToBigInt (ip : List Char) : Option Nat :=
  let s := unbracket (trimChars ip)
  if '%' ∈ s then none
  else
    let lower := s.map Char.toLower
    if ':' ∉ lower then none else (expandGroups lower).bind readGroups

/-- `isInBigIntPrefix`, for a prefix that parses. -/
def isInBigIntPrefix (addr : Nat) (base : String) (prefixLen : Nat) : Bool :=
  match parseIPv6ToBigInt base.toList with
  | none => false
  | some base => decide (addr >>> (128 - prefixLen) = base >>> (128 - prefixLen))

/-- The last 32 bits as a text. -/
def mappedText (addr : Nat) : List Char :=
  let last32 := addr &&& ((1 <<< 32) - 1)
  ['.'].intercalate ([(last32 >>> 24) &&& 0xff, (last32 >>> 16) &&& 0xff, (last32 >>> 8) &&& 0xff,
    last32 &&& 0xff].map octetText)

/-- `isPublicIPv6`. -/
def isPublicIPv6 (name : String) (ip : List Char) : Except String Bool :=
  match parseIPv6ToBigInt ip with
  | none => .error (name ++ " refused malformed IPv6: " ++ String.ofList ip)
  | some addr =>
      if ip.map Char.toLower = "::".toList ∨ ip.map Char.toLower = "::1".toList then .ok false
      else if isInBigIntPrefix addr "::ffff:0:0" 96 then isPublicIPv4 name (mappedText addr)
      else
        .ok (!(isInBigIntPrefix addr "fc00::" 7 || isInBigIntPrefix addr "fe80::" 10 ||
          isInBigIntPrefix addr "ff00::" 8 || isInBigIntPrefix addr "2001:db8::" 32 ||
          isInBigIntPrefix addr "2001::" 32))

def isPublicAddress (name : String) (ip : List Char) : Except String Bool :=
  if isIP ip = 4 then isPublicIPv4 name ip
  else if isIP ip = 6 then isPublicIPv6 name ip
  else .error (name ++ " refused malformed IP address: " ++ String.ofList ip)

/-- `isPublicAddress` of the surface scanner. -/
def asmIsPublicAddress : List Char → Except String Bool := isPublicAddress "ASM"

/-- `isPublicAddress` of the DNS connector. -/
def dnsIsPublicAddress : List Char → Except String Bool := isPublicAddress "DNS"

/-! ## Which addresses are public -/

inductive Address where
  | v4 (n : Nat)
  | v6 (n : Nat)
deriving DecidableEq

/-- A text of an address. -/
inductive AddressText where
  | v4 (q : Quad)
  | v6 (t : Inet6)

namespace AddressText

def text : AddressText → List Char
  | .v4 q => q.text
  | .v6 t => t.text

def address : AddressText → Address
  | .v4 q => .v4 q.value
  | .v6 t => .v6 t.value

end AddressText

/-- The address is in the block of its first bits. -/
def inBlock (width n base prefixLen : Nat) : Bool :=
  decide (n / 2 ^ (width - prefixLen) = base / 2 ^ (width - prefixLen))

/-- The blocks that are promised to be refused. -/
def nonPublicIPv4 : List (Quad × Nat) :=
  [(⟨0, 0, 0, 0⟩, 8), (⟨10, 0, 0, 0⟩, 8), (⟨100, 64, 0, 0⟩, 10), (⟨127, 0, 0, 0⟩, 8),
    (⟨169, 254, 0, 0⟩, 16), (⟨172, 16, 0, 0⟩, 12), (⟨192, 0, 0, 0⟩, 24), (⟨192, 0, 2, 0⟩, 24),
    (⟨192, 168, 0, 0⟩, 16), (⟨198, 51, 100, 0⟩, 24), (⟨203, 0, 113, 0⟩, 24),
    (⟨224, 0, 0, 0⟩, 4), (⟨240, 0, 0, 0⟩, 4)]

/-- The relays of 6to4, which are refused as well. -/
def relayIPv4 : Quad × Nat := (⟨192, 88, 99, 0⟩, 24)

def publicIPv4 (n : Nat) : Bool :=
  (nonPublicIPv4 ++ [relayIPv4]).all fun block => !inBlock 32 n block.1.value block.2

/-- The unspecified and the loopback address, and the blocks `fc00::/7`, `fe80::/10`, `ff00::/8`
and `2001:db8::/32`. -/
def nonPublicIPv6 : List (Nat × Nat) :=
  [(0, 128), (1, 128), (0xfc00 * 2 ^ 112, 7), (0xfe80 * 2 ^ 112, 10), (0xff00 * 2 ^ 112, 8),
    (0x20010db8 * 2 ^ 96, 32)]

/-- Teredo, which is refused as well. -/
def teredoIPv6 : Nat × Nat := (0x20010000 * 2 ^ 96, 32)

/-- An IPv4 address in an IPv6 one is what it is by itself. -/
def publicIPv6 (n : Nat) : Bool :=
  if inBlock 128 n (0xffff * 2 ^ 32) 96 then publicIPv4 (n % 2 ^ 32)
  else (nonPublicIPv6 ++ [teredoIPv6]).all fun block => !inBlock 128 n block.1 block.2

def Address.isPublic : Address → Bool
  | .v4 n => publicIPv4 n
  | .v6 n => publicIPv6 n

/-- Both copies answer for the address that the text denotes. -/
structure Screened (t : AddressText) : Prop where
  asm : asmIsPublicAddress t.text = .ok t.address.isPublic
  dns : dnsIsPublicAddress t.text = .ok t.address.isPublic

/-- The unspecified and the loopback address of IPv6 in their shortest texts. -/
def ShortestLocal (t : AddressText) : Prop :=
  t.address ∈ [.v6 0, .v6 1] → t.text.map Char.toLower ∈ ["::".toList, "::1".toList]

/-! ## IPv4 -/

theorem numberOf_octetText (n : Fin 256) : numberOf (octetText n) = some n.val := by
  obtain ⟨hoctet, hvalue, -⟩ := octetText_spec n
  have hdigits : isDigits (octetText n) = true := by
    unfold isOctet at hoctet
    simp only [Bool.and_eq_true] at hoctet
    exact hoctet.1.1.1
  have htrim : trimChars (octetText n) = octetText n := by
    refine trimChars_of_noSpace ?_
    intro c hc
    refine (addressChar_spec ?_).1
    unfold isAddressChar
    rw [hexValue_of_isDigit (isDigit_octetText n hc)]
    rfl
  unfold numberOf
  rw [htrim]
  simp only
  rw [if_neg (octetText_ne_nil n), if_pos hdigits, hvalue]

theorem octetOf_octetText (n : Fin 256) :
    octetOf (octetText n) = some (BitVec.ofNat 32 n.val) := by
  have hle : n.val ≤ 255 := by omega
  unfold octetOf
  rw [numberOf_octetText, Option.filter_some, if_pos (decide_eq_true hle)]
  rfl

/-- The shifted octets overlap nowhere. -/
theorem joined_octets (a b c d : Fin 256) :
    ((BitVec.ofNat 32 a.val <<< 24) ||| (BitVec.ofNat 32 b.val <<< 16) |||
      (BitVec.ofNat 32 c.val <<< 8) ||| BitVec.ofNat 32 d.val).toNat =
        (Quad.mk a b c d).value := by
  have hsmall : ∀ (n : Fin 256) (i : Nat), i ≤ 24 →
      (BitVec.ofNat 32 n.val <<< i).toNat = 2 ^ i * n.val := by
    intro n i hi
    rw [BitVec.toNat_shiftLeft, BitVec.toNat_ofNat, Nat.mod_eq_of_lt (show n.val < 2 ^ 32 by omega),
      Nat.shiftLeft_eq, Nat.mul_comm]
    refine Nat.mod_eq_of_lt ?_
    calc 2 ^ i * n.val ≤ 2 ^ 24 * n.val := Nat.mul_le_mul_right _ (Nat.pow_le_pow_right (by decide) hi)
      _ < 2 ^ 32 := by omega
  have hlast : (BitVec.ofNat 32 d.val).toNat = d.val := by
    rw [BitVec.toNat_ofNat, Nat.mod_eq_of_lt (by omega)]
  rw [BitVec.toNat_or, BitVec.toNat_or, BitVec.toNat_or, hsmall a 24 (by decide),
    hsmall b 16 (by decide), hsmall c 8 (by decide), hlast,
    ← Nat.two_pow_add_eq_or_of_lt (show 2 ^ 16 * b.val < 2 ^ 24 by omega),
    show 2 ^ 24 * a.val + 2 ^ 16 * b.val = 2 ^ 16 * (2 ^ 8 * a.val + b.val) by omega,
    ← Nat.two_pow_add_eq_or_of_lt (show 2 ^ 8 * c.val < 2 ^ 16 by omega),
    show 2 ^ 16 * (2 ^ 8 * a.val + b.val) + 2 ^ 8 * c.val =
      2 ^ 8 * ((2 ^ 16 * a.val + 2 ^ 8 * b.val) + c.val) by omega,
    ← Nat.two_pow_add_eq_or_of_lt (show d.val < 2 ^ 8 by omega)]
  unfold Quad.value
  simp only
  omega

theorem parseIPv4_text (q : Quad) : parseIPv4 q.text = some q.value := by
  unfold parseIPv4
  rw [q.splitOn_text]
  simp only [octetOf_octetText, Option.bind_eq_bind, Option.bind_some]
  rw [joined_octets]

theorem inIPv4Prefix_eq (n base prefixLen : Nat) :
    inIPv4Prefix n base prefixLen = inBlock 32 n base prefixLen := by
  unfold inIPv4Prefix inBlock
  rw [Nat.shiftRight_eq_div_pow, Nat.shiftRight_eq_div_pow]

/-- The checks refuse the blocks. -/
theorem refusedIPv4_text (q : Quad) : (!refusedIPv4 q.value q.text) = publicIPv4 q.value := by
  -- the one text that is compared denotes an address of a block
  have hliteral : decide (q.text = "169.254.169.254".toList) = true →
      inBlock 32 q.value 0xa9fe0000 16 = true := by
    intro heq
    have hparse := parseIPv4_text q
    rw [of_decide_eq_true heq] at hparse
    have hvalue : parseIPv4 "169.254.169.254".toList = some 0xa9fea9fe := by decide
    rw [hvalue, Option.some_inj] at hparse
    rw [← hparse]
    decide
  have hblocks : publicIPv4 q.value = [(0x00000000, 8), (0x0a000000, 8), (0x64400000, 10),
      (0x7f000000, 8), (0xa9fe0000, 16), (0xac100000, 12), (0xc0000000, 24), (0xc0000200, 24),
      (0xc0a80000, 16), (0xc6336400, 24), (0xcb007100, 24), (0xe0000000, 4), (0xf0000000, 4),
      (0xc0586300, 24)].all fun block => !inBlock 32 q.value block.1 block.2 := rfl
  rw [hblocks, Bool.eq_iff_iff]
  unfold refusedIPv4
  simp only [inIPv4Prefix_eq, List.all_cons, List.all_nil, Bool.and_true, Bool.not_eq_true',
    Bool.or_eq_false_iff, Bool.and_eq_true]
  have hrefused : inBlock 32 q.value 0xa9fe0000 16 = false →
      decide (q.text = "169.254.169.254".toList) = false := by
    intro hblock
    rw [Bool.eq_false_iff]
    exact fun heq => Bool.false_ne_true (hblock.symm.trans (hliteral heq))
  tauto

/-! ## Groups -/

/-- Digits are read up to their end. -/
theorem parseInt16_hex {cs : List Char} (hne : cs ≠ [])
    (hhex : ∀ c ∈ cs, (hexValue c).isSome = true) : parseInt16 cs = some (hexNumber cs : Int) := by
  have hchar : ∀ c ∈ cs, isJsSpace c = false := by
    intro c hc
    refine (addressChar_spec ?_).1
    unfold isAddressChar
    rw [hhex c hc]
    rfl
  have hnot : ∀ {c}, hexValue c = none → c ∉ cs := by
    intro c hnone hmem
    have hsome := hhex c hmem
    rw [hnone] at hsome
    cases hsome
  have hspace : cs.dropWhile isJsSpace = cs := by
    cases cs with
    | nil => rfl
    | cons c rest =>
        rw [List.dropWhile_cons, if_neg (by rw [hchar c List.mem_cons_self]; exact Bool.false_ne_true)]
  have hminus : '-' ∉ cs := hnot (by decide)
  -- neither a sign nor `0x` stands before the digits
  have hunsigned : dropSign cs = cs := by
    unfold dropSign
    split
    · exact absurd List.mem_cons_self hminus
    · exact absurd List.mem_cons_self (hnot (c := '+') (by decide))
    · rfl
  have hradix : dropRadix cs = cs := by
    unfold dropRadix
    split
    · exact absurd (List.mem_cons_of_mem _ List.mem_cons_self) (hnot (c := 'x') (by decide))
    · exact absurd (List.mem_cons_of_mem _ List.mem_cons_self) (hnot (c := 'X') (by decide))
    · rfl
  unfold parseInt16
  rw [hspace]
  simp only
  rw [hunsigned, hradix, List.takeWhile_eq_self_iff.mpr hhex, if_neg hne, if_neg]
  exact fun hhead => hminus (List.mem_of_mem_head? hhead)

/-- Hexadecimal digits say the number they were made of. -/
theorem hex_toDigits (n : Nat) : hexNumber (Nat.toDigits 16 n) = n ∧
    ∀ c ∈ Nat.toDigits 16 n, (hexValue c).isSome = true := by
  have hdigit : ∀ d < 16, hexValue d.digitChar = some d := by decide
  induction n using Nat.strong_induction_on with
  | h n ih =>
      by_cases hlt : n < 16
      · rw [Nat.toDigits_of_lt_base hlt]
        refine ⟨?_, ?_⟩
        · show 16 * 0 + (hexValue n.digitChar).getD 0 = n
          rw [hdigit n hlt, Option.getD_some]
          omega
        · intro c hc
          rw [List.mem_singleton.mp hc, hdigit n hlt]
          rfl
      · obtain ⟨hvalue, hhex⟩ := ih (n / 16) (by omega)
        have hmod : n % 16 < 16 := Nat.mod_lt n (by decide)
        rw [Nat.toDigits_of_base_le (by decide) (by omega)]
        refine ⟨?_, ?_⟩
        · have hconcat : hexNumber (Nat.toDigits 16 (n / 16) ++ [(n % 16).digitChar]) =
              16 * hexNumber (Nat.toDigits 16 (n / 16)) +
                (hexValue (n % 16).digitChar).getD 0 := by
            unfold hexNumber
            rw [List.foldl_append]
            rfl
          rw [hconcat, hvalue, hdigit _ hmod, Option.getD_some]
          omega
        · intro c hc
          rcases List.mem_append.mp hc with hc | hc
          · exact hhex c hc
          · rw [List.mem_singleton.mp hc, hdigit _ hmod]
            rfl

theorem parseInt16_toDigits (n : Nat) : parseInt16 (Nat.toDigits 16 n) = some (n : Int) := by
  obtain ⟨hvalue, hhex⟩ := hex_toDigits n
  rw [parseInt16_hex Nat.toDigits_ne_nil hhex, hvalue]

/-- Groups are appended to the number. -/
theorem foldlM_pushGroup {parts : List (List Char)} {words : List Nat}
    (hparts : parts.map parseInt16 = words.map fun (word : Nat) => some (word : Int))
    (hwords : ∀ word ∈ words, word < 65536) (out : Nat) :
    parts.foldlM pushGroup out = some (words.foldl (fun n word => 65536 * n + word) out) := by
  induction words generalizing parts out with
  | nil =>
      obtain rfl := List.map_eq_nil_iff.mp hparts
      rfl
  | cons word words ih =>
      obtain ⟨part, rest, rfl, hpart, hrest⟩ := List.map_eq_cons_iff.mp hparts
      have hlt := hwords word List.mem_cons_self
      have hpush : pushGroup out part = some (65536 * out + word) := by
        unfold pushGroup
        rw [hpart]
        simp only
        rw [if_neg (by omega), Int.toNat_natCast,
          ← Nat.shiftLeft_add_eq_or_of_lt (show word < 2 ^ 16 by omega), Nat.shiftLeft_eq,
          Nat.mul_comm]
      rw [List.foldlM_cons, hpush, Option.bind_eq_bind, Option.bind_some, List.foldl_cons]
      exact ih hrest (fun word hmem => hwords word (List.mem_cons_of_mem _ hmem)) _

/-! ## IPv6 -/

section Inet6

open Inet6

/-- A text has a dot where it ends in an IPv4 address. -/
theorem dot_mem_pieces (groups : List HexGroup) (tail : Option Quad) :
    '.' ∈ [':'].intercalate (pieces groups tail) ↔ tail.isSome = true := by
  constructor
  · intro hmem
    rcases mem_intercalate hmem with heq | ⟨piece, hpiece, hdot⟩
    · exact absurd heq (by decide)
    · rcases List.mem_append.mp hpiece with hgroup | htail
      · obtain ⟨group, -, rfl⟩ := List.mem_map.mp hgroup
        exact absurd hdot (group.not_mem (by decide))
      · cases tail with
        | none => cases htail
        | some q => rfl
  · intro hsome
    obtain ⟨q, rfl⟩ := Option.isSome_iff_exists.mp hsome
    have htext : q.text ∈ pieces groups (some q) := List.mem_append_right _ List.mem_cons_self
    exact mem_intercalate_of_mem htext q.dot_mem_text

theorem dot_mem_text (t : Inet6) : decide ('.' ∈ t.text) = t.tail.isSome := by
  rw [Bool.eq_iff_iff, decide_eq_true_eq]
  unfold text
  split
  · exact dot_mem_pieces _ _
  · rw [List.mem_append, List.mem_cons, List.mem_cons, dot_mem_pieces, dot_mem_pieces]
    simp

theorem ipv4Tail_pieces (groups : List HexGroup) (tail : Option Quad) :
    ipv4Tail tail.isSome (pieces groups tail) = tail.map Quad.text ∧
      beforeTail tail.isSome (pieces groups tail) = groups.map HexGroup.digits := by
  unfold ipv4Tail beforeTail pieces
  cases tail with
  | none => simp
  | some q => simp [q.text_ne_nil]

theorem filter_digits (groups : List HexGroup) :
    ((groups.map HexGroup.digits).filter fun part => decide (part ≠ [])) =
      groups.map HexGroup.digits := by
  refine List.filter_eq_self.mpr ?_
  intro part hpart
  obtain ⟨group, -, rfl⟩ := List.mem_map.mp hpart
  exact decide_eq_true group.spec.1

/-- The eight parts of a text. -/
def expanded (t : Inet6) : List (List Char) :=
  match t.gap with
  | none => t.left.map HexGroup.digits ++ tailGroups (t.tail.map Quad.text)
  | some right =>
      t.left.map HexGroup.digits ++
        List.replicate (8 - (t.left.length + right.length + 2 * t.tail.toList.length)) ['0'] ++
        right.map HexGroup.digits ++ tailGroups (t.tail.map Quad.text)

theorem expandGroups_text (t : Inet6) : expandGroups t.text = some (expanded t) := by
  have hfits := t.fits
  have hlength : ∀ tail : Option Quad,
      (tail.map Quad.text).toList.length = tail.toList.length := by
    intro tail
    cases tail <;> rfl
  unfold expandGroups
  rw [dot_mem_text]
  unfold text expanded
  cases hgap : t.gap with
  | none =>
      rw [hgap] at hfits
      simp only at hfits ⊢
      have hpieces : pieces t.left t.tail ≠ [] := by
        intro hnil
        have hcount := groupCount_pieces t.left t.tail true (fun _ => rfl)
        rw [hnil, hfits] at hcount
        cases hcount
      rw [if_neg (by rw [hasDouble_intercalate (pieces_spec _ _)]; exact Bool.false_ne_true),
        splitOn_intercalate hpieces (fun p hp => (pieces_spec _ _ p hp).2),
        (ipv4Tail_pieces _ _).1, (ipv4Tail_pieces _ _).2, hlength, List.length_map, hfits]
      rfl
  | some right =>
      rw [hgap] at hfits
      simp only at hfits ⊢
      rw [if_pos (hasDouble_append _ _),
        splitDouble_append (hasDouble_intercalate (pieces_spec _ _))
          (ends_intercalate (pieces_spec _ _)).2,
        splitDouble_of_not_hasDouble (hasDouble_intercalate (pieces_spec _ _))]
      simp only
      have hleft : pieces t.left none = t.left.map HexGroup.digits := List.append_nil _
      rw [colonPieces_intercalate, colonPieces_intercalate, (ipv4Tail_pieces _ _).1,
        (ipv4Tail_pieces _ _).2, hleft, filter_digits, filter_digits, hlength, List.length_map,
        List.length_map, if_neg (by omega)]

theorem map_parseInt16_expanded (t : Inet6) :
    (expanded t).map parseInt16 = t.words.map fun (word : Nat) => some (word : Int) := by
  have hgroups : ∀ groups : List HexGroup, (groups.map HexGroup.digits).map parseInt16 =
      (groupValues groups).map fun (word : Nat) => some (word : Int) := by
    intro groups
    unfold groupValues
    rw [List.map_map, List.map_map]
    exact List.map_congr_left fun group _ => parseInt16_hex group.spec.1 group.spec.2.2
  have htail : ∀ tail : Option Quad, (tailGroups (tail.map Quad.text)).map parseInt16 =
      (tailWords tail).map fun (word : Nat) => some (word : Int) := by
    intro tail
    cases tail with
    | none => rfl
    | some q =>
        have hlt := q.value_lt
        have hhigh : (q.value >>> 16) &&& 0xffff = q.value / 65536 := by
          rw [show 0xffff = 2 ^ 16 - 1 from rfl, Nat.and_two_pow_sub_one_eq_mod,
            Nat.shiftRight_eq_div_pow, Nat.mod_eq_of_lt (by omega)]
        have hlow : q.value &&& 0xffff = q.value % 65536 := Nat.and_two_pow_sub_one_eq_mod _ 16
        show [parseInt16 (Nat.toDigits 16 ((((parseIPv4 q.text).getD 0) >>> 16) &&& 0xffff)),
          parseInt16 (Nat.toDigits 16 (((parseIPv4 q.text).getD 0) &&& 0xffff))] = _
        rw [parseIPv4_text, Option.getD_some, hhigh, hlow, parseInt16_toDigits,
          parseInt16_toDigits]
        rfl
  have hzero : parseInt16 ['0'] = some (0 : Int) := by decide
  unfold expanded words
  cases hgap : t.gap with
  | none =>
      simp only
      rw [List.map_append, List.map_append, hgroups, htail]
  | some right =>
      simp only
      rw [List.map_append, List.map_append, List.map_append, List.map_append, List.map_append,
        List.map_append, hgroups, hgroups, htail, List.map_replicate, List.map_replicate, hzero]
      rfl

/-- A text of an address is read as the address. -/
theorem parseIPv6_text (t : Inet6) : parseIPv6ToBigInt t.text = some t.value := by
  have htrim : trimChars t.text = t.text :=
    trimChars_of_noSpace fun c hc => (addressChar_spec (t.isAddressChar_text hc)).1
  have hbracket : unbracket t.text = t.text := by
    unfold unbracket
    rw [if_neg]
    intro h
    exact (addressChar_spec (t.isAddressChar_text (List.mem_of_mem_head? h.1))).2.1 rfl
  have hzone : '%' ∉ t.text :=
    fun hmem => (addressChar_spec (t.isAddressChar_text hmem)).2.2 rfl
  have hcolon := t.lower.colon_mem_text
  unfold parseIPv6ToBigInt
  rw [htrim, hbracket]
  simp only
  rw [if_neg hzone, ← t.text_lower, if_neg (not_not_intro hcolon), expandGroups_text,
    Option.bind_some]
  have hparts := map_parseInt16_expanded t.lower
  have hlength : (expanded t.lower).length = 8 := by
    rw [← List.length_map parseInt16, hparts, List.length_map, t.lower.length_words]
  unfold readGroups
  rw [if_neg (not_not_intro hlength), foldlM_pushGroup hparts t.lower.words_lt]
  exact congrArg some t.value_lower

theorem isPublicIPv4_text (name : String) (q : Quad) :
    isPublicIPv4 name q.text = .ok (publicIPv4 q.value) := by
  unfold isPublicIPv4
  rw [parseIPv4_text]
  exact congrArg Except.ok (refusedIPv4_text q)

/-- The last 32 bits are written as an IPv4 address. -/
theorem mappedText_eq (addr : Nat) :
    ∃ q : Quad, mappedText addr = q.text ∧ q.value = addr % 2 ^ 32 := by
  have hlast : addr &&& ((1 <<< 32) - 1) = addr % 2 ^ 32 := Nat.and_two_pow_sub_one_eq_mod addr 32
  have hbyte : ∀ n : Nat, n &&& 0xff = n % 256 := fun n => Nat.and_two_pow_sub_one_eq_mod n 8
  have hlt : addr % 2 ^ 32 < 2 ^ 32 := Nat.mod_lt _ (by decide)
  generalize hn : addr % 2 ^ 32 = n at *
  refine ⟨⟨⟨n / 2 ^ 24 % 256, Nat.mod_lt _ (by decide)⟩, ⟨n / 2 ^ 16 % 256, Nat.mod_lt _ (by decide)⟩,
    ⟨n / 2 ^ 8 % 256, Nat.mod_lt _ (by decide)⟩, ⟨n % 256, Nat.mod_lt _ (by decide)⟩⟩, ?_, ?_⟩
  · unfold mappedText
    rw [hlast]
    simp only [hbyte, Nat.shiftRight_eq_div_pow]
    rfl
  · show ((n / 2 ^ 24 % 256 * 256 + n / 2 ^ 16 % 256) * 256 + n / 2 ^ 8 % 256) * 256 + n % 256 = n
    omega

/-- The blocks the code names as texts. -/
theorem isInBigIntPrefix_eq {base : String} {prefixValue : Nat}
    (h : parseIPv6ToBigInt base.toList = some prefixValue) (addr prefixLen : Nat) :
    isInBigIntPrefix addr base prefixLen = inBlock 128 addr prefixValue prefixLen := by
  unfold isInBigIntPrefix inBlock
  rw [h]
  simp only [Nat.shiftRight_eq_div_pow]

/-- The shortest texts are of the unspecified and the loopback address. -/
theorem value_of_shortest {t : Inet6}
    (h : t.text.map Char.toLower ∈ ["::".toList, "::1".toList]) : t.value ∈ [0, 1] := by
  have hparse := parseIPv6_text t.lower
  rw [t.text_lower, t.value_lower] at hparse
  have hzero : parseIPv6ToBigInt "::".toList = some 0 := by decide
  have hone : parseIPv6ToBigInt "::1".toList = some 1 := by decide
  rw [List.mem_cons, List.mem_singleton] at h ⊢
  rcases h with h | h
  · rw [h, hzero] at hparse
    exact Or.inl (Option.some.inj hparse).symm
  · rw [h, hone] at hparse
    exact Or.inr (Option.some.inj hparse).symm

/-- What the code makes of a text of an address. -/
theorem isPublicIPv6_text (name : String) (t : Inet6) : isPublicIPv6 name t.text =
    .ok (if t.value ∈ [0, 1] then
      decide (t.text.map Char.toLower ∉ ["::".toList, "::1".toList])
      else publicIPv6 t.value) := by
  have hmapped : parseIPv6ToBigInt "::ffff:0:0".toList = some (0xffff * 2 ^ 32) := by decide
  have hlocal : parseIPv6ToBigInt "fc00::".toList = some (0xfc00 * 2 ^ 112) := by decide
  have hlink : parseIPv6ToBigInt "fe80::".toList = some (0xfe80 * 2 ^ 112) := by decide
  have hmulticast : parseIPv6ToBigInt "ff00::".toList = some (0xff00 * 2 ^ 112) := by decide
  have hexample : parseIPv6ToBigInt "2001:db8::".toList = some (0x20010db8 * 2 ^ 96) := by decide
  have hteredo : parseIPv6ToBigInt "2001::".toList = some (0x20010000 * 2 ^ 96) := by decide
  unfold isPublicIPv6
  rw [parseIPv6_text]
  simp only
  have hmem : t.text.map Char.toLower ∈ ["::".toList, "::1".toList] ↔
      t.text.map Char.toLower = "::".toList ∨ t.text.map Char.toLower = "::1".toList := by
    rw [List.mem_cons, List.mem_singleton]
  by_cases hshort : t.text.map Char.toLower ∈ ["::".toList, "::1".toList]
  · rw [if_pos (hmem.mp hshort), if_pos (value_of_shortest hshort),
      decide_eq_false (not_not_intro hshort)]
  · rw [if_neg (mt hmem.mpr hshort), decide_eq_true hshort, isInBigIntPrefix_eq hmapped,
      isInBigIntPrefix_eq hlocal, isInBigIntPrefix_eq hlink, isInBigIntPrefix_eq hmulticast,
      isInBigIntPrefix_eq hexample, isInBigIntPrefix_eq hteredo]
    by_cases hvalue : t.value ∈ [0, 1]
    · rw [if_pos hvalue]
      rw [List.mem_cons, List.mem_singleton] at hvalue
      rcases hvalue with h | h
      · rw [h, if_neg (by decide)]
        exact congrArg Except.ok (by decide)
      · rw [h, if_neg (by decide)]
        exact congrArg Except.ok (by decide)
    · rw [if_neg hvalue]
      rw [List.mem_cons, List.mem_singleton, not_or] at hvalue
      unfold publicIPv6
      by_cases hblock : inBlock 128 t.value (0xffff * 2 ^ 32) 96 = true
      · obtain ⟨q, htext, hq⟩ := mappedText_eq t.value
        rw [if_pos hblock, if_pos hblock, htext, isPublicIPv4_text, hq]
      · rw [if_neg hblock, if_neg hblock]
        have hfirst : inBlock 128 t.value 0 128 = false ∧ inBlock 128 t.value 1 128 = false := by
          unfold inBlock
          simp [hvalue.1, hvalue.2]
        refine congrArg Except.ok ?_
        simp only [nonPublicIPv6, teredoIPv6, List.cons_append, List.nil_append, List.all_cons,
          List.all_nil, hfirst.1, hfirst.2, Bool.not_false, Bool.true_and, Bool.and_true,
          Bool.not_or, Bool.and_assoc]

end Inet6

/-! ## The answers of the copies -/

/-- The copies agree on every text, address or not. -/
theorem copies_agree (ip : List Char) :
    (asmIsPublicAddress ip).toOption = (dnsIsPublicAddress ip).toOption := by
  have hv4 : ∀ text, (isPublicIPv4 "ASM" text).toOption = (isPublicIPv4 "DNS" text).toOption := by
    intro text
    unfold isPublicIPv4
    cases parseIPv4 text <;> rfl
  have hv6 : (isPublicIPv6 "ASM" ip).toOption = (isPublicIPv6 "DNS" ip).toOption := by
    unfold isPublicIPv6
    cases parseIPv6ToBigInt ip with
    | none => rfl
    | some addr =>
        simp only
        split
        · rfl
        · split
          · exact hv4 _
          · rfl
  unfold asmIsPublicAddress dnsIsPublicAddress isPublicAddress
  split
  · exact hv4 ip
  · split
    · exact hv6
    · rfl

theorem isPublicAddress_text (name : String) (t : AddressText) :
    isPublicAddress name t.text = .ok t.address.isPublic ↔ ShortestLocal t := by
  unfold isPublicAddress
  cases t with
  | v4 q =>
      have h4 : isIP q.text = 4 := by
        unfold isIP
        rw [if_pos q.isIPv4_text]
      show (if isIP q.text = 4 then isPublicIPv4 name q.text else _) = _ ↔ _
      rw [if_pos h4, isPublicIPv4_text]
      refine iff_of_true rfl ?_
      intro hmem
      simp [AddressText.address] at hmem
  | v6 t =>
      show (if isIP t.text = 4 then _ else if isIP t.text = 6 then isPublicIPv6 name t.text
        else _) = .ok (publicIPv6 t.value) ↔ (Address.v6 t.value ∈ _ → t.text.map Char.toLower ∈ _)
      rw [t.isIP_text, if_neg (by decide), if_pos rfl, isPublicIPv6_text]
      have haddress : Address.v6 t.value ∈ [Address.v6 0, Address.v6 1] ↔ t.value ∈ [0, 1] := by
        simp
      rw [haddress, Except.ok.injEq]
      by_cases hvalue : t.value ∈ [0, 1]
      · -- neither of the two is public
        have hlocal : publicIPv6 t.value = false := by
          rw [List.mem_cons, List.mem_singleton] at hvalue
          rcases hvalue with h | h <;> rw [h] <;> decide
        rw [if_pos hvalue, hlocal, decide_eq_false_iff_not, not_not]
        exact ⟨fun h _ => h, fun h => h hvalue⟩
      · rw [if_neg hvalue]
        exact iff_of_true rfl fun h => absurd h hvalue

/-- **Non-public addresses.**  Both copies answer for the address that a text denotes, whatever
its spelling, unless the text is another one of `::` or `::1`. -/
theorem screened_iff (t : AddressText) : Screened t ↔ ShortestLocal t := by
  constructor
  · intro h
    exact (isPublicAddress_text "ASM" t).mp h.asm
  · intro h
    exact ⟨(isPublicAddress_text "ASM" t).mpr h, (isPublicAddress_text "DNS" t).mpr h⟩

/-- The loopback address with its zeros written out. -/
def writtenLoopback : Inet6 where
  left := List.replicate 7 ⟨['0'], by decide⟩ ++ [⟨['1'], by decide⟩]
  fits := rfl

/-- The loopback address is probed under its long text. -/
theorem written_loopback_probed :
    asmIsPublicAddress "0:0:0:0:0:0:0:1".toList = .ok true ∧
      asmIsPublicAddress "::1".toList = .ok false ∧ ¬ ∀ t, Screened t := by
  refine ⟨by decide +kernel, by decide +kernel, ?_⟩
  intro hall
  have hanswer : asmIsPublicAddress writtenLoopback.text = .ok true := by decide +kernel
  have hscreened := (hall (.v6 writtenLoopback)).asm
  have hpublic : (AddressText.v6 writtenLoopback).address.isPublic = false := by decide +kernel
  rw [hpublic] at hscreened
  exact absurd (hanswer.symm.trans hscreened) (by decide)

end Scanner
end Ctem
