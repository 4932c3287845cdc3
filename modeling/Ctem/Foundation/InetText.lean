import Mathlib.Data.List.TakeWhile
import Ctem.Foundation.JsonText
import Ctem.Foundation.PathText

/-!
# Internet addresses as text

An IPv4 address is written as four decimal octets.  An IPv6 address is written as groups of up to
four hexadecimal digits, one run of zero groups may be left out, and the last two groups may be
written as an IPv4 address.

* `Quad` and `Inet6` are the texts, `value` the address a text denotes.
* `isIPv4` and `isIPv6` recognise them.
-/

namespace Ctem
namespace Foundation

/-! ## Double separators -/

/-- `text.split('::')` for a separator that is a character twice. -/
def splitDouble (sep : Char) : List Char → List (List Char)
  | [] => [[]]
  | [c] => [[c]]
  | c :: d :: rest =>
      if c = sep ∧ d = sep then [] :: splitDouble sep rest
      else
        match splitDouble sep (d :: rest) with
        | [] => [[c]]
        | part :: parts => (c :: part) :: parts

/-- `text.includes('::')`. -/
def hasDouble (sep : Char) : List Char → Bool
  | [] => false
  | [_] => false
  | c :: d :: rest => (decide (c = sep) && decide (d = sep)) || hasDouble sep (d :: rest)

/-! ## IPv4 -/

/-- Four octets. -/
structure Quad where
  a : Fin 256
  b : Fin 256
  c : Fin 256
  d : Fin 256
deriving DecidableEq

/-- An octet in decimal. -/
def octetText (n : Nat) : List Char := Nat.toDigits 10 n

namespace Quad

def text (q : Quad) : List Char :=
  ['.'].intercalate [octetText q.a, octetText q.b, octetText q.c, octetText q.d]

/-- The address, as a number of 32 bits. -/
def value (q : Quad) : Nat :=
  ((q.a.val * 256 + q.b.val) * 256 + q.c.val) * 256 + q.d.val

end Quad

/-- An octet without leading zeros. -/
def isOctet (cs : List Char) : Bool :=
  isDigits cs && decide (cs.length ≤ 3) && decide (digitsValue cs < 256) &&
    (decide (cs.length = 1) || decide (cs.head? ≠ some '0'))

def isIPv4 (cs : List Char) : Bool :=
  decide ((splitOn '.' cs).length = 4) && (splitOn '.' cs).all isOctet

/-! ## IPv6 -/

/-- The value of hexadecimal digits. -/
def hexNumber (cs : List Char) : Nat :=
  cs.foldl (fun n c => 16 * n + (hexValue c).getD 0) 0

/-- A group: one to four hexadecimal digits. -/
def isGroup (cs : List Char) : Bool :=
  !cs.isEmpty && decide (cs.length ≤ 4) && cs.all fun c => (hexValue c).isSome

/-- How many groups the pieces stand for: the last of them may be an IPv4 address. -/
def groupCount (tailAllowed : Bool) : List (List Char) → Option Nat
  | [] => some 0
  | [last] =>
      if isGroup last then some 1
      else if tailAllowed && isIPv4 last then some 2
      else none
  | piece :: rest =>
      if isGroup piece then (groupCount tailAllowed rest).map (· + 1) else none

/-- The pieces between colons; nothing has none. -/
def colonPieces (cs : List Char) : List (List Char) :=
  if cs = [] then [] else splitOn ':' cs

/-- An address without its zone. -/
def isPlainIPv6 (cs : List Char) : Bool :=
  match splitDouble ':' cs with
  | [whole] => decide (groupCount true (colonPieces whole) = some 8)
  | [left, right] =>
      match groupCount false (colonPieces left), groupCount true (colonPieces right) with
      | some m, some n => decide (m + n ≤ 7)
      | _, _ => false
  | _ => false

/-- A zone may stand behind a percent sign. -/
def isZone (cs : List Char) : Bool :=
  !cs.isEmpty && cs.all fun c => c.isAlphanum || decide (c ∈ ['-', '.', ':'])

def isIPv6 (cs : List Char) : Bool :=
  isPlainIPv6 (cs.takeWhile fun c => decide (c ≠ '%')) &&
    match cs.dropWhile fun c => decide (c ≠ '%') with
    | [] => true
    | _ :: zone => isZone zone

/-- `isIP` of `node:net`. -/
def isIP (cs : List Char) : Nat :=
  if isIPv4 cs then 4 else if isIPv6 cs then 6 else 0

/-- A group, in either letter case and with or without leading zeros. -/
structure HexGroup where
  digits : List Char
  isGroup : isGroup digits = true

/-- A text of an IPv6 address: groups, behind a gap more groups, and an IPv4 address for the last
two.  A gap stands for a group at least. -/
structure Inet6 where
  left : List HexGroup
  gap : Option (List HexGroup) := none
  tail : Option Quad := none
  fits : match gap with
    | none => left.length + 2 * tail.toList.length = 8
    | some right => left.length + right.length + 2 * tail.toList.length ≤ 7

namespace Inet6

def pieces (groups : List HexGroup) (tail : Option Quad) : List (List Char) :=
  groups.map HexGroup.digits ++ (tail.map Quad.text).toList

def text (t : Inet6) : List Char :=
  match t.gap with
  | none => [':'].intercalate (pieces t.left t.tail)
  | some right => [':'].intercalate (pieces t.left none) ++ ':' :: ':' ::
      [':'].intercalate (pieces right t.tail)

/-- The two groups of an IPv4 address. -/
def tailWords (tail : Option Quad) : List Nat :=
  match tail with
  | none => []
  | some q => [q.value / 65536, q.value % 65536]

def groupValues (groups : List HexGroup) : List Nat :=
  groups.map fun group => hexNumber group.digits

/-- The eight groups. -/
def words (t : Inet6) : List Nat :=
  match t.gap with
  | none => groupValues t.left ++ tailWords t.tail
  | some right =>
      groupValues t.left ++
        List.replicate (8 - (t.left.length + right.length + 2 * t.tail.toList.length)) 0 ++
        groupValues right ++ tailWords t.tail

/-- The address, as a number of 128 bits. -/
def value (t : Inet6) : Nat :=
  t.words.foldl (fun n word => 65536 * n + word) 0

end Inet6

/-! ## Double separators in joined texts -/

section Double

variable {sep : Char}

theorem hasDouble_cons_ne {c : Char} (hne : c ≠ sep) (cs : List Char) :
    hasDouble sep (c :: cs) = hasDouble sep cs := by
  cases cs with
  | nil => rfl
  | cons d rest => simp [hasDouble, hne]

theorem hasDouble_cons_sep {cs : List Char} (hhead : cs.head? ≠ some sep) :
    hasDouble sep (sep :: cs) = hasDouble sep cs := by
  cases cs with
  | nil => rfl
  | cons d rest =>
      have hne : d ≠ sep := fun h => hhead (by rw [h]; rfl)
      simp [hasDouble, hne]

/-- A piece without the separator holds no double one. -/
theorem hasDouble_append_of_not_mem {piece : List Char} (hfree : sep ∉ piece) (cs : List Char) :
    hasDouble sep (piece ++ cs) = hasDouble sep cs := by
  induction piece with
  | nil => rfl
  | cons c rest ih =>
      rw [List.mem_cons, not_or] at hfree
      rw [List.cons_append, hasDouble_cons_ne (Ne.symm hfree.1), ih hfree.2]

theorem hasDouble_append (l r : List Char) : hasDouble sep (l ++ sep :: sep :: r) = true := by
  induction l with
  | nil => simp [hasDouble]
  | cons c rest ih =>
      cases rest with
      | nil =>
          rw [List.singleton_append, hasDouble]
          simp [hasDouble]
      | cons d rest =>
          rw [List.cons_append, List.cons_append, hasDouble, ← List.cons_append, ih, Bool.or_true]

theorem splitDouble_cons {c d : Char} {rest part : List Char} {parts : List (List Char)}
    (hne : ¬(c = sep ∧ d = sep)) (hrest : splitDouble sep (d :: rest) = part :: parts) :
    splitDouble sep (c :: d :: rest) = (c :: part) :: parts := by
  rw [splitDouble, if_neg hne, hrest]

/-- Without a double separator there is nothing to split. -/
theorem splitDouble_of_not_hasDouble {cs : List Char} (h : hasDouble sep cs = false) :
    splitDouble sep cs = [cs] := by
  induction cs with
  | nil => rfl
  | cons c rest ih =>
      cases rest with
      | nil => rfl
      | cons d rest =>
          rw [hasDouble, Bool.or_eq_false_iff] at h
          exact splitDouble_cons (by simpa using h.1) (ih h.2)

/-- The first double separator splits. -/
theorem splitDouble_append {l : List Char} (h : hasDouble sep l = false)
    (hlast : l.getLast? ≠ some sep) (r : List Char) :
    splitDouble sep (l ++ sep :: sep :: r) = l :: splitDouble sep r := by
  induction l with
  | nil => rw [List.nil_append, splitDouble, if_pos ⟨rfl, rfl⟩]
  | cons c rest ih =>
      cases rest with
      | nil =>
          have hne : c ≠ sep := fun heq => hlast (by rw [heq]; rfl)
          have hsplit : splitDouble sep (sep :: sep :: r) = [] :: splitDouble sep r := by
            rw [splitDouble, if_pos ⟨rfl, rfl⟩]
          exact splitDouble_cons (fun heq => hne heq.1) hsplit
      | cons d rest =>
          rw [hasDouble, Bool.or_eq_false_iff] at h
          rw [List.getLast?_cons_cons] at hlast
          exact splitDouble_cons (by simpa using h.1) (ih h.2 hlast)

variable {pieces : List (List Char)}

/-- A joined text begins and ends with a piece. -/
theorem ends_intercalate (hne : ∀ piece ∈ pieces, piece ≠ [] ∧ sep ∉ piece) :
    ([sep].intercalate pieces).head? ≠ some sep ∧
      ([sep].intercalate pieces).getLast? ≠ some sep := by
  induction pieces with
  | nil => simp
  | cons piece rest ih =>
      obtain ⟨hnil, hfree⟩ := hne piece List.mem_cons_self
      have hhead : ∀ cs, (piece ++ cs).head? ≠ some sep := by
        intro cs hhead
        rw [List.head?_append_of_ne_nil _ hnil] at hhead
        exact hfree (List.mem_of_mem_head? hhead)
      cases rest with
      | nil =>
          rw [List.intercalate_singleton]
          refine ⟨by simpa using hhead [], ?_⟩
          exact fun hlast => hfree (List.mem_of_mem_getLast? hlast)
      | cons next rest =>
          have hrest := (ih fun p hp => hne p (List.mem_cons_of_mem _ hp)).2
          rw [List.intercalate_cons_cons, List.append_assoc]
          refine ⟨hhead _, ?_⟩
          have htail : [sep].intercalate (next :: rest) ≠ [] := by
            obtain ⟨hnext, -⟩ := hne next (List.mem_cons_of_mem _ List.mem_cons_self)
            cases rest with
            | nil => simpa using hnext
            | cons next' rest => simp [List.intercalate_cons_cons, hnext]
          rw [List.getLast?_append_of_ne_nil _ (by simp), List.getLast?_append_of_ne_nil _ htail]
          exact hrest

/-- Joining with single separators makes no double one. -/
theorem hasDouble_intercalate (hne : ∀ piece ∈ pieces, piece ≠ [] ∧ sep ∉ piece) :
    hasDouble sep ([sep].intercalate pieces) = false := by
  induction pieces with
  | nil => rfl
  | cons piece rest ih =>
      obtain ⟨-, hfree⟩ := hne piece List.mem_cons_self
      have hrest : ∀ p ∈ rest, p ≠ [] ∧ sep ∉ p := fun p hp => hne p (List.mem_cons_of_mem _ hp)
      cases rest with
      | nil =>
          rw [List.intercalate_singleton, ← List.append_nil piece,
            hasDouble_append_of_not_mem hfree]
          rfl
      | cons next rest =>
          rw [List.intercalate_cons_cons, List.append_assoc, List.singleton_append,
            hasDouble_append_of_not_mem hfree,
            hasDouble_cons_sep (ends_intercalate hrest).1, ih hrest]

end Double

/-! ## The texts are recognised -/

/-- An octet is digits that say its value. -/
theorem octetText_spec : ∀ n : Fin 256, isOctet (octetText n) = true ∧
    digitsValue (octetText n) = n.val ∧ (octetText n).all Char.isDigit = true := by
  decide +kernel

theorem isDigit_octetText (n : Fin 256) {c : Char} (hc : c ∈ octetText n) : c.isDigit = true :=
  List.all_eq_true.mp (octetText_spec n).2.2 c hc

theorem octetText_ne_nil (n : Fin 256) : octetText n ≠ [] := Nat.toDigits_ne_nil

namespace Quad

variable (q : Quad)

theorem mem_text {c : Char} (hc : c ∈ q.text) : c.isDigit = true ∨ c = '.' := by
  rcases mem_intercalate hc with rfl | ⟨piece, hpiece, hmem⟩
  · exact Or.inr rfl
  · left
    simp only [List.mem_cons, List.not_mem_nil, or_false] at hpiece
    rcases hpiece with rfl | rfl | rfl | rfl <;> exact isDigit_octetText _ hmem

theorem splitOn_text : splitOn '.' q.text =
    [octetText q.a, octetText q.b, octetText q.c, octetText q.d] := by
  refine splitOn_intercalate (List.cons_ne_nil _ _) ?_
  have hfree : ∀ n : Fin 256, '.' ∉ octetText n := by
    intro n hmem
    exact absurd (isDigit_octetText n hmem) (by decide)
  intro piece hpiece
  simp only [List.mem_cons, List.not_mem_nil, or_false] at hpiece
  rcases hpiece with rfl | rfl | rfl | rfl <;> exact hfree _

theorem isIPv4_text : isIPv4 q.text = true := by
  unfold isIPv4
  rw [splitOn_text]
  simp [octetText_spec]

theorem dot_mem_text : '.' ∈ q.text := by
  unfold text
  rw [List.intercalate_cons_cons]
  simp

theorem text_ne_nil : q.text ≠ [] :=
  List.ne_nil_of_mem q.dot_mem_text

theorem value_lt : q.value < 2 ^ 32 := by
  obtain ⟨a, b, c, d⟩ := q
  show ((a.val * 256 + b.val) * 256 + c.val) * 256 + d.val < 2 ^ 32
  omega

end Quad

/-- The characters of addresses. -/
def isAddressChar (c : Char) : Bool :=
  (hexValue c).isSome || decide (c = ':') || decide (c = '.')

theorem lt_of_hexValue {c : Char} (h : (hexValue c).isSome = true) : c.toNat < 128 := by
  unfold hexValue at h
  have hle : ∀ {a b : Char}, a ≤ b → a.toNat ≤ b.toNat := fun hab => hab
  split at h
  case isTrue hrange => exact Nat.lt_of_le_of_lt (hle hrange.2) (by decide)
  case isFalse =>
      split at h
      case isTrue hrange => exact Nat.lt_of_le_of_lt (hle hrange.2) (by decide)
      case isFalse =>
          split at h
          case isTrue hrange => exact Nat.lt_of_le_of_lt (hle hrange.2) (by decide)
          case isFalse => cases h

/-- What the parsers need to know of a character of an address. -/
theorem addressChar_spec {c : Char} (h : isAddressChar c = true) :
    isJsSpace c = false ∧ c ≠ '[' ∧ c ≠ '%' := by
  refine ⟨?_, ?_, ?_⟩
  · have hlt : c.toNat < 128 := by
      unfold isAddressChar at h
      rw [Bool.or_eq_true, Bool.or_eq_true, decide_eq_true_eq, decide_eq_true_eq] at h
      rcases h with (h | rfl) | rfl
      · exact lt_of_hexValue h
      · decide
      · decide
    have hall : ∀ n < 128, isAddressChar (Char.ofNat n) = true → isJsSpace (Char.ofNat n) = false := by
      decide
    rw [← Char.ofNat_toNat c] at h ⊢
    exact hall c.toNat hlt h
  · rintro rfl
    exact absurd h (by decide)
  · rintro rfl
    exact absurd h (by decide)

theorem hexValue_of_isDigit {c : Char} (h : c.isDigit = true) : (hexValue c).isSome = true := by
  have hrange : '0' ≤ c ∧ c ≤ '9' := by
    delta Char.isDigit at h
    simp only [Bool.and_eq_true, decide_eq_true_eq, ge_iff_le] at h
    exact h
  unfold hexValue
  rw [if_pos hrange]
  rfl

/-- Lower case does not change the value of a digit. -/
theorem hexValue_toLower {c : Char} (h : (hexValue c).isSome = true) :
    hexValue c.toLower = hexValue c := by
  have hall : ∀ n < 128, (hexValue (Char.ofNat n)).isSome = true →
      hexValue (Char.ofNat n).toLower = hexValue (Char.ofNat n) := by decide
  rw [← Char.ofNat_toNat c] at h ⊢
  exact hall c.toNat (by rw [Char.ofNat_toNat] at h; exact lt_of_hexValue h) h

theorem hexValue_lt {c : Char} {v : Nat} (h : hexValue c = some v) : v < 16 := by
  have hall : ∀ n < 128, (hexValue (Char.ofNat n)).getD 0 < 16 := by decide
  have hlt := hall c.toNat (lt_of_hexValue (by rw [h]; rfl))
  rw [Char.ofNat_toNat, h] at hlt
  exact hlt

namespace HexGroup

theorem spec (g : HexGroup) : g.digits ≠ [] ∧ g.digits.length ≤ 4 ∧
    ∀ c ∈ g.digits, (hexValue c).isSome = true := by
  have h := g.isGroup
  unfold Foundation.isGroup at h
  simp only [Bool.and_eq_true, Bool.not_eq_true', List.isEmpty_eq_false_iff, decide_eq_true_eq,
    List.all_eq_true] at h
  exact ⟨h.1.1, h.1.2, h.2⟩

theorem not_mem (g : HexGroup) {c : Char} (h : hexValue c = none) : c ∉ g.digits := by
  intro hmem
  have hsome := g.spec.2.2 c hmem
  rw [h] at hsome
  cases hsome

/-- The group in lower case. -/
def lower (g : HexGroup) : HexGroup where
  digits := g.digits.map Char.toLower
  isGroup := by
    obtain ⟨hne, hlength, hhex⟩ := g.spec
    unfold Foundation.isGroup
    simp only [Bool.and_eq_true, Bool.not_eq_true', List.isEmpty_eq_false_iff, decide_eq_true_eq,
      List.all_eq_true, List.length_map, ne_eq, List.map_eq_nil_iff]
    refine ⟨⟨hne, hlength⟩, ?_⟩
    intro c hc
    obtain ⟨d, hd, rfl⟩ := List.mem_map.mp hc
    rw [hexValue_toLower (hhex d hd)]
    exact hhex d hd

theorem hexNumber_lower (g : HexGroup) : hexNumber g.lower.digits = hexNumber g.digits := by
  show List.foldl _ 0 (g.digits.map Char.toLower) = List.foldl _ 0 g.digits
  rw [List.foldl_map]
  refine List.foldl_ext _ _ 0 ?_
  intro n c hc
  rw [hexValue_toLower (g.spec.2.2 c hc)]

end HexGroup

theorem hexNumber_lt {cs : List Char} : hexNumber cs < 16 ^ cs.length := by
  have hgo : ∀ (cs : List Char) (n : Nat),
      cs.foldl (fun n c => 16 * n + (hexValue c).getD 0) n < 16 ^ cs.length * (n + 1) := by
    intro cs
    induction cs with
    | nil => intro n; simp
    | cons c rest ih =>
        intro n
        have hdigit : (hexValue c).getD 0 < 16 := by
          cases hvalue : hexValue c with
          | none => decide
          | some v => exact hexValue_lt hvalue
        rw [List.foldl_cons, List.length_cons, Nat.pow_succ]
        refine Nat.lt_of_lt_of_le (ih _) ?_
        rw [Nat.mul_assoc]
        refine Nat.mul_le_mul_left _ ?_
        omega
  simpa [hexNumber] using hgo cs 0

namespace Inet6

/-- The pieces are not empty, and have no colon. -/
theorem pieces_spec (groups : List HexGroup) (tail : Option Quad) :
    ∀ piece ∈ pieces groups tail, piece ≠ [] ∧ ':' ∉ piece := by
  intro piece hpiece
  rcases List.mem_append.mp hpiece with hgroup | htail
  · obtain ⟨group, -, rfl⟩ := List.mem_map.mp hgroup
    exact ⟨group.spec.1, group.not_mem (by decide)⟩
  · obtain ⟨q, -, rfl⟩ := Option.map_eq_some_iff.mp (Option.mem_toList.mp htail)
    refine ⟨q.text_ne_nil, ?_⟩
    intro hmem
    rcases q.mem_text hmem with h | h
    · exact absurd h (by decide)
    · exact absurd h (by decide)

theorem isAddressChar_pieces {groups : List HexGroup} {tail : Option Quad} {c : Char}
    (hc : c ∈ [':'].intercalate (pieces groups tail)) : isAddressChar c = true := by
  unfold isAddressChar
  rcases mem_intercalate hc with rfl | ⟨piece, hpiece, hmem⟩
  · decide
  · rcases List.mem_append.mp hpiece with hgroup | htail
    · obtain ⟨group, -, rfl⟩ := List.mem_map.mp hgroup
      rw [group.spec.2.2 c hmem]
      rfl
    · obtain ⟨q, -, rfl⟩ := Option.map_eq_some_iff.mp (Option.mem_toList.mp htail)
      rcases q.mem_text hmem with h | rfl
      · rw [hexValue_of_isDigit h]
        rfl
      · decide

variable (t : Inet6)

theorem isAddressChar_text {c : Char} (hc : c ∈ t.text) : isAddressChar c = true := by
  unfold text at hc
  split at hc
  · exact isAddressChar_pieces hc
  · rw [List.mem_append, List.mem_cons, List.mem_cons] at hc
    rcases hc with hc | rfl | rfl | hc
    · exact isAddressChar_pieces hc
    · decide
    · decide
    · exact isAddressChar_pieces hc

theorem colonPieces_intercalate (groups : List HexGroup) (tail : Option Quad) :
    colonPieces ([':'].intercalate (pieces groups tail)) = pieces groups tail := by
  have hspec := pieces_spec groups tail
  unfold colonPieces
  cases hpieces : pieces groups tail with
  | nil => rfl
  | cons piece rest =>
      rw [hpieces] at hspec
      have hne : [':'].intercalate (piece :: rest) ≠ [] := by
        obtain ⟨hnil, -⟩ := hspec piece List.mem_cons_self
        cases rest with
        | nil => simpa using hnil
        | cons next rest => simp [List.intercalate_cons_cons, hnil]
      rw [if_neg hne]
      exact splitOn_intercalate (List.cons_ne_nil _ _) fun p hp => (hspec p hp).2

theorem groupCount_pieces (groups : List HexGroup) (tail : Option Quad) (allowed : Bool)
    (htail : tail.isSome = true → allowed = true) :
    groupCount allowed (pieces groups tail) =
      some (groups.length + 2 * tail.toList.length) := by
  induction groups with
  | nil =>
      cases tail with
      | none => rfl
      | some q =>
          have hgroup : isGroup q.text = false := by
            rw [Bool.eq_false_iff]
            intro h
            have hdot := (HexGroup.mk q.text h).not_mem (c := '.') (by decide)
            exact hdot q.dot_mem_text
          show groupCount allowed [q.text] = some 2
          rw [groupCount, hgroup, htail rfl, q.isIPv4_text]
          rfl
  | cons group rest ih =>
      show groupCount allowed (group.digits :: pieces rest tail) = _
      cases hpieces : pieces rest tail with
      | nil =>
          rw [hpieces] at ih
          rw [groupCount, if_pos group.isGroup]
          have hzero := Option.some.inj ih
          rw [List.length_cons, Nat.add_right_comm, ← hzero]
      | cons piece pieces =>
          rw [hpieces] at ih
          rw [groupCount, if_pos group.isGroup, ih, Option.map_some, List.length_cons,
            Nat.add_right_comm]
          exact List.cons_ne_nil _ _

theorem isPlainIPv6_text : isPlainIPv6 t.text = true := by
  have hfits := t.fits
  unfold text isPlainIPv6
  cases hgap : t.gap with
  | none =>
      rw [hgap] at hfits
      simp only at hfits ⊢
      rw [splitDouble_of_not_hasDouble (hasDouble_intercalate (pieces_spec _ _))]
      simp only
      rw [colonPieces_intercalate, groupCount_pieces _ _ _ (fun _ => rfl), hfits]
      rfl
  | some right =>
      rw [hgap] at hfits
      simp only at hfits ⊢
      rw [splitDouble_append (hasDouble_intercalate (pieces_spec _ _))
          (ends_intercalate (pieces_spec _ _)).2,
        splitDouble_of_not_hasDouble (hasDouble_intercalate (pieces_spec _ _))]
      simp only
      rw [colonPieces_intercalate, colonPieces_intercalate,
        groupCount_pieces _ _ _ (fun h => by cases h), groupCount_pieces _ _ _ (fun _ => rfl)]
      refine decide_eq_true ?_
      rw [Option.toList_none, List.length_nil]
      omega

theorem colon_mem_text : ':' ∈ t.text := by
  have hfits := t.fits
  unfold text
  cases hgap : t.gap with
  | none =>
      rw [hgap] at hfits
      simp only at hfits ⊢
      have htail : t.tail.toList.length ≤ 1 := by cases t.tail <;> simp
      match hleft : t.left with
      | [] =>
          rw [hleft, List.length_nil] at hfits
          omega
      | [group] =>
          rw [hleft, List.length_singleton] at hfits
          omega
      | group :: next :: rest =>
          show ':' ∈ [':'].intercalate (group.digits :: next.digits :: pieces rest t.tail)
          rw [List.intercalate_cons_cons]
          simp
  | some right => simp

/-- A text of an address is one, and no IPv4 address. -/
theorem isIP_text : isIP t.text = 6 := by
  have hfree : ∀ c ∈ t.text, decide (c ≠ '%') = true := by
    intro c hc
    exact decide_eq_true (addressChar_spec (t.isAddressChar_text hc)).2.2
  have h4 : isIPv4 t.text = false := by
    rw [Bool.eq_false_iff]
    intro h
    unfold isIPv4 at h
    rw [Bool.and_eq_true, List.all_eq_true] at h
    rcases mem_splitOn '.' t.colon_mem_text with heq | ⟨piece, hpiece, hmem⟩
    · exact absurd heq (by decide)
    · have hoctet := h.2 piece hpiece
      unfold isOctet isDigits at hoctet
      simp only [Bool.and_eq_true, List.all_eq_true] at hoctet
      exact absurd (hoctet.1.1.1.2 ':' hmem) (by decide)
  have h6 : isIPv6 t.text = true := by
    unfold isIPv6
    rw [List.takeWhile_eq_self_iff.mpr hfree, List.dropWhile_eq_nil_iff.mpr hfree,
      t.isPlainIPv6_text]
    rfl
  unfold isIP
  rw [if_neg (by rw [h4]; exact Bool.false_ne_true), if_pos h6]

/-! ## Letter case -/

/-- The text in lower case. -/
def lower : Inet6 where
  left := t.left.map HexGroup.lower
  gap := t.gap.map (List.map HexGroup.lower)
  tail := t.tail
  fits := by
    have hfits := t.fits
    cases hgap : t.gap with
    | none =>
        rw [hgap] at hfits
        simpa using hfits
    | some right =>
        rw [hgap] at hfits
        simpa using hfits

theorem map_toLower_intercalate (sep : Char) (pieces : List (List Char)) :
    ([sep].intercalate pieces).map Char.toLower =
      [sep.toLower].intercalate (pieces.map (List.map Char.toLower)) := by
  induction pieces with
  | nil => rfl
  | cons piece rest ih =>
      cases rest with
      | nil => simp
      | cons next rest =>
          rw [List.intercalate_cons_cons, List.map_append, List.map_append, ih]
          show _ = [sep.toLower].intercalate (_ :: _ :: _)
          rw [List.intercalate_cons_cons]
          rfl

theorem toLower_of_isDigit {c : Char} (h : c.isDigit = true ∨ c = '.') : c.toLower = c := by
  have hall : ∀ n < 128, (Char.ofNat n).isDigit = true ∨ Char.ofNat n = '.' →
      (Char.ofNat n).toLower = Char.ofNat n := by decide
  have hlt : c.toNat < 128 := by
    rcases h with h | rfl
    · exact lt_of_hexValue (hexValue_of_isDigit h)
    · decide
  rw [← Char.ofNat_toNat c] at h ⊢
  exact hall c.toNat hlt h

theorem pieces_lower (groups : List HexGroup) (tail : Option Quad) :
    (pieces groups tail).map (List.map Char.toLower) = pieces (groups.map HexGroup.lower) tail := by
  unfold pieces
  rw [List.map_append, List.map_map, List.map_map]
  congr 1
  cases tail with
  | none => rfl
  | some q =>
      have hsame : q.text.map Char.toLower = q.text := by
        conv_rhs => rw [← List.map_id q.text]
        exact List.map_congr_left fun c hc => toLower_of_isDigit (q.mem_text hc)
      show [q.text.map Char.toLower] = [q.text]
      rw [hsame]

theorem text_lower : t.lower.text = t.text.map Char.toLower := by
  have hcolon : ':'.toLower = ':' := by decide
  obtain ⟨left, gap, tail, fits⟩ := t
  unfold text lower
  cases gap with
  | none =>
      simp only [Option.map_none]
      rw [map_toLower_intercalate, hcolon, pieces_lower]
  | some right =>
      simp only [Option.map_some]
      rw [List.map_append, List.map_cons, List.map_cons, map_toLower_intercalate,
        map_toLower_intercalate, hcolon, pieces_lower, pieces_lower]

theorem words_lower : t.lower.words = t.words := by
  have hvalues : ∀ groups : List HexGroup,
      groupValues (groups.map HexGroup.lower) = groupValues groups := by
    intro groups
    unfold groupValues
    rw [List.map_map]
    exact List.map_congr_left fun group _ => group.hexNumber_lower
  obtain ⟨left, gap, tail, fits⟩ := t
  unfold words lower
  cases gap with
  | none =>
      simp only [Option.map_none]
      rw [hvalues]
  | some right =>
      simp only [Option.map_some, List.length_map]
      rw [hvalues, hvalues]

theorem value_lower : t.lower.value = t.value := by
  unfold value
  rw [words_lower]

/-! ## The groups -/

theorem length_words : t.words.length = 8 := by
  have hfits := t.fits
  have htail : (tailWords t.tail).length = 2 * t.tail.toList.length := by cases t.tail <;> rfl
  unfold words
  cases hgap : t.gap with
  | none =>
      rw [hgap] at hfits
      simpa [groupValues, htail] using hfits
  | some right =>
      rw [hgap] at hfits
      simp only at hfits
      simp only [groupValues, List.length_append, List.length_map, List.length_replicate, htail]
      omega

theorem words_lt : ∀ word ∈ t.words, word < 65536 := by
  have hgroups : ∀ groups : List HexGroup, ∀ word ∈ groupValues groups, word < 65536 := by
    intro groups word hword
    obtain ⟨group, -, rfl⟩ := List.mem_map.mp hword
    refine Nat.lt_of_lt_of_le hexNumber_lt ?_
    exact Nat.pow_le_pow_right (by decide) group.spec.2.1
  have htail : ∀ word ∈ tailWords t.tail, word < 65536 := by
    intro word hword
    cases htail : t.tail with
    | none => rw [htail] at hword; cases hword
    | some q =>
        rw [htail] at hword
        have hlt := q.value_lt
        simp only [tailWords, List.mem_cons, List.not_mem_nil, or_false] at hword
        omega
  intro word hword
  unfold words at hword
  split at hword
  · rcases List.mem_append.mp hword with h | h
    · exact hgroups _ word h
    · exact htail word h
  · simp only [List.mem_append, List.mem_replicate] at hword
    rcases hword with ((h | h) | h) | h
    · exact hgroups _ word h
    · rw [h.2]
      decide
    · exact hgroups _ word h
    · exact htail word h

end Inet6

end Foundation
end Ctem
