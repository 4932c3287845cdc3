import Ctem.Foundation.JoinedFields
import Ctem.Foundation.TextSearch

/-!
# Keys of pnpm lockfiles

`splitPnpmKey` over the keys that the versions of the lockfile write.

* `splitPnpmKey_iff`: name and version come back when the peers are not written behind `_`.
-/

namespace Ctem
namespace Scanner

open Foundation

/-! ## The code -/

/-- What `splitPnpmKey` answers. -/
structure PnpmPackage where
  name : List Char
  version : List Char
  deriving DecidableEq

/-- `{ name: key.slice(0, i), version: key.slice(i + 1) }`. -/
def packageAt (key : List Char) (i : Nat) : PnpmPackage := ⟨key.take i, key.drop (i + 1)⟩

/-- `key` without a slash in front and without what stands behind `(`. -/
def pnpmKey (raw : List Char) : List Char :=
  let key := if raw.head? = some '/' then raw.tail else raw
  (key.idxOf? '(').elim key key.take

/-- The branch of a scoped name without a second `@`. -/
def packageOfParts (parts : List (List Char)) : Option PnpmPackage :=
  if 3 ≤ parts.length then
    some ⟨['/'].intercalate (parts.take 2), ['/'].intercalate (parts.drop 2)⟩
  else none

def splitPnpmKey (raw : List Char) : Option PnpmPackage :=
  let key := pnpmKey raw
  let byAt := (lastIndexOf '@' key).filter fun i => decide (0 < i)
  byAt.elim
    (if key.head? = some '@' then packageOfParts (splitOn '/' key)
      else ((key.idxOf? '/').filter fun i => decide (0 < i)).map (packageAt key))
    fun i => some (packageAt key i)

/-! ## Keys -/

/-- A scope, a name without its scope, or a version. -/
structure PnpmWord where
  chars : List Char
  nonempty : chars ≠ []
  plain : ∀ c ∈ chars, c ≠ '@' ∧ c ≠ '/' ∧ c ≠ '('

structure PnpmName where
  scope : Option PnpmWord
  base : PnpmWord

def PnpmName.text (name : PnpmName) : List Char :=
  name.scope.elim name.base.chars fun scope => '@' :: (scope.chars ++ '/' :: name.base.chars)

mutual

/-- `(name@version…)`, with the peers of the peer. -/
inductive PnpmPeer where
  | peer (name : PnpmName) (version : PnpmWord) (peers : PnpmPeers)

inductive PnpmPeers where
  | nil
  | cons (peer : PnpmPeer) (rest : PnpmPeers)

end

mutual

def PnpmPeer.text : PnpmPeer → List Char
  | .peer name version peers =>
      '(' :: (name.text ++ '@' :: (version.chars ++ (peers.text ++ [')'])))

def PnpmPeers.text : PnpmPeers → List Char
  | .nil => []
  | .cons peer rest => peer.text ++ rest.text

end

/-- What stands behind the version: peers in parentheses, or any text behind `_`. -/
inductive PeerSuffix where
  | parens (peers : PnpmPeers)
  | underscore (text : List Char)

def PeerSuffix.text : PeerSuffix → List Char
  | .parens peers => peers.text
  | .underscore text => '_' :: text

/-- How the versions of the lockfile write a key. -/
inductive PnpmShape where
  | v5
  | v6
  | v9

/-- `/name/version`, `/name@version` and `name@version`. -/
def PnpmShape.key (shape : PnpmShape) (name : PnpmName) (version : PnpmWord)
    (suffix : PeerSuffix) : List Char :=
  match shape with
  | .v5 => '/' :: (name.text ++ '/' :: (version.chars ++ suffix.text))
  | .v6 => '/' :: (name.text ++ '@' :: (version.chars ++ suffix.text))
  | .v9 => name.text ++ '@' :: (version.chars ++ suffix.text)

/-! ## A key without what is in front and behind -/

namespace PnpmWord

variable (word : PnpmWord)

theorem not_mem_at : '@' ∉ word.chars := fun h => (word.plain '@' h).1 rfl

theorem not_mem_slash : '/' ∉ word.chars := fun h => (word.plain '/' h).2.1 rfl

theorem not_mem_paren : '(' ∉ word.chars := fun h => (word.plain '(' h).2.2 rfl

end PnpmWord

namespace PnpmName

variable (name : PnpmName)

theorem not_mem_paren : '(' ∉ name.text := by
  obtain ⟨scope, base⟩ := name
  cases scope with
  | none => exact base.not_mem_paren
  | some scope =>
      intro h
      simp only [PnpmName.text, Option.elim_some, List.mem_cons, List.mem_append] at h
      rcases h with h | h | h | h
      · exact absurd h (by decide)
      · exact scope.not_mem_paren h
      · exact absurd h (by decide)
      · exact base.not_mem_paren h

/-- A name has a first character, which is no slash. -/
theorem exists_head : ∃ c rest, name.text = c :: rest ∧ c ≠ '/' := by
  obtain ⟨scope, base⟩ := name
  cases scope with
  | none =>
      obtain ⟨c, rest, hbase⟩ := List.exists_cons_of_ne_nil base.nonempty
      refine ⟨c, rest, hbase, ?_⟩
      rintro rfl
      exact base.not_mem_slash (by rw [hbase]; exact List.mem_cons_self)
  | some scope => exact ⟨'@', _, rfl, by decide⟩

theorem length_pos : 0 < name.text.length := by
  obtain ⟨c, rest, htext, -⟩ := name.exists_head
  rw [htext, List.length_cons]
  exact Nat.succ_pos _

end PnpmName

/-- The text up to the first `(`. -/
theorem cut_append {front : List Char} (h : '(' ∉ front) (later : List Char) :
    ((front ++ '(' :: later).idxOf? '(').elim (front ++ '(' :: later)
      (front ++ '(' :: later).take = front := by
  rw [idxOf?_append_cons h, Option.elim_some, List.take_left]

theorem cut_of_not_mem {key : List Char} (h : '(' ∉ key) :
    (key.idxOf? '(').elim key key.take = key := by
  rw [List.idxOf?_eq_none_iff.mpr h, Option.elim_none]

/-- The separator between name and version. -/
def PnpmShape.separator : PnpmShape → Char
  | .v5 => '/'
  | .v6 => '@'
  | .v9 => '@'

/-- The slash in front is left out. -/
theorem pnpmKey_key (shape : PnpmShape) (name : PnpmName) (version : PnpmWord)
    (suffix : PeerSuffix) :
    pnpmKey (shape.key name version suffix) =
      ((name.text ++ shape.separator :: (version.chars ++ suffix.text)).idxOf? '(').elim
        (name.text ++ shape.separator :: (version.chars ++ suffix.text))
        (name.text ++ shape.separator :: (version.chars ++ suffix.text)).take := by
  cases shape with
  | v5 => rfl
  | v6 => rfl
  | v9 =>
      obtain ⟨c, rest, htext, hc⟩ := name.exists_head
      have hhead : (name.text ++ '@' :: (version.chars ++ suffix.text)).head? ≠ some '/' := by
        rw [htext]
        exact fun h => hc (Option.some.inj h)
      exact congrArg (fun key : List Char => (key.idxOf? '(').elim key key.take) (if_neg hhead)

theorem not_mem_paren_key (shape : PnpmShape) (name : PnpmName) {rest : List Char}
    (hrest : '(' ∉ rest) : '(' ∉ name.text ++ shape.separator :: rest := by
  rw [List.mem_append, List.mem_cons, not_or, not_or]
  refine ⟨name.not_mem_paren, ?_, hrest⟩
  cases shape <;> decide

theorem PnpmPeers.text_cases (peers : PnpmPeers) :
    peers.text = [] ∨ ∃ later, peers.text = '(' :: later := by
  cases peers with
  | nil => exact Or.inl rfl
  | cons peer rest =>
      cases peer with
      | peer name version inner => exact Or.inr ⟨_, rfl⟩

/-- Peers in parentheses are cut off. -/
theorem pnpmKey_parens (shape : PnpmShape) (name : PnpmName) (version : PnpmWord)
    (peers : PnpmPeers) :
    pnpmKey (shape.key name version (.parens peers)) =
      name.text ++ shape.separator :: version.chars := by
  have hparen := not_mem_paren_key shape name version.not_mem_paren
  rw [pnpmKey_key, PeerSuffix.text]
  rcases peers.text_cases with hnil | ⟨later, hlater⟩
  · rw [hnil, List.append_nil, cut_of_not_mem hparen]
  · have hsplit : name.text ++ shape.separator :: (version.chars ++ '(' :: later) =
        (name.text ++ shape.separator :: version.chars) ++ '(' :: later := by
      rw [List.append_assoc, List.cons_append]
    rw [hlater, hsplit, cut_append hparen]

/-- Peers behind `_` are not. -/
theorem pnpmKey_underscore (shape : PnpmShape) (name : PnpmName) (version : PnpmWord)
    (text : List Char) :
    ∃ rest, pnpmKey (shape.key name version (.underscore text)) =
      name.text ++ shape.separator :: (version.chars ++ '_' :: rest) := by
  have hparen : ∀ rest, '(' ∉ rest →
      '(' ∉ name.text ++ shape.separator :: (version.chars ++ '_' :: rest) := by
    intro rest hrest
    refine not_mem_paren_key shape name ?_
    rw [List.mem_append, List.mem_cons, not_or, not_or]
    exact ⟨version.not_mem_paren, by decide, hrest⟩
  rw [pnpmKey_key, PeerSuffix.text]
  by_cases htext : '(' ∈ text
  · obtain ⟨front, later, rfl, hfront⟩ := List.eq_append_cons_of_mem htext
    refine ⟨front, ?_⟩
    have hsplit : name.text ++ shape.separator ::
        (version.chars ++ '_' :: (front ++ '(' :: later)) =
          (name.text ++ shape.separator :: (version.chars ++ '_' :: front)) ++ '(' :: later := by
      simp
    rw [hsplit, cut_append (hparen front hfront)]
  · exact ⟨text, cut_of_not_mem (hparen text htext)⟩

/-! ## Reading a key -/

/-- What `splitPnpmKey` makes of the key that is left. -/
def splitCutKey (key : List Char) : Option PnpmPackage :=
  ((lastIndexOf '@' key).filter fun i => decide (0 < i)).elim
    (if key.head? = some '@' then packageOfParts (splitOn '/' key)
      else ((key.idxOf? '/').filter fun i => decide (0 < i)).map (packageAt key))
    fun i => some (packageAt key i)

theorem splitPnpmKey_eq (raw : List Char) : splitPnpmKey raw = splitCutKey (pnpmKey raw) := rfl

theorem packageAt_append (front later : List Char) (c : Char) :
    packageAt (front ++ c :: later) front.length = ⟨front, later⟩ := by
  have hdrop : (front ++ c :: later).drop (front.length + 1) = later := by
    rw [List.append_cons, ← List.length_singleton (a := c), ← List.length_append, List.drop_left]
  rw [packageAt, List.take_left, hdrop]

/-- The last `@` separates, unless it stands in front. -/
theorem splitCutKey_at {front later : List Char} (hfront : 0 < front.length)
    (hlater : '@' ∉ later) : splitCutKey (front ++ '@' :: later) = some ⟨front, later⟩ := by
  rw [splitCutKey, lastIndexOf_append front hlater, Option.filter_some,
    if_pos (decide_eq_true hfront), Option.elim_some, packageAt_append]

/-- Without an `@` behind the name, what stands behind the separator is the version. -/
theorem splitCutKey_plain (shape : PnpmShape) (name : PnpmName) {later : List Char}
    (hlater : '@' ∉ later) :
    splitCutKey (name.text ++ shape.separator :: later) = some ⟨name.text, later⟩ := by
  have hslash : splitCutKey (name.text ++ '/' :: later) = some ⟨name.text, later⟩ := by
    obtain ⟨scope, base⟩ := name
    cases scope with
    | none =>
        have hat : '@' ∉ base.chars ++ '/' :: later := by
          rw [List.mem_append, List.mem_cons, not_or, not_or]
          exact ⟨base.not_mem_at, by decide, hlater⟩
        have hhead : (base.chars ++ '/' :: later).head? ≠ some '@' := by
          intro hhead
          exact hat (List.mem_of_head? hhead)
        have hpos : 0 < base.chars.length := List.length_pos_iff.mpr base.nonempty
        change splitCutKey (base.chars ++ '/' :: later) = some ⟨base.chars, later⟩
        rw [splitCutKey, lastIndexOf_of_not_mem hat, Option.filter_none, Option.elim_none,
          if_neg hhead, idxOf?_append_cons base.not_mem_slash, Option.filter_some,
          if_pos (decide_eq_true hpos), Option.map_some, packageAt_append]
    | some scope =>
        have hat : '@' ∉ scope.chars ++ '/' :: (base.chars ++ '/' :: later) := by
          rw [List.mem_append, List.mem_cons, List.mem_append, List.mem_cons, not_or, not_or,
            not_or, not_or]
          exact ⟨scope.not_mem_at, by decide, base.not_mem_at, by decide, hlater⟩
        have hlast : lastIndexOf '@' ('@' :: (scope.chars ++ '/' :: (base.chars ++ '/' :: later))) =
            some 0 := lastIndexOf_append [] hat
        have hscope : '/' ∉ '@' :: scope.chars := by
          rw [List.mem_cons, not_or]
          exact ⟨by decide, scope.not_mem_slash⟩
        have hparts : splitOn '/' ('@' :: (scope.chars ++ '/' :: (base.chars ++ '/' :: later))) =
            ('@' :: scope.chars) :: base.chars :: splitOn '/' later := by
          rw [← List.cons_append, splitOn_append_sep, splitOn_of_not_mem hscope,
            splitOn_append_sep, splitOn_of_not_mem base.not_mem_slash]
          rfl
        have hlength : 3 ≤ (('@' :: scope.chars) :: base.chars :: splitOn '/' later).length := by
          have hpos := List.length_pos_iff.mpr (splitOn_ne_nil '/' later)
          simp only [List.length_cons]
          omega
        have htext : (PnpmName.mk (some scope) base).text ++ '/' :: later =
            '@' :: (scope.chars ++ '/' :: (base.chars ++ '/' :: later)) := by
          simp [PnpmName.text]
        rw [htext, splitCutKey, hlast, Option.filter_some, if_neg (by decide), Option.elim_none,
          List.head?_cons, if_pos rfl, hparts, packageOfParts, if_pos hlength]
        simp [PnpmName.text, intercalate_splitOn, List.intercalate_cons_cons]
  cases shape with
  | v5 => exact hslash
  | v6 => exact splitCutKey_at name.length_pos hlater
  | v9 => exact splitCutKey_at name.length_pos hlater

/-! ## The law -/

def PeerSuffix.behindUnderscore : PeerSuffix → Bool
  | .parens _ => false
  | .underscore _ => true

/-- With an `_` behind the version another package comes back. -/
theorem splitCutKey_underscore (shape : PnpmShape) (name : PnpmName) (version : PnpmWord)
    (rest : List Char) :
    splitCutKey (name.text ++ shape.separator :: (version.chars ++ '_' :: rest)) ≠
      some ⟨name.text, version.chars⟩ := by
  intro h
  by_cases hrest : '@' ∈ rest
  · -- the last `@` is one of the peers, and all in front of it is taken for the name
    obtain ⟨front, later, rfl, hlater⟩ := exists_last hrest
    have hsplit : name.text ++ shape.separator ::
        (version.chars ++ '_' :: (front ++ '@' :: later)) =
          (name.text ++ shape.separator :: (version.chars ++ '_' :: front)) ++ '@' :: later := by
      simp
    have hpos : 0 < (name.text ++ shape.separator :: (version.chars ++ '_' :: front)).length := by
      rw [List.length_append, List.length_cons]
      omega
    rw [hsplit, splitCutKey_at hpos hlater] at h
    have hname := (PnpmPackage.mk.inj (Option.some.inj h)).1
    have hlength := congrArg List.length hname
    rw [List.length_append, List.length_cons] at hlength
    omega
  · have hversion : '@' ∉ version.chars ++ '_' :: rest := by
      rw [List.mem_append, List.mem_cons, not_or, not_or]
      exact ⟨version.not_mem_at, by decide, hrest⟩
    rw [splitCutKey_plain shape name hversion] at h
    have hsame := (PnpmPackage.mk.inj (Option.some.inj h)).2
    have hlength := congrArg List.length hsame
    rw [List.length_append, List.length_cons] at hlength
    omega

/-- Name and version come back exactly when the peers are not written behind `_`. -/
theorem splitPnpmKey_iff (shape : PnpmShape) (name : PnpmName) (version : PnpmWord)
    (suffix : PeerSuffix) :
    splitPnpmKey (shape.key name version suffix) = some ⟨name.text, version.chars⟩ ↔
      suffix.behindUnderscore = false := by
  rw [splitPnpmKey_eq]
  cases suffix with
  | parens peers =>
      rw [pnpmKey_parens, splitCutKey_plain shape name version.not_mem_at]
      exact iff_of_true rfl rfl
  | underscore text =>
      obtain ⟨rest, hkey⟩ := pnpmKey_underscore shape name version text
      rw [hkey]
      exact iff_of_false (splitCutKey_underscore shape name version rest)
        (fun h => Bool.noConfusion h)

/-- `/react-dom/17.0.2_react@17.0.2` is taken for version `17.0.2` of `react-dom/17.0.2_react`. -/
theorem splitPnpmKey_peer :
    ¬ ∀ (shape : PnpmShape) (name : PnpmName) (version : PnpmWord) (suffix : PeerSuffix),
      splitPnpmKey (shape.key name version suffix) = some ⟨name.text, version.chars⟩ := by
  intro hclaim
  have h := hclaim .v5 ⟨none, ⟨['r', 'e', 'a', 'c', 't', '-', 'd', 'o', 'm'], by simp, by simp⟩⟩
    ⟨['1', '7', '.', '0', '.', '2'], by simp, by simp⟩
    (.underscore ['r', 'e', 'a', 'c', 't', '@', '1', '7', '.', '0', '.', '2'])
  revert h
  decide

end Scanner
end Ctem
