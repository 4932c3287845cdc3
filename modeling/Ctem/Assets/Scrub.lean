import Ctem.Foundation.JsText
import Ctem.Foundation.Redaction
import Mathlib.Data.List.TakeWhile

/-!
# Scrubbed error texts

`scrubSyncError` takes a known secret and everything that looks like a token out of a message
before it is stored.

* `scrubSyncError_leavesNoSecret`: for a secret that has no bracket and does not fit into the
  mark, neither it nor a token is left, and scrubbing again changes nothing.
-/

namespace Ctem
namespace Assets

open Foundation

/-! ## The code -/

/-- `[redacted]`. -/
def redacted : List Char := ['[', 'r', 'e', 'd', 'a', 'c', 't', 'e', 'd', ']']

/-- `text.split(sep)`; the number counts what is left of a separator that is being passed. -/
def splitAtText (sep : List Char) : Nat → List Char → List (List Char)
  | _, [] => [[]]
  | k + 1, _ :: cs => splitAtText sep k cs
  | 0, c :: cs =>
      if sep <+: c :: cs then [] :: splitAtText sep (sep.length - 1) cs
      else (splitAtText sep 0 cs).modifyHead (c :: ·)

/-- `ghp_|gho_|ghu_|ghs_|github_pat_`. -/
def tokenPrefixes : List (List Char) :=
  [['g', 'h', 'p', '_'], ['g', 'h', 'o', '_'], ['g', 'h', 'u', '_'], ['g', 'h', 's', '_'],
    ['g', 'i', 't', 'h', 'u', 'b', '_', 'p', 'a', 't', '_']]

/-- `[A-Za-z0-9_]`. -/
def isTokenChar (c : Char) : Bool := c.isAlphanum || c = '_'

def bearerWord : List Char := ['B', 'e', 'a', 'r', 'e', 'r']

/-- `(?:ghp_|gho_|ghu_|ghs_|github_pat_)[A-Za-z0-9_]+` at the front. -/
def matchedToken (cs : List Char) : Option Nat :=
  (tokenPrefixes.find? (· <+: cs)).bind fun p =>
    let run := (cs.drop p.length).takeWhile isTokenChar
    if run = [] then none else some (p.length + run.length)

/-- `Bearer\s+\S+` at the front. -/
def matchedBearer (cs : List Char) : Option Nat :=
  if bearerWord <+: cs then
    let spaces := (cs.drop bearerWord.length).takeWhile isJsSpace
    let word := ((cs.drop bearerWord.length).drop spaces.length).takeWhile fun c => !isJsSpace c
    if spaces = [] ∨ word = [] then none
    else some (bearerWord.length + spaces.length + word.length)
  else none

/-- `TOKEN_LIKE`, by the length of its match at the front. -/
def tokenLike (cs : List Char) : Option Nat := (matchedToken cs).or (matchedBearer cs)

def scrubText (raw : List Char) (secret : Option (List Char)) : List Char :=
  let message := (secret.filter fun s => decide (0 < s.length)).elim raw fun s =>
    redacted.intercalate (splitAtText s 0 raw)
  redact tokenLike redacted 0 message

/-- `err` is the message of an `Error`, or anything else. -/
def scrubSyncError (err : Option (List Char)) (secret : Option (List Char)) : List Char :=
  scrubText (err.getD "Discovery sync failed".toList) secret

/-! ## Splitting and joining -/

/-- The match of a fixed text at the front. -/
def matchedText (sep cs : List Char) : Option Nat := if sep <+: cs then some sep.length else none

theorem splitAtText_ne_nil (sep : List Char) (k : Nat) (text : List Char) :
    splitAtText sep k text ≠ [] := by
  induction text generalizing k with
  | nil => cases k <;> exact List.cons_ne_nil _ _
  | cons c cs ih =>
      cases k with
      | succ k => exact ih k
      | zero =>
          rw [splitAtText]
          split
          · exact List.cons_ne_nil _ _
          · obtain ⟨piece, pieces, hpieces⟩ := List.exists_cons_of_ne_nil (ih 0)
            rw [hpieces]
            exact List.cons_ne_nil _ _

/-- Joining what was split is a replacement. -/
theorem intercalate_splitAtText (mark sep : List Char) (k : Nat) (text : List Char) :
    mark.intercalate (splitAtText sep k text) = redact (matchedText sep) mark k text := by
  induction text generalizing k with
  | nil => cases k <;> exact List.intercalate_singleton
  | cons c cs ih =>
      cases k with
      | succ k => exact ih k
      | zero =>
          rw [splitAtText]
          split
          · rename_i hsep
            have hmatched : matchedText sep (c :: cs) = some sep.length := if_pos hsep
            obtain ⟨piece, pieces, hpieces⟩ :=
              List.exists_cons_of_ne_nil (splitAtText_ne_nil sep (sep.length - 1) cs)
            rw [redact_some hmatched, ← ih, hpieces, List.intercalate_cons_cons]
            rfl
          · rename_i hsep
            have hmatched : matchedText sep (c :: cs) = none := if_neg hsep
            obtain ⟨piece, pieces, hpieces⟩ :=
              List.exists_cons_of_ne_nil (splitAtText_ne_nil sep 0 cs)
            have hcs := ih 0
            rw [hpieces] at hcs
            rw [redact_none hmatched, ← hcs, hpieces, List.modifyHead_cons]
            cases pieces with
            | nil => rw [List.intercalate_singleton, List.intercalate_singleton]
            | cons next pieces =>
                rw [List.intercalate_cons_cons, List.intercalate_cons_cons, List.cons_append,
                  List.cons_append]

theorem scrubText_some {secret : List Char} (hsecret : secret ≠ []) (raw : List Char) :
    scrubText raw (some secret) =
      redact tokenLike redacted 0 (redact (matchedText secret) redacted 0 raw) := by
  have hpos : 0 < secret.length := List.length_pos_iff.mpr hsecret
  rw [scrubText, Option.filter_some, if_pos (decide_eq_true hpos), Option.elim_some,
    intercalate_splitAtText]

/-! ## Tokens -/

/-- What the expression matches. -/
inductive TokenLike : List Char → Prop where
  | token (p run : List Char) : p ∈ tokenPrefixes → run ≠ [] → (∀ c ∈ run, isTokenChar c = true) →
      TokenLike (p ++ run)
  | bearer (spaces word : List Char) : spaces ≠ [] → (∀ c ∈ spaces, isJsSpace c = true) →
      word ≠ [] → (∀ c ∈ word, isJsSpace c = false) →
      TokenLike (bearerWord ++ (spaces ++ word))

/-- A token begins with one of two letters. -/
theorem TokenLike.head {w : List Char} (hw : TokenLike w) :
    ∃ c w', w = c :: w' ∧ (c = 'g' ∨ c = 'B') := by
  cases hw with
  | token p run hp hne hrun =>
      have hheads : ∃ p', p = 'g' :: p' := by
        simp only [tokenPrefixes, List.mem_cons, List.not_mem_nil, or_false] at hp
        rcases hp with rfl | rfl | rfl | rfl | rfl <;> exact ⟨_, rfl⟩
      obtain ⟨p', rfl⟩ := hheads
      exact ⟨'g', p' ++ run, rfl, Or.inl rfl⟩
  | bearer spaces word hspaces hblank hword hplain => exact ⟨'B', _, rfl, Or.inr rfl⟩

/-- No known prefix continues another one. -/
theorem tokenPrefix_unique {p q cs : List Char} (hp : p ∈ tokenPrefixes) (hq : q ∈ tokenPrefixes)
    (hpcs : p <+: cs) (hqcs : q <+: cs) : p = q := by
  have hpairs : ∀ p ∈ tokenPrefixes, ∀ q ∈ tokenPrefixes, p <+: q → p = q := by decide
  rcases List.prefix_or_prefix_of_prefix hpcs hqcs with h | h
  · exact hpairs p hp q hq h
  · exact (hpairs q hq p hp h).symm

theorem takeWhile_ne_nil {f : Char → Bool} {run cs : List Char} (hne : run ≠ [])
    (hrun : ∀ c ∈ run, f c = true) (h : run <+: cs) : cs.takeWhile f ≠ [] := by
  obtain ⟨c, run, rfl⟩ := List.exists_cons_of_ne_nil hne
  obtain ⟨later, rfl⟩ := h
  rw [List.cons_append, List.takeWhile_cons_of_pos (hrun c List.mem_cons_self)]
  exact List.cons_ne_nil _ _

theorem tokenLike_of_token {p run cs : List Char} (hp : p ∈ tokenPrefixes) (hne : run ≠ [])
    (hrun : ∀ c ∈ run, isTokenChar c = true) (h : p ++ run <+: cs) : (tokenLike cs).isSome := by
  obtain ⟨later, rfl⟩ := h
  have hpcs : p <+: p ++ run ++ later := ⟨run ++ later, by rw [List.append_assoc]⟩
  have hfind : tokenPrefixes.find? (· <+: p ++ run ++ later) = some p := by
    cases hfound : tokenPrefixes.find? (· <+: p ++ run ++ later) with
    | none =>
        rw [List.find?_eq_none] at hfound
        exact absurd (decide_eq_true hpcs) (hfound p hp)
    | some q =>
        have hq := List.find?_some hfound
        rw [tokenPrefix_unique hp (List.mem_of_find?_eq_some hfound) hpcs (of_decide_eq_true hq)]
  have htake : (run ++ later).takeWhile isTokenChar ≠ [] :=
    takeWhile_ne_nil hne hrun (List.prefix_append run later)
  rw [tokenLike, matchedToken, hfind, Option.bind_some, List.append_assoc, List.drop_left]
  simp only [if_neg htake, Option.some_or, Option.isSome_some]

theorem tokenLike_of_bearer {spaces cs : List Char} {c : Char} (hne : spaces ≠ [])
    (hspaces : ∀ d ∈ spaces, isJsSpace d = true) (hc : isJsSpace c = false)
    (h : bearerWord ++ (spaces ++ [c]) <+: cs) : (tokenLike cs).isSome := by
  obtain ⟨later, rfl⟩ := h
  have hbearer : bearerWord <+: bearerWord ++ (spaces ++ [c]) ++ later :=
    ⟨spaces ++ [c] ++ later, (List.append_assoc _ _ _).symm⟩
  have hdrop : (bearerWord ++ (spaces ++ [c]) ++ later).drop bearerWord.length =
      spaces ++ c :: later := by
    rw [List.append_assoc, List.drop_left, List.append_assoc, List.singleton_append]
  have htake : (spaces ++ c :: later).takeWhile isJsSpace = spaces := by
    rw [List.takeWhile_append_of_pos hspaces,
      List.takeWhile_cons_of_neg (by rw [hc]; exact Bool.false_ne_true), List.append_nil]
  have hword : (c :: later).takeWhile (fun c => !isJsSpace c) ≠ [] := by
    rw [List.takeWhile_cons_of_pos (by rw [hc]; rfl)]
    exact List.cons_ne_nil _ _
  have hmatched : (matchedBearer (bearerWord ++ (spaces ++ [c]) ++ later)).isSome := by
    rw [matchedBearer, if_pos hbearer, hdrop, htake]
    simp only [List.drop_left, hne, hword, or_self, if_false, Option.isSome_some]
  rw [tokenLike, Option.isSome_or, hmatched, Bool.or_true]

/-- What matches begins with a token. -/
theorem exists_tokenLike {cs : List Char} (h : (tokenLike cs).isSome) :
    ∃ w, TokenLike w ∧ w <+: cs := by
  rw [tokenLike, Option.isSome_or, Bool.or_eq_true] at h
  rcases h with h | h
  · cases hfind : tokenPrefixes.find? (· <+: cs) with
    | none =>
        rw [matchedToken, hfind, Option.bind_none] at h
        cases h
    | some p =>
        rw [matchedToken, hfind, Option.bind_some] at h
        have hp := List.find?_some hfind
        rw [decide_eq_true_eq] at hp
        obtain ⟨later, rfl⟩ := hp
        rw [List.drop_left] at h
        have hne : later.takeWhile isTokenChar ≠ [] := by
          intro hnil
          simp [hnil] at h
        refine ⟨p ++ later.takeWhile isTokenChar, TokenLike.token p _
          (List.mem_of_find?_eq_some hfind) hne (fun c hc => List.mem_takeWhile_imp hc), ?_⟩
        exact (List.prefix_append_right_inj p).mpr (List.takeWhile_prefix _)
  · rw [matchedBearer] at h
    split at h
    · rename_i hbearer
      obtain ⟨later, rfl⟩ := hbearer
      rw [List.drop_left] at h
      simp only at h
      split at h
      · cases h
      · rename_i hnot
        rw [not_or] at hnot
        refine ⟨_, TokenLike.bearer _ _ hnot.1 (fun c hc => List.mem_takeWhile_imp hc) hnot.2
          (fun c hc => ?_), ?_⟩
        · have hplain := List.mem_takeWhile_imp hc
          rwa [Bool.not_eq_true'] at hplain
        · refine (List.prefix_append_right_inj bearerWord).mpr ?_
          have hsplit := List.takeWhile_append_dropWhile (p := isJsSpace) (l := later)
          have hdrop : later.drop (later.takeWhile isJsSpace).length =
              later.dropWhile isJsSpace :=
            calc later.drop (later.takeWhile isJsSpace).length
                = (later.takeWhile isJsSpace ++ later.dropWhile isJsSpace).drop
                    (later.takeWhile isJsSpace).length := by rw [hsplit]
              _ = later.dropWhile isJsSpace := List.drop_left
          rw [hdrop]
          conv_rhs => rw [← hsplit]
          exact (List.prefix_append_right_inj _).mpr (List.takeWhile_prefix _)
    · cases h

/-! ## What is left -/

/-- No token is left where tokens have been replaced. -/
theorem no_token_left (text : List Char) {w : List Char} (hw : TokenLike w) :
    ¬ w <:+: redact tokenLike redacted 0 text := by
  rintro ⟨before, behind, heq⟩
  have hv : w ++ behind <:+ redact tokenLike redacted 0 text :=
    ⟨before, by rw [← List.append_assoc, heq]⟩
  obtain ⟨c, w', hcons, hletter⟩ := hw.head
  have hc : c ∉ redacted := by
    rcases hletter with rfl | rfl <;> decide
  have hne : w ++ behind ≠ [] := by
    rw [hcons]
    exact List.cons_ne_nil _ _
  rcases suffix_redact_cases hv hne with ⟨rest, -, -, hnone, hfrom⟩ | ⟨m, later, hm, hmark, hfrom⟩
  · have hstands : w <+: redact tokenLike redacted 0 rest := by
      rw [← hfrom]
      exact List.prefix_append w behind
    have hfound : (tokenLike rest).isSome := by
      cases hw with
      | token p run hp hrunNe hrun =>
          refine tokenLike_of_token hp hrunNe hrun (prefix_of_redact ?_ hstands)
          rw [List.mem_append, not_or]
          refine ⟨?_, fun h => absurd (hrun _ h) (by decide)⟩
          have hplain : ∀ p ∈ tokenPrefixes, '[' ∉ p := by decide
          exact hplain p hp
      | bearer spaces word hspaces hblank hword hplain =>
          obtain ⟨x, word, rfl⟩ := List.exists_cons_of_ne_nil hword
          have hbracket : '[' ∉ bearerWord ++ spaces := by
            rw [List.mem_append, not_or]
            exact ⟨by decide, fun h => absurd (hblank _ h) (by decide)⟩
          have hshorter : bearerWord ++ spaces ++ [x] <+: redact tokenLike redacted 0 rest := by
            refine List.IsPrefix.trans ⟨word, ?_⟩ hstands
            simp
          -- behind the spaces the text goes on with this unit, or with a token
          obtain ⟨y, hy, hcase⟩ := next_of_redact hbracket hshorter
          have hyWord : isJsSpace y = false := by
            rcases hcase with rfl | hmatch
            · exact hplain y List.mem_cons_self
            · obtain ⟨later, rfl⟩ := hy
              rw [List.append_assoc, List.drop_left, List.singleton_append] at hmatch
              obtain ⟨w, hw, hwstands⟩ := exists_tokenLike hmatch
              obtain ⟨d, w', rfl, hd⟩ := hw.head
              rw [← (List.cons_prefix_cons.mp hwstands).1]
              rcases hd with rfl | rfl <;> decide
          rw [List.append_assoc] at hy
          exact tokenLike_of_bearer hspaces hblank hyWord hy
    rw [hnone] at hfound
    cases hfound
  · obtain ⟨d, m', rfl⟩ := List.exists_cons_of_ne_nil hm
    rw [hcons, List.cons_append, List.cons_append, List.cons.injEq] at hfrom
    refine hc (hmark.subset ?_)
    rw [hfrom.1]
    exact List.mem_cons_self

/-- A text without tokens stays as it is. -/
theorem redact_tokenLike_of_none {text : List Char} (h : ∀ w, TokenLike w → ¬ w <:+: text) :
    redact tokenLike redacted 0 text = text := by
  refine redact_of_none fun rest hrest _ => ?_
  cases hmatched : tokenLike rest with
  | none => rfl
  | some n =>
      obtain ⟨w, hw, hstands⟩ := @exists_tokenLike rest (by rw [hmatched]; rfl)
      exact absurd (hstands.isInfix.trans hrest.isInfix) (h w hw)

theorem redact_matchedText_of_none {secret text : List Char} (h : ¬ secret <:+: text) :
    redact (matchedText secret) redacted 0 text = text := by
  refine redact_of_none fun rest hrest _ => if_neg fun hstands => h ?_
  exact hstands.isInfix.trans hrest.isInfix

/-- The scrubbed text has neither the secret nor a token in it, and is not changed again. -/
theorem scrubSyncError_leavesNoSecret (err : Option (List Char)) (secret : List Char)
    (hlength : 11 ≤ secret.length) (hopen : '[' ∉ secret) (hclose : ']' ∉ secret) :
    ¬ secret <:+: scrubSyncError err (some secret) ∧
      (∀ w, TokenLike w → ¬ w <:+: scrubSyncError err (some secret)) ∧
      scrubSyncError (some (scrubSyncError err (some secret))) (some secret) =
        scrubSyncError err (some secret) := by
  have hne : secret ≠ [] := by
    refine List.length_pos_iff.mp ?_
    omega
  have hlonger : ['r', 'e', 'd', 'a', 'c', 't', 'e', 'd'].length < secret.length :=
    Nat.lt_of_lt_of_le (by decide) hlength
  simp only [scrubSyncError, Option.getD_some, scrubText_some hne]
  have hmessage : ¬ secret <:+: redact (matchedText secret) redacted 0
      (err.getD "Discovery sync failed".toList) := by
    refine not_infix_redact hopen hclose hlonger fun rest _ hnone hstands => ?_
    rw [matchedText, if_pos hstands] at hnone
    cases hnone
  have hsecret : ¬ secret <:+: redact tokenLike redacted 0 (redact (matchedText secret) redacted 0
      (err.getD "Discovery sync failed".toList)) := by
    refine not_infix_redact hopen hclose hlonger fun rest hrest _ hstands => hmessage ?_
    exact hstands.isInfix.trans hrest.isInfix
  have htokens := fun w (hw : TokenLike w) => no_token_left (redact (matchedText secret) redacted 0
    (err.getD "Discovery sync failed".toList)) hw
  refine ⟨hsecret, htokens, ?_⟩
  rw [redact_matchedText_of_none hsecret, redact_tokenLike_of_none htokens]

/-- Over `Bearer hunter2hunt`, with that secret. -/
theorem scrubSyncError_leavesNoSecret_bearer :
    ¬ "hunter2hunt".toList <:+:
        scrubSyncError (some "Bearer hunter2hunt".toList) (some "hunter2hunt".toList) :=
  (scrubSyncError_leavesNoSecret (some "Bearer hunter2hunt".toList) "hunter2hunt".toList
    (by decide) (by decide) (by decide)).1

end Assets
end Ctem
